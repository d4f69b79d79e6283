import FederatedSparql.Proofs.Machine.AtHand

/-!
Runs of an executor in which anyone may take the next step.

A `Setting` is what an executor is started with.  In a run (`Setting.play`) a schedule says at each
moment who takes a step: a thread, or the consumer, which pulls once; or time passes, or the run is
disturbed from outside.  A step of a thread is one step of `Machine.stepThread`, so that a thread
that goes on until it can go no further is one case among many.  Threads and the consumer may also
step when nobody has woken them.

What a run does is noted in a log: which tasks have had their results queued, and which have failed.
`Setting.delivered` is what a consumer is to get by a log.
-/

namespace FederatedSparql

open Machine

variable {α : Type}

/-! ### Steps and what is noted of them -/

/-- What happens at a moment of a run. -/
inductive Step where
  /-- A thread takes a step. -/
  | thread (t : Nat)
  /-- The consumer pulls once. -/
  | consumer
  | time (ms : Nat)
  /-- The query is aborted. -/
  | abort
  /-- The pool takes no more jobs. -/
  | stopPool
  /-- A worker is to end when its turn comes. -/
  | interrupt (t : Nat)
  /-- Jobs that nobody has taken are given up. -/
  | discardJobs
deriving DecidableEq, Repr

/-- Nothing from outside disturbs the run. -/
def Step.Quiet : Step → Prop
  | .thread _ => True
  | .consumer => True
  | .time _ => True
  | _ => False

/-- What is noted of a run; tasks are numbered from one in the order of the branches. -/
inductive Event where
  /-- The result of a task has been queued. -/
  | queued (task : Nat)
  /-- A task has failed, and that was the first failure. -/
  | failed (task : Nat)
  /-- A task could not be given to the pool, and that was the first failure. -/
  | refused
deriving DecidableEq, Repr

/-- The job that is in hand. -/
def Activity.job? : Activity α → Option (Job α)
  | .working _ job _ => some job
  | .sending _ job _ => some job
  | _ => none

/-- Whether a thread that does this is a worker of a pool. -/
def Activity.isWorkers : Activity α → Bool
  | .idle _ => true
  | .working .. => true
  | .sending .. => true
  | _ => false

namespace Machine

/-- What a thread does. -/
def activity? (m : Machine α) (t : Nat) : Option (Activity α) := m.threads[t]?.map (·.activity)

/-- The number of results that are queued. -/
def queueLength (m : Machine α) : Nat := (m.executors[0]?.map (·.queue.length)).getD 0

/-- Whether a failure has been recorded that is not delivered yet. -/
def hasFailed (m : Machine α) : Bool := (m.executors[0]?.bind (·.error)).isSome

/-- What a thread has done, to tell from the machine before and after its step. -/
def eventsOf (m m' : Machine α) (t : Nat) : List Event :=
  let tossed := !m.hasFailed && m'.hasFailed
  let queued := m'.queueLength - m.queueLength
  match (m.activity? t).bind Activity.job? with
  | some job =>
    List.replicate queued (.queued job.task) ++ if tossed then [.failed job.task] else []
  | none => if tossed then [.refused] else []

/-- Gives up the jobs that nobody has taken. -/
def discardJobs : Action α Unit := do
  let jobs := (← get).union.jobs
  updateCrew .union fun c => { c with jobs := [] }
  for job in jobs do finishJob job

end Machine

/-! ### Runs -/

/-- A moment of a run. -/
structure Moment (α : Type) where
  machine : Machine α
  /-- What the consumer pulls. -/
  cursor : Cursor α
  /-- What the consumer has got. -/
  received : List (Except FedError α) := []
  /-- Whether the consumer has been told that there is no more. -/
  ended : Bool := false
  log : List Event := []

namespace Moment

variable [BEq α]

/-- The consumer takes note of what it has pulled. -/
def note (x : Moment α) : Pulled α → Moment α
  | .item v => { x with received := x.received ++ [.ok v] }
  | .failure e => { x with received := x.received ++ [.error e] }
  | .done => { x with ended := true }
  | _ => x

/-- What a step makes of a moment. -/
def step (x : Moment α) : Step → Moment α
  | .thread t =>
    let m := after (stepThread t) x.machine
    { x with machine := m, log := x.log ++ eventsOf x.machine m t }
  | .consumer =>
    let (r, c) := value (pull .main x.cursor) x.machine
    { x with machine := after (pull .main x.cursor) x.machine, cursor := c }.note r
  | .time ms => { x with machine := { x.machine with now := x.machine.now + ms } }
  | .abort => { x with machine := after abortQuery x.machine }
  | .stopPool => { x with machine := after (stopIntake .union) x.machine }
  | .interrupt t =>
    if (x.machine.activity? t).any Activity.isWorkers then
      { x with machine := after (doom t) x.machine }
    else x
  | .discardJobs => { x with machine := after Machine.discardJobs x.machine }

end Moment

/-- What an executor is started with. -/
structure Setting (α : Type) where
  registry : Registry := {}
  text : String := ""
  form : QueryForm := .select
  now : Nat := 0
  timeout : Option Nat := none
  /-- The name of the pool. -/
  pool : String := "union"
  workers : Nat
  /-- The branches of a union, of which each becomes a task. -/
  tasks : List (String × Work α)

namespace Setting

variable [DecidableEq α] (x : Setting α)

/-- The machine before anything is started. -/
def machine : Machine α where
  now := x.now
  registry := x.registry
  query := .start x.text x.form x.now x.timeout
  union := { pool := .create x.pool x.workers }

/-- Starts the pool and the executor. -/
def opening : Action α (Cursor α) := do
  startPool .union
  openFeed (.union false x.tasks)

/-- The moment at which a run starts. -/
def start : Moment α where
  machine := after x.opening x.machine
  cursor := value x.opening x.machine

/-- The moment of a run before the step of some number. -/
def play (x : Setting α) (schedule : Nat → Step) : Nat → Moment α
  | 0 => x.start
  | n + 1 => (x.play schedule n).step (schedule n)

/-- No deadline passes in a run. -/
def InTime (schedule : Nat → Step) : Prop :=
  ∀ n, let m := (x.play schedule n).machine; m.query.isExpired m.now = false

/-- Everyone keeps taking steps, and time keeps passing as long as someone waits for it. -/
structure Fair (schedule : Nat → Step) : Prop where
  thread : ∀ t n, ∃ k, n ≤ k ∧ schedule k = .thread t
  consumer : ∀ n, ∃ k, n ≤ k ∧ schedule k = .consumer
  time : ∀ t n job run due p,
    (x.play schedule n).machine.activity? t = some (.working p job run) →
    run.due? = some due → ∃ k, n ≤ k ∧ due ≤ (x.play schedule k).machine.now

/-! ### What is to be delivered -/

/-- The items of a feed at hand, or the failure of a program of a name. -/
def outcome (name : String) (ending : Except (Option FedError) (Feed α)) :
    Except FedError (List α) :=
  match ending with
  | .ok feed => .ok (feed.arrivals x.registry.answers).items
  | .error e => .error (e.getD (.internalScheduling (.taskPanicked name)))

/-- What the task of a number comes to: all its items, or its failure. -/
def result (k : Nat) : Except FedError (List α) :=
  match x.tasks[k - 1]? with
  | some (name, work) => x.outcome name (work.ending x.registry.answers)
  | none => .ok []

/-- The items of a task. -/
def rows (k : Nat) : List α := (x.result k).toOption.getD []

/-- The failure of a task, as it is delivered. -/
def failure (k : Nat) : List (Except FedError α) :=
  match x.result k with
  | .ok _ => []
  | .error e => [.error e]

/-- What is to be delivered by a log: the items of the tasks whose results have been queued, in that
order, up to the first failure, which follows. -/
def delivered (x : Setting α) : List Event → List (Except FedError α)
  | [] => []
  | .queued k :: rest => (x.rows k).map .ok ++ x.delivered rest
  | .failed k :: _ => x.failure k
  | .refused :: _ => [.error (.internalScheduling (.schedulerShutDown x.pool))]

end Setting

end FederatedSparql
