import FederatedSparql.Endpoint.Registry
import FederatedSparql.Engine.Executor
import FederatedSparql.Engine.Pool
import FederatedSparql.Engine.QueryContext

/-!
Running the tasks of a query on a clock.

All threads take turns: one runs until it can go no further, and the next one in the order in which
they were woken follows.  Time stands still meanwhile and goes on to the next timer only when
nothing else can run.  What wants the results of the whole run is called main; it is asked first
whenever it was woken.
-/

namespace FederatedSparql

/-- The pools of a federation. -/
inductive PoolName where
  | join
  | union
deriving DecidableEq, Repr, Inhabited

/-- What a producer does next. -/
inductive Production (α : Type) where
  /-- Schedules further branches. -/
  | branches (rest : List (String × Work α))
  /-- Schedules a task for each item of the left. -/
  | nested (left : Cursor α) (right : α → Work α)
  /-- Waits for the first item of the left. -/
  | first (left : Cursor α) (blockSize : Nat) (right : α → List α → Work α)
  /-- Fills a block; `total` items have been scheduled before it. -/
  | block (left : Cursor α) (blockSize : Nat) (task : List α → Work α) (total : Nat)
      (filled : List α)
  /-- Waits for the tasks, at most until some time. -/
  | awaiting (left : Cursor α) (limit : Option Nat)

/-- What a thread does. -/
inductive Activity (α : Type) where
  /-- A worker without a job. -/
  | idle (pool : PoolName)
  | working (pool : PoolName) (job : Job α) (run : Run α)
  /-- A worker with a result for which there is no room yet. -/
  | sending (pool : PoolName) (job : Job α) (result : Cursor α)
  | producing (executor : Nat) (production : Production α)
  /-- Aborts the query at some time. -/
  | alarm (due : Nat)
  | finished

/-- A thread. -/
structure Thread (α : Type) where
  activity : Activity α
  /-- Whether the thread is to be ended when its turn comes. -/
  doomed : Bool := false

/-- Everything there is while a query runs. -/
structure Machine (α : Type) where
  now : Nat := 0
  registry : Registry := {}
  query : QueryContext := {}
  executors : Array (Executor α) := #[]
  join : Crew α := { pool := .create "join" 1 }
  union : Crew α := { pool := .create "union" 1 }
  threads : Array (Thread α) := #[]
  /-- Threads that can go on, in the order in which they were woken. -/
  ready : List Nat := []
  mainReady : Bool := false
  /-- Whom to wake when, in ascending order. -/
  timers : List (Nat × Waker) := []

/-- Computations on a machine. -/
abbrev Machine.Action (α β : Type) : Type := StateM (Machine α) β

namespace Machine

variable {α : Type}

/-! ### Turns -/

/-- Wakes a thread, or main. -/
def wake : Waker → Action α Unit
  | .main => modify fun m => { m with mainReady := true }
  | .thread t =>
    modify fun m => if m.ready.contains t then m else { m with ready := m.ready ++ [t] }

/-- Wakes a thread if there is one. -/
def wakeThread? : Option Nat → Action α Unit
  | some t => wake (.thread t)
  | none => pure ()

/-- Adds a timer behind those that are due before it or at the same time. -/
def insertTimer (t : Nat × Waker) : List (Nat × Waker) → List (Nat × Waker)
  | [] => [t]
  | s :: rest => if t.1 < s.1 then t :: s :: rest else s :: insertTimer t rest

/-- Asks to be woken at some time. -/
def wakeAt (due : Nat) (w : Waker) : Action α Unit :=
  modify fun m => { m with timers := insertTimer (due, w) m.timers }

/-- Starts a thread. -/
def spawn (a : Activity α) : Action α Nat := do
  let t := (← get).threads.size
  modify fun m => { m with threads := m.threads.push { activity := a } }
  wake (.thread t)
  return t

/-- Says what a thread does from now on. -/
def become (t : Nat) (a : Activity α) : Action α Unit :=
  modify fun m => { m with threads := m.threads.modify t fun s => { s with activity := a } }

/-- Lets a thread end when its turn comes. -/
def doom (t : Nat) : Action α Unit := do
  modify fun m => { m with threads := m.threads.modify t fun s => { s with doomed := true } }
  wake (.thread t)

/-! ### Parts of the machine -/

/-- Changes an executor. -/
def updateExecutor (id : Nat) (f : Executor α → Executor α) : Action α Unit :=
  modify fun m => { m with executors := m.executors.modify id f }

/-- Whether the branch of an executor is cancelled. -/
def isCancelled (m : Machine α) (e : Executor α) : Bool := m.query.isBranchCancelled e.branch

/-- The crew of a pool. -/
def crew (m : Machine α) : PoolName → Crew α
  | .join => m.join
  | .union => m.union

/-- Changes the crew of a pool. -/
def updateCrew (p : PoolName) (f : Crew α → Crew α) : Action α Unit :=
  modify fun m =>
    match p with
    | .join => { m with join := f m.join }
    | .union => { m with union := f m.union }

/-- Changes a pool. -/
def updatePool (p : PoolName) (f : Pool → Pool) : Action α Unit :=
  updateCrew p fun c => { c with pool := f c.pool }

/-- Wakes whoever wants the results of an executor. -/
def wakeConsumer (id : Nat) : Action α Unit := do
  match (← get).executors[id]? with
  | some e =>
    match e.consumer with
    | some w => wake w
    | none => pure ()
  | none => pure ()

/-! ### Cancellation -/

/-- The executor that a thread works for. -/
def executorOf? : Activity α → Option Nat
  | .working _ job _ => some job.executor
  | .sending _ job _ => some job.executor
  | .producing id _ => some id
  | _ => none

/-- Wakes the threads that work for some executors, and main. -/
def wakeWorkingFor (wanted : Nat → Bool) : Action α Unit := do
  let threads := (← get).threads
  for t in List.range threads.size do
    match threads[t]? with
    | some s => if (executorOf? s.activity).any wanted then wake (.thread t)
    | none => pure ()
  wake .main

/-- Cancels an executor. -/
def cancel (id : Nat) : Action α Unit := do
  match (← get).executors[id]? with
  | some e =>
    modify fun m => { m with query := m.query.cancelBranch e.branch }
    wakeWorkingFor (· == id)
  | none => pure ()

/-- Aborts the query. -/
def abortQuery : Action α Unit := do
  modify fun m => { m with query := m.query.abort }
  wakeWorkingFor fun _ => true

/-- Closes the query. -/
def closeQuery : Action α Unit := do
  modify fun m => { m with query := m.query.close }
  wakeWorkingFor fun _ => true

/-- Ends the production of an executor. -/
def endProduction (id : Nat) : Action α Unit := do
  updateExecutor id Executor.endProduction
  wakeConsumer id

/-- Records a failure of an executor, whose production ends. -/
def toss (id : Nat) (error : FedError) : Action α Unit := do
  match (← get).executors[id]? with
  | some e =>
    if e.closed then pure ()
    else
      updateExecutor id (·.toss error)
      wakeConsumer id
      cancel id
  | none => pure ()

/-! ### Closing -/

/-- Closes an executor, with all executors whose results it holds.  What an executor holds was
started later than itself, so the number of executors bounds the depth. -/
def closeExecutor : Nat → Nat → Action α Unit
  | 0, _ => pure ()
  | depth + 1, id => do
    match (← get).executors[id]? with
    | none => pure ()
    | some e =>
      updateExecutor id Executor.close
      unless e.closed do
        cancel id
        wakeConsumer id
      match e.producer with
      | some t => unless e.finished do doom t
      | none => pure ()
      for t in e.waiting do wake (.thread t)
      let holds := (e.current.map (·.held)).getD [] ++ heldByAll e.queue
      for inner in holds do closeExecutor depth inner

/-- Closes executors. -/
def closeAll (ids : List Nat) : Action α Unit := do
  let depth := (← get).executors.size
  for id in ids do closeExecutor depth id

/-- Gives up a cursor. -/
def discard (c : Cursor α) : Action α Unit := closeAll c.held

/-! ### Starting -/

/-- Starts an executor. -/
def startExecutor (firstOnly : Bool) (production : Production α) : Action α Nat := do
  let id := (← get).executors.size
  let (branch, query) := (← get).query.addBranch
  modify fun m => { m with
    query := query
    executors := m.executors.push { branch, firstOnly } }
  let t ← spawn (.producing id production)
  updateExecutor id fun e => { e with producer := some t }
  return id

/-- Makes a cursor of a feed: everything that has to run is started. -/
def openFeed [BEq α] : Feed α → Action α (Cursor α)
  | .rows xs => return .ofList xs
  | .outcomes xs => return .pipe (.outcomes xs)
  | .union firstOnly branches => do
    return .pipe (.executor (← startExecutor firstOnly (.branches branches)))
  | .nestedJoin left right => do
    let c ← openFeed left
    return .pipe (.executor (← startExecutor false (.nested c right)))
  | .boundJoin left blockSize right => do
    let c ← openFeed left
    return .pipe (.executor (← startExecutor false (.first c blockSize right)))
  | .map f source => do return (← openFeed source).map f
  | .filter keep source => do return (← openFeed source).filter keep
  | .distinct source => do return (← openFeed source).distinct
  | .slice offset limit source => do return (← openFeed source).slice offset limit
  | .optional left right keep => do
    return .pipe (.optional (← openFeed left) right keep [])
  | .deferred work => return .pipe (.deferred (.ready work))

/-- Gives a task of an executor to a pool. -/
def schedule (p : PoolName) (id : Nat) (name : String) (work : Work α) :
    Action α (Except FedError Unit) := do
  let m ← get
  match (m.crew p).pool.checkAccepting, m.executors[id]? with
  | .error e, _ => return .error e
  | .ok (), none => return .ok ()
  | .ok (), some e =>
    match m.query.register (some e.branch) with
    | .error error => return .error error
    | .ok (task, query) =>
      modify fun m => { m with query := query }
      updateExecutor id Executor.addTask
      updateCrew p fun c => { c with
        pool := c.pool.countScheduled
        jobs := c.jobs ++ [{ executor := id, task, name, work }] }
      wakeThread? (m.crew p).line.head?
      return .ok ()

/-- Notes that a job is over, whatever became of it. -/
def finishJob (job : Job α) : Action α Unit := do
  modify fun m => { m with query := m.query.deregister job.task }
  updateExecutor job.executor Executor.finishTask
  match (← get).executors[job.executor]? with
  | some e =>
    if e.pending = 0 then
      wakeThread? e.producer
      wake .main
  | none => pure ()

end Machine

end FederatedSparql
