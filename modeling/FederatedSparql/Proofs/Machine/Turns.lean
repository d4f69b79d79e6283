import FederatedSparql.Engine.Machine.Thread
import FederatedSparql.Proofs.Machine.Interleaving

/-!
What a step of a thread, and a pull of the consumer, can make of a scene.

`Scene.Turns` and `Scene.Pulls` list all there is; `Scene.leads_stepThread` and `Scene.leads_pull`
say that the steps of the machine are among it.  What is to be shown of steps is shown of these two
relations, without looking at the programs again.
-/

namespace FederatedSparql

open Machine

variable {α : Type}

/-- Takes a thread out of those that wait for room. -/
def Executor.leave (t : Nat) (e : Executor α) : Executor α :=
  { e with waiting := e.waiting.filter (· != t) }

/-- A result is at hand, and no failure is among its items. -/
def Cursor.Holds [BEq α] (c : Cursor α) (xs : List α) : Prop := c.AtHand ∧ c.arrivals = .ofList xs

namespace Scene

/-! ### Changes of a scene -/

section Changes

variable (s : Scene α) (t : Nat)

/-- The line, with a thread in it. -/
def lined : List Nat := if s.line.contains t then s.line else s.line ++ [t]

theorem filter_lined : (s.lined t).filter (· != t) = s.line.filter (· != t) := by
  unfold lined
  split <;> simp

/-- Takes a thread out of the line. -/
def leaveLine : Scene α := { s with line := s.line.filter (· != t) }

/-- A worker is free again. -/
def endJob : Scene α := (s.update Executor.finishTask).become t (.idle .union)

/-- Records a failure. -/
def toss (error : FedError) : Scene α :=
  if s.executor.closed then s else (s.update (·.toss error)).cancel

/-- A producer is at its end. -/
def endProducing : Scene α := (s.update Executor.endProduction).become t .finished

/-- Closes the executor, which cancels its branch; its producer is to stop. -/
def close : Scene α :=
  let s' := (s.update Executor.close).cancel
  match s.executor.producer with
  | some t => s'.doom t
  | none => s'

/-- The consumer is at the end. -/
def finish : Scene α := (s.update fun e => { e with error := none }).close

theorem finish_eq (s : Scene α) :
    s.finish = (s.update fun e => ({ e with error := none } : Executor α).close).cancel ∨
      ∃ t, s.finish =
        ((s.update fun e => ({ e with error := none } : Executor α).close).cancel).doom t := by
  cases hproducer : s.executor.producer with
  | none => exact .inl (by simp [finish, close, update, cancel, hproducer])
  | some t => exact .inr ⟨t, by simp [finish, close, update, cancel, hproducer]⟩

theorem closed_finish (s : Scene α) : s.finish.executor.closed = true := by
  obtain heq | ⟨t, heq⟩ := s.finish_eq <;> rw [heq] <;> rfl

/-- Registers a task and gives it to the pool. -/
def schedule (name : String) (work : Work α) : Scene α :=
  { s.update Executor.addTask with
    registered := s.registered + 1
    jobs := s.jobs ++ [{ executor := 0, task := s.registered + 1, name, work }] }

end Changes

/-- A thread that goes on with what it does leaves everything as it is. -/
theorem become_eq_self {s : Scene α} {t : Nat} {a : Activity α} {doomed : Bool}
    (ht : s.threads[t]? = some ⟨a, doomed⟩) : s.become t a = s := by
  have : s.threads.modify t (fun th => { th with activity := a }) = s.threads := by
    refine List.ext_getElem? fun i => ?_
    rw [List.getElem?_modify]
    split
    · next h => subst h; simp [ht]
    · simp
  rw [become, this]

/-! ### What threads can do -/

/-- A job is one of the executor's tasks. -/
def HasJob (s : Scene α) (job : Job α) : Prop :=
  job.executor = 0 ∧ 1 ≤ job.task ∧ job.task ≤ s.registered

/-- What a thread does, it does for the executor. -/
def Employs (s : Scene α) : Activity α → Prop
  | .idle p => p = .union
  | .working p job run => p = .union ∧ s.HasJob job ∧ run.Alone
  | .sending p job c => p = .union ∧ s.HasJob job ∧ c.AtHand
  | .producing id production => id = 0 ∧
      ((∃ rest, production = .branches rest) ∨ production = .awaiting .empty s.deadline)
  | .alarm _ => False
  | .finished => True

/-- A thread cannot go on for now, or not at all. -/
def Rests (s : Scene α) (t : Nat) : Prop :=
  match s.threads[t]? with
  | none => True
  | some ⟨activity, true⟩ => activity = .finished
  | some ⟨.idle _, false⟩ =>
    t ∈ s.line ∧ (s.line.head? ≠ some t ∨ s.jobs = [] ∧ s.accepting = true)
  | some ⟨.working _ _ run, false⟩ => s.cancelled = false ∧ ∃ due, run.due? = some due ∧ s.now < due
  | some ⟨.sending .., false⟩ => s.executor.admissionOfWaiting s.cancelled t = .waits
  | some ⟨.producing _ (.awaiting ..), false⟩ => s.cancelled = false ∧ s.executor.pending ≠ 0
  | some ⟨.producing .., false⟩ => False
  | some ⟨_, false⟩ => True

/-- What a step of a thread can make of a scene. -/
inductive Turns [DecidableEq α] (s : Scene α) (t : Nat) : Scene α → Prop
  | rests (h : s.Rests t) : Turns s t s
  /-- A worker without a job waits in the line. -/
  | linesUp (ht : s.threads[t]? = some ⟨.idle .union, false⟩) (hline : t ∉ s.line) :
      Turns s t { s with line := s.line ++ [t] }
  | takes {job : Job α} {rest : List (Job α)} (ht : s.threads[t]? = some ⟨.idle .union, false⟩)
      (hjobs : s.jobs = job :: rest) :
      Turns s t
        ({ s.leaveLine t with jobs := rest }.become t (.working .union job (.ready job.work)))
  | retires (ht : s.threads[t]? = some ⟨.idle .union, false⟩) (haccepting : s.accepting = false) :
      Turns s t ((s.leaveLine t).become t .finished)
  /-- A cancelled task goes no further. -/
  | cancels {job : Job α} {run : Run α}
      (ht : s.threads[t]? = some ⟨.working .union job run, false⟩) (hc : s.cancelled = true) :
      Turns s t (s.endJob t)
  | runs {job : Job α} {run next : Run α}
      (ht : s.threads[t]? = some ⟨.working .union job run, false⟩) (hc : s.cancelled = false)
      (halone : next.Alone) (hending : next.ending s.answers = run.ending s.answers)
      (hsize : next.size s.answers < run.size s.answers) :
      Turns s t (s.become t (.working .union job next))
  | drops {job : Job α} {run : Run α} {c : Cursor α}
      (ht : s.threads[t]? = some ⟨.working .union job run, false⟩) (hc : s.cancelled = false)
      (hrun : run.Follows s (.done c))
      (hadmission : s.executor.admission s.cancelled c = .dropped) : Turns s t (s.endJob t)
  | queues {job : Job α} {run : Run α} {c : Cursor α}
      (ht : s.threads[t]? = some ⟨.working .union job run, false⟩) (hc : s.cancelled = false)
      (hrun : run.Follows s (.done c))
      (hadmission : s.executor.admission s.cancelled c = .queued) :
      Turns s t ((s.update (·.push c)).endJob t)
  /-- A worker waits for room for a result. -/
  | holds {job : Job α} {run : Run α} {c : Cursor α}
      (ht : s.threads[t]? = some ⟨.working .union job run, false⟩) (hc : s.cancelled = false)
      (hrun : run.Follows s (.done c))
      (hadmission : s.executor.admission s.cancelled c = .waits) :
      Turns s t
        ((s.update fun e => { e with waiting := e.waiting ++ [t] }).become t
          (.sending .union job c))
  | fails {job : Job α} {run : Run α} {e : Option FedError}
      (ht : s.threads[t]? = some ⟨.working .union job run, false⟩) (hc : s.cancelled = false)
      (hrun : run.ending s.answers = .error e) :
      Turns s t
        ((s.toss (e.getD (.internalScheduling (.taskPanicked job.name)))).endJob t)
  | givesUp {job : Job α} {c : Cursor α}
      (ht : s.threads[t]? = some ⟨.sending .union job c, false⟩)
      (hadmission : s.executor.admissionOfWaiting s.cancelled t = .dropped) :
      Turns s t ((s.update (Executor.leave t)).endJob t)
  | sends {job : Job α} {c : Cursor α}
      (ht : s.threads[t]? = some ⟨.sending .union job c, false⟩)
      (hadmission : s.executor.admissionOfWaiting s.cancelled t = .queued) :
      Turns s t ((s.update fun e => (e.push c).leave t).endJob t)
  /-- Production ends when the branch is cancelled. -/
  | halts {production : Production α}
      (ht : s.threads[t]? = some ⟨.producing 0 production, false⟩) (hc : s.cancelled = true) :
      Turns s t (s.endProducing t)
  | schedules {name : String} {work : Work α} {rest : List (String × Work α)}
      (ht : s.threads[t]? = some ⟨.producing 0 (.branches ((name, work) :: rest)), false⟩)
      (hc : s.cancelled = false) (haccepting : s.accepting = true) :
      Turns s t ((s.schedule name work).become t (.producing 0 (.branches rest)))
  /-- The pool takes no more jobs. -/
  | isRefused {task : String × Work α} {rest : List (String × Work α)}
      (ht : s.threads[t]? = some ⟨.producing 0 (.branches (task :: rest)), false⟩)
      (hc : s.cancelled = false) (haccepting : s.accepting = false) :
      Turns s t ((s.toss (.internalScheduling (.schedulerShutDown s.pool))).endProducing t)
  | awaits (ht : s.threads[t]? = some ⟨.producing 0 (.branches []), false⟩)
      (hc : s.cancelled = false) :
      Turns s t (s.become t (.producing 0 (.awaiting .empty s.deadline)))
  | completes {limit : Option Nat}
      (ht : s.threads[t]? = some ⟨.producing 0 (.awaiting .empty limit), false⟩)
      (hc : s.cancelled = false) (hpending : s.executor.pending = 0) :
      Turns s t (s.endProducing t)
  /-- An interrupted worker leaves the line. -/
  | leavesLine (ht : s.threads[t]? = some ⟨.idle .union, true⟩) :
      Turns s t ((s.become t .finished).leaveLine t)
  | abandons {job : Job α} {run : Run α}
      (ht : s.threads[t]? = some ⟨.working .union job run, true⟩) :
      Turns s t ((s.become t .finished).update Executor.finishTask)
  | abandonsResult {job : Job α} {c : Cursor α}
      (ht : s.threads[t]? = some ⟨.sending .union job c, true⟩) :
      Turns s t (((s.become t .finished).update (Executor.leave t)).update Executor.finishTask)
  | stops {production : Production α}
      (ht : s.threads[t]? = some ⟨.producing 0 production, true⟩) :
      Turns s t (s.become t .finished)

/-- What a pull of the consumer can come to, and what it makes of a scene. -/
inductive Pulls [BEq α] (s : Scene α) : Pulled α → Scene α → Prop
  | isOver (hfinished : s.executor.finished = true) : Pulls s .done s
  | passes {c c' : Cursor α} {x : α} (hfinished : s.executor.finished = false)
      (hcurrent : s.executor.current = some c) (hc : c'.AtHand)
      (harrivals : c.arrivals = .ok x :: c'.arrivals) (hsize : c'.size < c.size) :
      Pulls s (.item x) (s.update fun e => { e with current := some c' })
  | getsOn {c c' : Cursor α} (hfinished : s.executor.finished = false)
      (hcurrent : s.executor.current = some c) (hc : c'.AtHand)
      (harrivals : c.arrivals = c'.arrivals) (hsize : c'.size < c.size) :
      Pulls s .progress (s.update fun e => { e with current := some c' })
  | empties {c : Cursor α} (hfinished : s.executor.finished = false)
      (hcurrent : s.executor.current = some c) (harrivals : c.arrivals = []) :
      Pulls s .progress (s.update fun e => { e with current := none })
  | opens {c : Cursor α} {rest : List (Cursor α)} (hfinished : s.executor.finished = false)
      (hcurrent : s.executor.current = none) (hqueue : s.executor.queue = c :: rest) :
      Pulls s .progress (s.update fun e => { e with current := some c, queue := rest })
  | fails {e : FedError} (hfinished : s.executor.finished = false)
      (hcurrent : s.executor.current = none) (hexhausted : s.executor.isExhausted = true)
      (herror : s.executor.error = some e) : Pulls s (.failure e) s.finish
  | ends (hfinished : s.executor.finished = false)
      (hcurrent : s.executor.current = none) (hexhausted : s.executor.isExhausted = true)
      (herror : s.executor.error = none) : Pulls s .done s.finish
  | waits (hfinished : s.executor.finished = false) (hcurrent : s.executor.current = none)
      (hqueue : s.executor.queue = []) (hexhausted : s.executor.isExhausted = false) :
      Pulls s .wait (s.update fun e => { e with consumer := some .main })

/-! ### Steps of workers -/

/-- What the steps of a machine rely on. -/
structure Sound [BEq α] (s : Scene α) : Prop where
  employs : ∀ (t : Nat) th, s.threads[t]? = some th → s.Employs th.activity
  inTime : s.InTime
  firstOnly : s.executor.firstOnly = false
  queue : ∀ c ∈ s.executor.queue, ∃ xs, c.Holds xs
  current : ∀ c, s.executor.current = some c → ∃ xs, c.Holds xs
  cancelled : s.executor.closed = true → s.cancelled = true
  finished : s.executor.closed = true → s.executor.finished = true

variable {s : Scene α} {t : Nat}

theorem gives_leaveLine (s : Scene α) (t : Nat) :
    s.Gives (Machine.leaveLine .union t) () (s.leaveLine t) :=
  (gives_updateLine s fun l => l.filter (· != t)).seq
    (Gives.of_get fun _ _ => gives_wakeThread? _ _)

theorem gives_endJob (s : Scene α) (t : Nat) {job : Job α} (hjob : job.executor = 0) :
    s.Gives (Machine.endJob .union t job) .goesOn (s.endJob t) :=
  (gives_finishJob s hjob).seq ((gives_become _ t _).seq (Gives.of_pure _))

theorem gives_closeAll_nil (s : Scene α) : s.Gives (closeAll []) () s :=
  Gives.of_get fun _ _ => Gives.of_pure ()

theorem gives_discard {c : Cursor α} (hc : c.AtHand) : s.Gives (discard c) () s := by
  show s.Gives (closeAll c.held) () s
  rw [hc.held_eq_nil]
  exact gives_closeAll_nil s

theorem gives_tossAny (s : Scene α) (e : FedError) : s.Gives (Machine.toss 0 e) () (s.toss e) := by
  unfold Scene.toss
  cases h : s.executor.closed with
  | true => exact gives_toss_of_closed s h e
  | false => exact gives_toss s h e

/-- An executor that holds no other is closed by itself. -/
theorem gives_closeAll (hfinished : s.executor.finished = false)
    (hclosed : s.executor.closed = false) (hcurrent : s.executor.current = none)
    (hqueue : s.executor.queue = []) : s.Gives (closeAll [0]) () s.close := by
  refine Gives.of_get fun m hm => ?_
  rw [hm.executors]
  show s.Gives (do closeExecutor (0 + 1) 0; pure ()) () s.close
  refine Gives.seq (t := s.close) (b := ()) ?_ (Gives.of_pure ())
  refine Gives.of_get fun m hm => ?_
  simp only [hm.getElem?_executors, hclosed, hfinished, hcurrent, hqueue, Bool.false_eq_true,
    if_false]
  refine (gives_updateExecutor s (f := Executor.close) fun _ => rfl).seq ?_
  refine (gives_cancel _).seq ((gives_wakeConsumer _).seq ?_)
  have rest : ∀ s' : Scene α, s'.Gives (do
      for t in s.executor.waiting do wake (.thread t)
      for inner in (none : Option (List Nat)).getD [] ++ heldByAll ([] : List (Cursor α)) do
        closeExecutor 0 inner) () s' := fun s' => by
    refine Gives.seq (t := s') (b := PUnit.unit) (gives_forIn _ fun t _ => ?_) (Gives.of_pure ())
    exact (gives_wake s' _).seq (Gives.of_pure _)
  cases hproducer : s.executor.producer with
  | some t =>
    have hclose : s.close = (s.update Executor.close).cancel.doom t := by
      simp only [close, hproducer]
    rw [hclose]
    exact (gives_doom _ t).seq (rest _)
  | none =>
    have hclose : s.close = (s.update Executor.close).cancel := by simp only [close, hproducer]
    rw [hclose]
    exact rest _

/-- A producer that is at its end without a failure. -/
theorem gives_endProducer_ok (hs : s.InTime) :
    s.Gives (endProducer t 0 .empty (.ok ())) .ends (s.endProducing t) := by
  refine Gives.of_get fun m hm => ?_
  have htimeout : m.query.checkTimeout m.now = .ok () := by
    simp [QueryContext.checkTimeout, isExpired_eq_false hm hs]
  simp only [Except.bind, htimeout]
  exact (gives_endProduction s).seq ((gives_become _ t _).seq
    ((gives_discard (c := .empty) trivial).seq (Gives.of_pure _)))

theorem gives_endProducer_error (e : FedError) :
    s.Gives (endProducer t 0 .empty (.error e)) .ends ((s.toss e).endProducing t) := by
  refine Gives.of_get fun m hm => ?_
  simp only [Except.bind]
  exact (gives_tossAny s e).seq ((gives_endProduction _).seq ((gives_become _ t _).seq
    ((gives_discard (c := .empty) trivial).seq (Gives.of_pure _))))

theorem gives_awaitTasks (hs : s.InTime) :
    s.Gives (awaitTasks t 0 .empty) .goesOn
      (s.become t (.producing 0 (.awaiting .empty s.deadline))) := by
  refine Gives.of_get fun m hm => ?_
  have hlimit : (m.query.remaining? m.now).map (m.now + ·) = s.deadline := by
    rw [QueryContext.remaining?, hm.deadline, hm.now]
    cases h : s.deadline with
    | none => rfl
    | some d =>
      have := hs d h
      simp
      omega
  simp only [hlimit]
  have goesOn : s.Gives (do
      Machine.become t (.producing 0 (.awaiting .empty s.deadline))
      return Turn.goesOn) .goesOn (s.become t (.producing 0 (.awaiting .empty s.deadline))) :=
    (gives_become s t _).seq (Gives.of_pure _)
  split
  · split
    · exact (gives_wakeAt s _ _).seq goesOn
    · exact goesOn
  · exact goesOn

/-- A task is registered and its job given to the pool, if the pool takes it. -/
theorem gives_schedule (hc : s.cancelled = false) (haccepting : s.accepting = true)
    (name : String) (work : Work α) :
    s.Gives (Machine.schedule .union 0 name work) (.ok ()) (s.schedule name work) := by
  refine Gives.of_get fun m hm => ?_
  simp only [crew, Pool.checkAccepting, hm.accepting, haccepting, if_true, hm.getElem?_executors,
    QueryContext.register, QueryContext.checkAborted, hm.aborted_eq_false hc, Bool.false_eq_true,
    if_false]
  refine Gives.seq (t := { s with registered := s.registered + 1 })
    (Gives.of_modify fun m' hm' => ?_) ?_
  · refine { hm' with
      deadline := hm.deadline
      cancelled := hm.cancelled
      aborted := fun h => absurd h Bool.false_ne_true
      registered := by simp [hm.registered]
      tasks := ?_ }
    intro task htask
    obtain htask | rfl := Array.mem_push.1 htask
    · exact hm.tasks task htask
    · exact ⟨rfl, fun h => absurd h Bool.false_ne_true⟩
  refine (gives_updateExecutor _ (f := Executor.addTask) fun _ => rfl).seq ?_
  refine Gives.seq (t := s.schedule name work) (Gives.of_modify fun m' hm' => ?_) ?_
  · exact { hm' with jobs := by simp [hm'.jobs, Scene.schedule, Scene.update, hm.registered] }
  exact (gives_wakeThread? _ _).seq (Gives.of_pure _)

theorem gives_schedule_refused (haccepting : s.accepting = false) (name : String) (work : Work α) :
    s.Gives (Machine.schedule .union 0 name work)
      (.error (.internalScheduling (.schedulerShutDown s.pool))) s := by
  refine Gives.of_get fun m hm => ?_
  simp only [crew, Pool.checkAccepting, hm.accepting, haccepting, Bool.false_eq_true, if_false,
    hm.pool]
  exact Gives.of_pure _

/-! ### Steps from outside -/

/-- Gives up the jobs that nobody has taken. -/
def discardJobs (s : Scene α) : Scene α :=
  { s.update fun e => { e with pending := e.pending - s.jobs.length } with jobs := [] }

/-- What time, and who disturbs a run, make of a scene. -/
inductive Outside (s : Scene α) : Step → Scene α → Prop
  | time (ms : Nat) : Outside s (.time ms) { s with now := s.now + ms }
  | abort : Outside s .abort s.cancel
  | stopPool : Outside s .stopPool { s with accepting := false }
  | interrupt {t : Nat} {th : Thread α} (ht : s.threads[t]? = some th)
      (hworker : th.activity.isWorkers = true) : Outside s (.interrupt t) (s.doom t)
  | misses (t : Nat) : Outside s (.interrupt t) s
  | discardJobs : Outside s .discardJobs s.discardJobs

theorem leads_stopIntake (s : Scene α) :
    s.Leads (stopIntake .union) fun _ s' => s' = { s with accepting := false } := by
  refine Leads.of_get fun m hm => ?_
  refine Gives.bind (t := { s with accepting := false }) (b := ())
    (Gives.of_modify fun m hm => ?_) ?_
  · exact { hm with accepting := rfl }
  · exact (gives_wakeThread? _ _).bind (Leads.of_pure rfl)

theorem gives_discardJobs (s : Scene α) (hjobs : ∀ job ∈ s.jobs, job.executor = 0) :
    s.Gives Machine.discardJobs () s.discardJobs := by
  have finish (jobs : List (Job α)) (u : Scene α) (h : ∀ job ∈ jobs, job.executor = 0) :
      u.Gives (forIn jobs PUnit.unit fun job _ => do finishJob job; pure (.yield PUnit.unit))
        PUnit.unit (u.update fun e => { e with pending := e.pending - jobs.length }) := by
    induction jobs generalizing u with
    | nil => exact Gives.of_pure _
    | cons job jobs ih =>
      have hpending : (u.update fun e => { e with pending := e.pending - (job :: jobs).length }) =
          (u.update Executor.finishTask).update
            fun e => { e with pending := e.pending - jobs.length } := by
        simp [update, Executor.finishTask, Nat.sub_sub, Nat.add_comm]
      rw [List.forIn_cons, hpending]
      refine Gives.seq (b := .yield PUnit.unit)
        ((gives_finishJob u (h job (by simp))).seq (Gives.of_pure _)) ?_
      exact ih _ fun job hjob => h job (by simp [hjob])
  refine Gives.of_get fun m hm => ?_
  simp only [hm.jobs]
  exact (gives_updateJobs s fun _ => []).seq
    ((finish s.jobs { s with jobs := [] } hjobs).seq (Gives.of_pure ()))

variable [DecidableEq α]

/-- A worker for which there is nothing to do waits in the line. -/
theorem turns_lined (ht : s.threads[t]? = some ⟨.idle .union, false⟩)
    (h : t ∈ s.line → s.line.head? ≠ some t ∨ s.jobs = [] ∧ s.accepting = true) :
    s.Turns t { s with line := s.lined t } := by
  by_cases hline : t ∈ s.line
  · have hsame : s.lined t = s.line := by simp [lined, hline]
    rw [hsame]
    exact .rests (by simpa [Rests, ht] using ⟨hline, h hline⟩)
  · have happend : s.lined t = s.line ++ [t] := by simp [lined, hline]
    rw [happend]
    exact .linesUp ht hline

theorem leads_stepIdle (ht : s.threads[t]? = some ⟨.idle .union, false⟩) :
    s.Leads (stepIdle .union t) fun _ s' => s.Turns t s' := by
  have hlined : s.Gives (updateCrew .union fun c =>
      if c.line.contains t then c else { c with line := c.line ++ [t] }) ()
      { s with line := s.lined t } := by
    refine Gives.of_modify fun m hm => ?_
    dsimp only [lined]
    rw [hm.line]
    split
    · exact { hm with line := hm.line }
    · exact { hm with line := by simp }
  have hsame : t ∈ s.line → s.lined t = s.line := fun h => by simp [lined, h]
  refine hlined.bind (Leads.of_get fun m hm => ?_)
  dsimp only [crew]
  rw [hm.line, hm.jobs, hm.accepting]
  split
  · next hhead =>
    exact Leads.of_pure (turns_lined ht fun h => .inl (by simpa [hsame h] using hhead))
  · split
    · next job rest hjobs =>
      refine (gives_updateJobs _ fun _ => rest).bind ((gives_leaveLine _ t).bind
        ((gives_become _ t _).bind (Leads.of_pure ?_)))
      have := Turns.takes ht hjobs
      simpa [leaveLine, filter_lined] using this
    · next hjobs =>
      split
      · next haccepting => exact Leads.of_pure (turns_lined ht fun _ => .inr ⟨hjobs, haccepting⟩)
      · next haccepting =>
        refine (gives_leaveLine _ t).bind ((gives_become _ t _).bind ((gives_wake _ _).bind
          (Leads.of_pure ?_)))
        simpa [leaveLine, filter_lined] using Turns.retires ht (by simpa using haccepting)

/-! ### Steps of workers with a job -/

/-- A result is queued, waits for room or is dropped. -/
theorem leads_deliver {job : Job α} {run : Run α} {c : Cursor α}
    (ht : s.threads[t]? = some ⟨.working .union job run, false⟩) (hc : s.cancelled = false)
    (hjob : s.HasJob job) (hfirst : s.executor.firstOnly = false) (hrun : run.Follows s (.done c)) :
    s.Leads (deliver .union t job c) fun _ s' => s.Turns t s' := by
  obtain ⟨feed, hending, hfeed, hatHand, harrivals⟩ := id hrun
  refine (gives_updatePool s (f := Pool.countCompleted) (fun _ => rfl) fun _ => rfl).bind
    (Leads.of_get fun m hm => ?_)
  simp only [hjob.1, hm.getElem?_executors, hm.isCancelled]
  cases hadmission : s.executor.admission s.cancelled c with
  | dropped =>
    refine (gives_discard hatHand).bind ((gives_endJob _ t hjob.1).leads ?_)
    exact .drops ht hc hrun hadmission
  | queued =>
    simp only [hfirst, Bool.false_eq_true, if_false]
    refine (gives_updateExecutor s (f := (·.push c)) fun _ => rfl).bind
      ((gives_wakeConsumer _).bind ((gives_endJob _ t hjob.1).leads ?_))
    exact .queues ht hc hrun hadmission
  | waits =>
    refine (gives_updateExecutor s (f := fun e => { e with waiting := e.waiting ++ [t] })
      fun _ => rfl).bind ((gives_become _ t _).bind (Leads.of_pure ?_))
    exact .holds ht hc hrun hadmission

theorem leads_stepSending {job : Job α} {c : Cursor α}
    (ht : s.threads[t]? = some ⟨.sending .union job c, false⟩) (hjob : s.HasJob job)
    (hatHand : c.AtHand) (hfirst : s.executor.firstOnly = false) :
    s.Leads (stepSending .union t job c) fun _ s' => s.Turns t s' := by
  refine Leads.of_get fun m hm => ?_
  simp only [hjob.1, hm.getElem?_executors, hm.isCancelled]
  cases hadmission : s.executor.admissionOfWaiting s.cancelled t with
  | dropped =>
    refine (gives_updateExecutor s (f := Executor.leave t) fun _ => rfl).bind
      ((gives_wakeConsumer _).bind ((gives_discard hatHand).bind
        ((gives_endJob _ t hjob.1).leads ?_)))
    exact .givesUp ht hadmission
  | queued =>
    simp only [hfirst, Bool.false_eq_true, if_false]
    refine (gives_updateExecutor s (f := fun e => (e.push c).leave t) fun _ => rfl).bind
      ((gives_wakeConsumer _).bind ((gives_wakeThread? _ _).bind
        ((gives_endJob _ t hjob.1).leads ?_)))
    exact .sends ht hadmission
  | waits => exact Leads.of_pure (.rests (by simp [Rests, ht, hadmission]))

theorem leads_stepWorking (hs : s.Sound) {job : Job α} {run : Run α}
    (ht : s.threads[t]? = some ⟨.working .union job run, false⟩) :
    s.Leads (stepWorking .union t job run) fun _ s' => s.Turns t s' := by
  obtain ⟨-, hjob, halone⟩ := hs.employs t _ ht
  refine Leads.of_get fun m hm => ?_
  simp only [hm.isTaskCancelled hjob.2.1 hjob.2.2]
  cases hc : s.cancelled with
  | true =>
    simp only [if_true]
    refine (gives_updatePool s (f := Pool.countCancelled) (fun _ => rfl) fun _ => rfl).bind ?_
    rw [halone.held_eq_nil]
    exact (gives_closeAll_nil s).bind ((gives_endJob s t hjob.1).leads (.cancels ht hc))
  | false =>
    simp only [Bool.false_eq_true, if_false]
    refine (leads_stepRun _ t halone hc hs.inTime).bind ?_
    rintro ran s' ⟨hs', hran⟩
    rw [hs']
    have tosses (e : Option FedError) (hending : run.ending s.answers = .error e) :
        s.Leads (do
          updatePool .union Pool.countFailed
          Machine.toss job.executor (e.getD (.internalScheduling (.taskPanicked job.name)))
          Machine.endJob .union t job) fun _ s' => s.Turns t s' := by
      rw [hjob.1]
      refine (gives_updatePool s (f := Pool.countFailed) (fun _ => rfl) fun _ => rfl).bind ?_
      exact (gives_tossAny s _).bind ((gives_endJob _ t hjob.1).leads (.fails ht hc hending))
    cases ran with
    | done c => exact leads_deliver ht hc hjob hs.firstOnly hran
    | failed e => exact tosses (some e) hran
    | panicked => exact tosses none hran
    | progress next =>
      exact (gives_become s t _).bind (Leads.of_pure (.runs ht hc hran.1 hran.2.1 hran.2.2))
    | wait next =>
      refine (gives_become s t _).bind (Leads.of_pure ?_)
      obtain ⟨hnext, hending, hsize | ⟨rfl, hdue⟩⟩ := hran
      · exact .runs ht hc hnext hending hsize
      · rw [become_eq_self ht]
        exact .rests (by simp [Rests, ht, hc, hdue])

/-! ### Steps of producers -/

/-- What a producer finds when it looks at its tasks. -/
def Tells (s : Scene α) : Awaited → Prop
  | .finished => s.executor.pending = 0
  | .timedOut _ => False
  | .pending => s.executor.pending ≠ 0

theorem leads_scheduleWanted (hs : s.Sound) (hc : s.cancelled = false) {name : String}
    {work : Work α} {rest : List (String × Work α)}
    (ht : s.threads[t]? = some ⟨.producing 0 (.branches ((name, work) :: rest)), false⟩) :
    s.Leads (scheduleWanted t 0 .union name work .empty (.branches rest)) fun _ s' =>
      s.Turns t s' := by
  refine Leads.of_get fun m hm => ?_
  have hclosed : s.executor.closed = false := by
    cases h : s.executor.closed with
    | false => rfl
    | true => exact absurd (hs.cancelled h) (by simp [hc])
  have hactive : s.executor.isActive s.cancelled := by simp [Executor.isActive, hc, hclosed]
  simp only [checkActive_eq_ok hm hc hs.inTime, hm.getElem?_executors, hm.isCancelled,
    Option.all_some, hactive, Bool.not_true, Bool.false_eq_true, if_false]
  cases haccepting : s.accepting with
  | true =>
    refine (gives_schedule hc haccepting name work).bind ((gives_become _ t _).bind
      (Leads.of_pure ?_))
    exact .schedules ht hc haccepting
  | false =>
    refine (gives_schedule_refused haccepting name work).bind ?_
    exact (gives_endProducer_error _).leads (.isRefused ht hc haccepting)

theorem leads_stepProducing (hs : s.Sound) {production : Production α}
    (ht : s.threads[t]? = some ⟨.producing 0 production, false⟩) :
    s.Leads (stepProducing t 0 production) fun _ s' => s.Turns t s' := by
  obtain ⟨-, hproduction⟩ := hs.employs t _ ht
  have hleft : leftOf production = .empty := by
    obtain ⟨rest, rfl⟩ | rfl := hproduction <;> rfl
  refine Leads.of_get fun m hm => ?_
  simp only [hm.getElem?_executors, Option.all_some, hm.isCancelled]
  cases hc : s.cancelled with
  | true =>
    simp only [if_true, hleft]
    exact (gives_endProduction s).bind ((gives_become _ t _).bind
      ((gives_discard (c := .empty) trivial).bind (Leads.of_pure (.halts ht hc))))
  | false =>
    simp only [Bool.false_eq_true, if_false]
    obtain ⟨rest, rfl⟩ | rfl := hproduction
    · cases rest with
      | nil => exact (gives_awaitTasks hs.inTime).leads (.awaits ht hc)
      | cons task rest => exact leads_scheduleWanted hs hc ht
    · refine Leads.bind (P := fun b s' => s' = s ∧ s.Tells b) ?_ ?_
      · refine Leads.of_get fun m hm => ?_
        simp only [hm.getElem?_executors, hm.isCancelled, hc, hm.now]
        have hlimit : s.deadline.any (· ≤ s.now) = false := by
          cases h : s.deadline with
          | none => rfl
          | some d => simpa using hs.inTime d h
        split
        · next h => exact Leads.of_pure ⟨rfl, by simpa [Scene.Tells] using h⟩
        · next h =>
          simp only [hlimit, Bool.false_eq_true, if_false]
          exact Leads.of_pure ⟨rfl, by simpa [Scene.Tells] using h⟩
      · rintro b s' ⟨hs', hb⟩
        rw [hs']
        cases b with
        | finished => exact (gives_endProducer_ok hs.inTime).leads (.completes ht hc hb)
        | timedOut e => exact hb.elim
        | pending => exact Leads.of_pure (.rests (by simpa [Rests, ht, hc, Scene.Tells] using hb))

/-! ### Steps of threads -/

/-- **A step of a thread is one of the turns.** -/
theorem leads_stepThread (hs : s.Sound) (t : Nat) :
    s.Leads (stepThread t) fun _ s' => s.Turns t s' := by
  refine Leads.of_get fun m hm => ?_
  rw [hm.getElem?_threads]
  cases ht : s.threads[t]? with
  | none => exact Leads.of_pure (.rests (by simp [Rests, ht]))
  | some th =>
    obtain ⟨activity, doomed⟩ := th
    have hemploys := hs.employs t _ ht
    cases doomed with
    | true =>
      simp only [if_true]
      have abandons (s' : Scene α)
          (h : (s.become t .finished).Gives (abandon t activity) () s') (ht' : s.Turns t s') :
          s.Leads (do
            Machine.become t .finished
            abandon t activity
            wake .main
            return Turn.ends) fun _ s' => s.Turns t s' :=
        (gives_become s t _).bind (h.bind ((gives_wake _ _).bind (Leads.of_pure ht')))
      cases activity with
      | idle p =>
        obtain rfl := hemploys
        exact abandons _ (gives_leaveLine _ t) (.leavesLine ht)
      | working p job run =>
        obtain ⟨rfl, hjob, halone⟩ := id hemploys
        refine abandons _ ?_ (.abandons ht)
        show Gives _ (do closeAll run.held; finishJob job) _ _
        rw [halone.held_eq_nil]
        exact (gives_closeAll_nil _).seq (gives_finishJob _ hjob.1)
      | sending p job c =>
        obtain ⟨rfl, hjob, hc⟩ := id hemploys
        refine abandons _ ?_ (.abandonsResult ht)
        show Gives _ (do
          updateExecutor job.executor (Executor.leave t)
          wakeConsumer job.executor
          discard c
          finishJob job) _ _
        rw [hjob.1]
        exact (gives_updateExecutor _ (f := Executor.leave t) fun _ => rfl).seq
          ((gives_wakeConsumer _).seq ((gives_discard hc).seq (gives_finishJob _ hjob.1)))
      | producing id production =>
        obtain ⟨rfl, hproduction⟩ := hemploys
        refine abandons _ ?_ (.stops ht)
        have hleft : leftOf production = .empty := by
          obtain ⟨rest, rfl⟩ | rfl := hproduction <;> rfl
        show Gives _ (discard (leftOf production)) _ _
        rw [hleft]
        exact gives_discard (c := .empty) trivial
      | alarm due => exact hemploys.elim
      | finished =>
        refine abandons _ (Gives.of_pure ()) ?_
        rw [become_eq_self ht]
        exact .rests (by simp [Rests, ht])
    | false =>
      simp only [Bool.false_eq_true, if_false]
      cases activity with
      | idle p =>
        obtain rfl := hemploys
        exact leads_stepIdle ht
      | working p job run =>
        obtain ⟨rfl, -⟩ := id hemploys
        exact leads_stepWorking hs ht
      | sending p job c =>
        obtain ⟨rfl, hjob, hc⟩ := id hemploys
        exact leads_stepSending ht hjob hc hs.firstOnly
      | producing id production =>
        obtain ⟨rfl, -⟩ := hemploys
        exact leads_stepProducing hs ht
      | alarm due => exact hemploys.elim
      | finished => exact Leads.of_pure (.rests (by simp [Rests, ht]))

/-! ### Pulling -/

/-- **A pull of the consumer is one of the pulls.** -/
theorem leads_pull (hs : s.Sound) :
    s.Leads (pull .main (.pipe (.executor 0))) fun r s' =>
      r.2 = .pipe (.executor 0) ∧ s.Pulls r.1 s' := by
  refine Leads.of_get fun m hm => ?_
  have hdepth : m.executors.size = 0 + 1 := by rw [hm.executors]; rfl
  rw [hdepth, stepCursor, stepPipe]
  refine Leads.bind (P := fun r s' => r.2 = .executor 0 ∧ s.Pulls r.1 s') ?_ ?_
  · refine Leads.of_get fun m hm => ?_
    simp only [hm.getElem?_executors]
    cases hfinished : s.executor.finished with
    | true =>
      simp only [if_true]
      exact Leads.of_pure ⟨rfl, .isOver hfinished⟩
    | false =>
      have hclosed : s.executor.closed = false := by
        cases h : s.executor.closed with
        | false => rfl
        | true => exact absurd (hs.finished h) (by simp [hfinished])
      simp only [Bool.false_eq_true, if_false]
      cases hcurrent : s.executor.current with
      | some c =>
        obtain ⟨xs, hc, hxs⟩ := hs.current c hcurrent
        obtain ⟨r, c', hstep, hc', hr⟩ := Cursor.stepCursor_atHand 0 .main hc
        simp only [hstep, pure_bind]
        cases r with
        | item x =>
          exact (gives_updateExecutor s (f := fun e => { e with current := some c' })
            fun _ => rfl).bind (Leads.of_pure ⟨rfl, .passes hfinished hcurrent hc' hr.1 hr.2⟩)
        | failure e =>
          rw [hxs] at hr
          cases xs <;> cases hr.1
        | done =>
          exact (gives_updateExecutor s (f := fun e => { e with current := none })
            fun _ => rfl).bind ((gives_discard hc').bind
              (Leads.of_pure ⟨rfl, .empties hfinished hcurrent hr⟩))
        | progress =>
          exact (gives_updateExecutor s (f := fun e => { e with current := some c' })
            fun _ => rfl).bind (Leads.of_pure ⟨rfl, .getsOn hfinished hcurrent hc' hr.1 hr.2⟩)
        | wait => exact hr.elim
      | none =>
        cases hqueue : s.executor.queue with
        | cons c rest =>
          exact (gives_updateExecutor s
            (f := fun e => { e with current := some c, queue := rest }) fun _ => rfl).bind
              ((gives_wakeThread? _ _).bind
                (Leads.of_pure ⟨rfl, .opens hfinished hcurrent hqueue⟩))
        | nil =>
          dsimp only
          split
          · next hexhausted =>
            refine (gives_updateExecutor s (f := fun e => { e with error := none })
              fun _ => rfl).bind (Gives.bind (t := s.finish) (b := ())
                (gives_closeAll (s := s.update fun e => { e with error := none })
                  hfinished hclosed hcurrent hqueue) ?_)
            split
            · next e herror =>
              exact Leads.of_pure ⟨rfl, .fails hfinished hcurrent hexhausted herror⟩
            · next herror =>
              exact Leads.of_pure ⟨rfl, .ends hfinished hcurrent hexhausted herror⟩
          · next hexhausted =>
            exact (gives_updateExecutor s (f := fun e => { e with consumer := some .main })
              fun _ => rfl).bind (Leads.of_pure
                ⟨rfl, .waits hfinished hcurrent hqueue (by simpa using hexhausted)⟩)
  · rintro ⟨r, p⟩ s' ⟨rfl, hpulls⟩
    exact Leads.of_pure ⟨rfl, hpulls⟩

end Scene

end FederatedSparql
