import FederatedSparql.Proofs.Machine.Scene

/-!
Machines on which executors hold one another's results.

A `Floor` keeps of a machine what decides what comes of its threads when any number of executors
share the pool of the joins.  Nothing is cancelled there but what has been consumed to its end, and
no time is set, so that a floor says nothing of deadlines and of threads that are to be ended:

* `Machine.Stands` says that a machine is as a floor has it;
* `Floor.Gives` and `Floor.Leads` say what comes of an action on every such machine.
-/

namespace FederatedSparql

/-- What there is to see of a machine on which several executors run. -/
structure Floor (α : Type) where
  now : Nat
  answers : Answers
  /-- For each branch whether it has been cancelled. -/
  branches : List Bool
  /-- For each task the branch it hangs on. -/
  tasks : List Nat
  jobs : List (Job α)
  line : List Nat
  /-- What each thread does. -/
  threads : List (Activity α)
  executors : List (Executor α)

variable {α β γ : Type}

namespace Machine

/-- A machine is as a floor has it: its query goes on without a deadline, its pool takes jobs, and
only threads at their ends are to be ended. -/
structure Stands (m : Machine α) (f : Floor α) : Prop where
  now : m.now = f.now
  answers : m.registry.answers = f.answers
  deadline : m.query.deadline = none
  aborted : m.query.aborted = false
  cancelled : m.query.cancelled = false
  branches : m.query.branches.toList = f.branches
  tasks : m.query.tasks.toList.map (·.branch) = f.tasks.map some
  hanging : ∀ task ∈ m.query.tasks, task.cancelled = false
  accepting : m.join.pool.accepting = true
  jobs : m.join.jobs = f.jobs
  line : m.join.line = f.line
  threads : m.threads.toList.map (·.activity) = f.threads
  doomed : ∀ th ∈ m.threads, th.doomed = true → th.activity = .finished
  executors : m.executors.toList = f.executors

namespace Stands

variable {m : Machine α} {f : Floor α}

theorem getElem?_executors (h : m.Stands f) (id : Nat) : m.executors[id]? = f.executors[id]? := by
  rw [← h.executors, Array.getElem?_toList]

theorem size_executors (h : m.Stands f) : m.executors.size = f.executors.length := by
  rw [← h.executors, Array.length_toList]

theorem size_threads (h : m.Stands f) : m.threads.size = f.threads.length := by
  rw [← h.threads, List.length_map, Array.length_toList]

theorem activity? (h : m.Stands f) (t : Nat) : m.threads[t]?.map (·.activity) = f.threads[t]? := by
  rw [← h.threads, List.getElem?_map, Array.getElem?_toList]

/-- A thread that is not at its end is not to be ended. -/
theorem thread (h : m.Stands f) {t : Nat} {a : Activity α} (ht : f.threads[t]? = some a)
    (ha : a ≠ .finished) : m.threads[t]? = some ⟨a, false⟩ := by
  rw [← h.activity?] at ht
  obtain ⟨⟨activity, doomed⟩, hth, rfl⟩ := Option.map_eq_some_iff.1 ht
  cases doomed with
  | false => exact hth
  | true => exact absurd (h.doomed _ (Array.mem_of_getElem? hth) rfl) ha

theorem isCancelled (h : m.Stands f) (e : Executor α) :
    m.isCancelled e = f.branches[e.branch]?.getD true := by
  rw [Machine.isCancelled, QueryContext.isBranchCancelled, h.cancelled, Bool.false_or, ← h.branches,
    Array.getElem?_toList]

theorem checkActive (h : m.Stands f) (now : Nat) : m.query.checkActive now = .ok () := by
  simp [QueryContext.checkActive, QueryContext.checkAborted, QueryContext.checkTimeout,
    QueryContext.isExpired, h.aborted, h.deadline]
  rfl

/-- A task is cancelled with the branch it hangs on. -/
theorem isTaskCancelled (h : m.Stands f) {task branch : Nat}
    (htask : f.tasks[task - 1]? = some branch) :
    m.query.isTaskCancelled task = f.branches[branch]?.getD true := by
  have hbranch : m.query.tasks[task - 1]?.map (·.branch) = some (some branch) := by
    rw [← Array.getElem?_toList, ← List.getElem?_map, h.tasks, List.getElem?_map, htask]
    rfl
  obtain ⟨record, hrecord, hhangs⟩ := Option.map_eq_some_iff.1 hbranch
  have hnot := h.hanging record (Array.mem_of_getElem? hrecord)
  simp [QueryContext.isTaskCancelled, hrecord, QueryContext.isRecordCancelled, hnot, h.cancelled,
    hhangs, QueryContext.isBranchCancelled, ← h.branches]

/-- Waking is not to be seen. -/
theorem woken (h : m.Stands f) (ready : List Nat) (mainReady : Bool)
    (timers : List (Nat × Waker)) : Stands { m with ready, mainReady, timers } f := { h with }

end Stands

end Machine

namespace Floor

open Machine

/-! ### Following actions -/

/-- What comes of an action on every machine that is as a floor has it. -/
def Leads (f : Floor α) (a : Action α β) (Q : β → Floor α → Prop) : Prop :=
  ∀ m : Machine α, m.Stands f → ∃ f', (after a m).Stands f' ∧ Q (value a m) f'

/-- An action gives a value and leaves a floor. -/
def Gives (f : Floor α) (a : Action α β) (b : β) (f' : Floor α) : Prop :=
  f.Leads a fun b' g => b' = b ∧ g = f'

variable {f g h : Floor α} {a : Action α β} {k : β → Action α γ} {b : β} {c : γ}
  {P Q : β → Floor α → Prop} {R : γ → Floor α → Prop}

theorem Leads.imp (hP : f.Leads a P) (hPQ : ∀ b g, P b g → Q b g) : f.Leads a Q := by
  intro m hm
  obtain ⟨g, hg, hb⟩ := hP m hm
  exact ⟨g, hg, hPQ _ _ hb⟩

theorem Leads.of_pure (hQ : Q b f) : f.Leads (pure b) Q := fun _ hm => ⟨f, hm, hQ⟩

theorem Leads.bind (ha : f.Leads a P) (hk : ∀ b g, P b g → g.Leads (k b) R) :
    f.Leads (a >>= k) R := by
  intro m hm
  obtain ⟨g, hg, hP⟩ := ha m hm
  exact hk _ _ hP _ hg

/-- What is read is a machine that is as the floor has it. -/
theorem Leads.of_get {k : Machine α → Action α γ} (hk : ∀ m, m.Stands f → f.Leads (k m) R) :
    f.Leads (get >>= k) R := fun m hm => hk m hm m hm

theorem Gives.of_pure (b : β) : f.Gives (pure b) b f := Leads.of_pure ⟨rfl, rfl⟩

theorem Gives.bind (ha : f.Gives a b g) (hk : g.Leads (k b) R) : f.Leads (a >>= k) R :=
  Leads.bind ha fun _ _ ⟨hb, hg⟩ => hb ▸ hg ▸ hk

theorem Gives.leads (ha : f.Gives a b g) (hQ : Q b g) : f.Leads a Q :=
  ha.imp fun _ _ ⟨hb, hg⟩ => hb ▸ hg ▸ hQ

theorem Gives.seq (ha : f.Gives a b g) (hk : g.Gives (k b) c h) : f.Gives (a >>= k) c h :=
  ha.bind hk

theorem Gives.of_get {k : Machine α → Action α γ} (hk : ∀ m, m.Stands f → f.Gives (k m) c g) :
    f.Gives (get >>= k) c g := Leads.of_get hk

theorem Gives.of_modify {k : Machine α → Machine α} (hk : ∀ m, m.Stands f → (k m).Stands g) :
    f.Gives (modify k) () g := fun m hm => ⟨g, hk m hm, rfl, rfl⟩

/-- What an action gives on a machine. -/
theorem Gives.stands (ha : f.Gives a b g) {m : Machine α} (hm : m.Stands f) :
    (after a m).Stands g ∧ value a m = b := by
  obtain ⟨_, hg, hb, rfl⟩ := ha m hm
  exact ⟨hg, hb⟩

/-- Steps that leave a floor as it is leave it so one after the other. -/
theorem gives_forIn {ι : Type} (xs : List ι) {body : ι → PUnit → Action α (ForInStep PUnit)}
    (hbody : ∀ x ∈ xs, f.Gives (body x PUnit.unit) (.yield PUnit.unit) f) :
    f.Gives (forIn xs PUnit.unit body) PUnit.unit f := by
  induction xs with
  | nil => exact Gives.of_pure _
  | cons x xs ih =>
    rw [List.forIn_cons]
    refine (hbody x (by simp)).seq ?_
    exact ih fun y hy => hbody y (by simp [hy])

/-! ### Turns -/

section Turns

variable (f)

theorem gives_wake (w : Waker) : f.Gives (wake w) () f := by
  cases w with
  | main => exact Gives.of_modify fun m hm => hm.woken _ _ _
  | thread t =>
    refine Gives.of_modify fun m hm => ?_
    split
    · exact hm
    · exact hm.woken _ _ _

theorem gives_wakeThread? (t : Option Nat) : f.Gives (wakeThread? t) () f := by
  cases t with
  | none => exact Gives.of_pure ()
  | some t => exact gives_wake f (.thread t)

theorem gives_wakeAt (due : Nat) (w : Waker) : f.Gives (wakeAt due w) () f :=
  Gives.of_modify fun _ hm => hm.woken _ _ _

theorem gives_wakeConsumer (id : Nat) : f.Gives (wakeConsumer id) () f := by
  refine Gives.of_get fun m hm => ?_
  split
  · split
    · exact gives_wake f _
    · exact Gives.of_pure ()
  · exact Gives.of_pure ()

theorem gives_wakeWorkingFor (wanted : Nat → Bool) : f.Gives (wakeWorkingFor wanted) () f := by
  refine Gives.of_get fun m _ => Gives.seq (b := PUnit.unit) ?_ (gives_wake f .main)
  refine gives_forIn _ fun t _ => ?_
  split
  · split
    · exact (gives_wake f _).seq (Gives.of_pure _)
    · exact Gives.of_pure _
  · exact Gives.of_pure _

/-- Says what a thread does from now on. -/
def become (t : Nat) (a : Activity α) : Floor α := { f with threads := f.threads.set t a }

/-- Starts a thread. -/
def spawn (a : Activity α) : Floor α := { f with threads := f.threads ++ [a] }

end Turns

theorem map_activity_modify (ths : List (Thread α)) (t : Nat) (a : Activity α) :
    (ths.modify t fun th => { th with activity := a }).map (·.activity) =
      (ths.map (·.activity)).set t a := by
  refine List.ext_getElem? fun i => ?_
  rw [List.getElem?_map, List.getElem?_modify, List.getElem?_set, List.getElem?_map]
  by_cases hi : t = i
  · subst hi
    cases h : ths[t]? with
    | none => simp [List.getElem?_eq_none_iff.1 h]
    | some th => simp [(List.getElem?_eq_some_iff.1 h).1]
  · simp [hi, id_map']

/-- A thread goes on to something else, unless it is at its end. -/
theorem gives_become {t : Nat} {a : Activity α}
    (ht : a = .finished ∨ f.threads[t]? ≠ some .finished) :
    f.Gives (Machine.become t a) () (f.become t a) := by
  refine Gives.of_modify fun m hm => { hm with threads := ?_, doomed := fun th hth hdoomed => ?_ }
  · rw [Array.toList_modify, map_activity_modify, hm.threads]
    rfl
  · obtain ⟨i, hi, rfl⟩ := Array.getElem_of_mem hth
    rw [Array.size_modify] at hi
    rw [Array.getElem_modify] at hdoomed ⊢
    split at hdoomed
    · next hit =>
      subst hit
      have hfinished := hm.doomed _ (Array.getElem_mem hi) hdoomed
      have hactivity := hm.activity? t
      rw [Array.getElem?_eq_getElem hi] at hactivity
      rw [if_pos rfl]
      obtain rfl | hnot := ht
      · rfl
      · exact absurd hactivity.symm (by simpa [hfinished] using hnot)
    · next hit =>
      rw [if_neg hit]
      exact hm.doomed _ (Array.getElem_mem hi) hdoomed

/-- Dooming a thread that is at its end is not to be seen. -/
theorem gives_doom {t : Nat} (ht : f.threads[t]? = some .finished) :
    f.Gives (Machine.doom t) () f := by
  refine Gives.seq (g := f) (Gives.of_modify fun m hm => ?_) (gives_wake f _)
  have hsame (ths : List (Thread α)) :
      (ths.modify t fun th => { th with doomed := true }).map (·.activity) =
        ths.map (·.activity) := by
    refine List.ext_getElem? fun i => ?_
    rw [List.getElem?_map, List.getElem?_modify, List.getElem?_map]
    cases ths[i]? with
    | none => rfl
    | some th =>
      show some _ = some _
      split <;> rfl
  refine { hm with threads := ?_, doomed := fun th hth hdoomed => ?_ }
  · rw [Array.toList_modify, hsame, hm.threads]
  · obtain ⟨i, hi, rfl⟩ := Array.getElem_of_mem hth
    rw [Array.size_modify] at hi
    rw [Array.getElem_modify] at hdoomed ⊢
    split at hdoomed
    · next hit =>
      subst hit
      have hactivity := hm.activity? t
      rw [Array.getElem?_eq_getElem hi, ht] at hactivity
      rw [if_pos rfl]
      exact Option.some.inj hactivity
    · next hit =>
      rw [if_neg hit]
      exact hm.doomed _ (Array.getElem_mem hi) hdoomed

theorem gives_spawn (f : Floor α) (a : Activity α) :
    f.Gives (Machine.spawn a) f.threads.length (f.spawn a) := by
  refine Gives.of_get fun m hm => ?_
  rw [hm.size_threads]
  refine Gives.seq (g := f.spawn a) (Gives.of_modify fun m' hm' => ?_)
    ((gives_wake _ _).seq (Gives.of_pure _))
  refine { hm' with
    threads := by simp [Floor.spawn, hm'.threads]
    doomed := fun th hth hdoomed => ?_ }
  obtain hth | rfl := Array.mem_push.1 hth
  · exact hm'.doomed th hth hdoomed
  · cases hdoomed

/-! ### Executors and the pool -/

section Parts

variable (f)

/-- Changes an executor. -/
def update (id : Nat) (k : Executor α → Executor α) : Floor α :=
  { f with executors := f.executors.modify id k }

/-- Cancels a branch. -/
def cancelBranch (branch : Nat) : Floor α := { f with branches := f.branches.set branch true }

/-- Takes a thread out of the line. -/
def leaveLine (t : Nat) : Floor α := { f with line := f.line.filter (· != t) }

/-- A job is over, and the worker that had it is free again. -/
def endJob (t : Nat) (job : Job α) : Floor α :=
  (f.update job.executor Executor.finishTask).become t (.idle .join)

/-- Registers a task of an executor and gives it to the pool. -/
def schedule (id branch : Nat) (name : String) (work : Work α) : Floor α :=
  { f.update id Executor.addTask with
    tasks := f.tasks ++ [branch]
    jobs := f.jobs ++ [{ executor := id, task := f.tasks.length + 1, name, work }] }

/-- Starts an executor. -/
def startExecutor (production : Production α) : Floor α :=
  { f with
    branches := f.branches ++ [false]
    threads := f.threads ++ [.producing f.executors.length production]
    executors := f.executors ++
      [{ branch := f.branches.length, producer := some f.threads.length }] }

theorem gives_updateExecutor (id : Nat) (k : Executor α → Executor α) :
    f.Gives (updateExecutor id k) () (f.update id k) :=
  Gives.of_modify fun m hm =>
    { hm with executors := by rw [Array.toList_modify, hm.executors]; rfl }

theorem gives_updatePool {k : Pool → Pool} (hk : ∀ p, (k p).accepting = p.accepting) :
    f.Gives (updatePool .join k) () f :=
  Gives.of_modify fun _ hm => { hm with accepting := (hk _).trans hm.accepting }

theorem gives_updateLine (k : List Nat → List Nat) :
    f.Gives (updateCrew .join fun c => { c with line := k c.line }) ()
      { f with line := k f.line } :=
  Gives.of_modify fun _ hm => { hm with line := congrArg k hm.line }

theorem gives_updateJobs (k : List (Job α) → List (Job α)) :
    f.Gives (updateCrew .join fun c => { c with jobs := k c.jobs }) ()
      { f with jobs := k f.jobs } :=
  Gives.of_modify fun _ hm => { hm with jobs := congrArg k hm.jobs }

theorem gives_leaveLine (t : Nat) : f.Gives (Machine.leaveLine .join t) () (f.leaveLine t) :=
  (gives_updateLine f fun l => l.filter (· != t)).seq
    (Gives.of_get fun _ _ => gives_wakeThread? _ _)

theorem gives_endProduction (id : Nat) :
    f.Gives (endProduction id) () (f.update id Executor.endProduction) :=
  (gives_updateExecutor f id _).seq (gives_wakeConsumer _ id)

theorem gives_cancel {id : Nat} {e : Executor α} (he : f.executors[id]? = some e) :
    f.Gives (Machine.cancel id) () (f.cancelBranch e.branch) := by
  refine Gives.of_get fun m hm => ?_
  simp only [hm.getElem?_executors, he]
  refine Gives.seq (g := f.cancelBranch e.branch) (Gives.of_modify fun m' hm' => ?_)
    (gives_wakeWorkingFor _ _)
  exact
    { hm' with branches := by simp [QueryContext.cancelBranch, cancelBranch, ← hm'.branches] }

/-- A job that is over is not waited for any more. -/
theorem gives_finishJob (job : Job α) :
    f.Gives (finishJob job) () (f.update job.executor Executor.finishTask) := by
  refine Gives.seq (g := f) (Gives.of_modify fun m hm => ?_) ?_
  · refine { hm with
      deadline := by simpa using hm.deadline
      aborted := by simpa using hm.aborted
      cancelled := by simpa using hm.cancelled
      branches := by simpa using hm.branches
      tasks := ?_
      hanging := fun task htask => ?_ }
    · rw [← hm.tasks, QueryContext.deregister]
      split
      · rfl
      · refine List.ext_getElem? fun i => ?_
        rw [Array.toList_modify, List.getElem?_map, List.getElem?_modify, List.getElem?_map]
        cases m.query.tasks.toList[i]? with
        | none => rfl
        | some record =>
          show some _ = some _
          split <;> rfl
    · obtain ⟨task', htask', -, hcancelled⟩ := QueryContext.mem_tasks_of_deregister htask
      exact hcancelled.trans (hm.hanging task' htask')
  · refine (gives_updateExecutor f job.executor _).seq ?_
    refine Gives.of_get fun m hm => ?_
    split
    · split
      · exact (gives_wakeThread? _ _).seq (gives_wake _ _)
      · exact Gives.of_pure ()
    · exact Gives.of_pure ()

theorem gives_endJob {t : Nat} (ht : f.threads[t]? ≠ some .finished) (job : Job α) :
    f.Gives (Machine.endJob .join t job) .goesOn (f.endJob t job) :=
  (gives_finishJob f job).seq
    ((gives_become (f := f.update job.executor Executor.finishTask) (.inr ht)).seq
      (Gives.of_pure _))

/-- A task is registered and its job given to the pool. -/
theorem gives_schedule {id : Nat} {e : Executor α} (he : f.executors[id]? = some e) (name : String)
    (work : Work α) :
    f.Gives (Machine.schedule .join id name work) (.ok ()) (f.schedule id e.branch name work) := by
  refine Gives.of_get fun m hm => ?_
  have hlength : m.query.tasks.size = f.tasks.length := by
    have := congrArg List.length hm.tasks
    simpa using this
  simp only [crew, Pool.checkAccepting, hm.accepting, if_true, hm.getElem?_executors, he,
    QueryContext.register, QueryContext.checkAborted, hm.aborted, Bool.false_eq_true, if_false,
    hlength]
  refine Gives.seq (g := { f with tasks := f.tasks ++ [e.branch] })
    (Gives.of_modify fun m' hm' => ?_) ?_
  · refine { hm' with
      deadline := hm.deadline
      aborted := rfl
      cancelled := hm.cancelled
      branches := hm.branches
      tasks := by simp [← hm.tasks]
      hanging := fun task htask => ?_ }
    obtain htask | rfl := Array.mem_push.1 htask
    · exact hm.hanging task htask
    · rfl
  refine (gives_updateExecutor _ id Executor.addTask).seq ?_
  refine Gives.seq (g := f.schedule id e.branch name work) (Gives.of_modify fun m' hm' => ?_)
    ((gives_wakeThread? _ _).seq (Gives.of_pure _))
  exact { hm' with jobs := by simp [hm'.jobs, Floor.schedule, update] }

theorem modify_append_singleton {ι : Type} (l : List ι) (x : ι) (k : ι → ι) :
    (l ++ [x]).modify l.length k = l ++ [k x] := by
  induction l with
  | nil => rfl
  | cons y l ih => simp [ih]

theorem gives_startExecutor (production : Production α) :
    f.Gives (Machine.startExecutor false production) f.executors.length
      (f.startExecutor production) := by
  refine Gives.of_get fun m hm => Gives.of_get fun m' hm' => ?_
  have hbranch : m'.query.addBranch.1 = f.branches.length := by
    rw [← hm'.branches, Array.length_toList]
    rfl
  simp only [hm.size_executors, hbranch]
  refine Gives.seq
    (g := { f with
      branches := f.branches ++ [false]
      executors := f.executors ++ [{ branch := f.branches.length }] })
    (Gives.of_modify fun m'' hm'' => ?_) ?_
  · exact { hm'' with
      deadline := hm'.deadline
      aborted := hm'.aborted
      cancelled := hm'.cancelled
      branches := by simp [QueryContext.addBranch, hm'.branches]
      tasks := hm'.tasks
      hanging := hm'.hanging
      executors := by simp [hm''.executors] }
  refine (gives_spawn _ _).seq ((gives_updateExecutor _ _ _).seq ?_)
  have hstart : f.startExecutor production =
      ((({ f with
        branches := f.branches ++ [false]
        executors := f.executors ++ [{ branch := f.branches.length }] } : Floor α).spawn
          (.producing f.executors.length production)).update f.executors.length
            fun e => { e with producer := some f.threads.length }) := by
    simp [startExecutor, spawn, update, modify_append_singleton]
  rw [hstart]
  exact Gives.of_pure _

end Parts

/-! ### What has become of threads and executors -/

section Lookups

variable {t : Nat}

/-- A thread does what it has gone on to. -/
theorem getElem?_become_self {a b : Activity α} (ht : f.threads[t]? = some a)
    (hthreads : g.threads = f.threads) : (g.become t b).threads[t]? = some b := by
  rw [become, hthreads, List.getElem?_set_self (List.getElem?_eq_some_iff.1 ht).1]

/-- A thread that goes on with what it does leaves everything as it is. -/
theorem become_eq_self {a : Activity α} (ht : f.threads[t]? = some a) : f.become t a = f := by
  have : f.threads.set t a = f.threads := by
    obtain ⟨hlt, rfl⟩ := List.getElem?_eq_some_iff.1 ht
    exact List.set_getElem_self hlt
  rw [become, this]

theorem update_eq_self {id : Nat} {e : Executor α} {k : Executor α → Executor α}
    (he : f.executors[id]? = some e) (hk : k e = e) : f.update id k = f := by
  have : f.executors.modify id k = f.executors := by
    refine List.ext_getElem? fun i => ?_
    rw [List.getElem?_modify]
    by_cases hi : id = i
    · subst hi
      simp [he, hk]
    · simp [hi]
  rw [update, this]

theorem getElem?_update (f : Floor α) (id : Nat) (k : Executor α → Executor α) (i : Nat) :
    (f.update id k).executors[i]? =
      if id = i then f.executors[i]?.map k else f.executors[i]? := by
  rw [update, List.getElem?_modify]
  split <;> simp

end Lookups

/-! ### Closing -/

/-- Closes an executor, which cancels its branch. -/
def close (f : Floor α) (id : Nat) (e : Executor α) : Floor α :=
  if e.closed then f.update id Executor.close
  else (f.update id Executor.close).cancelBranch e.branch

/-- An executor that holds no other is closed by itself; its producer must be at its end. -/
theorem gives_closeAll {id : Nat} {e : Executor α} (he : f.executors[id]? = some e)
    (hcurrent : e.current = none) (hqueue : e.queue = [])
    (hproducer : e.finished = false → ∀ t, e.producer = some t → f.threads[t]? = some .finished) :
    f.Gives (closeAll [id]) () (f.close id e) := by
  refine Gives.of_get fun m hm => ?_
  have hlt : id < f.executors.length := (List.getElem?_eq_some_iff.1 he).1
  obtain ⟨depth, hdepth⟩ : ∃ depth, m.executors.size = depth + 1 :=
    ⟨m.executors.size - 1, by have := hm.size_executors; omega⟩
  rw [hdepth]
  show f.Gives (do closeExecutor (depth + 1) id; pure ()) () (f.close id e)
  refine Gives.seq (g := f.close id e) (b := ()) ?_ (Gives.of_pure ())
  refine Gives.of_get fun m hm => ?_
  simp only [hm.getElem?_executors, he]
  refine (gives_updateExecutor f id Executor.close).seq ?_
  have hclosed : (f.update id Executor.close).executors[id]? = some e.close := by
    simp [update, he]
  -- the branch is cancelled unless the executor has been closed before
  have cancels {a : Action α Unit} (ha : (f.close id e).Gives a () (f.close id e)) :
      (f.update id Executor.close).Gives
        (if e.closed then a else do Machine.cancel id; wakeConsumer id; a) () (f.close id e) := by
    cases hc : e.closed with
    | true =>
      have hclose : f.close id e = f.update id Executor.close := by simp [close, hc]
      rw [hclose] at ha ⊢
      exact ha
    | false =>
      have hclose : f.close id e = (f.update id Executor.close).cancelBranch e.close.branch := by
        simp [close, hc]
        rfl
      rw [hclose] at ha ⊢
      exact (gives_cancel _ hclosed).seq ((gives_wakeConsumer _ _).seq ha)
  have wakes : (f.close id e).Gives (do
      for t in e.waiting do wake (.thread t)
      let holds := (e.current.map (·.held)).getD [] ++ heldByAll e.queue
      for inner in holds do closeExecutor depth inner) () (f.close id e) := by
    have hholds : (e.current.map (·.held)).getD [] ++ heldByAll e.queue = [] := by
      rw [hcurrent, hqueue]
      rfl
    rw [hholds]
    refine Gives.seq (g := f.close id e) (b := PUnit.unit) (gives_forIn _ fun t _ => ?_)
      (Gives.of_pure ())
    exact (gives_wake _ _).seq (Gives.of_pure _)
  cases hp : e.producer with
  | none => exact cancels wakes
  | some t =>
    cases hfinished : e.finished with
    | true => exact cancels wakes
    | false =>
      have ht : (f.close id e).threads[t]? = some .finished := by
        rw [← hproducer hfinished t hp, close]
        split <;> rfl
      exact cancels ((gives_doom ht).seq wakes)

theorem getElem?_close (f : Floor α) (id : Nat) (e : Executor α) (i : Nat) :
    (f.close id e).executors[i]? =
      if id = i then f.executors[i]?.map Executor.close else f.executors[i]? := by
  rw [← getElem?_update]
  unfold close
  split <;> rfl

theorem getElem?_branches_close {id : Nat} (f : Floor α) (e : Executor α) (h : e.branch ≠ 0) :
    (f.close id e).branches[0]? = f.branches[0]? := by
  unfold Floor.close
  split
  · rfl
  · exact List.getElem?_set_ne h

theorem gives_closeAll_nil (f : Floor α) : f.Gives (closeAll []) () f :=
  Gives.of_get fun _ _ => Gives.of_pure ()

theorem gives_discard {c : Cursor α} (hc : c.held = []) : f.Gives (discard c) () f := by
  show f.Gives (closeAll c.held) () f
  rw [hc]
  exact gives_closeAll_nil f

end Floor

end FederatedSparql
