import FederatedSparql.Engine.Arrivals
import FederatedSparql.Engine.Machine.Control

/-!
Machines on which one executor runs, as far as its results go.

A `Scene` keeps of a machine what decides what comes of its threads.  It leaves out who has been
woken and what pools and members have counted, so most of what an action does is not to be seen:

* `Machine.Shows` says what a scene shows of a machine; the tasks of the query all hang on the
  branch of the executor, so that one flag tells whether they are cancelled;
* `Scene.Leads` says what comes of an action on every machine that a scene shows, and
  `Scene.Leads.bind` follows an action through its parts.
-/

namespace FederatedSparql

/-- What there is to see of a machine on which one executor runs. -/
structure Scene (α : Type) where
  now : Nat
  answers : Answers
  deadline : Option Nat
  /-- Whether the executor's branch is cancelled. -/
  cancelled : Bool
  /-- How many tasks the query has registered. -/
  registered : Nat
  /-- The name of the pool. -/
  pool : String
  /-- Whether the pool takes jobs. -/
  accepting : Bool
  jobs : List (Job α)
  line : List Nat
  threads : List (Thread α)
  executor : Executor α

variable {α β γ : Type}

/-! ### Tasks that are over -/

namespace QueryContext

variable (q : QueryContext) (k : Nat)

@[simp] theorem deadline_deregister : (q.deregister k).deadline = q.deadline := by
  unfold deregister; split <;> rfl

@[simp] theorem aborted_deregister : (q.deregister k).aborted = q.aborted := by
  unfold deregister; split <;> rfl

@[simp] theorem cancelled_deregister : (q.deregister k).cancelled = q.cancelled := by
  unfold deregister; split <;> rfl

@[simp] theorem branches_deregister : (q.deregister k).branches = q.branches := by
  unfold deregister; split <;> rfl

@[simp] theorem size_tasks_deregister : (q.deregister k).tasks.size = q.tasks.size := by
  unfold deregister; split <;> simp

variable {q k}

/-- Tasks that are over hang where they hung. -/
theorem mem_tasks_of_deregister {t : TaskRecord} (h : t ∈ (q.deregister k).tasks) :
    ∃ t' ∈ q.tasks, t.branch = t'.branch ∧ t.cancelled = t'.cancelled := by
  unfold deregister at h
  split at h
  · exact ⟨t, h, rfl, rfl⟩
  · obtain ⟨i, hi, rfl⟩ := Array.getElem_of_mem h
    rw [Array.size_modify] at hi
    refine ⟨q.tasks[i], Array.getElem_mem hi, ?_⟩
    rw [Array.getElem_modify]
    split <;> exact ⟨rfl, rfl⟩

end QueryContext

namespace Machine

/-! ### What actions give and leave -/

/-- What an action gives. -/
def value (a : Action α β) (m : Machine α) : β := (a.run m).1

/-- The machine after an action. -/
def after (a : Action α β) (m : Machine α) : Machine α := (a.run m).2

section Actions

variable (m : Machine α)

@[simp] theorem after_pure (b : β) : after (pure b) m = m := rfl

@[simp] theorem after_bind (a : Action α β) (f : β → Action α γ) :
    after (a >>= f) m = after (f (value a m)) (after a m) := rfl

@[simp] theorem value_get : value get m = m := rfl

@[simp] theorem after_get : after get m = m := rfl

@[simp] theorem after_modify (f : Machine α → Machine α) : after (modify f) m = f m := rfl

end Actions

/-! ### What is shown -/

/-- A scene shows what there is to see of a machine. -/
structure Shows (m : Machine α) (s : Scene α) : Prop where
  now : m.now = s.now
  answers : m.registry.answers = s.answers
  deadline : m.query.deadline = s.deadline
  cancelled : m.query.isBranchCancelled s.executor.branch = s.cancelled
  aborted : m.query.aborted = true → s.cancelled = true
  registered : m.query.tasks.size = s.registered
  /-- Every task hangs on the branch. -/
  tasks : ∀ t ∈ m.query.tasks, t.branch = some s.executor.branch ∧ (t.cancelled → s.cancelled)
  pool : m.union.pool.name = s.pool
  accepting : m.union.pool.accepting = s.accepting
  jobs : m.union.jobs = s.jobs
  line : m.union.line = s.line
  threads : m.threads.toList = s.threads
  executors : m.executors = #[s.executor]

namespace Shows

variable {m : Machine α} {s : Scene α}

theorem getElem?_executors (h : m.Shows s) : m.executors[0]? = some s.executor := by
  simp [h.executors]

theorem getElem?_threads (h : m.Shows s) (t : Nat) : m.threads[t]? = s.threads[t]? := by
  rw [← h.threads, Array.getElem?_toList]

theorem isCancelled (h : m.Shows s) : m.isCancelled s.executor = s.cancelled := h.cancelled

/-- As long as the branch is not cancelled, the query is not aborted. -/
theorem aborted_eq_false (h : m.Shows s) (hc : s.cancelled = false) : m.query.aborted = false := by
  cases haborted : m.query.aborted with
  | false => rfl
  | true => exact absurd (h.aborted haborted) (by simp [hc])

/-- A task is cancelled with the branch. -/
theorem isTaskCancelled (h : m.Shows s) {k : Nat} (hk : 1 ≤ k) (hk' : k ≤ s.registered) :
    m.query.isTaskCancelled k = s.cancelled := by
  have hsize := h.registered
  have hlt : k - 1 < m.query.tasks.size := by omega
  obtain ⟨hbranch, hcancelled⟩ := h.tasks _ (Array.getElem_mem hlt)
  simp only [QueryContext.isTaskCancelled, Array.getElem?_eq_getElem hlt,
    QueryContext.isRecordCancelled, hbranch, Option.any_some, h.cancelled]
  have hq : m.query.cancelled → s.cancelled := by
    rw [← h.cancelled]
    simp +contextual [QueryContext.isBranchCancelled]
  cases hs : s.cancelled <;> simp_all

/-- Waking is not to be seen. -/
theorem woken (h : m.Shows s) (ready : List Nat) (mainReady : Bool) (timers : List (Nat × Waker)) :
    Shows { m with ready, mainReady, timers } s :=
  ⟨h.now, h.answers, h.deadline, h.cancelled, h.aborted, h.registered, h.tasks, h.pool,
    h.accepting, h.jobs, h.line, h.threads, h.executors⟩

end Shows

end Machine

namespace Scene

open Machine

/-! ### Following actions -/

/-- What comes of an action on every machine that a scene shows. -/
def Leads (s : Scene α) (a : Action α β) (Q : β → Scene α → Prop) : Prop :=
  ∀ m : Machine α, m.Shows s → ∃ s', (after a m).Shows s' ∧ Q (value a m) s'

/-- An action gives a value and leaves a scene. -/
def Gives (s : Scene α) (a : Action α β) (b : β) (s' : Scene α) : Prop :=
  s.Leads a fun b' t => b' = b ∧ t = s'

variable {s t u : Scene α} {a : Action α β} {f : β → Action α γ} {b : β} {c : γ}
  {P Q : β → Scene α → Prop} {R : γ → Scene α → Prop}

theorem Leads.imp (h : s.Leads a P) (hPQ : ∀ b t, P b t → Q b t) : s.Leads a Q := by
  intro m hm
  obtain ⟨t, ht, hP⟩ := h m hm
  exact ⟨t, ht, hPQ _ _ hP⟩

theorem Leads.of_pure (h : Q b s) : s.Leads (pure b) Q := fun _ hm => ⟨s, hm, h⟩

theorem Leads.bind (h : s.Leads a P) (hf : ∀ b t, P b t → t.Leads (f b) R) :
    s.Leads (a >>= f) R := by
  intro m hm
  obtain ⟨t, ht, hP⟩ := h m hm
  exact hf _ _ hP _ ht

/-- What is read is a machine that the scene shows. -/
theorem Leads.of_get {f : Machine α → Action α γ} (h : ∀ m, m.Shows s → s.Leads (f m) R) :
    s.Leads (get >>= f) R := fun m hm => h m hm m hm

theorem Gives.of_pure (b : β) : s.Gives (pure b) b s := Leads.of_pure ⟨rfl, rfl⟩

theorem Gives.bind (h : s.Gives a b t) (hf : t.Leads (f b) R) : s.Leads (a >>= f) R :=
  Leads.bind h fun _ _ ⟨hb, ht⟩ => hb ▸ ht ▸ hf

theorem Gives.leads (h : s.Gives a b t) (hQ : Q b t) : s.Leads a Q :=
  h.imp fun _ _ ⟨hb, ht⟩ => hb ▸ ht ▸ hQ

theorem Gives.seq (h : s.Gives a b t) (hf : t.Gives (f b) c u) : s.Gives (a >>= f) c u :=
  h.bind hf

theorem Gives.of_get {f : Machine α → Action α γ} (h : ∀ m, m.Shows s → s.Gives (f m) c t) :
    s.Gives (get >>= f) c t := Leads.of_get h

theorem Gives.of_modify {f : Machine α → Machine α} (h : ∀ m, m.Shows s → (f m).Shows t) :
    s.Gives (modify f) () t := fun m hm => ⟨t, h m hm, rfl, rfl⟩

/-- Steps that leave a scene as it is leave it so one after the other. -/
theorem gives_forIn {ι : Type} (xs : List ι)
    {body : ι → PUnit → Action α (ForInStep PUnit)}
    (h : ∀ x ∈ xs, s.Gives (body x PUnit.unit) (.yield PUnit.unit) s) :
    s.Gives (forIn xs PUnit.unit body) PUnit.unit s := by
  induction xs with
  | nil => exact Gives.of_pure _
  | cons x xs ih =>
    rw [List.forIn_cons]
    refine (h x (by simp)).seq ?_
    exact ih fun y hy => h y (by simp [hy])

/-! ### Turns -/

section Turns

variable (s)

theorem gives_wake (w : Waker) : s.Gives (wake w) () s := by
  cases w with
  | main => exact Gives.of_modify fun m hm => hm.woken _ _ _
  | thread t =>
    refine Gives.of_modify fun m hm => ?_
    split
    · exact hm
    · exact hm.woken _ _ _

theorem gives_wakeThread? (t : Option Nat) : s.Gives (wakeThread? t) () s := by
  cases t with
  | none => exact Gives.of_pure ()
  | some t => exact gives_wake s (.thread t)

theorem gives_wakeAt (due : Nat) (w : Waker) : s.Gives (wakeAt due w) () s :=
  Gives.of_modify fun _ hm => hm.woken _ _ _

theorem gives_wakeConsumer : s.Gives (wakeConsumer 0) () s := by
  refine Gives.of_get fun m hm => ?_
  simp only [hm.getElem?_executors]
  split
  · exact gives_wake s _
  · exact Gives.of_pure ()

theorem gives_wakeWorkingFor (wanted : Nat → Bool) : s.Gives (wakeWorkingFor wanted) () s := by
  refine Gives.of_get fun m _ => Gives.seq (b := PUnit.unit) ?_ (gives_wake s .main)
  refine gives_forIn _ fun t _ => ?_
  split
  · split
    · exact (gives_wake s _).seq (Gives.of_pure _)
    · exact Gives.of_pure _
  · exact Gives.of_pure _

/-- Says what a thread does from now on. -/
def become (t : Nat) (a : Activity α) : Scene α :=
  { s with threads := s.threads.modify t fun th => { th with activity := a } }

/-- Lets a thread end when its turn comes. -/
def doom (t : Nat) : Scene α :=
  { s with threads := s.threads.modify t fun th => { th with doomed := true } }

theorem gives_become (t : Nat) (a : Activity α) :
    s.Gives (Machine.become t a) () (s.become t a) :=
  Gives.of_modify fun _ hm => { hm with threads := by simp [Scene.become, hm.threads] }

theorem gives_doom (t : Nat) : s.Gives (Machine.doom t) () (s.doom t) := by
  refine Gives.seq (t := s.doom t) (Gives.of_modify fun m hm => ?_) (gives_wake _ _)
  exact { hm with threads := by simp [Scene.doom, hm.threads] }

end Turns

/-! ### The executor and the pool -/

section Parts

variable (s)

/-- Changes the executor. -/
def update (f : Executor α → Executor α) : Scene α := { s with executor := f s.executor }

/-- Cancels the executor's branch. -/
def cancel : Scene α := { s with cancelled := true }

theorem gives_updateExecutor {f : Executor α → Executor α}
    (hf : ∀ e, (f e).branch = e.branch) : s.Gives (updateExecutor 0 f) () (s.update f) :=
  Gives.of_modify fun m hm =>
    { hm with
      cancelled := by simpa [update, hf] using hm.cancelled
      tasks := by simpa [update, hf] using hm.tasks
      executors := by simp [update, hm.executors] }

theorem gives_updatePool {f : Pool → Pool} (hname : ∀ p, (f p).name = p.name)
    (haccepting : ∀ p, (f p).accepting = p.accepting) : s.Gives (updatePool .union f) () s :=
  Gives.of_modify fun m hm =>
    { hm with
      pool := by simpa [hname] using hm.pool
      accepting := by simpa [haccepting] using hm.accepting }

theorem gives_updateLine (f : List Nat → List Nat) :
    s.Gives (updateCrew .union fun c => { c with line := f c.line }) ()
      { s with line := f s.line } :=
  Gives.of_modify fun m hm => { hm with line := by simp [hm.line] }

theorem gives_updateJobs (f : List (Job α) → List (Job α)) :
    s.Gives (updateCrew .union fun c => { c with jobs := f c.jobs }) ()
      { s with jobs := f s.jobs } :=
  Gives.of_modify fun m hm => { hm with jobs := by simp [hm.jobs] }

theorem gives_endProduction :
    s.Gives (endProduction 0) () (s.update Executor.endProduction) :=
  (gives_updateExecutor s (f := Executor.endProduction) fun _ => rfl).seq (gives_wakeConsumer _)

/-- What hangs on a branch is cancelled with it. -/
theorem shows_cancelBranch {m : Machine α} (hm : m.Shows s) :
    Shows { m with query := m.query.cancelBranch s.executor.branch } s.cancel :=
  { hm with
    cancelled := by
      simp only [QueryContext.isBranchCancelled, QueryContext.cancelBranch, cancel,
        Bool.or_eq_true]
      right
      by_cases h : s.executor.branch < m.query.branches.size <;> simp [h]
    aborted := fun _ => rfl
    tasks := fun t ht => ⟨(hm.tasks t ht).1, fun _ => rfl⟩ }

theorem gives_cancel : s.Gives (Machine.cancel 0) () s.cancel := by
  refine Gives.of_get fun m hm => ?_
  simp only [hm.getElem?_executors]
  exact Gives.seq (t := s.cancel) (Gives.of_modify fun m' hm' => shows_cancelBranch s hm')
    (gives_wakeWorkingFor _ _)

theorem gives_abortQuery : s.Gives abortQuery () s.cancel := by
  refine Gives.seq (t := s.cancel) (Gives.of_modify fun m hm => ?_) (gives_wakeWorkingFor _ _)
  unfold QueryContext.abort
  split
  · have hs := hm.aborted ‹_›
    have : s.cancel = s := by simp [cancel, ← hs]
    exact this ▸ hm
  · exact
      { hm with
        cancelled := by simp [QueryContext.isBranchCancelled, cancel]
        aborted := fun _ => rfl
        registered := by simpa [cancel] using hm.registered
        tasks := by
          intro t ht
          obtain ⟨t', ht', rfl⟩ := Array.mem_map.1 ht
          exact ⟨(hm.tasks t' ht').1, fun _ => rfl⟩ }

theorem branch_toss (e : Executor α) (error : FedError) : (e.toss error).branch = e.branch := by
  unfold Executor.toss
  split <;> rfl

theorem gives_toss_of_closed (h : s.executor.closed) (error : FedError) :
    s.Gives (Machine.toss 0 error) () s := by
  refine Gives.of_get fun m hm => ?_
  simp only [hm.getElem?_executors, h, if_true]
  exact Gives.of_pure ()

theorem gives_toss (h : s.executor.closed = false) (error : FedError) :
    s.Gives (Machine.toss 0 error) () (s.update (·.toss error)).cancel := by
  refine Gives.of_get fun m hm => ?_
  simp only [hm.getElem?_executors, h, Bool.false_eq_true, if_false]
  exact (gives_updateExecutor s (branch_toss · error)).seq
    ((gives_wakeConsumer _).seq (gives_cancel _))

/-- A job that is over is not waited for any more. -/
theorem gives_finishJob {job : Job α} (hjob : job.executor = 0) :
    s.Gives (finishJob job) () (s.update Executor.finishTask) := by
  refine Gives.seq (t := s) (Gives.of_modify fun m hm => ?_) ?_
  · refine { hm with
      deadline := by simpa using hm.deadline
      cancelled := by simpa [QueryContext.isBranchCancelled] using hm.cancelled
      aborted := by simpa using hm.aborted
      registered := by simpa using hm.registered
      tasks := ?_ }
    intro t ht
    obtain ⟨t', ht', hbranch, hcancelled⟩ := QueryContext.mem_tasks_of_deregister ht
    rw [hbranch, hcancelled]
    exact hm.tasks t' ht'
  · rw [hjob]
    refine (gives_updateExecutor s (f := Executor.finishTask) fun _ => rfl).seq ?_
    refine Gives.of_get fun m hm => ?_
    simp only [hm.getElem?_executors]
    split
    · exact (gives_wakeThread? _ _).seq (gives_wake _ _)
    · exact Gives.of_pure ()

end Parts

end Scene

end FederatedSparql
