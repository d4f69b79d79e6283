import FederatedSparql.Proofs.Machine.Books

/-!
Entries in the books of a machine.

The books are changed in few ways, which are the constructors of `Entry`.  `Machine.Enters` says
which entries an action makes, and `Enters.bind` follows an action through its parts.

* `reaches_finishJob`, `reaches_schedule`, `reaches_addResult`: what the actions enter that have to
  do with jobs and results;
* everything else that an action does leaves the books alone.
-/

namespace FederatedSparql

variable {α β γ : Type}

/-! ### Entries -/

/-- What became of a job. -/
inductive Outcome where
  | completed
  | failed
  | cancelled
deriving DecidableEq, Repr

/-- Counts an outcome. -/
def PoolStats.count (s : PoolStats) : Outcome → PoolStats
  | .completed => { s with completed := s.completed + 1 }
  | .failed => { s with failed := s.failed + 1 }
  | .cancelled => { s with cancelled := s.cancelled + 1 }

/-- A change of the books. -/
inductive Entry (α : Type) where
  /-- What a thread has in hand from now on. -/
  | hand (t : Nat) (a : Option (Activity α))
  /-- The jobs that wait from now on. -/
  | jobs (p : PoolName) (rest : List (Job α))
  | counts (p : PoolName) (outcome : Outcome)
  /-- A result is queued. -/
  | queues (id : Nat) (result : Cursor α)
  /-- A task is registered and counted, and its job waits. -/
  | schedules (p : PoolName) (job : Job α)
  /-- A task is over. -/
  | finishes (job : Job α)

namespace Books

/-- Makes an entry. -/
def enter (b : Books α) : Entry α → Books α
  | .hand t a => { b with hand := Function.update b.hand t a }
  | .jobs p rest => { b with jobs := Function.update b.jobs p rest }
  | .counts p outcome => { b with stats := Function.update b.stats p ((b.stats p).count outcome) }
  | .queues id result => { b with queue := Function.update b.queue id (b.queue id ++ [result]) }
  | .schedules p job =>
    { b with
      jobs := Function.update b.jobs p (b.jobs p ++ [job])
      stats := Function.update b.stats p { b.stats p with scheduled := (b.stats p).scheduled + 1 }
      pending := Function.update b.pending job.executor (b.pending job.executor + 1)
      registrations := b.registrations ++ [true] }
  | .finishes job =>
    { b with
      pending := Function.update b.pending job.executor (b.pending job.executor - 1)
      registrations :=
        if job.task = 0 then b.registrations else b.registrations.set (job.task - 1) false }

/-- Makes entries one after another. -/
def enterAll (b : Books α) (xs : List (Entry α)) : Books α := xs.foldl enter b

theorem Within.enter {b b' : Books α} (h : b.Within b') (x : Entry α) :
    (b.enter x).Within (b'.enter x) := by
  obtain ⟨hhand, hjobs, hstats, hpending, hqueue, hregistrations⟩ := h
  have hsame {ι δ : Type} [DecidableEq ι] {f g : ι → δ} (hfg : ∀ i, g i = f i) (i : ι) (v : δ) :
      ∀ j, Function.update g i v j = Function.update f i v j := by
    rw [show g = f from funext hfg]
    exact fun _ => rfl
  cases x with
  | hand t a => exact ⟨hsame hhand t a, hjobs, hstats, hpending, hqueue, hregistrations⟩
  | jobs p rest => exact ⟨hhand, hsame hjobs p rest, hstats, hpending, hqueue, hregistrations⟩
  | counts p outcome =>
    refine ⟨hhand, hjobs, ?_, hpending, hqueue, hregistrations⟩
    simp only [Books.enter, hstats p]
    exact hsame hstats p _
  | queues id result =>
    refine ⟨hhand, hjobs, hstats, hpending, fun i => ?_, hregistrations⟩
    by_cases hi : i = id
    · subst hi
      obtain ⟨taken, htaken⟩ := hqueue i
      simp only [Books.enter, Function.update_self]
      exact ⟨taken, by rw [← htaken, List.append_assoc]⟩
    · simpa only [Books.enter, Function.update_of_ne hi] using hqueue i
  | schedules p job =>
    refine ⟨hhand, ?_, ?_, ?_, hqueue, ?_⟩
    · simp only [Books.enter, hjobs p]
      exact hsame hjobs p _
    · simp only [Books.enter, hstats p]
      exact hsame hstats p _
    · simp only [Books.enter, hpending job.executor]
      exact hsame hpending job.executor _
    · simp only [Books.enter, hregistrations]
  | finishes job =>
    refine ⟨hhand, hjobs, hstats, ?_, hqueue, ?_⟩
    · simp only [Books.enter, hpending job.executor]
      exact hsame hpending job.executor _
    · simp only [Books.enter, hregistrations]

theorem Within.enterAll {b b' : Books α} (h : b.Within b') (xs : List (Entry α)) :
    (b.enterAll xs).Within (b'.enterAll xs) := by
  induction xs generalizing b b' with
  | nil => exact h
  | cons x xs ih => exact ih (h.enter x)

end Books

/-- An aborted query takes no more tasks. -/
theorem QueryContext.register_eq (q : QueryContext) (branch : Option Nat) :
    q.register branch =
      if q.aborted then .error (.aborted q.id)
      else .ok (q.tasks.size + 1, { q with tasks := q.tasks.push { branch } }) := by
  unfold register checkAborted
  split <;> rfl

/-- All tasks of a query that is cancelled are cancelled. -/
theorem QueryContext.isTaskCancelled_of_cancelled (q : QueryContext) (h : q.cancelled = true)
    (task : Nat) : q.isTaskCancelled task = true := by
  unfold isTaskCancelled isRecordCancelled
  split <;> simp [h]

namespace Machine

/-! ### Following actions -/

section Following

variable {m m' m'' : Machine α} {b : Books α} {t : Nat} {xs ys : List (Entry α)}
  {a : Action α β} {f : β → Action α γ}

/-- What is done next is entered next. -/
theorem Reaches.enterAll (h : m.Reaches b m') (h' : m'.Reaches (m'.books.enterAll ys) m'') :
    m.Reaches (b.enterAll ys) m'' where
  toOnward := h.toOnward.trans h'.toOnward
  toWithin := (h.toWithin.enterAll ys).trans h'.toWithin

/-- An action makes entries, on every machine that has the thread whose turn it is. -/
def Enters (t : Nat) (xs : List (Entry α)) (a : Action α β) : Prop :=
  ∀ m : Machine α, t < m.threads.size → m.Reaches (m.books.enterAll xs) (after a m)

theorem Leaves.enters (h : Leaves a) (t : Nat) : Enters t [] a := fun m _ => h m

theorem Enters.bind (h : Enters t xs a) (hf : ∀ b, Enters t ys (f b)) :
    Enters t (xs ++ ys) (a >>= f) := by
  intro m ht
  rw [Books.enterAll, List.foldl_append]
  have hfirst := h m ht
  exact hfirst.enterAll (hf _ _ (Nat.lt_of_lt_of_le ht hfirst.threads))

theorem Enters.of_pure (b : β) : Enters t [] (pure b : Action α β) := (Leaves.of_pure b).enters t

end Following

/-! ### The entries of actions -/

section Actions

variable {t : Nat} {p : PoolName} {job : Job α}

/-- What a thread has in hand when it does this. -/
def inHand (a : Activity α) : Option (Activity α) := if a.job?.isSome then some a else none

theorem enters_become (t : Nat) (a : Activity α) : Enters t [.hand t (inHand a)] (become t a) := by
  intro m ht
  have hhand (u : Nat) : hand { m with threads := m.threads.modify t fun s =>
      { s with activity := a } } u = Function.update m.hand t (inHand a) u := by
    rw [hand_modify]
    by_cases hu : t = u
    · subst hu
      rw [if_pos rfl, Function.update_self, Array.getElem?_eq_getElem ht]
      rfl
    · rw [if_neg hu, Function.update_of_ne (Ne.symm hu)]
  exact { Untouched.refl m with
    threads := Array.size_modify.ge
    hand := hhand
    jobs := fun p => by cases p <;> rfl
    stats := fun p => by cases p <;> rfl }

theorem reaches_updateCrew_jobs (m : Machine α) (p : PoolName) (rest : List (Job α)) :
    m.Reaches (m.books.enterAll [.jobs p rest])
      (after (updateCrew p fun c => { c with jobs := rest }) m) := by
  cases p <;> exact { Untouched.refl m with
    jobs := fun p => by cases p <;> rfl
    stats := fun p => by cases p <;> rfl }

theorem enters_updatePool {f : Pool → Pool} {outcome : Outcome}
    (hf : ∀ pool : Pool, (f pool).stats = pool.stats.count outcome) :
    Enters (α := α) t [.counts p outcome] (updatePool p f) := by
  intro m _
  cases p <;> exact { Untouched.refl m with
    jobs := fun p => by cases p <;> rfl
    stats := fun p => by cases p <;> first | exact hf _ | rfl }

/-- A result is queued. -/
theorem reaches_updateExecutor_push (m : Machine α) {id : Nat} {result : Cursor α}
    {f : Executor α → Executor α}
    (hf : ∀ e, (f e).pending = e.pending ∧ (f e).queue = e.queue ++ [result]) :
    m.Reaches (m.books.enterAll [.queues id result]) (after (updateExecutor id f) m) := by
  have hpending (i : Nat) :
      pendingOf { m with executors := m.executors.modify id f } i = m.pendingOf i := by
    rw [pendingOf_modify]
    by_cases hi : id = i
    · rw [if_pos hi, pendingOf]
      simp only [(hf _).1]
    · rw [if_neg hi]
  have hqueue (i : Nat) : queueOf { m with executors := m.executors.modify id f } i <:+
      Function.update m.queueOf id (m.queueOf id ++ [result]) i := by
    rw [queueOf_modify]
    by_cases hi : id = i
    · subst hi
      rw [if_pos rfl, Function.update_self, queueOf]
      cases m.executors[id]? with
      | none => exact List.nil_suffix
      | some e => simp [(hf e).2]
    · rw [if_neg hi, Function.update_of_ne (Ne.symm hi)]
  exact { Untouched.refl m with
    executors := Array.size_modify.ge
    jobs := fun p => by cases p <;> rfl
    stats := fun p => by cases p <;> rfl
    pending := hpending
    queue := hqueue }

theorem registrations_deregister (q : QueryContext) (task : Nat) :
    (q.deregister task).tasks.toList.map (·.registered) =
      if task = 0 then q.tasks.toList.map (·.registered)
      else (q.tasks.toList.map (·.registered)).set (task - 1) false := by
  unfold QueryContext.deregister
  split
  · rfl
  · simp only [Array.toList_modify]
    refine List.ext_getElem? fun i => ?_
    simp only [List.getElem?_map, List.getElem?_modify, List.getElem?_set, List.length_map]
    by_cases hi : task - 1 = i
    · subst hi
      simp only [if_true]
      split
      · next h => simp [List.getElem?_eq_getElem h]
      · next h => simp [List.getElem?_eq_none (Nat.le_of_not_lt h)]
    · simp [hi]

@[simp] theorem id_deregister (q : QueryContext) (task : Nat) : (q.deregister task).id = q.id := by
  unfold QueryContext.deregister
  split <;> rfl

theorem reaches_finishJob (m : Machine α) (job : Job α) :
    m.Reaches (m.books.enterAll [.finishes job]) (after (finishJob job) m) := by
  have finishes : m.Reaches (m.books.enterAll [.finishes job]) (after (do
      modify fun m : Machine α => { m with query := m.query.deregister job.task }
      updateExecutor job.executor Executor.finishTask) m) := by
    have hpending (i : Nat) :
        pendingOf { m with executors := m.executors.modify job.executor Executor.finishTask } i =
          Function.update m.pendingOf job.executor (m.pendingOf job.executor - 1) i := by
      rw [pendingOf_modify]
      by_cases hi : job.executor = i
      · subst hi
        rw [if_pos rfl, Function.update_self, pendingOf]
        cases m.executors[job.executor]? <;> rfl
      · rw [if_neg hi, Function.update_of_ne (Ne.symm hi)]
    have hqueue (i : Nat) :
        queueOf { m with executors := m.executors.modify job.executor Executor.finishTask } i <:+
          m.queueOf i := by
      rw [queueOf_modify]
      by_cases hi : job.executor = i
      · rw [if_pos hi]
        exact List.suffix_refl _
      · rw [if_neg hi]
    exact { Untouched.refl m with
      executors := Array.size_modify.ge
      query := id_deregister _ _
      aborted := fun h haborted => (QueryContext.cancelled_deregister m.query job.task).trans
        (h ((QueryContext.aborted_deregister m.query job.task).symm.trans haborted))
      cancelled := (QueryContext.cancelled_deregister m.query job.task).trans
      jobs := fun p => by cases p <;> rfl
      stats := fun p => by cases p <;> rfl
      pending := hpending
      queue := hqueue
      registrations := registrations_deregister _ _ }
  exact finishes.trans (frame_untouched.keeps_wakeFinished job.executor _)

theorem enters_finishJob (job : Job α) : Enters t [.finishes job] (finishJob job) :=
  fun m _ => m.reaches_finishJob job

theorem leaves_leaveLine (p : PoolName) (t : Nat) : Leaves (leaveLine p t : Action α Unit) := by
  have leaves : Leaves (updateCrew p fun c : Crew α => { c with line := c.line.filter (· != t) }) :=
    leaves_updateCrew fun _ => ⟨rfl, rfl⟩
  exact leaves.bind fun _ => Leaves.of_get fun _ => leaves_wakeThread? _

theorem enters_endJob (p : PoolName) (t : Nat) (job : Job α) :
    Enters t [.finishes job, .hand t none] (endJob p t job) :=
  (enters_finishJob job).bind fun _ => (enters_become t (.idle p)).bind fun _ => .of_pure _

/-- A task of an executor is counted. -/
theorem pendingOf_addTask {m : Machine α} {id : Nat} (hid : id < m.executors.size) (i : Nat) :
    pendingOf { m with executors := m.executors.modify id Executor.addTask } i =
      Function.update m.pendingOf id (m.pendingOf id + 1) i := by
  rw [pendingOf_modify]
  by_cases hi : id = i
  · subst hi
    rw [if_pos rfl, Function.update_self, pendingOf, Array.getElem?_eq_getElem hid]
    rfl
  · rw [if_neg hi, Function.update_of_ne (Ne.symm hi)]

/-- A task is registered, counted and given to a pool. -/
theorem reaches_addJob (m : Machine α) (p : PoolName) (job : Job α) (record : TaskRecord)
    (hexecutor : job.executor < m.executors.size) (hrecord : record.registered = true) :
    m.Reaches (m.books.enterAll [.schedules p job]) (after (do
      modify fun m : Machine α =>
        { m with query := { m.query with tasks := m.query.tasks.push record } }
      updateExecutor job.executor Executor.addTask
      updateCrew p fun c =>
        { c with pool := c.pool.countScheduled, jobs := c.jobs ++ [job] }) m) := by
  have hqueue (i : Nat) :
      queueOf { m with executors := m.executors.modify job.executor Executor.addTask } i <:+
        m.queueOf i := by
    rw [queueOf_modify]
    by_cases hi : job.executor = i
    · rw [if_pos hi]
      exact List.suffix_refl _
    · rw [if_neg hi]
  have hregistrations : (m.query.tasks.push record).toList.map (·.registered) =
      m.registrations ++ [true] := by
    rw [Array.toList_push, List.map_append, List.map_singleton, hrecord]
    rfl
  cases p <;> exact { Untouched.refl m with
    executors := Array.size_modify.ge
    jobs := fun p => by cases p <;> rfl
    stats := fun p => by cases p <;> rfl
    pending := pendingOf_addTask hexecutor
    queue := hqueue
    registrations := hregistrations }

/-- A task is scheduled, or nothing has been done. -/
theorem reaches_schedule (m : Machine α) (p : PoolName) (id : Nat) (name : String) (work : Work α) :
    m.Untouched (after (schedule p id name work) m) ∨
      m.query.aborted = false ∧ id < m.executors.size ∧
        m.Reaches (m.books.enterAll
            [.schedules p { executor := id, task := m.registrations.length + 1, name, work }])
          (after (schedule p id name work) m) := by
  rw [schedule, after_get_bind]
  split
  · exact .inl (.refl m)
  · exact .inl (.refl m)
  · next e _ he =>
    rw [QueryContext.register_eq]
    by_cases haborted : m.query.aborted = true
    · rw [if_pos haborted]
      exact .inl (.refl m)
    · rw [if_neg haborted]
      have hid : id < m.executors.size := (Array.getElem?_eq_some_iff.mp he).1
      have hlength : m.registrations.length = m.query.tasks.size := by simp [registrations]
      refine .inr ⟨by simpa using haborted, hid, ?_⟩
      rw [hlength]
      have added := m.reaches_addJob p
        { executor := id, task := m.query.tasks.size + 1, name, work } { branch := some e.branch }
        hid rfl
      exact added.trans ((leaves_wakeThread? _).bind (fun _ => Leaves.of_pure _) _)

/-- As long as a result is taken, the query is not cancelled. -/
theorem cancelled_eq_false {m : Machine α} {e : Executor α} (h : m.isCancelled e = false) :
    m.query.cancelled = false := by
  rw [isCancelled, QueryContext.isBranchCancelled, Bool.or_eq_false_iff] at h
  exact h.1

/-- A result is queued by hand as long as the query is not cancelled, or nothing has been done. -/
theorem reaches_addResult (m : Machine α) (id : Nat) (result : Cursor α) :
    m.Untouched (after (addResult id result) m) ∨
      m.query.cancelled = false ∧
        m.Reaches (m.books.enterAll [.queues id result]) (after (addResult id result) m) := by
  rw [addResult, after_get_bind]
  split
  · exact .inl (.refl m)
  · next e _ =>
    split
    · next hadmission =>
      have hlive : m.isCancelled e = false := by
        unfold Executor.admission Executor.isActive at hadmission
        cases hcancelled : m.isCancelled e with
        | true => simp [hcancelled] at hadmission
        | false => rfl
      have pushed : m.Reaches (m.books.enterAll [.queues id result])
          (after (updateExecutor id (·.push result)) m) :=
        m.reaches_updateExecutor_push fun _ => ⟨rfl, rfl⟩
      have wakes : Leaves (do wakeConsumer id; if e.firstOnly then cancel id : Action α Unit) := by
        refine (leaves_wakeConsumer id).bind fun _ => ?_
        split
        · exact leaves_cancel id
        · exact Leaves.of_pure ()
      exact .inr ⟨cancelled_eq_false hlive, pushed.trans (wakes _)⟩
    · exact .inl (leaves_discard result m)

end Actions

end Machine

end FederatedSparql
