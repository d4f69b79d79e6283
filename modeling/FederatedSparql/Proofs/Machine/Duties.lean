import FederatedSparql.Proofs.Machine.Crews
import FederatedSparql.Proofs.Machine.Turning

/-!
What workers do about what is written down.

A worker takes a job, works at it, and hands the result to the executor of the job; then the task is
over.

* `Machine.exists_turnOver_deliver`: a result is handed over, waits for room, or is not wanted.
* `Machine.exists_turnOver_stepWorking`, `Machine.exists_turnOver_stepSending`,
  `Machine.exists_turnOver_stepIdle`: so workers do their part, whatever they are at.
-/

namespace FederatedSparql

variable {α : Type}

/-! ### Tasks that are over -/

/-- A task is over. -/
def Dues.finish (d : Dues α) (job : Job α) : Dues α :=
  { d with
    tasks := fun i => if i = job.executor then (d.tasks i).erase job.task else d.tasks i }

theorem Dues.finish_tasks_of_ne {d : Dues α} {job : Job α} {i : Nat} (hi : i ≠ job.executor) :
    (d.finish job).tasks i = d.tasks i := if_neg hi

theorem Dues.finish_tasks (d : Dues α) (job : Job α) :
    (d.finish job).tasks job.executor = (d.tasks job.executor).erase job.task := if_pos rfl

section Executors

variable [DecidableEq α] {answers : Answers} {d : Dues α} {job : Job α} {e : Executor α}
  {c : Cursor α} {size : Nat} {cancelled : Bool}

/-- A result that is known to be empty is worth nothing. -/
theorem Cursor.Comes.eq_zero {owed : Nat → Multiset α} {M : Multiset α}
    (hc : c.Comes answers owed M) (hempty : c.isKnownEmpty = true) : M = 0 := by
  cases c with
  | pipe source => cases hempty
  | buffered xs =>
    obtain rfl : xs = [] := List.isEmpty_iff.1 hempty
    exact Eq.symm hc
  | _ => exact Eq.symm hc

namespace Executor

/-- An executor does its part without a task that brings nothing any more. -/
theorem Serves.finishTask (h : e.Serves answers d size job.executor cancelled)
    (htask : job.task ∈ d.tasks job.executor)
    (hnothing : e.closed = true ∨ e.producing = false ∨ d.result job.task = 0) :
    e.finishTask.Serves answers (d.finish job) size job.executor cancelled where
  finished := h.finished
  settled := h.settled
  goesOn hopen := by
    have hgoes := h.goesOn hopen
    obtain ⟨Ms, N, hcontents, howed, hN⟩ := hgoes.content
    refine ⟨hgoes.error, hgoes.receiving, ?_, hgoes.cancelled, ⟨Ms, N, hcontents, howed, ?_⟩,
      fun hfirst hproducing => ?_, hgoes.single⟩
    · show e.pending - 1 = _
      rw [Dues.finish_tasks, Finset.card_erase_of_mem htask, hgoes.pending]
    · show Dues.Outstanding _ _ e.firstOnly e.producing N
      cases hproducing : e.producing with
      | false =>
        rw [hproducing] at hN
        exact hN
      | true =>
        have hzero : d.result job.task = 0 := by
          obtain hclosed | hnot | hzero := hnothing
          · exact absurd hclosed (by rw [show e.closed = false from hopen]; exact nofun)
          · exact absurd hproducing (by rw [hnot]; exact nofun)
          · exact hzero
        rw [hproducing] at hN
        cases hfirst : e.firstOnly with
        | false =>
          rw [hfirst] at hN
          refine Eq.trans hN ?_
          rw [Dues.finish_tasks]
          exact congrArg (· + _) (Finset.sum_erase _ hzero).symm
        | true =>
          rw [hfirst] at hN
          obtain ⟨hall, hrest, hgives⟩ := hN
          refine ⟨fun k hk => ?_, hrest, ?_⟩
          · rw [Dues.finish_tasks] at hk
            exact hall k (Finset.mem_of_mem_erase hk)
          · rw [Dues.finish_tasks]
            obtain hM | hM | ⟨k, hk, hM⟩ := hgives
            · exact .inl hM
            · exact .inr (.inl hM)
            · by_cases hsame : k = job.task
              · exact .inl (hM.symm.trans (hsame ▸ hzero))
              · exact .inr (.inr ⟨k, Finset.mem_erase.2 ⟨hsame, hk⟩, hM⟩)
    · rw [Dues.finish_tasks, hgoes.tasksOver hfirst hproducing, Finset.erase_empty]
  holds := h.holds.keep (Nat.le_refl _) fun _ _ => rfl
  later := h.later

/-- An executor has taken a result over, and does its part without the task. -/
theorem Serves.push {t : Nat} (cancelled' : Bool) (waiting : List Nat)
    (h : e.Serves answers d size job.executor cancelled)
    (htask : job.task ∈ d.tasks job.executor)
    (hcomes : c.Comes answers d.owed (d.result job.task))
    (hholds : d.Holds size (.thread t) c.held) (hlater : ∀ i ∈ c.held, job.executor < i)
    (hproducing : e.closed = false → e.producing = true)
    (hfirst : e.firstOnly = true → d.result job.task ≠ 0 ∧ waiting = [])
    (hcancelled : cancelled' = true → e.closed = false → e.firstOnly = true) :
    Executor.Serves answers (Dues.finish
        { d with holder := fun i => if i ∈ c.held then .executor job.executor else d.holder i } job)
      size job.executor ({ e.push c with waiting := waiting } : Executor α).finishTask cancelled' := by
  set e' := ({ e.push c with waiting := waiting } : Executor α).finishTask with he'
  have hcontents : e'.contents = e.contents ++ [c] := (List.append_assoc _ _ _).symm
  have hheld : heldByAll e'.contents = heldByAll e.contents ++ c.held := by
    rw [hcontents, heldByAll_append]
    simp [heldByAll]
  refine ⟨h.finished, h.settled, fun hopen => ?_, ?_, fun i hi => ?_⟩
  · have hgoes := h.goesOn hopen
    obtain ⟨Ms, N, hcomes', howed, hN⟩ := hgoes.content
    rw [hproducing hopen] at hN
    have hpending : e'.pending = ((d.tasks job.executor).erase job.task).card := by
      rw [Finset.card_erase_of_mem htask, ← hgoes.pending]
      rfl
    have hall : List.Forall₂ (fun c M => c.Comes answers d.owed M) e'.contents
        (Ms ++ [d.result job.task]) := hcontents ▸ List.rel_append hcomes' (.cons hcomes .nil)
    have htasks := Dues.finish_tasks
      { d with holder := fun i => if i ∈ c.held then .executor job.executor else d.holder i } job
    cases hof : e.firstOnly with
    | false =>
      have hgoesOn : e'.producing = true := by
        show (e.producing && !e.firstOnly) = true
        rw [hproducing hopen, hof]
        rfl
      rw [hof] at hN
      refine ⟨hgoes.error, hgoes.receiving, hpending.trans (by rw [htasks]), fun hx => ?_,
        ⟨_, ∑ k ∈ (d.tasks job.executor).erase job.task, d.result k + d.rest job.executor, hall, ?_,
          ?_⟩, fun _ hnot => ?_, fun hx => ?_⟩
      · exact absurd (hcancelled hx hopen) (by simp [hof])
      · show d.owed job.executor = _
        rw [howed, show N = _ from hN, ← Finset.add_sum_erase _ _ htask, List.sum_append,
          List.sum_singleton, add_assoc, add_assoc]
      · rw [hgoesOn, show e'.firstOnly = false from hof]
        show _ = ∑ k ∈ (Dues.finish _ job).tasks job.executor, _ + _
        rw [htasks]
        rfl
      · rw [hgoesOn] at hnot
        cases hnot
      · exact absurd hx (by rw [show e'.firstOnly = false from hof]; exact nofun)
    | true =>
      obtain ⟨hsome, hnone⟩ := hfirst hof
      have hover : e'.producing = false := by
        show (e.producing && !e.firstOnly) = false
        rw [hof, Bool.not_true, Bool.and_false]
      have hempty := (hgoes.single hof).2 (hproducing hopen)
      rw [hof] at hN
      have hsame := (hN.1 job.task htask).resolve_left hsome
      rw [hempty] at hcomes'
      obtain _ | _ := hcomes'
      refine ⟨hgoes.error, hgoes.receiving, hpending.trans (by rw [htasks]),
        fun _ => ⟨hof, hover⟩, ⟨_, 0, hall, ?_, ?_⟩, fun hnot => ?_, fun _ => ⟨hnone, fun hx => ?_⟩⟩
      · show d.owed job.executor = _
        rw [howed, hsame]
        simp
      · rw [hover]
        exact rfl
      · exact absurd hof (by rw [show e.firstOnly = false from hnot]; exact nofun)
      · rw [hover] at hx
        cases hx
  · rw [hheld]
    refine ⟨List.nodup_append.2 ⟨h.holds.nodup, hholds.nodup, ?_⟩, fun i hi => ?_, fun i hi => ?_⟩
    · rintro i hi j hj rfl
      have hsame := (h.holds.holder i hi).symm.trans (hholds.holder i hj)
      cases hsame
    · show (if i ∈ c.held then _ else d.holder i) = _
      split
      · rfl
      · next hmem => exact h.holds.holder i ((List.mem_append.1 hi).resolve_right hmem)
    · exact (List.mem_append.1 hi).elim (h.holds.exist i) (hholds.exist i)
  · rw [hheld] at hi
    exact (List.mem_append.1 hi).elim (h.later i) (hlater i)

/-! ### Results that are handed over -/

omit [DecidableEq α] in
theorem admission_ne_dropped (h : e.admission cancelled c ≠ .dropped) :
    c.isKnownEmpty = false ∧ e.closed = false ∧ e.producing = true := by
  unfold Executor.admission at h
  split at h
  · exact absurd rfl h
  · next hwanted =>
    cases hempty : c.isKnownEmpty <;> cases hclosed : e.closed <;> cases hproducing : e.producing <;>
      simp_all [Executor.isActive]

omit [DecidableEq α] in
/-- A result waits only if others wait already or the queue is full. -/
theorem admission_waits (h : e.admission cancelled c = .waits) : e.queue ≠ [] ∨ e.waiting ≠ [] := by
  unfold Executor.admission at h
  split at h
  · cases h
  · split at h
    · cases h
    · next hfull =>
      simp only [Bool.and_eq_true, decide_eq_true_eq, List.isEmpty_iff, not_and] at hfull
      by_cases hqueue : e.queue = []
      · refine .inr (hfull ?_)
        rw [hqueue]
        exact Nat.succ_pos 1023
      · exact .inl hqueue

/-- What is dropped is worth nothing, or nothing is wanted any more. -/
theorem Serves.nothing_of_dropped {id : Nat} {M : Multiset α}
    (h : e.Serves answers d size id cancelled) (hc : c.Comes answers d.owed M)
    (hdropped : e.admission cancelled c = .dropped) :
    e.closed = true ∨ e.producing = false ∨ M = 0 := by
  cases hclosed : e.closed with
  | true => exact .inl rfl
  | false =>
    have hgoes := h.goesOn hclosed
    cases hproducing : e.producing with
    | false => exact .inr (.inl rfl)
    | true =>
      have hnot : cancelled = false := by
        cases hx : cancelled with
        | false => rfl
        | true => exact absurd (hgoes.cancelled hx).2 (by simp [hproducing])
      refine .inr (.inr (hc.eq_zero ?_))
      by_contra hsome
      have hwanted : ¬ (c.isKnownEmpty || !e.isActive cancelled || e.error.isSome || !e.producing ||
          !e.receiving) = true := by
        simp [Executor.isActive, hsome, hnot, hclosed, hgoes.error, hproducing, hgoes.receiving]
      rw [Executor.admission, if_neg hwanted] at hdropped
      split_ifs at hdropped

end Executor

end Executors

namespace Machine

variable [DecidableEq α] {answers : Answers} {m m' m'' : Machine α} {d d' d'' : Dues α}
  {X : Set Holder} {t : Nat} {a : Activity α} {ids : List Nat} {job : Job α} {e : Executor α}

/-! ### Jobs that are over -/

/-- A task that somebody has in hand who is excepted may be over. -/
theorem Honours.finishTask (h : m.Honours answers d X) (ht : .thread t ∈ X)
    (hid : .executor job.executor ∈ X) (hat : m.JobAt d (.thread t) job) :
    m.Honours answers (d.finish job) X := by
  have hne {i : Nat} (hi : .executor i ∉ X) : i ≠ job.executor := fun hsame => hi (hsame ▸ hid)
  refine h.reckon (fun _ _ _ => ⟨rfl, rfl⟩)
    (fun i e _ hi => ⟨Dues.finish_tasks_of_ne (hne hi), rfl, fun _ _ => rfl, .inl rfl⟩)
    (fun job' hjob' => ⟨rfl, rfl, ?_⟩) (fun _ _ i _ _ _ _ => ⟨rfl, fun hempty => ?_⟩)
    fun i k hk => ?_
  · obtain ⟨spot, hat', hother⟩ := h.jobAt hjob'
    by_cases hi : job'.executor = job.executor
    · rw [hi, Dues.finish_tasks, Finset.mem_erase]
      refine ⟨fun hsame => hother t ?_ ht, hi ▸ hat'.isOpen⟩
      rw [← hat'.spot, hsame, hat.spot]
    · rw [Dues.finish_tasks_of_ne hi]
      exact hat'.isOpen
  · by_cases hi : i = job.executor
    · subst hi
      rw [Dues.finish_tasks, hempty, Finset.erase_empty]
    · rw [Dues.finish_tasks_of_ne hi, hempty]
  · by_cases hi : i = job.executor
    · subst hi
      rw [Dues.finish_tasks] at hk
      exact h.known _ k (Finset.mem_of_mem_erase hk)
    · rw [Dues.finish_tasks_of_ne hi] at hk
      exact h.known i k hk

/-- A job is noted to be over. -/
def noteFinished (m : Machine α) (job : Job α) : Machine α :=
  after (updateExecutor job.executor Executor.finishTask)
    { m with query := m.query.deregister job.task }

omit [DecidableEq α] in
theorem alike_finishJob (m : Machine α) (job : Job α) :
    (noteFinished m job).Alike (after (finishJob job) m) := by
  rw [finishJob, after_bind, after_bind, after_get_bind]
  split
  · split
    · exact (alike_wakeThread? _ _).trans (alike_wake .main _)
    · exact .refl _
  · exact .refl _

omit [DecidableEq α] in
theorem getElem?_deregister (q : QueryContext) (task k : Nat) {record : TaskRecord}
    (hrecord : q.tasks[k]? = some record) :
    ∃ record', (q.deregister task).tasks[k]? = some record' ∧ record'.branch = record.branch := by
  unfold QueryContext.deregister
  split
  · exact ⟨record, hrecord, rfl⟩
  · refine ⟨if task - 1 = k then { record with registered := false } else record, ?_,
      by split <;> rfl⟩
    rw [Array.getElem?_modify, hrecord]
    split <;> rfl

/-- A job is noted to be over whose task somebody has in hand who is excepted. -/
theorem Honours.finishJob (h : m.Honours answers d X) (ht : .thread t ∈ X)
    (hid : .executor job.executor ∈ X) (hat : m.JobAt d (.thread t) job) :
    (noteFinished m job).Honours answers (d.finish job) X := by
  obtain ⟨e, _, he, -⟩ := hat.hangs
  have hquery : Honours answers { m with query := m.query.deregister job.task } (d.finish job) X := by
    refine (h.finishTask ht hid hat).requery (by simp) (by simp) (by simp) (by simp)
      (fun k record hrecord => getElem?_deregister _ _ _ hrecord) (fun task htask => ?_) (by simp)
    obtain ⟨task', htask', -, hcancelled⟩ := QueryContext.mem_tasks_of_deregister htask
    exact hcancelled.trans (h.calm.hanging task' htask')
  exact hquery.update he hid rfl rfl rfl id fun _ _ _ hp => hp

/-- **A worker notes that its job is over, and is free again**, if the executor does its part without
the task. -/
theorem Attending.endJob (h : Attending answers t a m d job.executor m' d' e ids) (p : PoolName)
    (ha : a.job? = some job) (hat : m'.JobAt d' (.thread t) job)
    (hserves : e.finishTask.Serves answers (d'.finish job) m'.executors.size job.executor
      (m'.isCancelled e)) :
    TurnOver answers m d (after (endJob p t job) m') (d'.finish job) := by
  have hfinishes := h.honours.finishJob (t := t) (by simp) (Set.mem_insert _ _) hat
  have hserves' : (noteFinished m' job).Honours answers (d'.finish job)
      (insert (.thread t) {.main}) := by
    refine hfinishes.restore (e := e.finishTask) (getElem?_updateExecutor _ h.executor) ?_
    have hsize : (noteFinished m' job).executors.size = m'.executors.size := Array.size_modify
    have hcancelled : (noteFinished m' job).isCancelled e.finishTask = m'.isCancelled e := by
      show (m'.query.deregister job.task).isBranchCancelled e.branch = _
      simp [Machine.isCancelled, QueryContext.isBranchCancelled]
    rw [hsize, hcancelled]
    exact hserves
  have hturning : Turning answers t a m d (noteFinished m' job) (d'.finish job) [] := {
    toLeavesMain := h.toLeavesMain.trans
      ⟨Array.size_modify.symm.le, fun i _ hmain => ⟨rfl, hmain⟩⟩
    honours := hserves'
    grasps := ⟨h.grasps.mem, .nil, fun j hj => by simp at hj, h.grasps.threads⟩
    later := h.later.trans {
      executors := (Later.update h.executor (f := Executor.finishTask) rfl rfl rfl id).executors
      tasks := fun k record hrecord => getElem?_deregister _ _ _ hrecord }
    thread := h.thread }
  exact (hturning.alike (alike_finishJob m' job)).becomeWorker ha trivial

/-- Nothing more is to come of a job. -/
def Unwanted (m : Machine α) (d : Dues α) (job : Job α) : Prop :=
  ∀ e, m.executors[job.executor]? = some e →
    e.closed = true ∨ e.producing = false ∨ d.result job.task = 0

/-! ### Workers -/

section Workers

variable {p : PoolName} {c : Cursor α}

omit [DecidableEq α] in
/-- A job is where it was after something else has been done. -/
theorem JobAt.beside {spot : Spot} (h : m.JobAt d spot job) (hm : Beside X ids m d m' d') :
    m'.JobAt d' spot job :=
  h.later hm.later (by rw [hm.spot]; exact h.spot) (by
    rw [hm.tasks _ h.executor_lt]
    exact h.isOpen)

omit [DecidableEq α] in
theorem Unwanted.beside (h : m.Unwanted d job) {spot : Spot} (hat : m.JobAt d spot job)
    (hm : Beside X ids m d m' d') : m'.Unwanted d' job := by
  intro e' he'
  obtain ⟨e, _, he, -⟩ := hat.hangs
  obtain ⟨e₁, he₁, -, -, -, hcloses⟩ := hm.later.executors _ e he
  obtain rfl : e₁ = e' := Option.some.inj (he₁.symm.trans he')
  cases hclosed : e₁.closed with
  | true => exact .inl rfl
  | false =>
    rw [hm.producing _ e e₁ he he₁ hclosed, hm.result]
    refine (h e he).imp_left fun hc => ?_
    rw [← hclosed, hcloses hc]

/-- A job is over of which nothing more is to come. -/
theorem Turning.giveUp (h : Turning answers t a m d m' d' ids) (p : PoolName)
    (ha : a.job? = some job) (hat : m'.JobAt d' (.thread t) job) (hnothing : m'.Unwanted d' job) :
    TurnOver answers m d (after (Machine.endJob p t job) m') (d'.finish job) := by
  obtain ⟨e, _, he, -⟩ := hat.hangs
  have hserves := h.honours.executors _ e he (by simp)
  exact (h.attend he).endJob p ha hat (hserves.finishTask hat.isOpen (hnothing e he))

omit [DecidableEq α] in
theorem later_cancel (id : Nat) (m : Machine α) : m.Later (after (cancel id) m) := by
  rw [Machine.cancel, after_get_bind]
  split
  · rw [after_bind]
    refine Later.trans ?_ (alike_wakeWorkingFor _ _).later
    exact .of_executors rfl fun _ record hrecord => ⟨record, hrecord, rfl⟩
  · exact .refl m

omit [DecidableEq α] in
/-- A pool counts something. -/
theorem alike_updatePool {f : Pool → Pool} (hf : ∀ pool, (f pool).accepting = pool.accepting)
    (p : PoolName) (m : Machine α) : m.Alike (after (updatePool p f) m) :=
  alike_updateCrew (f := fun c => { c with pool := f c.pool }) (fun c => ⟨rfl, hf c.pool⟩) m

/-- A worker is free again that has handed a result over. -/
theorem Attending.handOver {e' : Executor α}
    (h : Attending answers t a m d job.executor m' d' e' c.held) (p : PoolName)
    (ha : a.job? = some job) (hat : m'.JobAt d' (.thread t) job)
    (hserves : e'.finishTask.Serves answers (Dues.finish
        { d' with holder := fun i => if i ∈ c.held then .executor job.executor else d'.holder i } job)
      m'.executors.size job.executor (m'.isCancelled e')) :
    ∃ d'', TurnOver answers m d (after (Machine.endJob p t job) m') d'' :=
  ⟨_, h.hand.endJob p ha ⟨hat.spot, hat.isOpen, hat.pos, hat.hangs⟩ hserves⟩

/-- **A result is handed over, waits for room, or is not wanted.** -/
theorem exists_turnOver_deliver (h : Turning answers t a m d m' d' c.held) (p : PoolName)
    (ha : a.job? = some job) (hat : m'.JobAt d' (.thread t) job)
    (hcomes : c.Comes answers d'.owed (d'.result job.task))
    (hfetched : m'.OfFirst job.executor
      (∃ xs : List α, c = .ofList xs ∧ (xs : Multiset α) = d'.result job.task))
    (hlater : ∀ i ∈ c.held, job.executor < i) :
    ∃ d'', TurnOver answers m d (after (deliver p t job c) m') d'' := by
  have hcounts := alike_updatePool (f := Pool.countCompleted) (fun _ => rfl) p m'
  rw [deliver, after_bind]
  set m₁ := after (updatePool p Pool.countCompleted) m'
  have h₁ := h.alike hcounts
  have hat₁ : m₁.JobAt d' (.thread t) job := hat.later hcounts.later hat.spot hat.isOpen
  have hfetched₁ := hfetched.later hcounts.later hat.executor_lt id
  rw [after_get_bind]
  obtain ⟨e, _, he, -⟩ := hat₁.hangs
  have hserves := h₁.honours.executors _ e he (by simp)
  rw [he]
  dsimp only
  split
  · next hdropped =>
    obtain ⟨d₂, h₂, -, hdeals⟩ := h₁.settles (settles_discard h₁.honours h₁.grasps)
    have hnothing : m₁.Unwanted d' job := fun e' he' => by
      obtain rfl : e = e' := Option.some.inj (he.symm.trans he')
      exact hserves.nothing_of_dropped hcomes hdropped
    rw [after_bind]
    exact ⟨_, h₂.giveUp p ha (hat₁.beside hdeals.beside) (hnothing.beside hat₁ hdeals.beside)⟩
  · next hqueued =>
    obtain ⟨hsome, hopen, hproducing⟩ := Executor.admission_ne_dropped (hqueued.trans_ne (by simp))
    have hgoes := hserves.goesOn hopen
    -- The executor takes the result over, and its consumer is told.
    have h₂ := ((h₁.attend he).update (f := (·.push c)) rfl rfl rfl rfl fun _ hnot hp => by
      simp [Executor.push, hnot, hp]).alike (alike_wakeConsumer job.executor _)
    have hlater₂ := (Later.update (f := (·.push c)) he rfl rfl rfl fun hc => hc).trans
      (alike_wakeConsumer job.executor _).later
    have hat₂ := hat₁.later hlater₂ hat₁.spot hat₁.isOpen
    rw [after_bind, after_bind]
    set m₂ := after (wakeConsumer job.executor)
      (after (updateExecutor job.executor (·.push c)) m₁)
    have hpushed {cancelled : Bool} (hcancelled : cancelled = true → e.firstOnly = true) :=
      hserves.push cancelled e.waiting hat₁.isOpen hcomes
        h₁.grasps.holds hlater (fun _ => hproducing) (fun hfirst => by
          obtain ⟨xs, rfl, hxs⟩ := hfetched₁ e he hfirst
          refine ⟨fun hzero => ?_, (hgoes.single hfirst).1⟩
          rw [hzero, Multiset.coe_eq_zero] at hxs
          rw [hxs] at hsome
          cases hsome) fun hx _ => hcancelled hx
    split
    · next hfirst =>
      have hcancels := later_cancel job.executor m₂
      rw [after_bind]
      refine h₂.cancel.handOver p ha (hat₂.later hcancels hat₂.spot hat₂.isOpen) ?_
      exact (hpushed fun _ => hfirst).grow (hlater₂.trans hcancels).size_le
    · next hfirst =>
      refine h₂.handOver p ha hat₂ ((hpushed fun hx => (hgoes.cancelled ?_).1).grow hlater₂.size_le)
      rwa [(alike_wakeConsumer _ _).isCancelled] at hx
  · next hwaits =>
    obtain ⟨hsome, hopen, hproducing⟩ := Executor.admission_ne_dropped (hwaits.trans_ne (by simp))
    have hgoes := hserves.goesOn hopen
    have hnot : e.firstOnly = false := by
      by_contra hfirst
      obtain ⟨hnone, hempty⟩ := hgoes.single (Bool.of_not_eq_false hfirst)
      obtain ⟨-, hqueue⟩ := List.append_eq_nil_iff.1 (hempty hproducing)
      exact (Executor.admission_waits hwaits).elim (absurd hqueue) (absurd hnone)
    have hlater₂ := Later.update (f := fun e => { e with waiting := e.waiting ++ [t] }) he rfl rfl
      rfl fun hc => hc
    have h₂ := ((h₁.attend he).update (f := fun e => { e with waiting := e.waiting ++ [t] }) rfl rfl
      rfl rfl fun _ _ hp => hp).release ((hserves.grow hlater₂.size_le).like rfl rfl (.inl rfl) rfl rfl
        rfl rfl (fun hfirst => absurd hfirst (by simp [hnot])) rfl)
    rw [after_bind, after_bind]
    refine ⟨d', h₂.becomeWorker ha ⟨hat₁.later hlater₂ hat₁.spot hat₁.isOpen, hcomes, fun e' he' => ?_,
      h₂.grasps.holds, hlater⟩⟩
    obtain ⟨e₁, he₁, -, hsame, -⟩ := hlater₂.executors _ e he
    obtain rfl : e₁ = e' := Option.some.inj (he₁.symm.trans he')
    rw [hsame, hnot]
    exact fun h => absurd h Bool.false_ne_true

/-- **A result that has waited for room is handed over, goes on waiting, or is not wanted any more.**
-/
theorem exists_turnOver_stepSending (h : m.Honours answers d {.main}) {th : Thread α}
    (hth : m.threads[t]? = some th) (ha : th.activity = .sending p job c) :
    ∃ d', TurnOver answers m d (after (stepSending p t job c) m) d' := by
  have hturn := Turning.start h hth
  rw [ha] at hturn
  have hemploys := h.threads t th hth (by simp)
  rw [ha] at hemploys
  obtain ⟨hat, hcomes, hfirst, hholds, hlater⟩ := hemploys
  have hjob : (Activity.sending p job c).job? = some job := rfl
  rw [stepSending, after_get_bind]
  obtain ⟨e, _, he, -⟩ := hat.hangs
  have hnot : e.firstOnly = false := Bool.eq_false_iff.2 fun hx => hfirst e he hx
  have hserves := h.executors _ e he (by simp)
  rw [he]
  dsimp only
  split
  · next hdropped =>
    have hclosed : e.closed = true := by
      by_contra hopen
      have hgoes := hserves.goesOn (Bool.eq_false_iff.2 hopen)
      have hcancelled : m.isCancelled e = false := Bool.eq_false_iff.2 fun hx => by
        exact absurd (hgoes.cancelled hx).1 (by simp [hnot])
      simp only [Executor.admissionOfWaiting, hcancelled, hgoes.receiving] at hdropped
      split_ifs at hdropped
      all_goals simp_all
    set leave : Executor α → Executor α := fun e =>
      { e with waiting := e.waiting.filter (· != t) } with hleave
    have hlater₂ := Later.update (f := leave) he rfl rfl rfl fun hc => hc
    have h₂ := (((hturn.attend he).update (f := leave) rfl rfl rfl rfl fun _ _ hp => hp).release
      ((hserves.grow hlater₂.size_le).like rfl rfl (.inl rfl) rfl rfl rfl rfl
        (fun hfirst => absurd hfirst (by simp [hnot])) rfl)).alike (alike_wakeConsumer job.executor _)
    have hat₂ := hat.later (hlater₂.trans (alike_wakeConsumer job.executor _).later) hat.spot hat.isOpen
    rw [after_bind, after_bind, after_bind]
    set m₂ := after (wakeConsumer job.executor) (after (updateExecutor job.executor leave) m)
    have hnothing : m₂.Unwanted d job := fun e' he' => by
      rw [(alike_wakeConsumer _ _).executors, getElem?_updateExecutor leave he] at he'
      exact .inl (Option.some.inj he' ▸ hclosed)
    obtain ⟨d₃, h₃, -, hdeals⟩ := h₂.settles (settles_discard h₂.honours h₂.grasps)
    exact ⟨_, h₃.giveUp p hjob (hat₂.beside hdeals.beside) (hnothing.beside hat₂ hdeals.beside)⟩
  · next hqueued =>
    have hproducing (hopen : e.closed = false) : e.producing = true := by
      by_contra hover
      have hnone := (hserves.goesOn hopen).tasksOver hnot (Bool.eq_false_iff.2 hover)
      exact absurd (hnone ▸ hat.isOpen) (Finset.notMem_empty _)
    set take : Executor α → Executor α := fun e =>
      { e.push c with waiting := (e.push c).waiting.filter (· != t) } with htake
    have hlater₂ := ((Later.update (f := take) he rfl rfl rfl fun hc => hc).trans
      (alike_wakeConsumer job.executor _).later).trans
      (alike_wakeThread? (e.waiting.filter (· != t)).head? _).later
    have h₂ := (((hturn.attend he).update (f := take) rfl rfl rfl rfl fun _ _ hp => by
      simp [htake, Executor.push, hnot, hp]).alike (alike_wakeConsumer job.executor _)).alike
        (alike_wakeThread? (e.waiting.filter (· != t)).head? _)
    rw [after_bind, after_bind, after_bind, hnot]
    refine h₂.handOver p hjob (hat.later hlater₂ hat.spot hat.isOpen) ?_
    refine (hserves.push _ _ hat.isOpen hcomes hholds hlater hproducing
      (fun hx => absurd hx (by simp [hnot])) fun hx hopen => ?_).grow hlater₂.size_le
    rw [(alike_wakeThread? _ _).isCancelled, (alike_wakeConsumer _ _).isCancelled] at hx
    exact ((hserves.goesOn hopen).cancelled hx).1
  · exact ⟨d, hturn.finish ⟨hat, hcomes, hfirst, hholds, hlater⟩⟩

/-- What a step of a program comes to that asks members only. -/
def Ran.Fetches (answers : Answers) (Q : List α → Prop) : Ran α → Prop
  | .done c => ∃ xs, c = .ofList xs ∧ Q xs
  | .failed _ => False
  | .panicked => False
  | .progress run => run.Fetches answers Q
  | .wait run => run.Fetches answers Q

theorem fetches_stepRun (hm : m.Calm answers) (depth : Nat) (me : Waker) {run : Run α}
    {Q : List α → Prop} (h : run.Fetches answers Q) :
    Ran.Fetches answers Q (value (stepRun depth me run) m) := by
  cases run with
  | ready w =>
    rw [stepRun]
    cases w with
    | done feed =>
      cases feed with
      | rows xs => exact ⟨xs, rfl, h⟩
      | _ => exact h.elim
    | sleep ms next =>
      rw [stepWork, value_bind, value_get, after_get]
      dsimp only
      split <;> exact h
    | request endpoint r next =>
      have hnext : (next (answers endpoint r)).Fetches answers Q := h
      rw [stepWork, value_bind, value_get, after_get]
      split
      · next hknown => exact hm.answer_unknown r hknown ▸ hnext
      · rw [value_bind]
        dsimp only
        split <;> exact hnext
    | repair endpoint next => exact h
    | check next =>
      rw [stepWork, value_bind, value_get, after_get, hm.checkActive]
      exact h
    | _ => exact h.elim
  | sleeping due next =>
    rw [stepRun, value_bind, value_get, after_get]
    split <;> exact h
  | awaiting due endpoint r next =>
    have hnext : (next (answers endpoint r)).Fetches answers Q := h
    rw [stepRun, value_bind, value_get, after_get]
    split
    · split
      · next member hknown => exact hm.answer_known r hknown ▸ hnext
      · next hknown => exact hm.answer_unknown r hknown ▸ hnext
    · exact hnext
  | gathering parts next => exact h.elim

/-- **A worker with a job goes on until the job comes to what is written down for it, or is not wanted
any more.** -/
theorem exists_turnOver_stepWorking (h : m.Honours answers d {.main}) {th : Thread α}
    (hth : m.threads[t]? = some th) {run : Run α} (ha : th.activity = .working p job run) :
    ∃ d', TurnOver answers m d (after (stepWorking p t job run) m) d' := by
  have hturn := Turning.start h hth
  rw [ha] at hturn
  have hemploys := h.threads t th hth (by simp)
  rw [ha] at hemploys
  obtain ⟨hat, hcomes, hfirst, hholds, hlater⟩ := hemploys
  have hjob : (Activity.working p job run).job? = some job := rfl
  rw [stepWorking, after_get_bind]
  split
  · next hcancelled =>
    have hcounts := alike_updatePool (f := Pool.countCancelled) (fun _ => rfl) p m
    have hnothing : m.Unwanted d job := by
      obtain ⟨e, record, he, hrecord, hbranch⟩ := hat.hangs
      intro e' he'
      obtain rfl : e = e' := Option.some.inj (he.symm.trans he')
      have hx : m.isCancelled e = true := by
        have hnot := h.calm.hanging record (Array.mem_of_getElem? hrecord)
        simpa [QueryContext.isTaskCancelled, QueryContext.isRecordCancelled, hrecord, hbranch, hnot,
          h.calm.cancelled, Machine.isCancelled] using hcancelled
      cases hclosed : e.closed with
      | true => exact .inl rfl
      | false =>
        exact .inr (.inl (((h.executors _ e he (by simp)).goesOn hclosed).cancelled hx).2)
    rw [after_bind, after_bind]
    have h₂ := hturn.alike hcounts
    obtain ⟨d₃, h₃, -, hdeals⟩ := h₂.settles (settles_closeAll h₂.honours h₂.grasps)
    have hbeside := (Beside.of_alike hcounts run.held).trans hdeals.beside fun i hi _ => .inl hi
    exact ⟨_, h₃.giveUp p hjob (hat.beside hbeside) (hnothing.beside hat hbeside)⟩
  · obtain ⟨d₁, h₁, hr, hdeals⟩ := hturn.settles
      (settles_stepRun m.executors.size (.thread t) run hturn.honours hturn.grasps hcomes)
    have hat₁ := hat.beside hdeals.beside
    have hfetched := (OfFirst.later (fun e he hx => fetches_stepRun h.calm m.executors.size (.thread t)
      (hfirst e he hx)) hdeals.beside.later hat.executor_lt id)
    have hlater₁ (i : Nat) (hi : i ∈ (value (stepRun m.executors.size (.thread t) run) m).held) :
        job.executor < i :=
      (hdeals.known i hi).elim (hlater i) (Nat.lt_of_lt_of_le hat.executor_lt)
    rw [← hdeals.beside.result] at hr hfetched
    rw [after_bind]
    generalize value (stepRun m.executors.size (.thread t) run) m = r at *
    cases r with
    | done c => exact exists_turnOver_deliver h₁ p hjob hat₁ hr hfetched hlater₁
    | failed e => exact hr.elim
    | panicked => exact hr.elim
    | progress run =>
      exact ⟨d₁, h₁.becomeWorker hjob ⟨hat₁, hr, hfetched, h₁.grasps.holds, hlater₁⟩⟩
    | wait run =>
      exact ⟨d₁, h₁.becomeWorker hjob ⟨hat₁, hr, hfetched, h₁.grasps.holds, hlater₁⟩⟩

omit [DecidableEq α] in
theorem alike_leaveLine (p : PoolName) (t : Nat) (m : Machine α) :
    m.Alike (after (leaveLine p t) m) := by
  rw [leaveLine, after_bind, after_get_bind]
  refine Alike.trans ?_ (alike_wakeThread? _ _)
  exact alike_updateCrew (f := fun c => { c with line := c.line.filter (· != t) })
    (fun _ => ⟨rfl, rfl⟩) m

/-- A thread that is excepted takes the next job of a pool. -/
theorem Honours.takeJob (h : m.Honours answers d X) {rest : List (Job α)}
    (hjobs : (m.crew p).jobs = job :: rest) :
    (after (updateCrew p fun c => { c with jobs := rest }) m).Honours answers
      { d with spot := fun k => if k = job.task then .thread t else d.spot k } X := by
  have hnodup : job.task ∉ rest.map (·.task) ∧ (rest.map (·.task)).Nodup := by
    have hall := h.nodup p
    rw [hjobs] at hall
    exact List.nodup_cons.1 hall
  have hspot : d.spot job.task = .pool p :=
    (h.jobs p job (hjobs ▸ List.mem_cons_self)).jobAt.spot
  have htaken := h.recrew (p := p) (f := fun c => { c with jobs := rest })
    (fun job' hjob' => h.jobs p job' (hjobs ▸ List.mem_cons_of_mem _ hjob')) hnodup.2
    (h.calm.accepting p)
  set m' := after (updateCrew p fun c => { c with jobs := rest }) m with hm'
  refine htaken.reckon (fun _ _ _ => ⟨rfl, rfl⟩) (fun _ _ _ _ => ⟨rfl, rfl, fun _ _ => rfl, .inl rfl⟩)
    (fun job' hjob' => ?_) (fun _ _ _ _ _ _ _ => ⟨rfl, fun hempty => hempty⟩) htaken.known
  obtain ⟨_, hat, -⟩ := htaken.jobAt hjob'
  refine ⟨if_neg fun hsame => ?_, rfl, hat.isOpen⟩
  -- No other job has the task, be it in a pool or in the hands of a thread.
  obtain ⟨q, hq⟩ | ⟨u, th, hth, hu, hdoes⟩ := hjob'
  · have hpool := (htaken.jobs q job' hq).jobAt.spot
    rw [hsame, hspot] at hpool
    obtain rfl := Spot.pool.inj hpool
    rw [hm', crew_updateCrew, if_pos rfl] at hq
    exact hnodup.1 (hsame ▸ List.mem_map_of_mem hq)
  · have hthread := ((htaken.threads u th hth hu).jobAt hdoes).spot
    rw [hsame, hspot] at hthread
    cases hthread

omit [DecidableEq α] in
theorem later_updateCrew (p : PoolName) (f : Crew α → Crew α) (m : Machine α) :
    m.Later (after (updateCrew p f) m) := by
  cases p <;> exact .of_executors rfl fun _ record hrecord => ⟨record, hrecord, rfl⟩

/-- A thread takes the next job of a pool. -/
theorem Turning.takeJob (h : Turning answers t a m d m' d' ids) {rest : List (Job α)}
    (hjobs : (m'.crew p).jobs = job :: rest) :
    Turning answers t a m d (after (updateCrew p fun c => { c with jobs := rest }) m')
      { d' with spot := fun k => if k = job.task then .thread t else d'.spot k } ids where
  toLeavesMain := h.toLeavesMain.trans
    ⟨(later_updateCrew p _ _).size_le, fun _ _ hmain => ⟨rfl, hmain⟩⟩
  honours := h.honours.takeJob hjobs
  grasps := ⟨h.grasps.mem, h.grasps.holds.keep (later_updateCrew p _ _).size_le fun _ _ => rfl,
    fun j hj => by simp at hj, by cases p <;> exact h.grasps.threads⟩
  later := h.later.trans (later_updateCrew p _ _)
  thread := by cases p <;> exact h.thread

/-- **A worker without a job takes the next one, or waits.** -/
theorem exists_turnOver_stepIdle (h : m.Honours answers d {.main}) {th : Thread α}
    (hth : m.threads[t]? = some th) (ha : th.activity = .idle p) :
    ∃ d', TurnOver answers m d (after (stepIdle p t) m) d' := by
  have hturn := Turning.start h hth
  rw [ha] at hturn
  rw [stepIdle, after_bind, after_get_bind]
  have hlines : m.Alike (after (updateCrew p fun c =>
      if c.line.contains t then c else { c with line := c.line ++ [t] }) m) :=
    alike_updateCrew (fun c => by split <;> exact ⟨rfl, rfl⟩) m
  have h₁ := hturn.alike hlines
  set m₁ := after (updateCrew p fun c =>
    if c.line.contains t then c else { c with line := c.line ++ [t] }) m
  dsimp only
  split
  · exact ⟨d, h₁.finish trivial⟩
  · split
    · next job rest hjobs =>
      have hwaits := h₁.honours.jobs p job (hjobs ▸ List.mem_cons_self)
      have hlater₂ := (later_updateCrew p (fun c => { c with jobs := rest }) m₁).trans
        (alike_leaveLine p t _).later
      have h₂ := (h₁.takeJob hjobs).alike (alike_leaveLine p t _)
      rw [after_bind, after_bind, after_bind]
      exact ⟨_, h₂.become (by simp) (by simp) ⟨hwaits.jobAt.later hlater₂ (if_pos rfl) hwaits.jobAt.isOpen,
        hwaits.comes, hwaits.fetches.later hlater₂ hwaits.jobAt.executor_lt id, .nil,
        fun i hi => absurd hi List.not_mem_nil⟩⟩
    · rw [h₁.honours.calm.accepting p]
      exact ⟨d, h₁.finish trivial⟩

end Workers

end Machine

end FederatedSparql
