import FederatedSparql.Proofs.Machine.Payments

/-!
Turns that threads take without failing what is written down.

A thread that takes its turn is excepted until it has gone on to something that it does its part in
(`Machine.Turning`); so is an executor meanwhile for which the thread does something
(`Machine.Attending`).  Once the turn is over nobody is excepted any more, and whatever main has has
been left alone (`Machine.TurnOver`).
-/

namespace FederatedSparql

namespace Machine

variable {α : Type} [DecidableEq α] {answers : Answers}

/-! ### Turns -/

/-- What main has is left alone. -/
structure LeavesMain (m : Machine α) (d : Dues α) (m' : Machine α) (d' : Dues α) : Prop where
  size_le : m.executors.size ≤ m'.executors.size
  kept : ∀ i < m.executors.size, d.holder i = .main → d'.owed i = d.owed i ∧ d'.holder i = .main

/-- A turn is over, and nobody is excepted any more but main. -/
structure TurnOver (answers : Answers) (m : Machine α) (d : Dues α) (m' : Machine α) (d' : Dues α) :
    Prop extends LeavesMain m d m' d' where
  honours : m'.Honours answers d' {.main}

/-- A thread is at its turn, with executors in its hands. -/
structure Turning (answers : Answers) (t : Nat) (a : Activity α) (m : Machine α) (d : Dues α)
    (m' : Machine α) (d' : Dues α) (ids : List Nat) : Prop extends LeavesMain m d m' d' where
  honours : m'.Honours answers d' (insert (.thread t) {.main})
  grasps : m'.Grasps d' (insert (.thread t) {.main}) (.thread t) ids
  later : m.Later m'
  thread : ∃ th, m'.threads[t]? = some th ∧ th.activity = a

variable {m m' m'' : Machine α} {d d' d'' : Dues α} {t : Nat} {a : Activity α} {ids ids' : List Nat}

omit [DecidableEq α] in
theorem LeavesMain.refl (m : Machine α) (d : Dues α) : LeavesMain m d m d :=
  ⟨Nat.le_refl _, fun _ _ hmain => ⟨rfl, hmain⟩⟩

omit [DecidableEq α] in
theorem LeavesMain.trans (h : LeavesMain m d m' d') (h' : LeavesMain m' d' m'' d'') :
    LeavesMain m d m'' d'' where
  size_le := Nat.le_trans h.size_le h'.size_le
  kept i hi hmain := by
    obtain ⟨howed, hholder⟩ := h.kept i hi hmain
    obtain ⟨howed', hholder'⟩ := h'.kept i (Nat.lt_of_lt_of_le hi h.size_le) hholder
    exact ⟨howed'.trans howed, hholder'⟩

omit [DecidableEq α] in
/-- Only dues change that main does not have. -/
theorem LeavesMain.of_dues (m : Machine α)
    (hkept : ∀ i < m.executors.size, d.holder i = .main →
      d'.owed i = d.owed i ∧ d'.holder i = .main) : LeavesMain m d m d' :=
  ⟨Nat.le_refl _, hkept⟩

omit [DecidableEq α] in
theorem LeavesMain.of_executors (hexecutors : m.executors.size = m'.executors.size) :
    LeavesMain m d m' d :=
  ⟨hexecutors.le, fun _ _ hmain => ⟨rfl, hmain⟩⟩

namespace Turning

/-- A thread starts its turn. -/
theorem start (h : m.Honours answers d {.main}) {th : Thread α} (hth : m.threads[t]? = some th) :
    Turning answers t th.activity m d m d (heldIn th.activity) where
  toLeavesMain := .refl m d
  honours := h.mono (Set.subset_insert _ _)
  grasps := {
    mem := Set.mem_insert _ _
    holds := (h.threads t th hth (by simp)).holds
    beyond := fun j hj => by simp at hj
    threads := fun u hu => by
      obtain rfl : u = t := by simpa using hu
      exact (Array.getElem?_eq_some_iff.1 hth).1 }
  later := .refl m
  thread := ⟨th, hth, rfl⟩

/-- The thread does something with what it has in hand. -/
theorem deals (h : Turning answers t a m d m' d' ids)
    (hdeals : Deals answers (insert (.thread t) {.main}) (.thread t) m' d' ids m'' d'' ids') :
    Turning answers t a m d m'' d'' ids' where
  toLeavesMain := h.toLeavesMain.trans ⟨hdeals.beside.size_le, fun i hi hmain => by
    have hkept := hdeals.beside.others i hi (by simp [hmain]) fun hmem => by
      have hthread := h.grasps.holds.holder i hmem
      rw [hmain] at hthread
      cases hthread
    exact ⟨hkept.1, hkept.2.trans hmain⟩⟩
  honours := hdeals.honours
  grasps := hdeals.grasps
  later := h.later.trans hdeals.beside.later
  thread := by
    obtain ⟨th, hth, ha⟩ := h.thread
    obtain ⟨th', hth', hsame⟩ := hdeals.beside.threads t th hth
    exact ⟨th', hth', hsame.trans ha⟩

/-- The thread does something with what it has in hand, and goes on. -/
theorem settles {β : Type} {b : Action α β} {held : β → List Nat} {post : β → Dues α → Prop}
    (h : Turning answers t a m d m' d' ids)
    (hsettles : Settles answers (insert (.thread t) {.main}) (.thread t) m' d' ids b held post) :
    ∃ d'', Turning answers t a m d (after b m') d'' (held (value b m')) ∧
      post (value b m') d'' ∧ Deals answers (insert (.thread t) {.main}) (.thread t) m' d' ids
        (after b m') d'' (held (value b m')) := by
  obtain ⟨d'', hdeals, hpost⟩ := hsettles
  exact ⟨d'', h.deals hdeals, hpost, hdeals⟩

theorem alike (h : Turning answers t a m d m' d' ids) (hm : m'.Alike m'') :
    Turning answers t a m d m'' d' ids :=
  h.deals (.of_alike (h.honours.alike hm) h.grasps hm)

/-- A thread turns to something else. -/
theorem turn (h : Turning answers t a m d m' d' ids) (a' : Activity α)
    (hends : a = .finished → a' = .finished)
    (hproduces : ∀ id production, a = .producing id production →
      a' = .finished ∨ ∃ production', a' = .producing id production') :
    Turning answers t a' m d (after (become t a') m') d' ids := by
  obtain ⟨th, hth, rfl⟩ := h.thread
  have hthis : (after (Machine.become t a') m').threads[t]? = some { th with activity := a' } := by
    show (m'.threads.modify t _)[t]? = _
    rw [Array.getElem?_modify, if_pos rfl, hth]
    rfl
  exact {
    toLeavesMain := h.toLeavesMain.trans (.of_executors rfl)
    honours := h.honours.become hth (Set.mem_insert _ _) hends hproduces
    grasps := ⟨h.grasps.mem, h.grasps.holds, h.grasps.beyond, fun u hu => by
      obtain rfl : u = t := by simpa using hu
      exact (Array.getElem?_eq_some_iff.1 hthis).1⟩
    later := h.later.trans (.of_executors rfl fun _ record hrecord => ⟨record, hrecord, rfl⟩)
    thread := ⟨_, hthis, rfl⟩ }

/-- A thread goes on with what it does, and the turn is over. -/
theorem finish (h : Turning answers t a m d m' d' ids) (hemploys : m'.Employs answers d' t a) :
    TurnOver answers m d m' d' where
  toLeavesMain := h.toLeavesMain
  honours := by
    obtain ⟨th, hth, rfl⟩ := h.thread
    exact h.honours.employ hth hemploys

/-- A thread goes on with something else, and the turn is over. -/
theorem become (h : Turning answers t a m d m' d' ids) {a' : Activity α}
    (hends : a = .finished → a' = .finished)
    (hproduces : ∀ id production, a = .producing id production →
      a' = .finished ∨ ∃ production', a' = .producing id production')
    (hemploys : m'.Employs answers d' t a') :
    TurnOver answers m d (after (Machine.become t a') m') d' :=
  (h.turn a' hends hproduces).finish
    (hemploys.stays (.of_executors rfl fun _ record hrecord => ⟨record, hrecord, rfl⟩) rfl)

/-- A worker goes on with something else. -/
theorem becomeWorker (h : Turning answers t a m d m' d' ids) {job : Job α} (ha : a.job? = some job)
    {a' : Activity α} (hemploys : m'.Employs answers d' t a') :
    TurnOver answers m d (after (Machine.become t a') m') d' := by
  refine h.become ?_ ?_ hemploys
  · rintro rfl
    cases ha
  · rintro id production rfl
    cases ha

end Turning

namespace TurnOver

/-- Others are woken. -/
theorem alike (h : TurnOver answers m d m' d') (hm : m'.Alike m'') : TurnOver answers m d m'' d' where
  toLeavesMain := h.toLeavesMain.trans (.of_executors (by rw [hm.executors]))
  honours := h.honours.alike hm

end TurnOver

/-! ### Executors that a turn is about -/

/-- A thread is at its turn, and the executor that it does something for is excepted. -/
structure Attending (answers : Answers) (t : Nat) (a : Activity α) (m : Machine α) (d : Dues α)
    (id : Nat) (m' : Machine α) (d' : Dues α) (e : Executor α) (ids : List Nat) : Prop
    extends LeavesMain m d m' d' where
  honours : m'.Honours answers d' (insert (.executor id) (insert (.thread t) {.main}))
  grasps : m'.Grasps d' (insert (.thread t) {.main}) (.thread t) ids
  later : m.Later m'
  thread : ∃ th, m'.threads[t]? = some th ∧ th.activity = a
  executor : m'.executors[id]? = some e

theorem Turning.attend (h : Turning answers t a m d m' d' ids) {id : Nat}
    (he : m'.executors[id]? = some e) : Attending answers t a m d id m' d' e ids where
  toLeavesMain := h.toLeavesMain
  honours := h.honours.mono (Set.subset_insert _ _)
  grasps := h.grasps
  later := h.later
  thread := h.thread
  executor := he

namespace Attending

variable {id : Nat} {e : Executor α}

theorem alike (h : Attending answers t a m d id m' d' e ids) (hm : m'.Alike m'') :
    Attending answers t a m d id m'' d' e ids where
  toLeavesMain := h.toLeavesMain.trans (.of_executors (by rw [hm.executors]))
  honours := h.honours.alike hm
  grasps := h.grasps.keep (.of_alike hm []) fun _ _ hi => absurd hi List.not_mem_nil
  later := h.later.trans hm.later
  thread := by rw [hm.threads]; exact h.thread
  executor := by rw [hm.executors]; exact h.executor

/-- The executor changes, and remains what it is. -/
theorem update (h : Attending answers t a m d id m' d' e ids) {f : Executor α → Executor α}
    (hbranch : (f e).branch = e.branch) (hfirst : (f e).firstOnly = e.firstOnly)
    (hproducer : (f e).producer = e.producer) (hclosed : (f e).closed = e.closed)
    (hproducing : e.producer ≠ some t → e.firstOnly = false → e.producing = true →
      (f e).producing = true) :
    Attending answers t a m d id (after (updateExecutor id f) m') d' (f e) ids where
  toLeavesMain := h.toLeavesMain.trans (.of_executors Array.size_modify.symm)
  honours := by
    refine h.honours.update h.executor (Set.mem_insert _ _) hbranch hfirst hproducer
      (fun hc => hclosed.trans hc) fun hothers hnot _ hp => hproducing (fun hsame => ?_) hnot hp
    exact hothers t hsame (by simp)
  grasps := {
    mem := h.grasps.mem
    holds := h.grasps.holds.keep Array.size_modify.symm.le fun _ _ => rfl
    beyond := fun j hj => by simp at hj
    threads := h.grasps.threads }
  later := h.later.trans (.update h.executor hbranch hfirst hproducer fun hc => hclosed.trans hc)
  thread := h.thread
  executor := getElem?_updateExecutor f h.executor

/-- The executor is cancelled. -/
theorem cancel (h : Attending answers t a m d id m' d' e ids) :
    Attending answers t a m d id (after (cancel id) m') d' e ids := by
  have hsame := executors_cancel id m'
  have hbeside : Beside ∅ [] m' d' (after (Machine.cancel id) m') d' :=
    .cancel h.honours.staffed (Set.notMem_empty _)
  refine ⟨h.toLeavesMain.trans (.of_executors (by rw [hsame])),
    h.honours.cancel (Set.mem_insert _ _), ⟨h.grasps.mem, ?_, fun j hj => by simp at hj,
      fun u hu => Nat.lt_of_lt_of_le (h.grasps.threads u hu) hbeside.size_threads_le⟩,
    h.later.trans hbeside.later, ?_, by rw [hsame]; exact h.executor⟩
  · exact h.grasps.holds.keep hbeside.size_le fun _ _ => rfl
  · obtain ⟨th, hth, ha⟩ := h.thread
    obtain ⟨th', hth', hsame⟩ := hbeside.threads t th hth
    exact ⟨th', hth', hsame.trans ha⟩

/-- What the thread has in hand is given to the executor. -/
theorem hand (h : Attending answers t a m d id m' d' e ids) :
    Attending answers t a m d id m'
      { d' with holder := fun i => if i ∈ ids then .executor id else d'.holder i } e [] where
  toLeavesMain := h.toLeavesMain.trans (.of_dues m' fun i _ hmain => by
    refine ⟨rfl, (if_neg fun hi => ?_).trans hmain⟩
    have hthread := h.grasps.holds.holder i hi
    rw [hmain] at hthread
    cases hthread)
  honours := by
    refine h.honours.pay rfl rfl rfl rfl (fun i _ hi => ⟨rfl, if_neg fun hmem => hi ?_⟩)
      fun i e' _ _ => .inl rfl
    rw [h.grasps.holds.holder i hmem]
    simp
  grasps := ⟨h.grasps.mem, .nil, fun j hj => by simp at hj, h.grasps.threads⟩
  later := h.later
  thread := h.thread
  executor := h.executor

/-- The executor does its part again. -/
theorem release (h : Attending answers t a m d id m' d' e ids)
    (hserves : e.Serves answers d' m'.executors.size id (m'.isCancelled e)) :
    Turning answers t a m d m' d' ids where
  toLeavesMain := h.toLeavesMain
  honours := h.honours.restore h.executor hserves
  grasps := h.grasps
  later := h.later
  thread := h.thread

end Attending

end Machine

end FederatedSparql
