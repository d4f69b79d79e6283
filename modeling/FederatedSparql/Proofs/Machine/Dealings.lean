import FederatedSparql.Proofs.Machine.Upkeep

/-!
Actions with executors in hand.

Somebody who is excepted takes an action and has some executors in his hands.  `Machine.Deals` says
what such an action does: the machine goes on keeping to its dues, what others who are excepted have
is left alone (`Machine.Beside`), and what is then in hand was there before or is new.
`Machine.Settles` follows an action through its parts.

* `Machine.settles_closeAll`: executors may be closed, however deep they hold one another's results.
-/

namespace FederatedSparql

variable {α β γ : Type}

theorem Executor.held_contents (e : Executor α) :
    heldByAll e.contents = (e.current.map (·.held)).getD [] ++ heldByAll e.queue := by
  cases h : e.current <;> simp [Executor.contents, h, heldByAll]

namespace Machine

/-- What is left alone by an action with executors in hand, if some holders are excepted. -/
structure Beside (X : Set Holder) (ids : List Nat) (m : Machine α) (d : Dues α) (m' : Machine α)
    (d' : Dues α) : Prop where
  later : m.Later m'
  executors : ∀ id, .executor id ∈ X → id < m.executors.size →
    m'.executors[id]? = m.executors[id]?
  cancelled : ∀ (id : Nat) (e : Executor α), .executor id ∈ X → m.executors[id]? = some e →
    m'.isCancelled e = m.isCancelled e
  producing : ∀ (id : Nat) (e e' : Executor α), m.executors[id]? = some e →
    m'.executors[id]? = some e' → e'.closed = false → e'.producing = e.producing
  threads : ∀ (t : Nat) (th : Thread α), m.threads[t]? = some th →
    ∃ th', m'.threads[t]? = some th' ∧ th'.activity = th.activity
  queryTasks : m'.query.tasks = m.query.tasks
  tasks : ∀ i < m.executors.size, d'.tasks i = d.tasks i
  rest : ∀ i < m.executors.size, d'.rest i = d.rest i
  result : d'.result = d.result
  spot : d'.spot = d.spot
  others : ∀ i < m.executors.size, d.holder i ∈ X → i ∉ ids →
    d'.owed i = d.owed i ∧ d'.holder i = d.holder i

/-- Somebody who is excepted has executors in his hands, later ones than those that are excepted. -/
structure Grasps (m : Machine α) (d : Dues α) (X : Set Holder) (holder : Holder)
    (ids : List Nat) : Prop where
  mem : holder ∈ X
  holds : d.Holds m.executors.size holder ids
  beyond : ∀ j, .executor j ∈ X → j < m.executors.size ∧ ∀ i ∈ ids, j < i
  threads : ∀ t, .thread t ∈ X → t < m.threads.size

variable {m m' m'' : Machine α} {d d' d'' : Dues α} {X Y : Set Holder} {holder : Holder}
  {ids ids' ids'' others : List Nat}

namespace Beside

theorem size_le (h : Beside X ids m d m' d') : m.executors.size ≤ m'.executors.size :=
  h.later.size_le

theorem size_threads_le (h : Beside X ids m d m' d') : m.threads.size ≤ m'.threads.size := by
  by_contra hlt
  obtain ⟨th', hth', -⟩ := h.threads _ _ (Array.getElem?_eq_getElem (Nat.lt_of_not_le hlt))
  exact absurd (Array.getElem?_eq_some_iff.1 hth').1 (Nat.lt_irrefl _)

theorem trans (h : Beside X ids m d m' d') (h' : Beside X ids' m' d' m'' d'')
    (hids : ∀ i ∈ ids', i < m.executors.size → i ∈ ids ∨ d.holder i ∉ X) :
    Beside X ids m d m'' d'' where
  later := h.later.trans h'.later
  executors id hid hlt :=
    (h'.executors id hid (Nat.lt_of_lt_of_le hlt h.size_le)).trans (h.executors id hid hlt)
  cancelled id e hid he := by
    have he' := (h.executors id hid (Array.getElem?_eq_some_iff.1 he).1).trans he
    exact (h'.cancelled id e hid he').trans (h.cancelled id e hid he)
  producing id e e'' he he'' hopen := by
    obtain ⟨e', he', -, -, -, -⟩ := h.later.executors id e he
    obtain ⟨e₂, he₂, -, -, -, hcloses⟩ := h'.later.executors id e' he'
    obtain rfl : e'' = e₂ := Option.some.inj (he''.symm.trans he₂)
    have hopen' : e'.closed = false := by
      cases hc : e'.closed with
      | false => rfl
      | true => exact absurd (hcloses hc) (by simp [hopen])
    exact (h'.producing id e' e'' he' he'' hopen).trans (h.producing id e e' he he' hopen')
  threads t th hth := by
    obtain ⟨th', hth', hsame⟩ := h.threads t th hth
    obtain ⟨th'', hth'', hsame'⟩ := h'.threads t th' hth'
    exact ⟨th'', hth'', hsame'.trans hsame⟩
  queryTasks := h'.queryTasks.trans h.queryTasks
  tasks i hi := (h'.tasks i (Nat.lt_of_lt_of_le hi h.size_le)).trans (h.tasks i hi)
  rest i hi := (h'.rest i (Nat.lt_of_lt_of_le hi h.size_le)).trans (h.rest i hi)
  result := h'.result.trans h.result
  spot := h'.spot.trans h.spot
  others i hi hX hmem := by
    obtain ⟨howed, hholder⟩ := h.others i hi hX hmem
    have hmem' : i ∉ ids' := fun hmem' => (hids i hmem' hi).elim hmem fun hnot => hnot hX
    obtain ⟨howed', hholder'⟩ := h'.others i (Nat.lt_of_lt_of_le hi h.size_le)
      (hholder ▸ hX) hmem'
    exact ⟨howed'.trans howed, hholder'.trans hholder⟩

/-- Nothing happens but that some have been woken. -/
theorem of_alike (h : m.Alike m') (ids : List Nat) : Beside X ids m d m' d where
  later := h.later
  executors id _ _ := by rw [h.executors]
  cancelled id e _ _ := h.isCancelled e
  producing id e e' he he' _ := by
    rw [h.executors] at he'
    rw [Option.some.inj (he.symm.trans he')]
  threads t th hth := ⟨th, h.threads ▸ hth, rfl⟩
  queryTasks := by rw [h.query]
  tasks _ _ := rfl
  rest _ _ := rfl
  result := rfl
  spot := rfl
  others _ _ _ _ := ⟨rfl, rfl⟩

end Beside

namespace Grasps

/-- Somebody still has what the action of another one has left alone. -/
theorem keep (h : m.Grasps d X holder others) (hm : Beside X ids m d m' d')
    (hdisjoint : ∀ i ∈ others, i ∉ ids) : m'.Grasps d' X holder others where
  mem := h.mem
  holds := h.holds.keep hm.size_le fun i hi =>
    (hm.others i (h.holds.exist i hi) (h.holds.holder i hi ▸ h.mem) (hdisjoint i hi)).2
  beyond j hj := ⟨Nat.lt_of_lt_of_le (h.beyond j hj).1 hm.size_le, (h.beyond j hj).2⟩
  threads t ht := Nat.lt_of_lt_of_le (h.threads t ht) hm.size_threads_le

theorem sublist (h : m.Grasps d X holder ids) (hsub : ids'.Sublist ids) :
    m.Grasps d X holder ids' where
  mem := h.mem
  holds := h.holds.sublist hsub
  beyond j hj := ⟨(h.beyond j hj).1, fun i hi => (h.beyond j hj).2 i (hsub.subset hi)⟩
  threads := h.threads

theorem left (h : m.Grasps d X holder (ids ++ others)) : m.Grasps d X holder ids :=
  h.sublist (List.sublist_append_left _ _)

theorem right (h : m.Grasps d X holder (ids ++ others)) : m.Grasps d X holder others :=
  h.sublist (List.sublist_append_right _ _)

theorem perm (h : m.Grasps d X holder ids) (hp : ids.Perm ids') : m.Grasps d X holder ids' where
  mem := h.mem
  holds := {
    nodup := hp.nodup_iff.1 h.holds.nodup
    holder := fun i hi => h.holds.holder i (hp.mem_iff.2 hi)
    exist := fun i hi => h.holds.exist i (hp.mem_iff.2 hi) }
  beyond j hj := ⟨(h.beyond j hj).1, fun i hi => (h.beyond j hj).2 i (hp.mem_iff.2 hi)⟩
  threads := h.threads

end Grasps

/-! ### Actions -/

variable [DecidableEq α] {answers : Answers}

/-- What becomes of a machine, of what is written down and of what is in hand. -/
structure Deals (answers : Answers) (X : Set Holder) (holder : Holder) (m : Machine α) (d : Dues α)
    (ids : List Nat) (m' : Machine α) (d' : Dues α) (ids' : List Nat) : Prop where
  honours : m'.Honours answers d' X
  beside : Beside X ids m d m' d'
  grasps : m'.Grasps d' X holder ids'
  known : ∀ i ∈ ids', i ∈ ids ∨ m.executors.size ≤ i

/-- An action with executors in hand gives something, of which more is known. -/
def Settles (answers : Answers) (X : Set Holder) (holder : Holder) (m : Machine α) (d : Dues α)
    (ids : List Nat) (a : Action α β) (held : β → List Nat) (post : β → Dues α → Prop) : Prop :=
  ∃ d', Deals answers X holder m d ids (after a m) d' (held (value a m)) ∧ post (value a m) d'

namespace Deals

theorem of_alike (h : m'.Honours answers d X) (hg : m.Grasps d X holder ids) (hm : m.Alike m') :
    Deals answers X holder m d ids m' d ids where
  honours := h
  beside := .of_alike hm _
  grasps := ⟨hg.mem, hg.holds.keep (by rw [hm.executors]) fun _ _ => rfl,
    by rw [hm.executors]; exact hg.beyond, by rw [hm.threads]; exact hg.threads⟩
  known _ hi := .inl hi

theorem refl (h : m.Honours answers d X) (hg : m.Grasps d X holder ids) :
    Deals answers X holder m d ids m d ids :=
  of_alike h hg (.refl m)

theorem trans (h : Deals answers X holder m d ids m' d' ids')
    (h' : Deals answers X holder m' d' ids' m'' d'' ids'') :
    Deals answers X holder m d ids m'' d'' ids'' where
  honours := h'.honours
  beside := h.beside.trans h'.beside fun i hi hlt =>
    .inl ((h.known i hi).resolve_right (Nat.not_le.2 hlt))
  grasps := h'.grasps
  known i hi := by
    obtain hi | hi := h'.known i hi
    · exact h.known i hi
    · exact .inr (Nat.le_trans h.beside.size_le hi)

/-- Some of what is in hand may be put away. -/
theorem drop (h : Deals answers X holder m d ids m' d' ids') (hsub : ids''.Sublist ids') :
    Deals answers X holder m d ids m' d' ids'' where
  honours := h.honours
  beside := h.beside
  grasps := h.grasps.sublist hsub
  known i hi := h.known i (hsub.subset hi)

/-- What else is in hand is left alone. -/
theorem frame (h : Deals answers X holder m d ids m' d' ids')
    (hg : m.Grasps d X holder (ids ++ others)) :
    Deals answers X holder m d (ids ++ others) m' d' (ids' ++ others) ∧
      ∀ i ∈ others, d'.owed i = d.owed i := by
  obtain ⟨-, -, hdisjoint⟩ := List.nodup_append.1 hg.holds.nodup
  have hapart : ∀ i ∈ others, i ∉ ids := fun i hi hi' => hdisjoint i hi' i hi rfl
  have hrest := hg.right.keep h.beside hapart
  have hkeeps (i : Nat) (hi : i ∈ others) :=
    h.beside.others i (hg.right.holds.exist i hi) (hg.right.holds.holder i hi ▸ hg.mem)
      (hapart i hi)
  refine ⟨⟨h.honours, { h.beside with others := fun i hi hX hmem => ?_ }, ⟨hg.mem, ?_, ?_, ?_⟩, ?_⟩,
    fun i hi => (hkeeps i hi).1⟩
  · exact h.beside.others i hi hX fun hi' => hmem (List.mem_append_left _ hi')
  · refine ⟨List.nodup_append.2 ⟨h.grasps.holds.nodup, hrest.holds.nodup, ?_⟩, ?_, ?_⟩
    · rintro i hi j hj rfl
      obtain hi' | hi' := h.known i hi
      · exact hdisjoint i hi' i hj rfl
      · exact absurd (hg.right.holds.exist i hj) (Nat.not_lt.2 hi')
    · exact fun i hi => (List.mem_append.1 hi).elim (h.grasps.holds.holder i) (hrest.holds.holder i)
    · exact fun i hi => (List.mem_append.1 hi).elim (h.grasps.holds.exist i) (hrest.holds.exist i)
  · exact fun j hj => ⟨(hrest.beyond j hj).1, fun i hi =>
      (List.mem_append.1 hi).elim ((h.grasps.beyond j hj).2 i) ((hrest.beyond j hj).2 i)⟩
  · exact hrest.threads
  · intro i hi
    obtain hi | hi := List.mem_append.1 hi
    · exact (h.known i hi).imp_left (List.mem_append_left _)
    · exact .inl (List.mem_append_right _ hi)

/-- It does not matter in which order things are in hand. -/
theorem perm {jds jds' : List Nat} (h : Deals answers X holder m d ids m' d' ids')
    (hp : ids.Perm jds) (hp' : ids'.Perm jds') :
    Deals answers X holder m d jds m' d' jds' where
  honours := h.honours
  beside := { h.beside with
    others := fun i hi hX hmem => h.beside.others i hi hX fun hi' => hmem (hp.mem_iff.1 hi') }
  grasps := h.grasps.perm hp'
  known i hi := (h.known i (hp'.mem_iff.2 hi)).imp_left hp.mem_iff.1

end Deals

namespace Settles

variable {a : Action α β} {f : β → Action α γ} {held : β → List Nat} {held' : γ → List Nat}
  {post post₁ : β → Dues α → Prop} {post' : γ → Dues α → Prop}

/-- Nothing is done, and something may be put away. -/
theorem pure {b : β} (h : m.Honours answers d X) (hg : m.Grasps d X holder ids)
    (hsub : (held b).Sublist ids) (hpost : post b d) :
    Settles answers X holder m d ids (Pure.pure b : Action α β) held post :=
  ⟨d, (Deals.refl h hg).drop hsub, hpost⟩

theorem get {f : Machine α → Action α β} (h : Settles answers X holder m d ids (f m) held post) :
    Settles answers X holder m d ids (MonadState.get >>= f) held post := h

/-- Somebody is woken, or the like. -/
theorem alike (h : m.Honours answers d X) (hg : m.Grasps d X holder ids)
    (ha : m.Alike (after a m)) :
    Settles answers X holder m d ids a (fun _ => ids) fun _ d' => d' = d :=
  ⟨d, .of_alike (h.alike ha) hg ha, rfl⟩

theorem bind (h : Settles answers X holder m d ids a held post)
    (hf : ∀ b m' d', Deals answers X holder m d ids m' d' (held b) → post b d' →
      Settles answers X holder m' d' (held b) (f b) held' post') :
    Settles answers X holder m d ids (a >>= f) held' post' := by
  obtain ⟨d', hdeals, hpost⟩ := h
  obtain ⟨d'', hdeals', hpost'⟩ := hf _ _ _ hdeals hpost
  exact ⟨d'', hdeals.trans hdeals', hpost'⟩

/-- What follows goes on from where an action has come to. -/
theorem goOn (h : ∀ b m', value a m = b → after a m = m' → ∃ d',
      Deals answers X holder m d ids (after (f b) m') d' (held' (value (f b) m')) ∧
        post' (value (f b) m') d') :
    Settles answers X holder m d ids (a >>= f) held' post' := h _ _ rfl rfl

/-- What follows is done with what remains in hand. -/
theorem map (h : Settles answers X holder m d ids a held post) {g : β → γ}
    (hheld : ∀ b, (held' (g b)).Sublist (held b)) (hpost : ∀ b d', post b d' → post' (g b) d') :
    Settles answers X holder m d ids (a >>= fun b => Pure.pure (g b)) held' post' := by
  obtain ⟨d', hdeals, hp⟩ := h
  exact ⟨d', hdeals.drop (hheld _), hpost _ _ hp⟩

/-- What else is in hand is left alone. -/
theorem frame (h : Settles answers X holder m d ids a held post)
    (hg : m.Grasps d X holder (ids ++ others)) :
    Settles answers X holder m d (ids ++ others) a (fun b => held b ++ others)
      fun b d' => post b d' ∧ ∀ i ∈ others, d'.owed i = d.owed i := by
  obtain ⟨d', hdeals, hpost⟩ := h
  obtain ⟨hframed, hsame⟩ := hdeals.frame hg
  exact ⟨d', hframed, hpost, hsame⟩

theorem frameLeft (h : Settles answers X holder m d ids a held post)
    (hg : m.Grasps d X holder (others ++ ids)) :
    Settles answers X holder m d (others ++ ids) a (fun b => others ++ held b)
      fun b d' => post b d' ∧ ∀ i ∈ others, d'.owed i = d.owed i := by
  obtain ⟨d', hdeals, hpost⟩ := h
  obtain ⟨hframed, hsame⟩ := hdeals.frame (hg.perm List.perm_append_comm)
  exact ⟨d', hframed.perm List.perm_append_comm List.perm_append_comm, hpost, hsame⟩

end Settles

/-! ### What small changes leave alone -/

namespace Beside

omit [DecidableEq α]

/-- An executor changes that is not excepted, and remains what it is. -/
theorem update {id : Nat} {e : Executor α} {f : Executor α → Executor α}
    (he : m.executors[id]? = some e) (hid : .executor id ∉ X) (hbranch : (f e).branch = e.branch)
    (hfirst : (f e).firstOnly = e.firstOnly) (hproducer : (f e).producer = e.producer)
    (hclosed : e.closed = true → (f e).closed = true)
    (hproducing : (f e).closed = false → (f e).producing = e.producing) :
    Beside X ids m d (after (updateExecutor id f) m) d := by
  refine ⟨.update he hbranch hfirst hproducer hclosed, fun i hi _ => ?_, fun _ _ _ _ => rfl,
    fun i e' e'' he' he'' hopen => ?_, fun _ th hth => ⟨th, hth, rfl⟩, rfl, fun _ _ => rfl,
    fun _ _ => rfl, rfl, rfl, fun _ _ _ _ => ⟨rfl, rfl⟩⟩
  · exact getElem?_updateExecutor_of_ne fun hsame => hid (hsame ▸ hi)
  · by_cases hi : i = id
    · subst hi
      obtain rfl : e = e' := Option.some.inj (he.symm.trans he')
      rw [getElem?_updateExecutor f he] at he''
      obtain rfl := Option.some.inj he''
      exact hproducing hopen
    · rw [getElem?_updateExecutor_of_ne hi] at he''
      rw [Option.some.inj (he'.symm.trans he'')]

/-- An executor is cancelled that is not excepted. -/
theorem cancel (hs : m.Staffed) {id : Nat} (hid : .executor id ∉ X) :
    Beside X ids m d (after (cancel id) m) d := by
  rw [Machine.cancel, after_get_bind]
  split
  · next e he =>
    refine Beside.trans ?_ (.of_alike (alike_wakeWorkingFor _ _) [])
      fun i hi => absurd hi List.not_mem_nil
    refine ⟨.of_executors rfl fun _ record hrecord => ⟨record, hrecord, rfl⟩, fun _ _ _ => rfl,
      fun i e' hi he' => ?_, fun i e' e'' he' he'' _ => ?_, fun _ th hth => ⟨th, hth, rfl⟩, rfl,
      fun _ _ => rfl, fun _ _ => rfl, rfl, rfl, fun _ _ _ _ => ⟨rfl, rfl⟩⟩
    · have hne : e.branch ≠ e'.branch := fun hsame =>
        hid (hs.branch_inj id i e e' he he' hsame ▸ hi)
      simp [Machine.isCancelled, QueryContext.isBranchCancelled, QueryContext.cancelBranch,
        Array.getElem?_setIfInBounds_ne hne]
    · rw [Option.some.inj (he'.symm.trans he'')]
  · exact .of_alike (.refl m) _

/-- A thread is to be ended. -/
theorem doom (t : Nat) : Beside X ids m d (after (doom t) m) d := by
  refine Beside.trans ?_ (.of_alike (alike_wake (.thread t) _) [])
    fun i hi => absurd hi List.not_mem_nil
  refine ⟨.of_executors rfl fun _ record hrecord => ⟨record, hrecord, rfl⟩, fun _ _ _ => rfl,
    fun _ _ _ _ => rfl, fun i e' e'' he' he'' _ => ?_, fun u th hth => ?_, rfl,
    fun _ _ => rfl, fun _ _ => rfl, rfl, rfl, fun _ _ _ _ => ⟨rfl, rfl⟩⟩
  · rw [Option.some.inj (he'.symm.trans he'')]
  · refine ⟨if t = u then { th with doomed := true } else th, ?_, by split <;> rfl⟩
    show (m.threads.modify t _)[u]? = _
    rw [Array.getElem?_modify, hth]
    split <;> rfl

/-- What is in hand is paid, or somebody hands on what he holds. -/
theorem pay (htasks : d'.tasks = d.tasks) (hrest : d'.rest = d.rest)
    (hresult : d'.result = d.result) (hspot : d'.spot = d.spot)
    (hothers : ∀ i < m.executors.size, d.holder i ∈ X → i ∉ ids →
      d'.owed i = d.owed i ∧ d'.holder i = d.holder i) : Beside X ids m d m d' where
  later := .refl m
  executors _ _ _ := rfl
  cancelled _ _ _ _ := rfl
  producing id e e' he he' _ := by rw [Option.some.inj (he.symm.trans he')]
  threads _ th hth := ⟨th, hth, rfl⟩
  queryTasks := rfl
  tasks i _ := by rw [htasks]
  rest i _ := by rw [hrest]
  result := hresult
  spot := hspot
  others := hothers

end Beside

/-! ### Closing -/

section Closing

omit [DecidableEq α]

/-- An executor has been closed: nothing is owed any more, and what it had is handed over. -/
def closing (d : Dues α) (id : Nat) (holder : Holder) (contents : List Nat) : Dues α :=
  { d with
    owed := fun i => if i = id then 0 else d.owed i
    holder := fun i => if i ∈ contents then holder else d.holder i }

theorem executors_cancel (id : Nat) (m : Machine α) :
    (after (cancel id) m).executors = m.executors := by
  rw [cancel, after_get_bind]
  split
  · exact (alike_wakeWorkingFor _ _).executors
  · rfl

theorem executors_doom (t : Nat) (m : Machine α) : (after (doom t) m).executors = m.executors :=
  (alike_wake (.thread t) _).executors

/-- What is not wanted any more of an executor that is closed is cancelled. -/
def cancelOpen (id : Nat) (e : Executor α) : Action α Unit := do
  unless e.closed do
    cancel id
    wakeConsumer id

/-- The producer of an executor that is closed is to be ended. -/
def doomProducer (e : Executor α) : Action α Unit :=
  match e.producer with
  | some t => unless e.finished do doom t
  | none => pure ()

/-- Closing goes on to the executors that an executor holds. -/
theorem after_closeExecutor {id : Nat} {e : Executor α} (he : m.executors[id]? = some e)
    (depth : Nat) :
    after (closeExecutor (depth + 1) id) m = after (do
      for inner in heldByAll e.contents do closeExecutor depth inner)
        (after (wakeAll e.waiting) (after (doomProducer e) (after (cancelOpen id e)
          (after (updateExecutor id Executor.close) m)))) := by
  rw [closeExecutor, after_get_bind, he]
  cases hclosed : e.closed <;> cases hproducer : e.producer <;> cases hfinished : e.finished <;>
    simp [cancelOpen, doomProducer, wakeAll, hclosed, hproducer, hfinished, Executor.held_contents]

end Closing

/-- What closing does with an executor before it goes on to the executors that it holds. -/
theorem exists_closing (h : m.Honours answers d X) {id : Nat} (hg : m.Grasps d X holder [id])
    {e : Executor α} (he : m.executors[id]? = some e) :
    let m' := after (wakeAll e.waiting) (after (doomProducer e) (after (cancelOpen id e)
      (after (updateExecutor id Executor.close) m)))
    let d' := closing d id holder (heldByAll e.contents)
    m'.Honours answers d' X ∧ Beside X [id] m d m' d' := by
  have hid : .executor id ∉ X := fun hX =>
    absurd ((hg.beyond id hX).2 id (List.mem_singleton_self id)) (Nat.lt_irrefl id)
  have hserves := h.executors id e he hid
  -- The executor is excepted until all that it had has been handed over.
  set Y := insert (Holder.executor id) X with hY
  have hmem : Holder.executor id ∈ Y := Set.mem_insert _ _
  have hid' : ∀ i ∈ ([] : List Nat), i < m.executors.size → i ∈ [id] ∨ d.holder i ∉ X :=
    fun i hi => absurd hi List.not_mem_nil
  obtain ⟨m₁, h₁, hbeside₁, he₁, hm₁⟩ : ∃ m₁, m₁.Honours answers d Y ∧ Beside X [id] m d m₁ d ∧
      m₁.executors[id]? = some e.close ∧ m₁ = after (updateExecutor id Executor.close) m := by
    refine ⟨_, (h.mono (Set.subset_insert _ _)).update he hmem rfl rfl rfl (fun _ => rfl) ?_,
      .update he hid rfl rfl rfl (fun _ => rfl) ?_, ?_, rfl⟩
    · exact fun _ _ hopen => by cases hopen
    · exact fun hopen => by cases hopen
    · show (m.executors.modify id _)[id]? = _
      rw [Array.getElem?_modify, if_pos rfl, he]
      rfl
  obtain ⟨m₂, h₂, hbeside₂, he₂, hm₂⟩ : ∃ m₂, m₂.Honours answers d Y ∧ Beside X [id] m₁ d m₂ d ∧
      m₂.executors[id]? = some e.close ∧ m₂ = after (cancelOpen id e) m₁ := by
    refine ⟨_, ?_, ?_, ?_, rfl⟩
    all_goals unfold cancelOpen; split
    · exact h₁
    · exact (h₁.cancel hmem).alike (alike_wakeConsumer id _)
    · exact .of_alike (.refl _) _
    · exact (Beside.cancel h₁.staffed hid).trans (.of_alike (alike_wakeConsumer id _) [id])
        fun i hi _ => .inl hi
    · exact he₁
    · rw [after_bind, (alike_wakeConsumer id _).executors, executors_cancel]
      exact he₁
  obtain ⟨m₃, h₃, hbeside₃, he₃, hm₃⟩ : ∃ m₃, m₃.Honours answers d Y ∧ Beside X [id] m₂ d m₃ d ∧
      m₃.executors[id]? = some e.close ∧ m₃ = after (doomProducer e) m₂ := by
    refine ⟨_, ?_, ?_, ?_, rfl⟩
    all_goals unfold doomProducer; split
    · next t ht =>
      split
      · exact h₂
      · exact h₂.doom he₂ rfl ht
    · exact h₂
    · split
      · exact .of_alike (.refl _) _
      · exact .doom _
    · exact .of_alike (.refl _) _
    · split
      · exact he₂
      · rw [executors_doom]
        exact he₂
    · exact he₂
  intro m₄ d'
  have hwakes : m₃.Alike m₄ := by
    subst hm₁ hm₂ hm₃
    exact alike_wakeAll e.waiting _
  have hcontents := hserves.holds
  have hthis : d.holder id = holder := hg.holds.holder id (List.mem_singleton_self id)
  have hpays : m₄.Honours answers d' Y := by
    refine (h₃.alike hwakes).pay rfl rfl rfl rfl (fun i _ hi => ⟨if_neg ?_, if_neg ?_⟩)
      fun j _ _ hj => .inl (if_neg ?_)
    · rintro rfl
      exact hi (Set.mem_insert_of_mem _ (hthis ▸ hg.mem))
    · exact fun hmem' => hi (hcontents.holder i hmem' ▸ hmem)
    · rintro rfl
      exact hj hmem
  have hbeside : Beside X [id] m d m₄ d' := by
    have hbeside₄ : Beside X [id] m d m₄ d :=
      ((hbeside₁.trans hbeside₂ fun i hi _ => .inl hi).trans hbeside₃ fun i hi _ => .inl hi).trans
        (.of_alike hwakes [id]) fun i hi _ => .inl hi
    refine hbeside₄.trans (.pay rfl rfl rfl rfl fun i _ hX hi => ⟨if_neg ?_, if_neg ?_⟩)
      fun i hi _ => .inl hi
    · exact fun hsame => hi (List.mem_singleton.2 hsame)
    · exact fun hmem' => hid (hcontents.holder i hmem' ▸ hX)
  refine ⟨hpays.restore (e := e.close) ?_ ⟨rfl, fun _ => if_pos rfl, ?_, ?_, ?_⟩, hbeside⟩
  · rw [hwakes.executors]
    exact he₃
  · exact fun hopen => by cases hopen
  · exact .nil
  · exact fun i hi => absurd hi List.not_mem_nil

/-- If executors may be closed one by one, they may be closed one after the other. -/
theorem settles_closeEach {depth : Nat}
    (closes : ∀ {id : Nat} {m : Machine α} {d : Dues α}, m.Honours answers d X →
      m.Grasps d X holder [id] →
        Settles answers X holder m d [id] (closeExecutor depth id) (fun _ => [id])
          fun _ d' => depth ≠ 0 → d'.owed id = 0)
    (h : m.Honours answers d X) (hg : m.Grasps d X holder ids) :
    Settles answers X holder m d ids (do for id in ids do closeExecutor depth id) (fun _ => ids)
      fun _ d' => depth ≠ 0 → ∀ id ∈ ids, d'.owed id = 0 := by
  induction ids generalizing m d with
  | nil => exact ⟨d, .refl h hg, fun _ id hid => absurd hid List.not_mem_nil⟩
  | cons id rest ih =>
    have hboth : m.Grasps d X holder ([id] ++ rest) := hg
    obtain ⟨d₁, hdeals, hzero⟩ := closes h hboth.left
    obtain ⟨hfirst, -⟩ := hdeals.frame hboth
    obtain ⟨d₂, hrest, hzeros⟩ := ih hfirst.honours hfirst.grasps.right
    obtain ⟨hlast, hsame⟩ := hrest.frame (hfirst.grasps.perm List.perm_append_comm)
    refine ⟨d₂, ?_, fun hdepth i hi => ?_⟩
    · rw [List.forIn_cons]
      exact hfirst.trans (hlast.perm List.perm_append_comm List.perm_append_comm)
    · obtain rfl | hi := List.mem_cons.1 hi
      · exact (hsame i (List.mem_singleton_self i)).trans (hzero hdepth)
      · exact hzeros hdepth i hi

/-- An executor that is closed owes nothing any more. -/
theorem settles_closeExecutor (depth : Nat) {id : Nat} (h : m.Honours answers d X)
    (hg : m.Grasps d X holder [id]) :
    Settles answers X holder m d [id] (closeExecutor depth id) (fun _ => [id])
      fun _ d' => depth ≠ 0 → d'.owed id = 0 := by
  induction depth generalizing id m d with
  | zero => exact ⟨d, .refl h hg, fun hdepth => absurd rfl hdepth⟩
  | succ depth ih =>
    have hthis := List.mem_singleton_self id
    have hlt : id < m.executors.size := hg.holds.exist id hthis
    obtain ⟨e, he⟩ : ∃ e, m.executors[id]? = some e := ⟨_, Array.getElem?_eq_getElem hlt⟩
    have hid : .executor id ∉ X := fun hX =>
      absurd ((hg.beyond id hX).2 id hthis) (Nat.lt_irrefl id)
    have hserves := h.executors id e he hid
    obtain ⟨h₁, hbeside⟩ := exists_closing h hg he
    set m₁ := after (wakeAll e.waiting) (after (doomProducer e) (after (cancelOpen id e)
      (after (updateExecutor id Executor.close) m)))
    set d₁ := closing d id holder (heldByAll e.contents) with hd₁
    have hnotmem : id ∉ heldByAll e.contents := fun hmem =>
      absurd (hserves.later id hmem) (Nat.lt_irrefl id)
    have hgrasps : m₁.Grasps d₁ X holder (heldByAll e.contents ++ [id]) := {
      mem := hg.mem
      holds := {
        nodup := List.nodup_append.2 ⟨hserves.holds.nodup, List.nodup_singleton id,
          fun i hi j hj hij => hnotmem (List.mem_singleton.1 hj ▸ hij ▸ hi)⟩
        holder := fun i hi => by
          obtain hi | hi := List.mem_append.1 hi
          · exact if_pos hi
          · rw [List.mem_singleton.1 hi]
            exact (if_neg hnotmem).trans (hg.holds.holder id hthis)
        exist := fun i hi => by
          obtain hi | hi := List.mem_append.1 hi
          · exact Nat.lt_of_lt_of_le (hserves.holds.exist i hi) hbeside.size_le
          · exact List.mem_singleton.1 hi ▸ Nat.lt_of_lt_of_le hlt hbeside.size_le }
      beyond := fun j hj => ⟨Nat.lt_of_lt_of_le (hg.beyond j hj).1 hbeside.size_le, fun i hi => by
        have hji := (hg.beyond j hj).2 id hthis
        obtain hi | hi := List.mem_append.1 hi
        · exact Nat.lt_trans hji (hserves.later i hi)
        · exact List.mem_singleton.1 hi ▸ hji⟩
      threads := fun t ht => Nat.lt_of_lt_of_le (hg.threads t ht) hbeside.size_threads_le }
    obtain ⟨d₂, hrest, -⟩ := settles_closeEach (fun h hg => ih h hg) h₁ hgrasps.left
    obtain ⟨hframed, hsame⟩ := hrest.frame hgrasps
    refine ⟨d₂, ⟨?_, ?_, ?_, fun i hi => .inl hi⟩, fun _ => ?_⟩
    · rw [after_closeExecutor he]
      exact hrest.honours
    · rw [after_closeExecutor he]
      exact hbeside.trans hrest.beside fun i hi _ => .inr (hserves.holds.holder i hi ▸ hid)
    · rw [after_closeExecutor he]
      exact hframed.grasps.right
    · exact (hsame id hthis).trans (if_pos rfl)

/-- **Executors may be closed, however deep they hold one another's results, and then owe nothing.**
-/
theorem settles_closeAll (h : m.Honours answers d X) (hg : m.Grasps d X holder ids) :
    Settles answers X holder m d ids (closeAll ids) (fun _ => ids)
      fun _ d' => ∀ id ∈ ids, d'.owed id = 0 := by
  obtain ⟨d', hdeals, hzero⟩ :=
    settles_closeEach (fun h hg => settles_closeExecutor m.executors.size h hg) h hg
  exact ⟨d', hdeals, fun id hid =>
    hzero (Nat.ne_of_gt (Nat.lt_of_le_of_lt (Nat.zero_le _) (hg.holds.exist id hid))) id hid⟩

/-- What somebody has in hand may be given up. -/
theorem settles_discard (h : m.Honours answers d X) {c : Cursor α}
    (hg : m.Grasps d X holder c.held) :
    Settles answers X holder m d c.held (discard c) (fun _ => []) fun _ _ => True := by
  obtain ⟨d', hdeals, -⟩ := settles_closeAll h hg
  exact ⟨d', hdeals.drop (List.nil_sublist _), trivial⟩

end Machine

end FederatedSparql
