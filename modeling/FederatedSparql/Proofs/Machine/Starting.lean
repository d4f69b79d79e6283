import FederatedSparql.Proofs.Machine.Dealings

/-!
Executors that are started, and feeds that are made cursors.

A new executor owes what its producer is to schedule, and the producer takes over the executors whose
results it pulls.  So a cursor brings what the feed brings that it is made of
(`Machine.settles_openFeed`).
-/

namespace FederatedSparql

namespace Machine

variable {α : Type}

/-! ### What is started -/

section Starting

variable (firstOnly : Bool) (production : Production α) (m : Machine α)

/-- The executor that is started. -/
def started : Executor α where
  branch := m.query.branches.size
  firstOnly := firstOnly
  producer := some m.threads.size

/-- What becomes of a machine when an executor is started, but for whom it wakes. -/
def starting : Machine α :=
  { m with
    query := { m.query with branches := m.query.branches.push false }
    executors := m.executors.push (m.started firstOnly)
    threads := m.threads.push { activity := .producing m.executors.size production } }

theorem modify_push_size (es : Array (Executor α)) (e : Executor α)
    (f : Executor α → Executor α) : (es.push e).modify es.size f = es.push (f e) := by
  refine Array.ext_getElem? fun i => ?_
  rw [Array.getElem?_modify, Array.getElem?_push, Array.getElem?_push]
  split <;> split <;> simp_all

theorem alike_startExecutor :
    (m.starting firstOnly production).Alike (after (startExecutor firstOnly production) m) := by
  set m₁ : Machine α := { m with
    query := m.query.addBranch.2
    executors := m.executors.push { branch := m.query.branches.size, firstOnly }
    threads := m.threads.push { activity := .producing m.executors.size production } } with hm₁
  have hwake := alike_wake (.thread m.threads.size) m₁
  refine ⟨hwake.answers, hwake.query, ?_, hwake.threads, hwake.jobs, hwake.accepting⟩
  have hafter : (after (startExecutor firstOnly production) m).executors =
      (after (wake (.thread m.threads.size)) m₁).executors.modify m.executors.size
        fun e => { e with producer := some m.threads.size } := rfl
  rw [hafter, hwake.executors, modify_push_size]
  rfl

end Starting

variable [DecidableEq α] {answers : Answers} {m : Machine α} {d d' : Dues α} {X : Set Holder}
  {holder : Holder} {ids : List Nat} {firstOnly : Bool} {production : Production α}

omit [DecidableEq α] in
theorem getElem?_starting {i : Nat} {e : Executor α} (he : m.executors[i]? = some e) :
    (m.starting firstOnly production).executors[i]? = some e := by
  have hlt := (Array.getElem?_eq_some_iff.1 he).1
  exact (Array.getElem?_push_lt hlt).trans ((Array.getElem?_eq_getElem hlt).symm.trans he)

omit [DecidableEq α] in
theorem isCancelled_starting {e : Executor α} (he : e.branch < m.query.branches.size) :
    (m.starting firstOnly production).isCancelled e = m.isCancelled e := by
  simp [starting, Machine.isCancelled, QueryContext.isBranchCancelled, Array.getElem?_push,
    Nat.ne_of_lt he]

/-- An executor is started that does its part, with a producer that does his. -/
theorem Honours.start (h : m.Honours answers d X)
    (hserves : (m.started firstOnly).Serves answers d (m.executors.size + 1) m.executors.size false)
    (hemploys : (m.starting firstOnly production).Employs answers d m.threads.size
      (.producing m.executors.size production)) :
    (m.starting firstOnly production).Honours answers d X := by
  set m' := m.starting firstOnly production with hm'
  have hget (i : Nat) : m'.executors[i]? =
      if i = m.executors.size then some (m.started firstOnly) else m.executors[i]? :=
    Array.getElem?_push
  have hold {i : Nat} {e : Executor α} (he : m.executors[i]? = some e) :
      m'.executors[i]? = some e := getElem?_starting he
  have hthread (t : Nat) : m'.threads[t]? =
      if t = m.threads.size then some { activity := .producing m.executors.size production }
        else m.threads[t]? := Array.getElem?_push
  have holdThread {t : Nat} {th : Thread α} (hth : m.threads[t]? = some th) :
      m'.threads[t]? = some th := by
    have hlt := (Array.getElem?_eq_some_iff.1 hth).1
    rw [hthread, if_neg (Nat.ne_of_lt hlt), hth]
  have hsize : m'.executors.size = m.executors.size + 1 := Array.size_push _
  have hlater : m.Later m' := {
    executors := fun i e he => ⟨e, hold he, rfl, rfl, rfl, fun hc => hc⟩
    tasks := fun _ record hrecord => ⟨record, hrecord, rfl⟩ }
  have hcancelled {i : Nat} {e : Executor α} (he : m.executors[i]? = some e) :
      m'.isCancelled e = m.isCancelled e := isCancelled_starting (h.staffed.branch_lt i e he)
  refine ⟨⟨h.calm.answers, h.calm.deadline, h.calm.aborted, h.calm.cancelled, h.calm.hanging,
      h.calm.accepting⟩, ⟨fun i e he => ?_, fun i j e e' he he' hsame => ?_,
      fun t th hth hdoomed => ?_, fun i e t he ht => ?_⟩, h.known, fun i e he hi => ?_,
    fun t th hth ht => ?_, fun p job hjob => (h.jobs p job hjob).stays hlater, h.nodup⟩
  · rw [hget] at he
    show e.branch < (m.query.branches.push false).size
    rw [Array.size_push]
    split at he
    · obtain rfl := Option.some.inj he
      exact Nat.lt_succ_self _
    · exact Nat.lt_succ_of_lt (h.staffed.branch_lt i e he)
  · rw [hget] at he he'
    split at he <;> split at he'
    · next hi hj => exact hi.trans hj.symm
    · obtain rfl := Option.some.inj he
      exact absurd hsame.symm (Nat.ne_of_lt (h.staffed.branch_lt j e' he'))
    · obtain rfl := Option.some.inj he'
      exact absurd hsame (Nat.ne_of_lt (h.staffed.branch_lt i e he))
    · exact h.staffed.branch_inj i j e e' he he' hsame
  · rw [hthread] at hth
    split at hth
    · obtain rfl := Option.some.inj hth
      cases hdoomed
    · refine (h.staffed.doomed t th hth hdoomed).imp_right ?_
      rintro ⟨i, production', e, hproduces, he, hclosed⟩
      exact ⟨i, production', e, hproduces, hold he, hclosed⟩
  · rw [hget] at he
    split at he
    · next hi =>
      obtain rfl := Option.some.inj he
      obtain rfl : m.threads.size = t := Option.some.inj ht
      exact ⟨_, by rw [hthread, if_pos rfl], .inr ⟨production, by rw [hi]⟩⟩
    · obtain ⟨th, hth, hdoes⟩ := h.staffed.producer i e t he ht
      exact ⟨th, holdThread hth, hdoes⟩
  · rw [hget] at he
    rw [hsize]
    split at he
    · next hi =>
      obtain rfl := Option.some.inj he
      have hnot : m'.isCancelled (m.started firstOnly) = false := by
        have hquery : m'.query.cancelled = false := h.calm.cancelled
        simp [Machine.isCancelled, QueryContext.isBranchCancelled, hquery]
        simp [hm', starting, started]
      rw [hi, hnot]
      exact hserves
    · rw [hcancelled he]
      exact (h.executors i e he hi).grow (Nat.le_succ _)
  · rw [hthread] at hth
    split at hth
    · next hnew =>
      obtain rfl := Option.some.inj hth
      rw [hnew]
      exact hemploys
    · have hold' := h.threads t th hth ht
      refine hold'.later hlater (fun _ _ => ⟨rfl, rfl⟩)
        (fun job hjob => ⟨rfl, rfl, (hold'.jobAt hjob).isOpen⟩) fun i _ _ => ?_
      refine ⟨rfl, fun hempty => hempty, fun e e' he he' _ hgoes hopen => ?_⟩
      obtain rfl : e = e' := Option.some.inj ((hold he).symm.trans he')
      exact hgoes hopen

/-- An executor is started: it owes what its producer is to schedule, who takes over the executors
from which he pulls. -/
def engaging (d : Dues α) (m : Machine α) (holder : Holder) (ids : List Nat) (M : Multiset α) :
    Dues α :=
  { d with
    owed := fun i => if i = m.executors.size then M else d.owed i
    tasks := fun i => if i = m.executors.size then ∅ else d.tasks i
    rest := fun i => if i = m.executors.size then M else d.rest i
    holder := fun i => if i = m.executors.size then holder
      else if i ∈ ids then .thread m.threads.size else d.holder i }

section Engaging

variable {M : Multiset α}

omit [DecidableEq α] in
theorem engaging_of_lt {i : Nat} (hi : i < m.executors.size) :
    (engaging d m holder ids M).tasks i = d.tasks i ∧
      (engaging d m holder ids M).rest i = d.rest i ∧
      (engaging d m holder ids M).owed i = d.owed i :=
  have hne := Nat.ne_of_lt hi
  ⟨if_neg hne, if_neg hne, if_neg hne⟩

omit [DecidableEq α] in
theorem holder_engaging_of_lt {i : Nat} (hi : i < m.executors.size) :
    (engaging d m holder ids M).holder i =
      if i ∈ ids then .thread m.threads.size else d.holder i :=
  if_neg (Nat.ne_of_lt hi)

omit [DecidableEq α] in
theorem engaging_new (m : Machine α) (d : Dues α) (holder : Holder) (ids : List Nat) (M : Multiset α) :
    (engaging d m holder ids M).tasks m.executors.size = ∅ ∧
      (engaging d m holder ids M).rest m.executors.size = M ∧
      (engaging d m holder ids M).owed m.executors.size = M ∧
      (engaging d m holder ids M).holder m.executors.size = holder :=
  ⟨if_pos rfl, if_pos rfl, if_pos rfl, if_pos rfl⟩

/-- What is in hand may be handed to the producer of an executor that does not exist yet. -/
theorem Honours.engage (h : m.Honours answers d X) (hg : m.Grasps d X holder ids) :
    m.Honours answers (engaging d m holder ids M) X := by
  have hnotmem {i : Nat} (hX : d.holder i ∉ X) : i ∉ ids := fun hi =>
    hX (hg.holds.holder i hi ▸ hg.mem)
  refine h.reckon (fun i hi hX => ?_) (fun i e he _ => ?_) (fun job hjob => ?_)
    (fun t th i _ hth ht hproduces => ?_) fun i k hk => ?_
  · exact ⟨(engaging_of_lt hi).2.2, (holder_engaging_of_lt hi).trans (if_neg (hnotmem hX))⟩
  · obtain ⟨htasks, hrest, howed⟩ := engaging_of_lt (Array.getElem?_eq_some_iff.1 he).1
    exact ⟨htasks, hrest, fun _ _ => rfl, .inl howed⟩
  · obtain ⟨_, hat, -⟩ := h.jobAt hjob
    refine ⟨rfl, rfl, ?_⟩
    rw [(engaging_of_lt hat.executor_lt).1]
    exact hat.isOpen
  · have hemploys := h.threads t th hth ht
    rw [hproduces] at hemploys
    obtain ⟨e, he, -⟩ := hemploys
    obtain ⟨htasks, hrest, -⟩ := engaging_of_lt (Array.getElem?_eq_some_iff.1 he).1
    exact ⟨hrest, fun hempty => htasks.trans hempty⟩
  · by_cases hi : i = m.executors.size
    · rw [hi, (engaging_new ..).1] at hk
      exact absurd hk (Finset.notMem_empty k)
    · rw [show (engaging d m holder ids M).tasks i = d.tasks i from if_neg hi] at hk
      exact h.known i k hk

/-- A new executor owes what is to be scheduled, for nothing has been scheduled yet. -/
theorem serves_started (size : Nat) :
    (m.started firstOnly).Serves answers (engaging d m holder ids M) size m.executors.size false := by
  obtain ⟨htasks, hrest, howed, -⟩ :=
    engaging_new m d holder ids M
  refine ⟨rfl, nofun, fun _ => ⟨rfl, rfl, ?_, nofun, ⟨[], M, .nil, ?_, ?_⟩, nofun,
    fun _ => ⟨rfl, fun _ => rfl⟩⟩, .nil, fun i hi => absurd hi List.not_mem_nil⟩
  · rw [htasks]
    rfl
  · rw [howed]
    exact (zero_add M).symm
  · cases firstOnly with
    | false =>
      show M = ∑ k ∈ _, _ + _
      rw [htasks, hrest, Finset.sum_empty, zero_add]
    | true =>
      refine ⟨fun k hk => ?_, .inr hrest, .inr (.inl hrest)⟩
      rw [htasks] at hk
      exact absurd hk (Finset.notMem_empty k)

/-- Starting an executor leaves alone what others have. -/
theorem beside_starting (h : m.Honours answers d X) :
    Beside X ids m d (m.starting firstOnly production) (engaging d m holder ids M) where
  later := {
    executors := fun i e he => ⟨e, getElem?_starting he, rfl, rfl, rfl, fun hc => hc⟩
    tasks := fun _ record hrecord => ⟨record, hrecord, rfl⟩ }
  executors i _ hi := by
    rw [Array.getElem?_eq_getElem hi]
    exact getElem?_starting (Array.getElem?_eq_getElem hi)
  cancelled i e _ he := isCancelled_starting (h.staffed.branch_lt i e he)
  producing i e e' he he' _ := by
    rw [Option.some.inj ((getElem?_starting he).symm.trans he')]
  threads t th hth := by
    have hlt := (Array.getElem?_eq_some_iff.1 hth).1
    exact ⟨th, (Array.getElem?_push_lt hlt).trans ((Array.getElem?_eq_getElem hlt).symm.trans hth),
      rfl⟩
  queryTasks := rfl
  tasks i hi := (engaging_of_lt hi).1
  rest i hi := (engaging_of_lt hi).2.1
  result := rfl
  spot := rfl
  others i hi _ hmem := ⟨(engaging_of_lt hi).2.2, (holder_engaging_of_lt hi).trans (if_neg hmem)⟩

end Engaging

/-- **An executor that is started owes what its producer promises.** -/
theorem settles_startExecutor (firstOnly : Bool) (production : Production α)
    (h : m.Honours answers d X)
    (hg : m.Grasps d X holder (leftOf production).held) {M : Multiset α}
    (hpromises : production.Promises answers d.owed firstOnly M) :
    Settles answers X holder m d (leftOf production).held (startExecutor firstOnly production)
      (fun id => [id]) fun id d' => d'.owed id = M := by
  set ids := (leftOf production).held with hids
  set d' := engaging d m holder ids M with hd'
  obtain ⟨htasks, hrest, howed, hholder⟩ :=
    engaging_new m d holder ids M
  have hstart : (m.starting firstOnly production).Honours answers d' X := by
    refine (h.engage hg).start (serves_started _) ⟨m.started firstOnly, Array.getElem?_push_size,
      rfl, ?_, ⟨hg.holds.nodup, fun i hi => ?_, fun i hi => ?_⟩, fun _ _ => rfl, fun _ _ _ _ => htasks⟩
    · rw [hrest]
      exact hpromises.congr fun i hi => (engaging_of_lt (hg.holds.exist i hi)).2.2
    · exact (holder_engaging_of_lt (hg.holds.exist i hi)).trans (if_pos hi)
    · exact (Array.size_push _).symm ▸ Nat.lt_succ_of_lt (hg.holds.exist i hi)
  have halike := alike_startExecutor firstOnly production m
  have hbeside : Beside X ids m d (m.starting firstOnly production) d' := beside_starting h
  refine ⟨d', ⟨hstart.alike halike, ?_, ?_, fun i hi => .inr ?_⟩, howed⟩
  · exact hbeside.trans (.of_alike halike []) fun i hi => absurd hi List.not_mem_nil
  · have hgrasps : (m.starting firstOnly production).Grasps d' X holder [m.executors.size] := {
      mem := hg.mem
      holds := {
        nodup := List.nodup_singleton _
        holder := fun i hi => List.mem_singleton.1 hi ▸ hholder
        exist := fun i hi => List.mem_singleton.1 hi ▸
          (Array.size_push _ : (m.executors.push _).size = _).symm ▸ Nat.lt_succ_self _ }
      beyond := fun j hj => ⟨Nat.lt_of_lt_of_le (hg.beyond j hj).1 hbeside.size_le, fun i hi =>
        List.mem_singleton.1 hi ▸ (hg.beyond j hj).1⟩
      threads := fun t ht => Nat.lt_of_lt_of_le (hg.threads t ht) hbeside.size_threads_le }
    exact hgrasps.keep (.of_alike halike []) fun i _ hi => absurd hi List.not_mem_nil
  · exact List.mem_singleton.1 hi ▸ Nat.le_refl _

/-- A cursor over an executor brings what the executor owes. -/
theorem brings_executor {id : Nat} {M : Multiset α} {Q : List α → Prop} (howed : d.owed id = M)
    (hQ : ∀ ys : List α, (ys : Multiset α) = M → Q ys) :
    (Cursor.pipe (.executor id)).Brings answers d.owed Q :=
  fun ys hys => hQ ys (hys.trans howed)

/-- **A cursor brings what the feed brings that it is made of.** -/
theorem settles_openFeed (h : m.Honours answers d X) (hg : m.Grasps d X holder []) :
    ∀ {f : Feed α} {Q : List α → Prop}, f.Brings answers Q →
      Settles answers X holder m d [] (openFeed f) Cursor.held
        fun c d' => c.Brings answers d'.owed Q
  | .rows xs, Q, hf => by
    rw [openFeed]
    exact .pure h hg (by simp) (Cursor.brings_ofList hf)
  | .outcomes as, Q, hf => by
    rw [openFeed]
    exact .pure h hg (List.Sublist.refl _) hf
  | .union false branches, Q, ⟨Ms, hbranches, hQ⟩ => by
    rw [openFeed]
    have hstart := settles_startExecutor false (.branches branches) h hg
      (M := Ms.sum) ⟨Ms, branchesBring_iff.1 hbranches, rfl⟩
    exact hstart.map (fun _ => List.Sublist.refl _) fun _ _ howed => brings_executor howed hQ
  | .union true branches, Q, ⟨Ms, x, hbranches, honly, hQ⟩ => by
    rw [openFeed]
    have hstart := settles_startExecutor true (.branches branches) h hg
      (M := if {x} ∈ Ms then {x} else 0) ⟨Ms, hbranches, fun N hN => ?_, ?_⟩
    · exact hstart.map (fun _ => List.Sublist.refl _) fun _ _ howed => brings_executor howed hQ
    · obtain rfl | rfl := honly N hN
      · exact .inl rfl
      · exact .inr (if_pos hN).symm
    · split
      · next hx => exact .inr hx
      · exact .inl rfl
  | .nestedJoin left right, Q, ⟨M, R, hleft, hQ⟩ => by
    rw [openFeed]
    refine (settles_openFeed h hg hleft).bind fun c m' d' hdeals hc => ?_
    have hstart := settles_startExecutor false (.nested c right)
      hdeals.honours hdeals.grasps (M := M)
      ⟨rfl, R, hc.mono fun xs hxs => ⟨hxs.1, hxs.2.symm⟩⟩
    exact hstart.map (fun _ => List.Sublist.refl _) fun _ _ howed => brings_executor howed hQ
  | .boundJoin left size right, Q, ⟨M, R, hleft, hQ⟩ => by
    rw [openFeed]
    refine (settles_openFeed h hg hleft).bind fun c m' d' hdeals hc => ?_
    have hstart := settles_startExecutor false (.first c size right)
      hdeals.honours hdeals.grasps (M := M)
      ⟨rfl, R, hc.mono fun xs hxs => ⟨hxs.1, hxs.2.symm⟩⟩
    exact hstart.map (fun _ => List.Sublist.refl _) fun _ _ howed => brings_executor howed hQ
  | .map g source, Q, hf => by
    rw [openFeed]
    exact (settles_openFeed (f := source) h hg hf).map
      (fun c => (Cursor.held_map g c).symm ▸ List.Sublist.refl _) fun _ _ hc => hc.map
  | .filter keep source, Q, hf => by
    rw [openFeed]
    exact (settles_openFeed (f := source) h hg hf).map
      (fun c => (Cursor.held_filter keep c).symm ▸ List.Sublist.refl _) fun _ _ hc => hc.filter
  | .distinct source, Q, hf => by
    rw [openFeed]
    exact (settles_openFeed (f := source) h hg hf).map
      (fun c => (Cursor.held_distinct c).symm ▸ List.Sublist.refl _) fun _ _ hc => hc.distinct
  | .slice offset limit source, Q, hf => by
    rw [openFeed]
    exact (settles_openFeed (f := source) h hg hf).map
      (fun c => (Cursor.held_slice offset limit c).symm ▸ List.Sublist.refl _) fun _ _ hc => hc
  | .optional left right keep, Q, ⟨R, hleft⟩ => by
    rw [openFeed]
    exact (settles_openFeed (f := left) h hg hleft).map (fun _ => List.Sublist.refl _)
      fun _ _ hc => ⟨R, hc⟩
  | .deferred work, Q, hf => by
    rw [openFeed]
    exact .pure h hg (List.Sublist.refl _) hf

end Machine

end FederatedSparql
