import FederatedSparql.Proofs.Machine.Starting

/-!
What is paid when items are pulled.

A step of a cursor pays what it gives: from its holder's hands it takes an item, no failure ever
comes, and what is left brings the rest (`Pulled.Leaves`).  The results of an executor are pulled by
the executor itself, on behalf of whoever holds it; what he is owed becomes less by the item.

* `Machine.settles_pull`: pulling settles what is written down, however deep executors hold one
  another's results.
-/

namespace FederatedSparql

variable {α : Type}

/-- Of items with a property something has been got, and the rest is still to come; at the end there
is no more. -/
def Pulled.Leaves (rest : (List α → Prop) → Prop) (Q : List α → Prop) : Pulled α → Prop
  | .item x => rest fun ys => Q (x :: ys)
  | .failure _ => False
  | .done => Q [] ∧ rest (· = [])
  | .progress => rest Q
  | .wait => rest Q

/-- The executors that are held after a step of a program. -/
def Ran.held : Ran α → List Nat
  | .done c => c.held
  | .progress run => run.held
  | .wait run => run.held
  | _ => []

/-- A step of a program has not failed, and what it comes to brings items with a property. -/
def Ran.Leaves [DecidableEq α] (answers : Answers) (owed : Nat → Multiset α) (Q : List α → Prop) :
    Ran α → Prop
  | .done c => c.Brings answers owed Q
  | .failed _ => False
  | .panicked => False
  | .progress run => run.Brings answers owed Q
  | .wait run => run.Brings answers owed Q

namespace Machine

variable [DecidableEq α] {answers : Answers} {m : Machine α} {d : Dues α} {X : Set Holder}
  {holder : Holder} {ids : List Nat}

/-! ### Programs -/

theorem partsBring.gatheredCome {owed : Nat → Multiset α} :
    ∀ {parts : List (Work α)} {Ms : List (Multiset α)}, partsBring answers parts Ms →
      FederatedSparql.gatheredCome answers owed (parts.map fun w => .running (.ready w)) Ms
  | [], _, h => h
  | _ :: _, _, ⟨M, Ns, hMs, hpart, hrest⟩ => ⟨M, Ns, hMs, hpart, gatheredCome hrest⟩

omit [DecidableEq α] in
theorem heldByParts_ready (parts : List (Work α)) :
    heldByParts (parts.map fun w => Part.running (.ready w)) = [] := by
  induction parts with
  | nil => rfl
  | cons w rest ih => exact ih

omit [DecidableEq α] in
/-- Neither an abort nor a deadline disturbs a query that goes on. -/
theorem Calm.checkActive (h : m.Calm answers) : m.query.checkActive m.now = .ok () := by
  simp [QueryContext.checkActive, QueryContext.checkAborted, QueryContext.checkTimeout,
    QueryContext.isExpired, h.aborted, h.deadline]
  rfl

omit [DecidableEq α] in
theorem Calm.answer_known (h : m.Calm answers) {endpoint : String} {member : Member} (r : Request)
    (hknown : m.registry.known? endpoint = some member) :
    answers endpoint r = member.answer r := by
  rw [← h.answers, Registry.answers, hknown]

omit [DecidableEq α] in
theorem Calm.answer_unknown (h : m.Calm answers) {endpoint : String} (r : Request)
    (hknown : m.registry.known? endpoint = none) :
    answers endpoint r = .error (.endpoint (.unknownEndpoint endpoint)) := by
  rw [← h.answers, Registry.answers, hknown]

/-- The registry changes in what members keep only. -/
theorem Honours.registry (h : m.Honours answers d X) {r : Registry}
    (hr : r.answers = m.registry.answers) : Honours answers { m with registry := r } d X :=
  h.alike ⟨hr, rfl, rfl, rfl, fun p => by cases p <;> rfl, fun p => by cases p <;> rfl⟩

theorem Deals.registry (h : m.Honours answers d X) (hg : m.Grasps d X holder ids) {r : Registry}
    (hr : r.answers = m.registry.answers) :
    Deals answers X holder m d ids { m with registry := r } d ids :=
  .of_alike (h.registry hr) hg
    ⟨hr, rfl, rfl, rfl, fun p => by cases p <;> rfl, fun p => by cases p <;> rfl⟩

theorem settles_stepWork (me : Waker) (h : m.Honours answers d X) (hg : m.Grasps d X holder [])
    {w : Work α} {Q : List α → Prop} (hw : w.Brings answers Q) :
    Settles answers X holder m d [] (stepWork me w) Ran.held
      fun r d' => r.Leaves answers d'.owed Q := by
  have here {r : Ran α} (hheld : r.held = []) (hr : r.Leaves answers d.owed Q) :
      Settles answers X holder m d [] (pure r) Ran.held fun r d' => r.Leaves answers d'.owed Q :=
    .pure h hg (by rw [hheld]) hr
  cases w with
  | done feed => exact (settles_openFeed h hg hw).map (fun _ => List.Sublist.refl _) fun _ _ hc => hc
  | fail e => exact hw.elim
  | panic => exact hw.elim
  | sleep ms next =>
    rw [stepWork]
    refine .get ?_
    dsimp only
    split
    · exact here rfl hw
    · exact (Settles.alike h hg (alike_wakeAt _ _ _)).map (fun _ => List.Sublist.refl _)
        fun _ _ _ => hw
  | request endpoint r next =>
    rw [stepWork]
    refine .get ?_
    split
    · next hnone =>
      have hnext : (next (answers endpoint r)).Brings answers Q := hw
      exact here rfl (h.calm.answer_unknown r hnone ▸ hnext)
    · next member _ =>
      have hreceives := Deals.registry h hg (m.registry.answers_receive endpoint r)
      refine Settles.bind (show Settles answers X holder m d [] _ (fun _ => []) fun _ _ => True from
        ⟨d, hreceives, trivial⟩) fun _ m' d' hdeals _ => ?_
      dsimp only
      split
      · exact (Settles.alike hdeals.honours hdeals.grasps (alike_wakeAt _ _ _)).map
          (fun _ => List.Sublist.refl _) fun _ _ _ => hw
      · exact .pure hdeals.honours hdeals.grasps (List.Sublist.refl _) hw
  | repair endpoint next =>
    exact ⟨d, .registry h hg (m.registry.answers_repair endpoint), hw⟩
  | check next =>
    rw [stepWork]
    refine .get ?_
    rw [h.calm.checkActive]
    exact here rfl hw
  | gather parts next =>
    obtain ⟨Ms, hparts, hnext⟩ := hw
    exact here (heldByParts_ready parts) ⟨Ms, partsBring.gatheredCome hparts, hnext⟩

/-! ### Executors -/

/-- An executor is owed something else. -/
def paying (d : Dues α) (id : Nat) (M : Multiset α) : Dues α :=
  { d with owed := fun i => if i = id then M else d.owed i }

omit [DecidableEq α] in
theorem paying_self (d : Dues α) (id : Nat) : paying d id (d.owed id) = d := by
  have howed : (fun i => if i = id then d.owed id else d.owed i) = d.owed := by
    funext i
    split
    · next hi => rw [hi]
    · rfl
  rw [paying, howed]

omit [DecidableEq α] in
theorem Grasps.not_excepted {id : Nat} (hg : m.Grasps d X holder [id]) : .executor id ∉ X :=
  fun hX => absurd ((hg.beyond id hX).2 id (List.mem_singleton_self id)) (Nat.lt_irrefl id)

/-- While an executor is excepted that was in hand, it has executors in its own hands. -/
structure Within (answers : Answers) (X : Set Holder) (holder : Holder) (id : Nat) (m : Machine α)
    (d : Dues α) (e : Executor α) (m' : Machine α) (d' : Dues α) (e' : Executor α)
    (ids : List Nat) : Prop where
  honours : m'.Honours answers d' (insert (.executor id) X)
  beside : Beside X [id] m d m' d'
  holder : d'.holder id = holder
  executor : m'.executors[id]? = some e'
  cancelled : m'.isCancelled e' = m.isCancelled e
  grasps : m'.Grasps d' (insert (.executor id) X) (.executor id) ids

namespace Within

variable {m' m'' : Machine α} {d' d'' : Dues α} {id : Nat} {e e' : Executor α} {ids' : List Nat}

/-- An executor that was in hand has its results in its own hands. -/
theorem start (h : m.Honours answers d X) (hg : m.Grasps d X holder [id])
    (he : m.executors[id]? = some e) :
    Within answers X holder id m d e m d e (heldByAll e.contents) where
  honours := h.mono (Set.subset_insert _ _)
  beside := .of_alike (.refl m) _
  holder := hg.holds.holder id (List.mem_singleton_self id)
  executor := he
  cancelled := rfl
  grasps := {
    mem := Set.mem_insert _ _
    holds := (h.executors id e he hg.not_excepted).holds
    beyond := fun j hj => by
      have hlater := (h.executors id e he hg.not_excepted).later
      obtain hj | hj := hj
      · obtain rfl := Holder.executor.inj hj
        exact ⟨(Array.getElem?_eq_some_iff.1 he).1, hlater⟩
      · have hlt := hg.beyond j hj
        exact ⟨hlt.1, fun i hi =>
          Nat.lt_trans (hlt.2 id (List.mem_singleton_self id)) (hlater i hi)⟩
    threads := fun t ht => by
      obtain ht | ht := ht
      · cases ht
      · exact hg.threads t ht }

variable (hw : Within answers X holder id m d e m' d' e' ids)

include hw

theorem lt {i : Nat} (hi : i ∈ ids) : id < i := (hw.grasps.beyond id (Set.mem_insert _ _)).2 i hi

/-- The executor does something with what it has in its own hands. -/
theorem deals (hg : m.Grasps d X holder [id])
    (hdeals : Deals answers (insert (.executor id) X) (.executor id) m' d' ids m'' d'' ids') :
    Within answers X holder id m d e m'' d'' e' ids' where
  honours := hdeals.honours
  beside := by
    have hbeside : Beside X ids m' d' m'' d'' := { hdeals.beside with
      executors := fun i hi hlt => hdeals.beside.executors i (Set.mem_insert_of_mem _ hi) hlt
      cancelled := fun i e hi he => hdeals.beside.cancelled i e (Set.mem_insert_of_mem _ hi) he
      others := fun i hi hX hmem => hdeals.beside.others i hi (Set.mem_insert_of_mem _ hX) hmem }
    refine hw.beside.trans hbeside fun i hi hlt => ?_
    by_cases hX : d.holder i ∈ X
    · by_cases hid : i = id
      · exact .inl (List.mem_singleton.2 hid)
      · have hsame := (hw.beside.others i hlt hX fun hmem => hid (List.mem_singleton.1 hmem)).2
        rw [hw.grasps.holds.holder i hi] at hsame
        exact absurd (hsame ▸ hX) hg.not_excepted
    · exact .inr hX
  holder := by
    have hlt := (Array.getElem?_eq_some_iff.1 hw.executor).1
    refine (hdeals.beside.others id hlt ?_ fun hi => ?_).2.trans hw.holder
    · exact hw.holder ▸ Set.mem_insert_of_mem _ hg.mem
    · exact absurd (hw.lt hi) (Nat.lt_irrefl id)
  executor := (hdeals.beside.executors id (Set.mem_insert _ _)
    (Array.getElem?_eq_some_iff.1 hw.executor).1).trans hw.executor
  cancelled :=
    (hdeals.beside.cancelled id e' (Set.mem_insert _ _) hw.executor).trans hw.cancelled
  grasps := hdeals.grasps

/-- The executor changes in something that others do not see. -/
theorem update (hg : m.Grasps d X holder [id]) {f : Executor α → Executor α}
    (hbranch : (f e').branch = e'.branch) (hproducer : (f e').producer = e'.producer)
    (hfirst : (f e').firstOnly = e'.firstOnly) (hclosed : (f e').closed = e'.closed)
    (hproducing : (f e').producing = e'.producing) :
    Within answers X holder id m d e (after (updateExecutor id f) m') d' (f e') ids where
  honours := hw.honours.update hw.executor (Set.mem_insert _ _) hbranch hfirst hproducer
    (fun hc => hclosed.trans hc) fun _ _ _ hp => hproducing.trans hp
  beside := hw.beside.trans (.update hw.executor hg.not_excepted hbranch hfirst hproducer
    (fun hc => hclosed.trans hc) fun _ => hproducing) fun i hi _ => .inl hi
  holder := hw.holder
  executor := getElem?_updateExecutor f hw.executor
  cancelled := by
    rw [← hw.cancelled, Machine.isCancelled, hbranch]
    rfl
  grasps := {
    mem := hw.grasps.mem
    holds := hw.grasps.holds.keep Array.size_modify.symm.le fun _ _ => rfl
    beyond := fun j hj => ⟨Nat.lt_of_lt_of_le (hw.grasps.beyond j hj).1 Array.size_modify.symm.le,
      (hw.grasps.beyond j hj).2⟩
    threads := hw.grasps.threads }

/-- The executor serves again, and owes what is left. -/
theorem leave (hg : m.Grasps d X holder [id]) {M : Multiset α}
    (hserves : e'.Serves answers (paying d' id M) m'.executors.size id (m.isCancelled e)) :
    Deals answers X holder m d [id] m' (paying d' id M) [id] where
  honours := by
    have hpays : m'.Honours answers (paying d' id M) (insert (.executor id) X) := by
      refine hw.honours.pay rfl rfl rfl rfl (fun i _ hi => ⟨if_neg ?_, rfl⟩) fun i _ _ hi =>
        .inl (if_neg ?_)
      · rintro rfl
        exact hi (hw.holder ▸ Set.mem_insert_of_mem _ hg.mem)
      · rintro rfl
        exact hi (Set.mem_insert _ _)
    exact hpays.restore hw.executor (hw.cancelled ▸ hserves)
  beside := by
    refine hw.beside.trans (.pay rfl rfl rfl rfl fun i _ _ hi => ⟨if_neg ?_, rfl⟩)
      fun i hi _ => .inl hi
    exact fun hsame => hi (List.mem_singleton.2 hsame)
  grasps := {
    mem := hg.mem
    holds := {
      nodup := List.nodup_singleton id
      holder := fun i hi => List.mem_singleton.1 hi ▸ hw.holder
      exist := fun i hi => Nat.lt_of_lt_of_le (hg.holds.exist i hi) hw.beside.size_le }
    beyond := fun j hj => ⟨Nat.lt_of_lt_of_le (hg.beyond j hj).1 hw.beside.size_le,
      (hg.beyond j hj).2⟩
    threads := fun t ht => Nat.lt_of_lt_of_le (hg.threads t ht) hw.beside.size_threads_le }
  known _ hi := .inl hi

end Within

section Executors

variable {id : Nat} {e : Executor α}

/-- An executor has got on with the result that is being consumed, and serves again. -/
theorem Within.advance {m' : Machine α} {d' : Dues α} (c? : Option (Cursor α))
    (hw : Within answers X holder id m d e m' d' { e with current := c? }
      (heldByAll (c?.toList ++ e.queue)))
    (h : m.Honours answers d X) (hg : m.Grasps d X holder [id]) (he : m.executors[id]? = some e)
    (hopen : e.closed = false) (hcurrent : e.current.isSome = true) {Ms : List (Multiset α)}
    {N : Multiset α}
    (hcontents : List.Forall₂ (fun c M => c.Comes answers d'.owed M) (c?.toList ++ e.queue) Ms)
    (hN : d.Outstanding id e.firstOnly e.producing N) :
    Deals answers X holder m d [id] m' (paying d' id (Ms.sum + N)) [id] := by
  have hserves := h.executors id e he hg.not_excepted
  have hgoes := hserves.goesOn hopen
  have hlt := (Array.getElem?_eq_some_iff.1 he).1
  have htasks := hw.beside.tasks id hlt
  refine hw.leave hg ⟨hserves.finished, fun hclosed => ?_, fun _ => ?_, ?_, fun i hi => hw.lt hi⟩
  · exact absurd hclosed (by simp [hopen])
  · refine ⟨hgoes.error, hgoes.receiving, ?_, hgoes.cancelled, ⟨Ms, N, ?_, if_pos rfl, ?_⟩, ?_, ?_⟩
    · exact hgoes.pending.trans (congrArg Finset.card htasks.symm)
    · refine forall₂_comes_congr hcontents fun i hi => if_neg ?_
      exact Nat.ne_of_gt (hw.lt hi)
    · exact hN.congr htasks (hw.beside.rest id hlt) fun _ _ => congrFun hw.beside.result _
    · exact fun hfirst hproducing => htasks.trans (hgoes.tasksOver hfirst hproducing)
    · refine fun hfirst => ⟨(hgoes.single hfirst).1, fun hproducing => ?_⟩
      have hempty := (hgoes.single hfirst).2 hproducing
      rw [Executor.contents, Option.isSome_iff_exists.1 hcurrent |>.choose_spec] at hempty
      cases hempty
  · exact hw.grasps.holds.keep (Nat.le_refl _) fun _ _ => rfl

/-- An executor in hand changes in nothing that matters. -/
theorem settles_updateExecutor (h : m.Honours answers d X) (hg : m.Grasps d X holder [id])
    (he : m.executors[id]? = some e) {f : Executor α → Executor α}
    (hbranch : (f e).branch = e.branch) (hproducer : (f e).producer = e.producer)
    (hfirst : (f e).firstOnly = e.firstOnly) (hclosed : (f e).closed = e.closed)
    (hproducing : (f e).producing = e.producing)
    (hserves : (f e).Serves answers d m.executors.size id (m.isCancelled e)) :
    Settles answers X holder m d [id] (updateExecutor id f) (fun _ => [id]) fun _ d' => d' = d := by
  have hw := (Within.start h hg he).update hg hbranch hproducer hfirst hclosed hproducing
  have hleave := hw.leave (M := d.owed id) hg
    ((paying_self d id).symm ▸ hserves.grow Array.size_modify.symm.le)
  rw [paying_self] at hleave
  exact ⟨d, hleave, rfl⟩

/-- The results of an executor are pulled, whatever is known of pulling them. -/
theorem settles_stepPipe_executor {depth : Nat} {me : Waker}
    (pulls : ∀ {c : Cursor α} {m : Machine α} {d : Dues α} {X : Set Holder} {holder : Holder}
      {Q : List α → Prop}, m.Honours answers d X → m.Grasps d X holder c.held →
        c.Brings answers d.owed Q →
          Settles answers X holder m d c.held (stepCursor depth me c) (fun r => r.2.held)
            fun r d' => r.1.Leaves (r.2.Brings answers d'.owed) Q)
    (h : m.Honours answers d X) (hg : m.Grasps d X holder [id]) {Q : List α → Prop}
    (hQ : ∀ ys : List α, (ys : Multiset α) = d.owed id → Q ys) :
    Settles answers X holder m d [id] (stepPipe (depth + 1) me (.executor id))
      (fun r => r.2.held) fun r d' => r.1.Leaves (r.2.Brings answers d'.owed) Q := by
  have hlt := hg.holds.exist id (List.mem_singleton_self id)
  obtain ⟨e, he⟩ : ∃ e, m.executors[id]? = some e := ⟨_, Array.getElem?_eq_getElem hlt⟩
  have hserves := h.executors id e he hg.not_excepted
  -- An executor that owes nothing is at its end.
  have ends {d' : Dues α} (howed : d'.owed id = 0) :
      (Pipe.executor id).Brings answers d'.owed (· = []) := fun ys hys =>
    (Multiset.coe_eq_zero ys).1 (hys.trans howed)
  rw [stepPipe]
  refine .get ?_
  rw [he]
  dsimp only
  split
  · next hfinished =>
    have howed := hserves.settled (hserves.finished.symm.trans hfinished)
    exact .pure h hg (List.Sublist.refl _) ⟨hQ [] howed.symm, ends howed⟩
  next hfinished =>
  have hopen : e.closed = false := by
    rw [← hserves.finished]
    exact Bool.eq_false_iff.2 hfinished
  have hgoes := hserves.goesOn hopen
  obtain ⟨Ms, N, hcontents, howed, hN⟩ := hgoes.content
  cases hcurrent : e.current with
  | some c =>
    have hcs : e.contents = c :: e.queue := by rw [Executor.contents, hcurrent]; rfl
    have hw := Within.start h hg he
    rw [hcs] at hcontents hw
    obtain _ | ⟨hc, hrest⟩ := hcontents
    next M Ms =>
    obtain ⟨d₁, hdeals, hleaves⟩ := pulls hw.honours hw.grasps.left hc
    obtain ⟨hframed, hsame⟩ := hdeals.frame hw.grasps
    have hw₁ := hw.deals hg hframed
    have hrest₁ := forall₂_comes_congr hrest hsame
    refine .goOn fun r m₁ hr hm₁ => ?_
    rw [hr] at hw₁ hleaves
    rw [hm₁] at hw₁
    obtain ⟨r, c'⟩ := r
    -- The executor serves again with what is left of the result.
    have leaves (M' : Multiset α) (hleft : c'.Comes answers d₁.owed M') :
        Deals answers X holder m d [id]
          (after (updateExecutor id fun e => { e with current := some c' }) m₁)
          (paying d₁ id (M' + Ms.sum + N)) [id] := by
      have hw₂ := hw₁.update (f := fun e => { e with current := some c' }) hg rfl rfl rfl rfl rfl
      have hadvance := hw₂.advance (some c') h hg he hopen (by rw [hcurrent]; rfl)
        (.cons hleft hrest₁) hN
      rwa [List.sum_cons] at hadvance
    cases r with
    | item x =>
      obtain ⟨ys, hys⟩ := Cursor.Brings.exists_items hleaves
      have hM : M = x ::ₘ (ys : Multiset α) := hys.symm
      refine ⟨_, leaves ys (Cursor.Brings.mono (fun zs hzs => ?_) hleaves), fun zs hzs => ?_⟩
      · exact (Multiset.cons_inj_right x).1 ((show x ::ₘ (zs : Multiset α) = M from hzs).trans hM)
      · refine hQ (x :: zs) ?_
        have hzs' : (zs : Multiset α) = ys + Ms.sum + N := hzs.trans (if_pos rfl)
        rw [howed, List.sum_cons, hM, ← Multiset.cons_coe, hzs', Multiset.cons_add,
          Multiset.cons_add]
    | failure error => exact hleaves.elim
    | done =>
      obtain ⟨hzero, hnone⟩ := hleaves
      have hw₂ := hw₁.update (f := fun e => { e with current := none }) hg rfl rfl rfl rfl rfl
      obtain ⟨d₃, hdiscard, -⟩ := settles_discard hw₂.honours hw₂.grasps.left
      obtain ⟨hframed₃, hsame₃⟩ := hdiscard.frame hw₂.grasps
      have hadvance := (hw₂.deals hg hframed₃).advance none h hg he hopen
        (by rw [hcurrent]; rfl) (forall₂_comes_congr hrest₁ hsame₃) hN
      refine ⟨_, hadvance, fun ys hys => hQ ys (hys.trans ?_)⟩
      rw [howed, List.sum_cons, ← show ((([] : List α)) : Multiset α) = M from hzero]
      exact (if_pos rfl).trans (by simp)
    | progress =>
      refine ⟨_, leaves _ hleaves, fun ys hys => hQ ys (hys.trans ?_)⟩
      exact (if_pos rfl).trans (by rw [howed, List.sum_cons])
    | wait =>
      refine ⟨_, leaves _ hleaves, fun ys hys => hQ ys (hys.trans ?_)⟩
      exact (if_pos rfl).trans (by rw [howed, List.sum_cons])
  | none =>
    dsimp only
    cases hqueue : e.queue with
    | cons c queue =>
      have hshift := settles_updateExecutor (f := fun e => { e with current := some c, queue := queue })
        h hg he rfl rfl rfl rfl rfl (hserves.like rfl rfl (.inl rfl) rfl rfl rfl rfl (fun _ => rfl) (by
          rw [Executor.contents, Executor.contents, hcurrent, hqueue]
          rfl))
      refine hshift.bind fun _ m' d' hdeals hd => ?_
      refine (Settles.alike hdeals.honours hdeals.grasps (alike_wakeThread? _ _)).map
        (fun _ => List.Sublist.refl _) fun _ _ hd' => ?_
      subst hd hd'
      exact hQ
    | nil =>
      dsimp only
      split
      · next hexhausted =>
        have hproducing : e.producing = false := by
          simp only [Executor.isExhausted, Bool.and_eq_true, Bool.not_eq_true'] at hexhausted
          exact hexhausted.1.2
        have hnone : d.owed id = 0 := by
          rw [Executor.contents, hcurrent, hqueue] at hcontents
          obtain _ | _ := hcontents
          rw [hproducing] at hN
          rw [howed, show N = 0 from hN]
          rfl
        have hforgets := settles_updateExecutor (f := fun e => { e with error := none })
          h hg he rfl rfl rfl rfl rfl (hserves.like rfl rfl (.inr rfl) rfl rfl rfl rfl (fun _ => rfl) rfl)
        refine hforgets.bind fun _ m₁ d₁ hdeals _ => ?_
        refine (settles_closeAll hdeals.honours hdeals.grasps).bind fun _ m₂ d₂ hdeals' hzero => ?_
        rw [hgoes.error]
        exact .pure hdeals'.honours hdeals'.grasps (List.Sublist.refl _)
          ⟨hQ [] hnone.symm, ends (hzero id (List.mem_singleton_self id))⟩
      · have hwaits := settles_updateExecutor (f := fun e => { e with consumer := some me })
          h hg he rfl rfl rfl rfl rfl (hserves.like rfl rfl (.inl rfl) rfl rfl rfl rfl (fun _ => rfl) rfl)
        refine hwaits.map (fun _ => List.Sublist.refl _) fun _ _ hd => ?_
        subst hd
        exact hQ

end Executors

/-! ### Pulling -/

section Transforming

variable {owed : Nat → Multiset α} {Q : List α → Prop} {r : Pulled α × Pipe α}

omit [DecidableEq α] in
theorem held_onPipe {rebuild : Pipe α → Pipe α} {onItem : α → Pulled α}
    (hheld : ∀ p, (rebuild p).held = p.held) (r : Pulled α × Pipe α) :
    (onPipe rebuild onItem r).2.held = r.2.held := by
  obtain ⟨_ | _ | _ | _ | _, p⟩ := r <;> exact hheld p

theorem leaves_map {f : α → α}
    (h : r.1.Leaves (r.2.Brings answers owed) fun xs => Q (xs.map f)) :
    let r' := onPipe (.map f) (fun x => .item (f x)) r
    r'.1.Leaves (r'.2.Brings answers owed) Q := by
  obtain ⟨_ | _ | _ | _ | _, p⟩ := r
  case done =>
    exact ⟨h.1, Pipe.Brings.mono (p := p) (fun xs (hxs : xs = []) => by rw [hxs]; rfl) h.2⟩
  all_goals exact h

theorem leaves_filter {keep : α → Bool}
    (h : r.1.Leaves (r.2.Brings answers owed) fun xs => Q (xs.filter keep)) :
    let r' := onPipe (.filter keep) (fun x => if keep x then .item x else .progress) r
    r'.1.Leaves (r'.2.Brings answers owed) Q := by
  obtain ⟨x | _ | _ | _ | _, p⟩ := r
  case item =>
    dsimp only [onPipe]
    split
    · next hx =>
      refine Pipe.Brings.mono (p := p) (fun ys (hys : Q ((x :: ys).filter keep)) => ?_) h
      rwa [List.filter_cons_of_pos hx] at hys
    · next hx =>
      refine Pipe.Brings.mono (p := p) (fun ys (hys : Q ((x :: ys).filter keep)) => ?_) h
      rwa [List.filter_cons_of_neg hx] at hys
  case done =>
    exact ⟨h.1, Pipe.Brings.mono (p := p) (fun xs (hxs : xs = []) => by rw [hxs]; rfl) h.2⟩
  all_goals exact h

theorem leaves_slice {toSkip : Nat} {toTake : Option Nat} (htake : toTake ≠ some 0)
    {r : Pulled α × Cursor α}
    (h : r.1.Leaves (r.2.Brings answers owed) fun xs => Q (Feed.sliced toSkip toTake xs)) :
    let r' := sliceStep toSkip toTake r
    r'.1.Leaves (r'.2.Brings answers owed) Q := by
  obtain ⟨x | _ | _ | _ | _, c⟩ := r
  case item =>
    dsimp only [sliceStep]
    split
    · next hskip =>
      subst hskip
      refine Cursor.Brings.mono (c := c) (fun ys hys => ?_) h
      obtain _ | _ | n := toTake
      · exact hys
      · exact absurd rfl htake
      · exact hys
    · next hskip =>
      obtain ⟨n, rfl⟩ := Nat.exists_eq_succ_of_ne_zero hskip
      refine Cursor.Brings.mono (c := c) (fun ys hys => ?_) h
      cases toTake <;> exact hys
  case failure => exact h.elim
  case done =>
    refine ⟨?_, Cursor.Brings.mono (c := c) (fun xs (hxs : xs = []) => ?_) h.2⟩
    · have hempty : Feed.sliced toSkip toTake ([] : List α) = [] := by
        cases toTake <;> simp [Feed.sliced]
      exact hempty ▸ h.1
    · cases toTake <;> simp [Feed.sliced, hxs]
  all_goals exact h

omit [DecidableEq α] in
theorem held_sliceStep (toSkip : Nat) (toTake : Option Nat) (r : Pulled α × Cursor α) :
    (sliceStep toSkip toTake r).2.held = r.2.held := by
  obtain ⟨_ | _ | _ | _ | _, c⟩ := r <;> simp only [sliceStep] <;> (try split) <;> rfl

end Transforming

omit [DecidableEq α] in
theorem Gathered.and_eq_finished {a b : Gathered} :
    a.and b = .finished ↔ a = .finished ∧ b = .finished := by
  cases a <;> cases b <;> simp [Gathered.and]

omit [DecidableEq α] in
theorem resultsOf_finished (xss : List (List α)) :
    resultsOf (xss.map fun xs => .finished (.ok xs)) = xss.map .ok := by
  simp [resultsOf]

theorem map_of_gatheredCome {owed : Nat → Multiset α} {xss : List (List α)}
    {Ms : List (Multiset α)} (h : gatheredCome answers owed (xss.map fun xs => .finished (.ok xs)) Ms) :
    xss.map Multiset.ofList = Ms := by
  induction xss generalizing Ms with
  | nil => exact h.symm
  | cons xs xss ih =>
    obtain ⟨M, Ns, rfl, hxs, hrest⟩ := h
    rw [List.map_cons, ih hrest]
    exact congrArg (· :: Ns) hxs

/-- The right is evaluated on for an item of the left, whatever is known of that. -/
theorem settles_matching {left : Cursor α} {right : α → Work α} {keep : α → Bool} {row : α}
    {a : Action α (Gathered × Part α)} {R : α → Multiset α} {M : Multiset α} {Q : List α → Prop}
    (hg : m.Grasps d X holder (ids ++ left.held))
    (ha : Settles answers X holder m d ids a (fun r => r.2.held) fun r d' =>
      r.2.Comes answers d'.owed M ∧ (r.1 = .finished → ∃ xs, r.2 = .finished (.ok xs)))
    (hleft : left.Brings answers d.owed fun xs => (∀ x ∈ xs, (right x).Comes answers (R x)) ∧
      ∀ ys : List α, (ys : Multiset α) = Feed.optionalRows keep row M +
        (xs : Multiset α).bind (fun x => Feed.optionalRows keep x (R x)) → Q ys) :
    Settles answers X holder m d (ids ++ left.held) (do
      let (r, matched) ← a
      match r with
      | .wait => return (.wait, .matching left right keep row matched)
      | _ => return (.progress, .matching left right keep row matched) :
        Action α (Pulled α × Pipe α)) (fun r => r.2.held) fun r d' => r.1.Leaves (r.2.Brings answers d'.owed) Q := by
  refine (ha.frame hg).bind fun r m' d' hdeals ⟨hr, hsame⟩ => ?_
  obtain ⟨_ | _ | _, part⟩ := r <;>
    exact .pure hdeals.honours hdeals.grasps (List.Sublist.refl _)
      ⟨R, M, hr.1, Cursor.Brings.congr hsame hleft⟩

mutual

theorem settles_stepCursor (depth : Nat) (me : Waker) (c : Cursor α) {m : Machine α} {d : Dues α}
    {X : Set Holder} {holder : Holder} {Q : List α → Prop} (h : m.Honours answers d X)
    (hg : m.Grasps d X holder c.held) (hc : c.Brings answers d.owed Q) :
    Settles answers X holder m d c.held (stepCursor depth me c) (fun r => r.2.held)
      fun r d' => r.1.Leaves (r.2.Brings answers d'.owed) Q := by
  match c with
  | .empty => rw [stepCursor]; exact .pure h hg (List.Sublist.refl _) ⟨hc, rfl⟩
  | .closed => rw [stepCursor]; exact .pure h hg (List.Sublist.refl _) ⟨hc, rfl⟩
  | .buffered [] => rw [stepCursor]; exact .pure h hg (List.Sublist.refl _) ⟨hc, rfl⟩
  | .buffered (x :: xs) => rw [stepCursor]; exact .pure h hg (List.Sublist.refl _) hc
  | .pipe source =>
    rw [stepCursor]
    refine (settles_stepPipe depth me source h hg hc).map (fun _ => List.Sublist.refl _)
      fun r d' hr => ?_
    obtain ⟨_ | _ | _ | _ | _, p⟩ := r <;> exact hr
termination_by (depth, sizeOf c)

theorem settles_stepPipe (depth : Nat) (me : Waker) (p : Pipe α) {m : Machine α} {d : Dues α}
    {X : Set Holder} {holder : Holder} {Q : List α → Prop} (h : m.Honours answers d X)
    (hg : m.Grasps d X holder p.held) (hp : p.Brings answers d.owed Q) :
    Settles answers X holder m d p.held (stepPipe depth me p) (fun r => r.2.held)
      fun r d' => r.1.Leaves (r.2.Brings answers d'.owed) Q := by
  match p with
  | .outcomes [] =>
    rw [stepPipe]
    obtain ⟨xs, hxs, hQ⟩ := hp
    obtain rfl : xs = [] := List.map_eq_nil_iff.1 hxs.symm
    exact .pure h hg (List.Sublist.refl _) ⟨hQ, [], rfl, rfl⟩
  | .outcomes (.ok x :: rest) =>
    rw [stepPipe]
    obtain ⟨xs, hxs, hQ⟩ := hp
    obtain ⟨y, ys, rfl, hx, rfl⟩ := List.map_eq_cons_iff.1 hxs.symm
    obtain rfl := Except.ok.inj hx
    exact .pure h hg (List.Sublist.refl _) ⟨ys, rfl, hQ⟩
  | .outcomes (.error e :: rest) =>
    obtain ⟨xs, hxs, -⟩ := hp
    obtain ⟨y, ys, rfl, hx, -⟩ := List.map_eq_cons_iff.1 hxs.symm
    cases hx
  | .map f source =>
    rw [stepPipe]
    exact (settles_stepPipe depth me source h hg hp).map
      (fun r => by rw [held_onPipe fun _ => by rw [Pipe.held]])
      fun r d' hr => leaves_map hr
  | .filter keep source =>
    rw [stepPipe]
    exact (settles_stepPipe depth me source h hg hp).map
      (fun r => by rw [held_onPipe fun _ => by rw [Pipe.held]])
      fun r d' hr => leaves_filter hr
  | .distinct seen source =>
    rw [stepPipe]
    refine (settles_stepPipe depth me source h hg hp).bind fun r m' d' hdeals hr => ?_
    obtain ⟨x | _ | _ | _ | _, p⟩ := r
    · dsimp only
      split
      · next hx =>
        refine .pure hdeals.honours hdeals.grasps (List.Sublist.refl _)
          (Pipe.Brings.mono (p := p) (fun ys (hys : Q (Feed.unseen seen (x :: ys))) => ?_) hr)
        rwa [Feed.unseen, if_pos (by simpa using hx)] at hys
      · next hx =>
        refine .pure hdeals.honours hdeals.grasps (List.Sublist.refl _)
          (Pipe.Brings.mono (p := p) (fun ys (hys : Q (Feed.unseen seen (x :: ys))) => ?_) hr)
        rwa [Feed.unseen, if_neg (by simpa using hx)] at hys
    · exact hr.elim
    · exact .pure hdeals.honours hdeals.grasps (List.Sublist.refl _)
        ⟨hr.1, Pipe.Brings.mono (p := p) (fun xs (hxs : xs = []) => by rw [hxs]; rfl) hr.2⟩
    · exact .pure hdeals.honours hdeals.grasps (List.Sublist.refl _) hr
    · exact .pure hdeals.honours hdeals.grasps (List.Sublist.refl _) hr
  | .slice toSkip toTake source =>
    rw [stepPipe]
    split
    · next htake =>
      subst htake
      have hnone (xs : List α) : Feed.sliced toSkip (some 0) xs = [] := by simp [Feed.sliced]
      obtain ⟨xs, hxs⟩ := Cursor.Brings.exists_items hp
      exact .pure h hg (List.Sublist.refl _)
        ⟨hnone xs ▸ hxs, Cursor.Brings.mono (c := source) (fun ys _ => hnone ys) hp⟩
    · next htake =>
      exact (settles_stepCursor depth me source h hg hp).map
        (fun r => by rw [held_sliceStep])
        fun r d' hr => leaves_slice htake hr
  | .chain [] =>
    rw [stepPipe]
    exact .pure h hg (List.Sublist.refl _) ⟨hp, rfl⟩
  | .chain (c :: rest) =>
    rw [stepPipe]
    refine ((settles_stepCursor depth me c h hg.left hp).frame hg).bind
      fun r m' d' hdeals ⟨hr, hsame⟩ => ?_
    have later {P : List α → Prop} (hP : chainBrings answers d.owed rest P) :
        chainBrings answers d'.owed rest P := chainBrings.congr hsame hP
    obtain ⟨x | _ | _ | _ | _, c'⟩ := r
    · exact .pure hdeals.honours hdeals.grasps (List.Sublist.refl _)
        (Cursor.Brings.mono (c := c') (fun _ => later) hr)
    · exact hr.elim
    · refine ((settles_discard hdeals.honours hdeals.grasps.left).frame hdeals.grasps).map
        (fun _ => List.Sublist.refl _) fun _ d'' ⟨_, hsame'⟩ => ?_
      exact chainBrings.congr hsame' (later hr.1)
    · exact .pure hdeals.honours hdeals.grasps (List.Sublist.refl _)
        (Cursor.Brings.mono (c := c') (fun _ => later) hr)
    · exact .pure hdeals.honours hdeals.grasps (List.Sublist.refl _)
        (Cursor.Brings.mono (c := c') (fun _ => later) hr)
  | .executor id =>
    match depth with
    | 0 => rw [stepPipe]; exact .pure h hg (List.Sublist.refl _) hp
    | depth + 1 =>
      exact settles_stepPipe_executor (fun h hg hc => settles_stepCursor depth me _ h hg hc) h hg hp
  | .deferred run =>
    rw [stepPipe]
    refine (settles_stepRun depth me run h hg hp).bind fun r m' d' hdeals hr => ?_
    cases r with
    | done c =>
      refine .pure hdeals.honours hdeals.grasps (by simp [Pipe.held, heldByAll, Ran.held])
        (Cursor.Brings.mono (c := c) (fun xs hxs => ?_) hr)
      show Q (xs ++ [])
      rwa [List.append_nil]
    | failed e => exact hr.elim
    | panicked => exact hr.elim
    | progress run => exact .pure hdeals.honours hdeals.grasps (List.Sublist.refl _) hr
    | wait run => exact .pure hdeals.honours hdeals.grasps (List.Sublist.refl _) hr
  | .optional left right keep (x :: next) =>
    rw [stepPipe]
    exact .pure h hg (List.Sublist.refl _) hp
  | .optional left right keep [] =>
    rw [stepPipe]
    obtain ⟨R, hleft⟩ := hp
    refine (settles_stepCursor depth me left h hg hleft).bind fun r m' d' hdeals hr => ?_
    obtain ⟨row | _ | _ | _ | _, c⟩ := r
    · obtain ⟨ys, hys, -⟩ := Cursor.Brings.exists_items hr
      refine .pure hdeals.honours hdeals.grasps (List.Sublist.refl _)
        ⟨R, R row, hys row List.mem_cons_self, Cursor.Brings.mono (c := c) (fun xs hxs => ?_) hr⟩
      refine ⟨fun x hx => hxs.1 x (List.mem_cons_of_mem _ hx), fun zs hzs => hxs.2 zs ?_⟩
      rw [hzs, ← Multiset.cons_coe, Multiset.cons_bind]
    · exact hr.elim
    · refine .pure hdeals.honours hdeals.grasps (List.Sublist.refl _)
        ⟨hr.1.2 [] rfl, R, Cursor.Brings.mono (c := c) (fun xs hxs => ?_) hr.2⟩
      obtain rfl : xs = [] := hxs
      exact ⟨fun x hx => absurd hx List.not_mem_nil, fun ys hys => (Multiset.coe_eq_zero ys).1 hys⟩
    · exact .pure hdeals.honours hdeals.grasps (List.Sublist.refl _) ⟨R, hr⟩
    · exact .pure hdeals.honours hdeals.grasps (List.Sublist.refl _) ⟨R, hr⟩
  | .matching left right keep row (.finished (.error e)) =>
    obtain ⟨R, M, hmatched, -⟩ := hp
    exact hmatched.elim
  | .matching left right keep row (.finished (.ok rows)) =>
    rw [stepPipe]
    obtain ⟨R, M, hmatched, hleft⟩ := hp
    obtain rfl : (rows : Multiset α) = M := hmatched
    -- What the row is matched with is given first, or else the row itself.
    have gives {kept : List α} (hkept : (kept : Multiset α) = Feed.optionalRows keep row rows) :
        (Pipe.optional left right keep kept).Brings answers d.owed Q := by
      refine ⟨R, Cursor.Brings.mono (c := left) (fun xs hxs => ⟨hxs.1, fun ys hys => ?_⟩) hleft⟩
      refine hxs.2 _ ?_
      rw [← Multiset.coe_add, hkept, hys]
    split
    · next hnone =>
      refine .pure h hg (List.Sublist.refl _) (gives ?_)
      rw [Feed.optionalRows, ← Rows.coe_filter, hnone]
      exact (if_pos rfl).symm
    · next hsome =>
      refine .pure h hg (List.Sublist.refl _) (gives ?_)
      rw [Feed.optionalRows, ← Rows.coe_filter, if_neg]
      exact fun hnone => hsome ((Multiset.coe_eq_zero _).1 hnone)
  | .matching left right keep row (.running run) =>
    obtain ⟨R, M, hmatched, hleft⟩ := hp
    rw [stepPipe]
    · exact settles_matching hg (settles_stepPart depth me (.running run) h hg.left hmatched) hleft
    all_goals exact nofun
  | .matching left right keep row (.draining collected source) =>
    obtain ⟨R, M, hmatched, hleft⟩ := hp
    rw [stepPipe]
    · exact settles_matching hg
        (settles_stepPart depth me (.draining collected source) h hg.left hmatched) hleft
    all_goals exact nofun
termination_by (depth, sizeOf p)

theorem settles_stepRun (depth : Nat) (me : Waker) (run : Run α) {m : Machine α} {d : Dues α}
    {X : Set Holder} {holder : Holder} {Q : List α → Prop} (h : m.Honours answers d X)
    (hg : m.Grasps d X holder run.held) (hrun : run.Brings answers d.owed Q) :
    Settles answers X holder m d run.held (stepRun depth me run) Ran.held
      fun r d' => r.Leaves answers d'.owed Q := by
  match run with
  | .ready w => rw [stepRun]; exact settles_stepWork me h hg hrun
  | .sleeping due next =>
    rw [stepRun]
    refine .get ?_
    split <;> exact .pure h hg (List.Sublist.refl _) hrun
  | .awaiting due endpoint r next =>
    rw [stepRun]
    refine .get ?_
    have hnext : (next (answers endpoint r)).Brings answers Q := hrun
    split
    · split
      · next member hknown =>
        exact .pure h hg (List.Sublist.refl _) (h.calm.answer_known r hknown ▸ hnext)
      · next hknown =>
        exact .pure h hg (List.Sublist.refl _) (h.calm.answer_unknown r hknown ▸ hnext)
    · exact .pure h hg (List.Sublist.refl _) hrun
  | .gathering parts next =>
    rw [stepRun]
    obtain ⟨Ms, hparts, hnext⟩ := hrun
    refine (settles_stepParts depth me parts h hg hparts).bind fun r m' d' hdeals hr => ?_
    obtain ⟨_ | _ | _, parts'⟩ := r
    · obtain ⟨xss, rfl⟩ := hr.2 rfl
      refine .pure hdeals.honours hdeals.grasps (List.nil_sublist _) ?_
      rw [resultsOf_finished]
      exact hnext xss (map_of_gatheredCome hr.1)
    · exact .pure hdeals.honours hdeals.grasps (List.Sublist.refl _) ⟨Ms, hr.1, hnext⟩
    · exact .pure hdeals.honours hdeals.grasps (List.Sublist.refl _) ⟨Ms, hr.1, hnext⟩
termination_by (depth, sizeOf run)

theorem settles_stepPart (depth : Nat) (me : Waker) (part : Part α) {m : Machine α} {d : Dues α}
    {X : Set Holder} {holder : Holder} {M : Multiset α} (h : m.Honours answers d X)
    (hg : m.Grasps d X holder part.held) (hpart : part.Comes answers d.owed M) :
    Settles answers X holder m d part.held (stepPart depth me part) (fun r => r.2.held)
      fun r d' => r.2.Comes answers d'.owed M ∧
        (r.1 = .finished → ∃ xs, r.2 = .finished (.ok xs)) := by
  match part with
  | .finished (.error e) => exact hpart.elim
  | .finished (.ok xs) =>
    rw [stepPart]
    exact .pure h hg (List.Sublist.refl _) ⟨hpart, fun _ => ⟨xs, rfl⟩⟩
  | .running run =>
    rw [stepPart]
    refine (settles_stepRun depth me run h hg hpart).bind fun r m' d' hdeals hr => ?_
    cases r with
    | done c => exact .pure hdeals.honours hdeals.grasps (List.Sublist.refl _) ⟨hr, nofun⟩
    | failed e => exact hr.elim
    | panicked => exact hr.elim
    | progress run => exact .pure hdeals.honours hdeals.grasps (List.Sublist.refl _) ⟨hr, nofun⟩
    | wait run => exact .pure hdeals.honours hdeals.grasps (List.Sublist.refl _) ⟨hr, nofun⟩
  | .draining collected source =>
    rw [stepPart]
    refine (settles_stepCursor depth me source h hg hpart).bind fun r m' d' hdeals hr => ?_
    obtain ⟨x | _ | _ | _ | _, c⟩ := r
    · refine .pure hdeals.honours hdeals.grasps (List.Sublist.refl _)
        ⟨Cursor.Brings.mono (c := c) (fun ys hys => ?_) hr, nofun⟩
      rw [List.reverse_cons, List.append_assoc]
      exact hys
    · exact hr.elim
    · refine (settles_discard hdeals.honours hdeals.grasps).bind fun _ m₂ d₂ hdeals' _ => ?_
      refine .pure hdeals'.honours hdeals'.grasps (List.Sublist.refl _) ⟨?_, fun _ => ⟨_, rfl⟩⟩
      rw [← hr.1, List.append_nil]
      rfl
    · exact .pure hdeals.honours hdeals.grasps (List.Sublist.refl _) ⟨hr, nofun⟩
    · exact .pure hdeals.honours hdeals.grasps (List.Sublist.refl _) ⟨hr, nofun⟩
termination_by (depth, sizeOf part)

theorem settles_stepParts (depth : Nat) (me : Waker) (parts : List (Part α)) {m : Machine α}
    {d : Dues α} {X : Set Holder} {holder : Holder} {Ms : List (Multiset α)}
    (h : m.Honours answers d X) (hg : m.Grasps d X holder (heldByParts parts))
    (hparts : gatheredCome answers d.owed parts Ms) :
    Settles answers X holder m d (heldByParts parts) (stepParts depth me parts)
      (fun r => heldByParts r.2) fun r d' => gatheredCome answers d'.owed r.2 Ms ∧
        (r.1 = .finished → ∃ xss : List (List α), r.2 = xss.map fun xs => .finished (.ok xs)) := by
  match parts with
  | [] =>
    rw [stepParts]
    exact .pure h hg (List.Sublist.refl _) ⟨hparts, fun _ => ⟨[], rfl⟩⟩
  | part :: rest =>
    rw [stepParts]
    obtain ⟨M, Ns, rfl, hpart, hrest⟩ := hparts
    refine ((settles_stepPart depth me part h hg.left hpart).frame hg).bind
      fun a m₁ d₁ hdeals ⟨⟨ha, hdone⟩, hsame⟩ => ?_
    have hrest₁ := gatheredCome.congr hsame hrest
    refine ((settles_stepParts depth me rest hdeals.honours hdeals.grasps.right hrest₁).frameLeft
      hdeals.grasps).map (fun _ => List.Sublist.refl _) fun b d₂ ⟨⟨hb, hdone'⟩, hsame'⟩ => ?_
    refine ⟨⟨M, Ns, rfl, Part.Comes.congr hsame' ha, hb⟩, fun hboth => ?_⟩
    obtain ⟨hfirst, hothers⟩ := Gathered.and_eq_finished.1 hboth
    obtain ⟨xs, hxs⟩ := hdone hfirst
    obtain ⟨xss, hxss⟩ := hdone' hothers
    exact ⟨xs :: xss, by rw [hxs, hxss]; rfl⟩
termination_by (depth, sizeOf parts)

end

/-- **Pulling settles what is written down**: what is got is paid, no failure comes, and the rest is
still to come. -/
theorem settles_pull (me : Waker) {c : Cursor α} {Q : List α → Prop} (h : m.Honours answers d X)
    (hg : m.Grasps d X holder c.held) (hc : c.Brings answers d.owed Q) :
    Settles answers X holder m d c.held (pull me c) (fun r => r.2.held)
      fun r d' => r.1.Leaves (r.2.Brings answers d'.owed) Q :=
  .get (settles_stepCursor _ me c h hg hc)

end Machine

end FederatedSparql
