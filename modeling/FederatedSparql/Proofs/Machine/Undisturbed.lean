import FederatedSparql.Proofs.Machine.Nesting
import FederatedSparql.Proofs.Machine.Producing
import FederatedSparql.Proofs.Machine.RunFrames

/-!
Runs that nothing disturbs.

Whichever thread takes a step, the machine goes on keeping to its dues, and what main has is left
alone (`Machine.exists_turnOver_stepThread`).  So a consumer gets what its cursor brings, whoever
takes the next step and however often: no failure comes, nothing comes twice or is lost, and at the
end everything has come.

* `Moment.Delivers.mayBecome`: this holds at every moment of every run.
* `Machine.suits_take`: what is taken, pulled step by step, has the property that is brought.
* `Feed.Comes.exists_received`, `Feed.Comes.coe_items_take`: of a feed that comes to some items one gets
  just these.
-/

namespace FederatedSparql

variable {α : Type} [DecidableEq α] {answers : Answers}

namespace Machine

variable {m m' : Machine α} {d d' : Dues α} {t : Nat}

/-! ### Threads -/

theorem TurnOver.refl (h : m.Honours answers d {.main}) : TurnOver answers m d m d :=
  ⟨.refl m d, h⟩

/-- A thread that is to be ended gives up what it has in hand. -/
theorem exists_turnOver_doomed (h : m.Honours answers d {.main}) {th : Thread α}
    (hth : m.threads[t]? = some th) (hdoomed : th.doomed = true) :
    ∃ d', TurnOver answers m d (after (do
      become t .finished
      abandon t th.activity
      wake .main
      return Turn.ends : Action α Turn) m) d' := by
  have hturn := (Turning.start h hth).turn .finished (fun _ => rfl) fun _ _ _ => .inl rfl
  rw [after_bind, after_bind, after_bind]
  obtain ha | ⟨id, production, -, ha, -⟩ := h.staffed.doomed t th hth hdoomed
  · rw [ha] at hturn ⊢
    exact ⟨d, (hturn.alike (alike_wake .main _)).finish trivial⟩
  · rw [ha] at hturn ⊢
    obtain ⟨d', h', -, -⟩ := hturn.settles (settles_discard hturn.honours hturn.grasps)
    exact ⟨d', (h'.alike (alike_wake .main _)).finish trivial⟩

/-- **Whichever thread takes a step, it does its part, and what main has is left alone.** -/
theorem exists_turnOver_stepThread (h : m.Honours answers d {.main}) (t : Nat) :
    ∃ d', TurnOver answers m d (after (stepThread t) m) d' := by
  rw [stepThread, after_get_bind]
  split
  · exact ⟨d, .refl h⟩
  · next th hth =>
    have hemploys := h.threads t th hth (by simp)
    split
    · next hdoomed => exact exists_turnOver_doomed h hth hdoomed
    · split
      · next p ha => exact exists_turnOver_stepIdle h hth ha
      · next p job run ha => exact exists_turnOver_stepWorking h hth ha
      · next p job result ha => exact exists_turnOver_stepSending h hth ha
      · next id production ha => exact exists_turnOver_stepProducing h hth ha
      · next due ha =>
        rw [ha] at hemploys
        exact hemploys.elim
      · exact ⟨d, .refl h⟩

theorem TurnOver.trans {m'' : Machine α} {d'' : Dues α} (h : TurnOver answers m d m' d')
    (h' : TurnOver answers m' d' m'' d'') : TurnOver answers m d m'' d'' :=
  ⟨h.toLeavesMain.trans h'.toLeavesMain, h'.honours⟩

omit [DecidableEq α] in
theorem Aside.alike (h : Aside m m') : m.Alike m' where
  answers := by rw [h.registry]
  query := h.query
  executors := h.executors
  threads := h.threads
  jobs p := by cases p <;> simp [crew, h.join, h.union]
  accepting p := by cases p <;> simp [crew, h.join, h.union]

/-- Whatever a machine owes is paid or still owed, and what main has is left alone. -/
def Maintains (answers : Answers) (m m' : Machine α) : Prop :=
  ∀ d, m.Honours answers d {.main} → ∃ d', TurnOver answers m d m' d'

/-- While main waits, the machine goes on keeping to its dues. -/
theorem runFrame_maintains : RunFrame (Maintains (α := α) answers) where
  refl _ d h := ⟨d, .refl h⟩
  trans h h' d hd := by
    obtain ⟨d', hturn⟩ := h d hd
    obtain ⟨d'', hturn'⟩ := h' d' hturn.honours
    exact ⟨d'', hturn.trans hturn'⟩
  turn t _ _ h := exists_turnOver_stepThread h t
  aside h d hd := ⟨d, (TurnOver.refl hd).alike h.alike⟩

/-! ### What main gets -/

/-- Main has a cursor that brings items with a property, on a machine that keeps to its dues. -/
def Supplies (answers : Answers) (m : Machine α) (c : Cursor α) (Q : List α → Prop) : Prop :=
  ∃ d, m.Honours answers d {.main} ∧ m.Grasps d {.main} .main c.held ∧ c.Brings answers d.owed Q

namespace Supplies

variable {c : Cursor α} {P Q : List α → Prop}

theorem mono (h : m.Supplies answers c P) (hPQ : ∀ xs, P xs → Q xs) : m.Supplies answers c Q := by
  obtain ⟨d, hhonours, hgrasps, hbrings⟩ := h
  exact ⟨d, hhonours, hgrasps, hbrings.mono hPQ⟩

/-- There are items with the property. -/
theorem exists_items (h : m.Supplies answers c Q) : ∃ xs, Q xs := by
  obtain ⟨d, -, -, hbrings⟩ := h
  exact hbrings.exists_items

/-- Others do something. -/
theorem maintain (h : m.Supplies answers c Q) (hm : Maintains answers m m') :
    m'.Supplies answers c Q := by
  obtain ⟨d, hhonours, hgrasps, hbrings⟩ := h
  obtain ⟨d', hturn⟩ := hm d hhonours
  have hkept (i : Nat) (hi : i ∈ c.held) : d'.owed i = d.owed i ∧ d'.holder i = .main :=
    hturn.kept i (hgrasps.holds.exist i hi) (hgrasps.holds.holder i hi)
  refine ⟨d', hturn.honours, ⟨rfl, ⟨hgrasps.holds.nodup, fun i hi => (hkept i hi).2, fun i hi => ?_⟩,
    nofun, nofun⟩, hbrings.congr fun i hi => (hkept i hi).1⟩
  exact Nat.lt_of_lt_of_le (hgrasps.holds.exist i hi) hturn.size_le

/-- **Main gets what its cursor brings, and the rest is still to come.** -/
theorem pull (h : m.Supplies answers c Q) :
    (value (pull .main c) m).1.Leaves
      ((after (Machine.pull .main c) m).Supplies answers (value (Machine.pull .main c) m).2) Q := by
  obtain ⟨d, hhonours, hgrasps, hbrings⟩ := h
  obtain ⟨d', hdeals, hr⟩ := settles_pull .main hhonours hgrasps hbrings
  have hsupplies {P : List α → Prop} (hP : (value (Machine.pull .main c) m).2.Brings answers d'.owed P) :
      (after (Machine.pull .main c) m).Supplies answers (value (Machine.pull .main c) m).2 P :=
    ⟨d', hdeals.honours, hdeals.grasps, hP⟩
  cases hpulled : (value (Machine.pull .main c) m).1 <;> rw [hpulled] at hr
  · exact hsupplies hr
  · exact hr
  · exact ⟨hr.1, hsupplies hr.2⟩
  · exact hsupplies hr
  · exact hsupplies hr

end Supplies

end Machine

/-! ### Runs in which anyone may take the next step -/

section Moments

open Machine

namespace Moment

/-- The moment at which a consumer has a feed opened. -/
def opened (m : Machine α) (f : Feed α) : Moment α where
  machine := after (openFeed f) m
  cursor := value (openFeed f) m

/-- What a consumer has got and what is still to come have a property together; at the end nothing is
still to come. -/
def Delivers (answers : Answers) (Q : List α → Prop) (x : Moment α) : Prop :=
  ∃ xs : List α, x.received = xs.map .ok ∧
    (x.ended = false → x.machine.Supplies answers x.cursor fun ys => Q (xs ++ ys)) ∧
    (x.ended = true → Q xs ∧ x.machine.Supplies answers x.cursor (· = []))

namespace Delivers

variable {x y : Moment α} {Q : List α → Prop}

/-- Others do something. -/
theorem maintain (h : x.Delivers answers Q) {m : Machine α} (log : List Event)
    (hm : Maintains answers x.machine m) :
    Moment.Delivers answers Q { x with machine := m, log := log } := by
  obtain ⟨xs, hreceived, hgoes, hover⟩ := h
  exact ⟨xs, hreceived, fun hgoing => (hgoes hgoing).maintain hm,
    fun hended => ⟨(hover hended).1, (hover hended).2.maintain hm⟩⟩

/-- The consumer pulls. -/
theorem consumer (h : x.Delivers answers Q) : (x.step .consumer).Delivers answers Q := by
  obtain ⟨xs, hreceived, hgoes, hover⟩ := h
  show Moment.Delivers answers Q (note { x with
    machine := after (pull .main x.cursor) x.machine
    cursor := (value (pull .main x.cursor) x.machine).2 } (value (pull .main x.cursor) x.machine).1)
  cases hended : x.ended with
  | true =>
    -- Nothing comes any more.
    obtain ⟨hQ, hsupplies⟩ := hover hended
    have hpull := hsupplies.pull
    cases hr : (value (pull .main x.cursor) x.machine).1 <;> rw [hr] at hpull
    · obtain ⟨ys, hys⟩ := hpull.exists_items
      cases hys
    · exact hpull.elim
    · exact ⟨xs, hreceived, nofun, fun _ => ⟨hQ, hpull.2⟩⟩
    · exact ⟨xs, hreceived, nofun, fun _ => ⟨hQ, hpull⟩⟩
    · exact ⟨xs, hreceived, nofun, fun _ => ⟨hQ, hpull⟩⟩
  | false =>
    have hpull := (hgoes hended).pull
    cases hr : (value (pull .main x.cursor) x.machine).1 <;> rw [hr] at hpull
    · next v =>
      refine ⟨xs ++ [v], ?_, fun _ => hpull.mono fun ys hys => ?_, nofun⟩
      · show x.received ++ [.ok v] = _
        rw [hreceived, List.map_append]
        rfl
      · rwa [List.append_assoc]
    · exact hpull.elim
    · exact ⟨xs, hreceived, nofun, fun _ => ⟨List.append_nil xs ▸ hpull.1, hpull.2⟩⟩
    · exact ⟨xs, hreceived, fun _ => hpull, nofun⟩
    · exact ⟨xs, hreceived, fun _ => hpull, nofun⟩

theorem step (h : x.Delivers answers Q) {s : Step} (hs : s.Quiet) :
    (x.step s).Delivers answers Q := by
  cases s with
  | thread t => exact h.maintain _ fun d hd => exists_turnOver_stepThread hd t
  | consumer => exact h.consumer
  | time ms =>
    exact h.maintain x.log (runFrame_maintains.aside ⟨rfl, rfl, rfl, rfl, rfl, rfl⟩)
  | _ => exact hs.elim

/-- **Whoever takes the next step and however often, a consumer gets what is to come.** -/
theorem mayBecome (h : x.Delivers answers Q) (hxy : x.MayBecome y) : y.Delivers answers Q :=
  hxy.induction h fun _ _ hs hm => hm.step hs

/-- A consumer gets the items that are to come, each as often as it is to come, and no failure; at
the end it has got all. -/
theorem exists_received {M : Multiset α}
    (h : x.Delivers answers fun xs => (xs : Multiset α) = M) :
    ∃ xs : List α, x.received = xs.map .ok ∧ (xs : Multiset α) ≤ M ∧
      (x.ended = true → (xs : Multiset α) = M) := by
  obtain ⟨xs, hreceived, hgoes, hover⟩ := h
  refine ⟨xs, hreceived, ?_, fun hended => (hover hended).1⟩
  cases hended : x.ended with
  | true => exact (hover hended).1.le
  | false =>
    obtain ⟨ys, hys⟩ := (hgoes hended).exists_items
    exact hys ▸ Multiset.le_add_right (xs : Multiset α) ys

end Delivers

end Moment

end Moments

/-! ### Runs of main -/

omit [DecidableEq α] in
/-- What a step gives leaves all that follows from what it leaves. -/
theorem Pulled.Leaves.mono {rest rest' : (List α → Prop) → Prop} {Q : List α → Prop} {r : Pulled α}
    (h : r.Leaves rest Q) (hrest : ∀ P, rest P → rest' P) : r.Leaves rest' Q := by
  cases r with
  | failure e => exact h
  | done => exact ⟨h.1, hrest _ h.2⟩
  | _ => exact hrest _ h

namespace Machine

section Main

variable {σ β : Type}

/-- What main comes to by a step is as it is to be. -/
def MainStep.Meets (P : σ → Prop) (R : β → Prop) : MainStep σ β → Prop
  | .finished r => R r
  | .goesOn s => P s
  | .waits s => P s

omit [DecidableEq α] in
/-- What main keeps up step by step leads to what it comes to. -/
theorem runMain_meets [BEq α] {step : σ → Action α (MainStep σ β)} {P : Machine α → σ → Prop}
    {R : β → Prop} (hstep : ∀ m s, P m s → (value (step s) m).Meets (P (after (step s) m)) R)
    (hawait : ∀ m s, P m s → P (after (awaitWake stepLimit) m) s) (limit : Nat) {m : Machine α}
    {s : σ} (h : P m s) {r : β} (hr : value (runMain step limit s) m = some r) : R r := by
  induction limit generalizing m s with
  | zero => cases hr
  | succ limit ih =>
    have hmeets := hstep m s h
    rw [runMain, value_bind] at hr
    cases hs : value (step s) m <;> rw [hs] at hmeets hr
    · exact Option.some.inj hr ▸ hmeets
    · exact ih hmeets hr
    · dsimp only at hr
      rw [value_bind] at hr
      split at hr
      · exact ih (hawait _ _ hmeets) hr
      · cases hr

end Main

variable {m : Machine α} {Q : List α → Prop} {wanted : Option Nat}

/-- What has been taken has a property with what is left, and nothing is left at the end; main has as
much as it wants, or all. -/
def Taken.Suits (wanted : Option Nat) (Q : List α → Prop) (taken : Taken α) : Prop :=
  match taken.ending with
  | .exhausted => Q taken.items
  | .failed _ => False
  | .filled => wanted = some taken.items.length ∧ ∃ ys, Q (taken.items ++ ys)

/-- What a step of pulling comes to, if nothing is said of what is left at the end. -/
def StaysSupplied (answers : Answers) (next : Cursor α → Action α (Pulled α × Cursor α)) (m : Machine α)
    (c : Cursor α) (P : List α → Prop) : Prop :=
  (value (next c) m).1.isDone = true ∨ (after (next c) m).Supplies answers (value (next c) m).2 P

/-- **What main takes step by step is what its cursor brings.** -/
theorem suits_runMain_takeStep {next : Cursor α → Action α (Pulled α × Cursor α)}
    (hnext : ∀ (m : Machine α) (c : Cursor α) (Q : List α → Prop), m.Supplies answers c Q →
      (value (next c) m).1.Leaves (StaysSupplied answers next m c) Q)
    {c : Cursor α} (h : m.Supplies answers c Q) {taken : Taken α}
    (htaken : value (runMain (takeStep wanted next) stepLimit ([], c)) m = some taken) :
    taken.Suits wanted Q := by
  refine runMain_meets (P := fun m s => (∀ n, wanted = some n → s.1.length ≤ n) ∧
      m.Supplies answers s.2 fun ys => Q (s.1.reverse ++ ys)) (fun m s hs => ?_) (fun m s hs => ?_)
    stepLimit ⟨fun n _ => Nat.zero_le n, h⟩ htaken
  · obtain ⟨xs, c⟩ := s
    obtain ⟨hfits, hsupplies⟩ := hs
    rw [takeStep]
    split
    · next hfull =>
      obtain ⟨n, rfl, hn⟩ := (Option.any_eq_true _ _).1 hfull
      refine ⟨?_, hsupplies.exists_items⟩
      rw [List.length_reverse, Nat.le_antisymm (hfits n rfl) (of_decide_eq_true hn)]
    · next hroom =>
      have hpull := hnext m c _ hsupplies
      have hfits' {n : Nat} (hn : wanted = some n) : xs.length + 1 ≤ n := by
        refine Nat.lt_of_not_le fun hle => hroom ?_
        rw [hn, Option.any_some]
        exact decide_eq_true hle
      unfold StaysSupplied at hpull
      rw [value_bind, after_bind]
      generalize value (next c) m = v at hpull ⊢
      have supplied {P : List α → Prop} (hnot : v.1.isDone = false)
          (hP : v.1.isDone = true ∨ (after (next c) m).Supplies answers v.2 P) :
          (after (next c) m).Supplies answers v.2 P :=
        hP.resolve_left (by rw [hnot]; exact Bool.false_ne_true)
      obtain ⟨_ | _ | _ | _ | _, c'⟩ := v
      · refine ⟨fun n hn => hfits' hn, (supplied rfl hpull).mono fun ys hys => ?_⟩
        rw [List.reverse_cons, List.append_assoc]
        exact hys
      · exact hpull
      · have hQ : Q (xs.reverse ++ []) := hpull.1
        rwa [List.append_nil] at hQ
      · exact ⟨hfits, supplied rfl hpull⟩
      · exact ⟨hfits, supplied rfl hpull⟩
  · exact ⟨hs.1, hs.2.maintain (runFrame_maintains.keeps_awaitWake stepLimit m)⟩

theorem suits_take {c : Cursor α} (h : m.Supplies answers c Q) {taken : Taken α}
    (htaken : value (take wanted c) m = some taken) : taken.Suits wanted Q :=
  suits_runMain_takeStep (fun _ _ _ hsupplies => hsupplies.pull.mono fun _ => .inr) h htaken

/-! ### Machines on which nothing has been started -/

/-- Nothing has been started on a machine, and nothing disturbs it. -/
structure Fresh (answers : Answers) (m : Machine α) : Prop where
  calm : m.Calm answers
  executors : m.executors = #[]
  threads : ∀ (t : Nat) (th : Thread α), m.threads[t]? = some th →
    th.doomed = false ∧ ∃ p, th.activity = .idle p
  jobs : ∀ p, (m.crew p).jobs = []

/-- Where nothing has been started nothing is owed. -/
def nothingDue : Dues α where
  owed _ := 0
  result _ := 0
  tasks _ := ∅
  rest _ := 0
  holder _ := .main
  spot _ := .pool .join

theorem Fresh.honours (h : m.Fresh answers) : m.Honours answers nothingDue {.main} where
  calm := h.calm
  staffed := {
    branch_lt := fun id e he => by simp [h.executors] at he
    branch_inj := fun i j e e' he => by simp [h.executors] at he
    doomed := fun t th hth hdoomed => by simp [(h.threads t th hth).1] at hdoomed
    producer := fun id e t he => by simp [h.executors] at he }
  known id k hk := absurd hk (Finset.notMem_empty k)
  executors id e he := by simp [h.executors] at he
  threads t th hth _ := by
    obtain ⟨-, p, ha⟩ := h.threads t th hth
    rw [ha]
    trivial
  jobs p job hjob := by simp [h.jobs p] at hjob
  nodup p := by simp [h.jobs p]

/-- **Main is supplied with what a feed brings.** -/
theorem Fresh.supplies (h : m.Fresh answers) {f : Feed α} (hf : f.Brings answers Q) :
    (after (openFeed f) m).Supplies answers (value (openFeed f) m) Q := by
  have hgrasps : m.Grasps nothingDue {.main} .main [] := ⟨rfl, .nil, nofun, nofun⟩
  obtain ⟨d, hdeals, hbrings⟩ := settles_openFeed h.honours hgrasps hf
  exact ⟨d, hdeals.honours, hdeals.grasps, hbrings⟩

end Machine

/-! ### What feeds come to -/

open Machine

variable {m : Machine α} {f : Feed α} {M : Multiset α}

/-- **Of a feed a consumer gets the items that it comes to, whoever takes the next step and however
often**: no failure comes, no item comes more often than it should, and at the end all have come. -/
theorem Feed.Comes.exists_received (hf : f.Comes answers M) (hm : m.Fresh answers) {x : Moment α}
    (hx : (Moment.opened m f).MayBecome x) :
    ∃ xs : List α, x.received = xs.map .ok ∧ (xs : Multiset α) ≤ M ∧
      (x.ended = true → (xs : Multiset α) = M) :=
  Moment.Delivers.exists_received (Moment.Delivers.mayBecome
    ⟨[], rfl, fun _ => hm.supplies hf, fun hended => absurd hended Bool.false_ne_true⟩ hx)

/-- **Who takes all items of a feed has those that it comes to**, and no failure. -/
theorem Feed.Comes.coe_items_take (hf : f.Comes answers M) (hm : m.Fresh answers)
    {taken : Taken α} (htaken : value (openFeed f >>= take none) m = some taken) :
    (taken.items : Multiset α) = M ∧ taken.ending = .exhausted := by
  rw [value_bind] at htaken
  have hsuits := suits_take (hm.supplies hf) htaken
  unfold Taken.Suits at hsuits
  cases hending : taken.ending <;> rw [hending] at hsuits
  · exact ⟨hsuits, rfl⟩
  · exact hsuits.elim
  · exact absurd hsuits.1 nofun

end FederatedSparql
