import FederatedSparql.Plan.Build
import FederatedSparql.Proofs.Plan.Regrouping

/-!
Restructuring around sources keeps the answer.

Attaching sources prunes what has none, puts statements of one owner into groups and reorders the
arguments of joins.  The yardstick is the plan with the sources written into its statements where they
stand (`Plan.withSources`).

* `Plan.attach_restructured`: attaching sources to a steady plan keeps it steady, and keeps its rows.
* `Plan.attach_agrees_in_place`: so evaluation yields the same rows for both plans.
-/

namespace FederatedSparql.Plan

variable {r : Registry} {b : Bindings} {v : String} {c : Context} {args args' : List Plan}
  {p p' p'' : Plan} {vars vars' : List String} {members : List Statement}

/-! ### What is kept -/

/-- The second plan is sourced like the first one and does not need or bind more. -/
structure Shrinks (r : Registry) (p p' : Plan) : Prop where
  sourced : p.WellSourced r → p'.WellSourced r
  width : p'.width r ≤ p.width r
  free : ∀ v ∈ p'.freeVars, v ∈ p.freeVars
  certain : p'.isEmpty = false → ∀ v ∈ p.certainVars, v ∈ p'.certainVars
  remains : ∀ s ∈ p'.remains, s ∈ p.remains

/-- What a restructured plan keeps in a context. -/
structure RestructuredIn (r : Registry) (c : Context) (p p' : Plan) : Prop
    extends Shrinks r p p' where
  steady : p'.Steady c
  rows : ∀ b, c.Admits b → p'.rows r b = p.rows r b

/-- The second plan restructures the first one wherever that is steady. -/
def Restructures (r : Registry) (p p' : Plan) : Prop := ∀ c, p.Steady c → RestructuredIn r c p p'

theorem Shrinks.refl (p : Plan) : Shrinks r p p :=
  ⟨id, le_rfl, fun _ => id, fun _ _ => id, fun _ => id⟩

theorem RestructuredIn.refl (h : p.Steady c) : RestructuredIn r c p p :=
  ⟨.refl p, h, fun _ _ => rfl⟩

theorem RestructuredIn.trans (h : RestructuredIn r c p p') (h' : RestructuredIn r c p' p'')
    (he : p'.isEmpty = false) : RestructuredIn r c p p'' where
  sourced := h'.sourced ∘ h.sourced
  width := h'.width.trans h.width
  free v := h.free v ∘ h'.free v
  certain he' v := h'.certain he' v ∘ h.certain he v
  remains s := h.remains s ∘ h'.remains s
  steady := h'.steady
  rows b hb := (h'.rows b hb).trans (h.rows b hb)

/-! ### Joins -/

theorem SteadyArgs.rows_join (h : SteadyArgs c args) (hb : c.Admits b) :
    (join args vars).rows r b = {b} * (args.map (·.rows r b)).prod :=
  rows_join_eq_mul h.nonempty h.steady
    (fun a rest hp _ hx => (h.steady a rest hp).rows_of_grows (hb.beside rest) hx) (.refl _ b)

theorem mem_remains_join {s : Statement} :
    s ∈ (join args vars).remains ↔ ∃ a, args = [a] ∧ s ∈ a.remains := by
  rcases args with _ | ⟨a, _ | ⟨a', rest⟩⟩ <;> simp [remains]

theorem mem_freeVars_join : v ∈ (join args vars).freeVars ↔ v ∈ freeVarsAll args :=
  List.mem_eraseDups

theorem joinWidth_eq_prod (args : List Plan) :
    joinWidth r args = (args.map (·.width r)).prod := by
  induction args with
  | nil => rfl
  | cons a rest ih => rw [joinWidth, ih, List.map_cons, List.prod_cons]

theorem wellSourcedAll_iff : WellSourcedAll r args ↔ ∀ a ∈ args, a.WellSourced r := by
  induction args with
  | nil => simp [WellSourcedAll]
  | cons a rest ih => simp [WellSourcedAll, ih]

theorem SteadyArgs.perm (h : SteadyArgs c args) (hp : args.Perm args') : SteadyArgs c args' where
  nonempty h0 := h.nonempty (List.perm_nil.1 (h0 ▸ hp))
  steady a rest hq := h.steady a rest (hp.trans hq)
  even a rest hq := h.even a rest (hp.trans hq)

theorem SteadyArgs.restructured_perm (h : SteadyArgs c args) (hp : args.Perm args') :
    RestructuredIn r c (join args vars) (join args' vars') where
  steady := steady_join_iff.2 (h.perm hp)
  rows b hb := by rw [h.rows_join hb, (h.perm hp).rows_join hb, (hp.map _).prod_eq]
  sourced hw := wellSourcedAll_iff.2 fun a ha => wellSourcedAll_iff.1 hw a (hp.mem_iff.2 ha)
  width := by
    show joinWidth r args' ≤ joinWidth r args
    rw [joinWidth_eq_prod, joinWidth_eq_prod, (hp.map _).prod_eq]
  free v := by
    simp only [mem_freeVars_join, mem_freeVarsAll, hp.mem_iff]
    exact id
  certain _ v hv := by
    obtain ⟨a, ha, hv⟩ := mem_certainInJoin.1 hv
    exact mem_certainInJoin.2 ⟨a, hp.mem_iff.1 ha, hv⟩
  remains s hs := by
    obtain ⟨a, rfl, hs⟩ := mem_remains_join.1 hs
    exact mem_remains_join.2 ⟨a, List.perm_singleton.1 hp, hs⟩

theorem mem_freeVarsAll_statements {rest : List Plan} :
    v ∈ freeVarsAll (members.map statement ++ rest) ↔
      (∃ s ∈ members, v ∈ s.freeVars) ∨ v ∈ freeVarsAll rest := by
  simp only [mem_freeVarsAll, List.mem_append, List.mem_map, or_and_right, exists_or,
    exists_exists_and_eq_and]
  rfl

theorem StandsFor.mem_freeVarsAll_cons {rest : List Plan} (hp : StandsFor r p members) :
    v ∈ freeVarsAll (p :: rest) ↔ v ∈ freeVarsAll (members.map statement ++ rest) := by
  rw [mem_freeVarsAll_statements, freeVarsAll, List.mem_append, hp.free]

theorem StandsFor.looseIn_cons {rest : List Plan} (hp : StandsFor r p members)
    (h : LooseIn (p :: rest) v) : LooseIn (members.map statement ++ rest) v := by
  obtain ⟨a, ha, hf, hc⟩ := h
  rcases List.mem_cons.1 ha with rfl | ha
  · exact absurd (hp.certain v hf) hc
  · exact ⟨a, List.mem_append_right _ ha, hf, hc⟩

/-- The place of statements may be taken by a plan that stands for them. -/
theorem SteadyArgs.standsFor {rest : List Plan} (hp : StandsFor r p members)
    (h : SteadyArgs c (members.map statement ++ rest)) : SteadyArgs c (p :: rest) := by
  have place : ∀ {a zs}, rest.Perm (a :: zs) →
      (members.map statement ++ rest).Perm (a :: (members.map statement ++ zs)) := fun hrest =>
    (hrest.append_left _).trans List.perm_middle
  refine ⟨List.cons_ne_nil _ _, fun a others hperm => ?_, fun a others hperm s hs => ?_⟩
  all_goals rcases perm_cons_cases hperm with ⟨rfl, -⟩ | ⟨zs, hrest, hothers⟩
  · exact hp.steady _
  · refine (h.steady a _ (place hrest)).mono ((Context.Within.refl c).beside fun v hv => ?_)
    rw [← hp.mem_freeVarsAll_cons]
    simpa only [mem_freeVarsAll, hothers.mem_iff] using hv
  · rw [hp.remains] at hs
    exact absurd hs List.not_mem_nil
  · refine (h.even a _ (place hrest) s hs).mono (.refl c) (fun v hv => ?_) fun v hv => ?_
    · rw [← hp.mem_freeVarsAll_cons]
      simpa only [mem_freeVarsAll, hothers.mem_iff] using hv
    · refine hp.looseIn_cons ?_
      simpa only [LooseIn, hothers.mem_iff] using hv

theorem SteadyArgs.restructured_standsFor {rest : List Plan} (hp : StandsFor r p members)
    (h : SteadyArgs c (members.map statement ++ rest)) :
    RestructuredIn r c (join (members.map statement ++ rest) vars) (join (p :: rest) vars') where
  steady := steady_join_iff.2 (h.standsFor hp)
  rows b hb := by
    rw [h.rows_join hb, (h.standsFor hp).rows_join hb, List.map_append, List.prod_append,
      List.map_cons, List.prod_cons, ← mul_assoc, hp.rows, mul_assoc, List.map_map]
    rfl
  sourced hw := by
    rw [WellSourced, wellSourcedAll_iff] at hw
    refine ⟨hp.sourced fun s hs => ?_, wellSourcedAll_iff.2 fun a ha => ?_⟩
    · exact hw (statement s) (List.mem_append_left _ (List.mem_map_of_mem hs))
    · exact hw a (List.mem_append_right _ ha)
  width := by
    show joinWidth r (p :: rest) ≤ joinWidth r (members.map statement ++ rest)
    rw [joinWidth_eq_prod, joinWidth_eq_prod, List.map_append, List.prod_append, List.map_cons,
      List.prod_cons, hp.width, List.map_map]
    exact le_rfl
  free v hv := by
    rw [mem_freeVars_join] at hv ⊢
    exact hp.mem_freeVarsAll_cons.1 hv
  certain _ v hv := by
    obtain ⟨a, ha, hv⟩ := mem_certainInJoin.1 hv
    refine mem_certainInJoin.2 ?_
    rcases List.mem_append.1 ha with ha | ha
    · obtain ⟨s, hs, rfl⟩ := List.mem_map.1 ha
      exact ⟨p, List.mem_cons_self, hp.certain v ((hp.free v).2 ⟨s, hs, hv⟩)⟩
    · exact ⟨a, List.mem_cons_of_mem p ha, hv⟩
  remains s hs := by
    obtain ⟨a, ha, hs⟩ := mem_remains_join.1 hs
    obtain ⟨rfl, -⟩ := List.cons.inj ha
    rw [hp.remains] at hs
    exact absurd hs List.not_mem_nil

/-- **Rearranging the arguments of a join keeps its rows.** -/
theorem SteadyArgs.restructured_regroups (hg : Regroups args args') (h : SteadyArgs c args) :
    RestructuredIn r c (join args vars) (join args' vars') := by
  have plain : ∀ {members : List Statement} {rest : List Plan},
      SteadyArgs c (members.map statement ++ rest) → ∀ s ∈ members, s.Plain := by
    intro members rest h s hs
    obtain ⟨others, hp⟩ := exists_perm_cons
      (List.mem_append_left rest (List.mem_map_of_mem (f := statement) hs))
    cases h.steady _ _ hp with
    | statement hs => exact hs
  induction hg generalizing vars vars' with
  | perm hp => exact h.restructured_perm hp
  | group id rest hne howned =>
    exact h.restructured_standsFor (group_standsFor id hne (plain h) howned)
  | independent members rest => exact h.restructured_standsFor (independent_standsFor (plain h))
  | trans _ _ ih ih' =>
    have first : RestructuredIn r c (join _ vars) (join _ []) := ih h
    exact first.trans (ih' (steady_join_iff.1 first.steady)) rfl

/-- A join of one argument is the argument. -/
theorem SteadyArgs.restructured_joinOf (h : SteadyArgs c args) :
    RestructuredIn r c (join args vars) (joinOf args) := by
  match args, h with
  | [], h => exact absurd rfl h.nonempty
  | [a], h =>
    have own : a.Steady c :=
      (h.steady a [] (.refl _)).mono ⟨fun _ => id, fun _ => id, fun _ => List.mem_append_left _⟩
    refine ⟨⟨And.left, (Nat.mul_one _).ge, fun v hv => ?_, fun _ v hv => ?_, fun _ => id⟩, own,
      fun _ _ => rfl⟩
    · exact mem_freeVars_join.2 (List.mem_append_left _ hv)
    · show v ∈ a.certainVars
      simpa [certainVars, certainInJoin] using hv
  | _ :: _ :: _, h => exact h.restructured_perm (.refl _)

/-! ### Arguments one by one -/

section Pointwise

variable {xs ys : List Plan}

theorem exists_mem_left_of_forall₂ {α : Type} {R : α → α → Prop} {xs ys : List α}
    (h : List.Forall₂ R xs ys) {y : α} (hy : y ∈ ys) : ∃ x ∈ xs, R x y := by
  induction h with
  | nil => exact absurd hy List.not_mem_nil
  | cons hxy _ ih =>
    rcases List.mem_cons.1 hy with rfl | hy
    · exact ⟨_, List.mem_cons_self, hxy⟩
    · obtain ⟨x, hx, hR⟩ := ih hy
      exact ⟨x, List.mem_cons_of_mem _ hx, hR⟩

theorem exists_mem_right_of_forall₂ {α : Type} {R : α → α → Prop} {xs ys : List α}
    (h : List.Forall₂ R xs ys) {x : α} (hx : x ∈ xs) : ∃ y ∈ ys, R x y :=
  exists_mem_left_of_forall₂ h.flip hx

/-- Arguments that stand beside others stay beside the same ones, one by one. -/
theorem exists_perm_of_forall₂ {α : Type} {R : α → α → Prop} {xs ys : List α}
    (h : List.Forall₂ R xs ys) {y : α} {others : List α} (hp : ys.Perm (y :: others)) :
    ∃ x rest, xs.Perm (x :: rest) ∧ R x y ∧ List.Forall₂ R rest others := by
  have swapped : Relation.Comp (List.Forall₂ R) List.Perm xs (y :: others) := ⟨ys, h, hp⟩
  rw [List.forall₂_comp_perm_eq_perm_comp_forall₂] at swapped
  obtain ⟨zs, hperm, hall⟩ := swapped
  cases hall with
  | cons hxy hrest => exact ⟨_, _, hperm, hxy, hrest⟩

theorem shrinks_of_restructures (h : List.Forall₂ (Restructures r) xs ys)
    (hs : ∀ a ∈ xs, ∃ c : Context, a.Steady c) : List.Forall₂ (Shrinks r) xs ys := by
  induction h with
  | nil => exact .nil
  | cons ha _ ih =>
    obtain ⟨c, hc⟩ := hs _ List.mem_cons_self
    exact .cons (ha c hc).toShrinks (ih fun a ha => hs a (List.mem_cons_of_mem _ ha))

theorem mem_freeVarsAll_of_shrinks (h : List.Forall₂ (Shrinks r) xs ys)
    (hv : v ∈ freeVarsAll ys) : v ∈ freeVarsAll xs := by
  obtain ⟨y, hy, hv⟩ := mem_freeVarsAll.1 hv
  obtain ⟨x, hx, hxy⟩ := exists_mem_left_of_forall₂ h hy
  exact mem_freeVarsAll.2 ⟨x, hx, hxy.free v hv⟩

theorem looseIn_of_shrinks (h : List.Forall₂ (Shrinks r) xs ys)
    (hne : ∀ y ∈ ys, y.isEmpty = false) (hv : LooseIn ys v) : LooseIn xs v := by
  obtain ⟨y, hy, hf, hc⟩ := hv
  obtain ⟨x, hx, hxy⟩ := exists_mem_left_of_forall₂ h hy
  exact ⟨x, hx, hxy.free v hf, fun hc' => hc (hxy.certain (hne y hy) v hc')⟩

theorem wellSourcedAll_of_shrinks (h : List.Forall₂ (Shrinks r) xs ys)
    (hw : WellSourcedAll r xs) : WellSourcedAll r ys := by
  refine wellSourcedAll_iff.2 fun y hy => ?_
  obtain ⟨x, hx, hxy⟩ := exists_mem_left_of_forall₂ h hy
  exact hxy.sourced (wellSourcedAll_iff.1 hw x hx)

theorem joinWidth_le_of_shrinks (h : List.Forall₂ (Shrinks r) xs ys) :
    joinWidth r ys ≤ joinWidth r xs := by
  induction h with
  | nil => exact le_rfl
  | cons hxy _ ih => exact Nat.mul_le_mul hxy.width ih

theorem SteadyArgs.exists_steady (h : SteadyArgs c args) {a : Plan} (ha : a ∈ args) :
    ∃ c' : Context, a.Steady c' ∧ ∀ b, c.Admits b → c'.Admits b := by
  obtain ⟨rest, hp⟩ := exists_perm_cons ha
  exact ⟨_, h.steady a rest hp, fun b hb => hb.beside rest⟩

theorem SteadyArgs.shrinks (h : SteadyArgs c xs) (hall : List.Forall₂ (Restructures r) xs ys) :
    List.Forall₂ (Shrinks r) xs ys :=
  shrinks_of_restructures hall fun _ ha => (h.exists_steady ha).imp fun _ => And.left

theorem map_rows_of_restructures (h : List.Forall₂ (Restructures r) xs ys)
    (hs : ∀ a ∈ xs, ∃ c : Context, a.Steady c ∧ c.Admits b) :
    ys.map (·.rows r b) = xs.map (·.rows r b) := by
  induction h with
  | nil => rfl
  | cons ha _ ih =>
    obtain ⟨c, hc, hb⟩ := hs _ List.mem_cons_self
    rw [List.map_cons, List.map_cons, (ha c hc).rows b hb,
      ih fun a ha => hs a (List.mem_cons_of_mem _ ha)]

theorem SteadyArgs.map_rows (h : SteadyArgs c xs) (hall : List.Forall₂ (Restructures r) xs ys)
    (hb : c.Admits b) : ys.map (·.rows r b) = xs.map (·.rows r b) :=
  map_rows_of_restructures hall fun _ ha =>
    (h.exists_steady ha).imp fun _ hc => ⟨hc.1, hc.2 b hb⟩

theorem SteadyArgs.of_restructures (h : SteadyArgs c xs)
    (hall : List.Forall₂ (Restructures r) xs ys) (hne : ∀ y ∈ ys, y.isEmpty = false) :
    SteadyArgs c ys := by
  have both : List.Forall₂ (fun a a' => Restructures r a a' ∧ Shrinks r a a') xs ys := by
    refine hall.mp (fun _ _ => And.intro) (h.shrinks hall)
  have beside : ∀ {rest others : List Plan},
      List.Forall₂ (fun a a' => Restructures r a a' ∧ Shrinks r a a') rest others →
      List.Forall₂ (Shrinks r) rest others := fun hrest => hrest.imp fun _ _ => And.right
  refine ⟨?_, fun y others hp => ?_, fun y others hp s hs => ?_⟩
  · rintro rfl
    cases hall
    exact h.nonempty rfl
  all_goals obtain ⟨x, rest, hperm, ⟨hx, hshrinks⟩, hrest⟩ := exists_perm_of_forall₂ both hp
  · refine ((hx _ (h.steady x rest hperm)).steady).mono ((Context.Within.refl c).beside ?_)
    exact fun v => mem_freeVarsAll_of_shrinks (beside hrest)
  · refine (h.even x rest hperm s (hshrinks.remains s hs)).mono (.refl c) (fun v => ?_) fun v => ?_
    · exact mem_freeVarsAll_of_shrinks (beside hrest)
    · refine looseIn_of_shrinks (beside hrest) fun a ha => hne a ?_
      exact hp.symm.subset (List.mem_cons_of_mem y ha)

/-- **Restructuring the arguments of a join keeps its rows.** -/
theorem SteadyArgs.restructured_args (h : SteadyArgs c xs)
    (hall : List.Forall₂ (Restructures r) xs ys) (hne : ∀ y ∈ ys, y.isEmpty = false) :
    RestructuredIn r c (join xs vars) (join ys vars') where
  sourced := wellSourcedAll_of_shrinks (h.shrinks hall)
  width := joinWidth_le_of_shrinks (h.shrinks hall)
  free v hv := by
    rw [mem_freeVars_join] at hv ⊢
    exact mem_freeVarsAll_of_shrinks (h.shrinks hall) hv
  certain _ v hv := by
    obtain ⟨x, hx, hv⟩ := mem_certainInJoin.1 hv
    obtain ⟨y, hy, hxy⟩ := exists_mem_right_of_forall₂ (h.shrinks hall) hx
    exact mem_certainInJoin.2 ⟨y, hy, hxy.certain (hne y hy) v hv⟩
  remains s hs := by
    obtain ⟨y, rfl, hs⟩ := mem_remains_join.1 hs
    cases h.shrinks hall with
    | cons hxy hnil =>
      cases hnil
      exact mem_remains_join.2 ⟨_, rfl, hxy.remains s hs⟩
  steady := steady_join_iff.2 (h.of_restructures hall hne)
  rows b hb := by
    rw [h.rows_join hb, (h.of_restructures hall hne).rows_join hb, h.map_rows hall hb]

/-- A join with an argument that has no solutions has none. -/
theorem SteadyArgs.rows_eq_zero (h : SteadyArgs c xs) (hall : List.Forall₂ (Restructures r) xs ys)
    (he : ys.any isEmpty = true) (hb : c.Admits b) : (join xs vars).rows r b = 0 := by
  obtain ⟨y, hy, he⟩ := List.any_eq_true.1 he
  have none : y.rows r b = 0 := by cases y <;> first | rfl | cases he
  rw [h.rows_join hb, ← h.map_rows hall hb, List.prod_eq_zero, mul_zero]
  exact none ▸ List.mem_map_of_mem hy

theorem wellSourced_unionOf (h : ∀ a ∈ args, a.WellSourced r) : (unionOf args).WellSourced r := by
  rcases args with _ | ⟨a, _ | ⟨a', rest⟩⟩
  · trivial
  · exact h a List.mem_cons_self
  · exact wellSourcedAll_iff.2 h

theorem width_unionOf_le (args : List Plan) : (unionOf args).width r ≤ unionWidth r args := by
  rcases args with _ | ⟨a, _ | ⟨a', rest⟩⟩
  · exact le_rfl
  · exact Nat.le_add_right ..
  · exact le_rfl

theorem mem_freeVars_unionOf : v ∈ (unionOf args).freeVars ↔ v ∈ freeVarsAll args := by
  rcases args with _ | ⟨a, _ | ⟨a', rest⟩⟩
  · simp [unionOf, freeVars, freeVarsAll]
  · simp [unionOf, freeVarsAll]
  · exact List.mem_eraseDups

theorem mem_certainVars_unionOf (h : (unionOf args).isEmpty = false) :
    v ∈ (unionOf args).certainVars ↔ ∀ a ∈ args, v ∈ a.certainVars := by
  rcases args with _ | ⟨a, _ | ⟨a', rest⟩⟩
  · cases h
  · simp [unionOf]
  · refine mem_certainInUnion.trans ?_
    simp

theorem mem_remains_unionOf {s : Statement} :
    s ∈ (unionOf args).remains ↔ ∃ a ∈ args, s ∈ a.remains := by
  rcases args with _ | ⟨a, _ | ⟨a', rest⟩⟩
  · simp [unionOf, remains]
  · simp [unionOf]
  · exact mem_remainsAll

theorem steady_unionOf (h : ∀ a ∈ args, a.Steady c) : (unionOf args).Steady c := by
  rcases args with _ | ⟨a, _ | ⟨a', rest⟩⟩
  · exact .empty
  · exact h a List.mem_cons_self
  · exact .union h

theorem rows_unionOf (args : List Plan) : (unionOf args).rows r b = unionRows r args b := by
  rcases args with _ | ⟨a, _ | ⟨a', rest⟩⟩
  · rfl
  · exact (add_zero _).symm
  · rfl

/-- Arguments of a union without solutions may go. -/
theorem unionRows_filter (args : List Plan) (b : Bindings) :
    unionRows r (args.filter fun a => !a.isEmpty) b = unionRows r args b := by
  induction args with
  | nil => rfl
  | cons a rest ih =>
    cases he : a.isEmpty with
    | true =>
      have none : a.rows r b = 0 := by cases a <;> first | rfl | cases he
      rw [List.filter_cons_of_neg (by simp [he]), ih, unionRows, none, zero_add]
    | false => rw [List.filter_cons_of_pos (by simp [he]), unionRows, unionRows, ih]

theorem unionWidth_filter_le (keep : Plan → Bool) (args : List Plan) :
    unionWidth r (args.filter keep) ≤ unionWidth r args := by
  induction args with
  | nil => exact le_rfl
  | cons a rest ih =>
    rw [List.filter_cons]
    split
    · exact Nat.add_le_add_left ih _
    · exact ih.trans (Nat.le_add_left ..)

theorem unionWidth_le_of_shrinks (h : List.Forall₂ (Shrinks r) xs ys) :
    unionWidth r ys ≤ unionWidth r xs := by
  induction h with
  | nil => exact le_rfl
  | cons hxy _ ih => exact Nat.add_le_add hxy.width ih

/-- **Restructuring the arguments of a union and pruning it keeps its rows.** -/
theorem restructured_union (h : ∀ a ∈ xs, a.Steady c)
    (hall : List.Forall₂ (Restructures r) xs ys) :
    RestructuredIn r c (union xs) (unionOf (ys.filter fun a => !a.isEmpty)) := by
  have shrinks : List.Forall₂ (Shrinks r) xs ys :=
    shrinks_of_restructures hall fun a ha => ⟨c, h a ha⟩
  have kept : ∀ {y}, y ∈ ys.filter (fun a => !a.isEmpty) → y ∈ ys ∧ y.isEmpty = false := by
    simp [List.mem_filter]
  refine ⟨⟨fun hw => ?_, ?_, fun v hv => ?_, fun he v hv => ?_, fun s hs => ?_⟩, ?_, fun b hb => ?_⟩
  · exact wellSourced_unionOf fun y hy =>
      wellSourcedAll_iff.1 (wellSourcedAll_of_shrinks shrinks hw) y (kept hy).1
  · exact (width_unionOf_le _).trans
      ((unionWidth_filter_le _ ys).trans (unionWidth_le_of_shrinks shrinks))
  · refine List.mem_eraseDups.2 (mem_freeVarsAll_of_shrinks shrinks ?_)
    obtain ⟨y, hy, hv⟩ := mem_freeVarsAll.1 (mem_freeVars_unionOf.1 hv)
    exact mem_freeVarsAll.2 ⟨y, (kept hy).1, hv⟩
  · refine (mem_certainVars_unionOf he).2 fun y hy => ?_
    obtain ⟨x, hx, hxy⟩ := exists_mem_left_of_forall₂ shrinks (kept hy).1
    exact hxy.certain (kept hy).2 v ((mem_certainInUnion.1 hv).2 x hx)
  · obtain ⟨y, hy, hs⟩ := mem_remains_unionOf.1 hs
    obtain ⟨x, hx, hxy⟩ := exists_mem_left_of_forall₂ shrinks (kept hy).1
    exact mem_remainsAll.2 ⟨x, hx, hxy.remains s hs⟩
  · refine steady_unionOf fun y hy => ?_
    obtain ⟨x, hx, hxy⟩ := exists_mem_left_of_forall₂ hall (kept hy).1
    exact (hxy c (h x hx)).steady
  · rw [rows_unionOf, unionRows_filter, rows, unionRows_eq_sum, unionRows_eq_sum,
      map_rows_of_restructures hall fun a ha => ⟨c, h a ha, hb⟩]

end Pointwise

/-! ### Attaching sources -/

mutual

/-- The plan with sources written into its statements where they stand. -/
def withSources (sources : Nat → List Source) : Plan → Plan
  | statement s => statement { s with sources := sources s.id }
  | join args vars => join (withSourcesAll sources args) vars
  | union args => union (withSourcesAll sources args)
  | leftJoin left right condition =>
    leftJoin (left.withSources sources) (right.withSources sources) condition
  | filter condition a => filter condition (a.withSources sources)
  | project vars inserted a => project vars inserted (a.withSources sources)
  | slice offset limit a => slice offset limit (a.withSources sources)
  | distinct a => distinct (a.withSources sources)
  | group g => group g
  | service s => service s
  | independent members => independent members
  | passThrough endpoint query => passThrough endpoint query
  | empty => empty

/-- The plans with sources. -/
def withSourcesAll (sources : Nat → List Source) : List Plan → List Plan
  | [] => []
  | a :: rest => a.withSources sources :: withSourcesAll sources rest

end

theorem run_bind {σ α β : Type} (x : StateM σ α) (f : α → StateM σ β) (s : σ) :
    (x >>= f).run s = (f (x.run s).1).run (x.run s).2 :=
  rfl

theorem run_ite {σ α : Type} (p : Prop) [Decidable p] (x y : StateM σ α) (s : σ) :
    (if p then x else y).run s = if p then x.run s else y.run s :=
  apply_ite (fun w : StateM σ α => w.run s) p x y

/-- The plan that attaching sources makes, with groups numbered from a number on. -/
def attached (sources : Nat → List Source) (n : Nat) (p : Plan) : Plan :=
  ((p.attach sources).run n).1

section Attach

variable {sources : Nat → List Source} {n : Nat}

theorem attached_join : attached sources n (join args vars) =
    if ((attachAll sources args).run n).1.any isEmpty then empty
    else joinOf (groupIndependent (orderArgs [] (groupExclusive ((attachAll sources args).run n).2
      ((attachAll sources args).run n).1).1)) := by
  rw [attached, attach, run_bind]
  split <;> rfl

theorem attached_leftJoin {left right : Plan} {condition : Option Expr} :
    attached sources n (leftJoin left right condition) =
      if (attached sources n left).isEmpty then empty
      else if (attached sources ((left.attach sources).run n).2 right).isEmpty then
        attached sources n left
      else leftJoin (attached sources n left)
        (attached sources ((left.attach sources).run n).2 right) condition := by
  rw [attached, attach, run_bind, run_ite]
  split
  · next h => exact (if_pos h).symm
  · next h =>
    rw [run_bind, run_ite]
    refine Eq.trans ?_ (if_neg h).symm
    split
    · next h' => exact (if_pos h').symm
    · next h' => exact (if_neg h').symm

/-! ### Operators -/

theorem eq_empty_of_isEmpty (h : p.isEmpty = true) : p = empty := by
  cases p <;> first | rfl | cases h

theorem rows_eq_zero_of_isEmpty (h : p.isEmpty = true) (b : Bindings) : p.rows r b = 0 := by
  rw [eq_empty_of_isEmpty h]
  rfl

theorem orEmpty_of_not_isEmpty (wrap : Plan → Plan) (h : p.isEmpty = false) :
    p.orEmpty wrap = wrap p := by
  cases p <;> first | rfl | cases h

/-- No solutions are left of a plan that has none. -/
theorem restructuredIn_empty (h : ∀ b, c.Admits b → p.rows r b = 0) :
    RestructuredIn r c p empty where
  sourced _ := trivial
  width := width_pos p
  free _ hv := absurd hv List.not_mem_nil
  certain he := absurd he (by simp [isEmpty])
  remains _ hs := absurd hs List.not_mem_nil
  steady := .empty
  rows b hb := (h b hb).symm

/-- A statement without sources has no solutions. -/
theorem restructured_statement {s : Statement} (hs : s.Plain) :
    RestructuredIn r c (statement { s with sources := sources s.id })
      (attached sources n (statement s)) := by
  have plain : Statement.Plain { s with sources := sources s.id } := ⟨hs.1, hs.2, hs.3⟩
  rw [attached, attach]
  split
  · next hnone =>
    refine restructuredIn_empty fun b _ => ?_
    show Statement.wantedRows r _ b = 0
    rw [Statement.wantedRows_of_localVars_eq_nil plain.localVars,
      Statement.rows_of_filter_eq_none plain.filter]
    simp [hnone, Registry.triplesOf, Registry.membersAt, TriplePattern.solutions]
  · exact .refl (.statement plain)

theorem restructured_filter {e : Expr} (h : RestructuredIn r c p p')
    (he : ∀ v ∈ e.vars, c.Settles p v) :
    RestructuredIn r c (filter e p) (p'.orEmpty (filter e)) := by
  cases hempty : p'.isEmpty with
  | true =>
    rw [eq_empty_of_isEmpty hempty]
    refine restructuredIn_empty fun b hb => ?_
    rw [rows, ← h.rows b hb, rows_eq_zero_of_isEmpty hempty, Multiset.filter_zero]
  | false =>
    rw [orEmpty_of_not_isEmpty _ hempty]
    refine ⟨⟨h.sourced, h.width, h.free, fun _ => h.certain hempty, fun _ => id⟩, ?_, fun b hb => ?_⟩
    · exact .filter h.steady fun v hv => (he v hv).mono (.refl c) (h.certain hempty v)
    · rw [rows, rows, h.rows b hb]

theorem restructured_distinct (h : RestructuredIn r c p p')
    (hv : ∀ v ∈ p.freeVars, c.Settles p v) :
    RestructuredIn r c (distinct p) (p'.orEmpty distinct) := by
  cases hempty : p'.isEmpty with
  | true =>
    rw [eq_empty_of_isEmpty hempty]
    refine restructuredIn_empty fun b hb => ?_
    rw [rows, ← h.rows b hb, rows_eq_zero_of_isEmpty hempty, Multiset.dedup_zero]
  | false =>
    rw [orEmpty_of_not_isEmpty _ hempty]
    refine ⟨⟨h.sourced, h.width, h.free, fun _ => h.certain hempty, fun _ => id⟩, ?_, fun b hb => ?_⟩
    · exact .distinct h.steady fun v hf => (hv v (h.free v hf)).mono (.refl c) (h.certain hempty v)
    · rw [rows, rows, h.rows b hb]

theorem restructured_leftJoin {left left' right right' : Plan} {condition : Option Expr}
    (hs : left.Steady c) (hl : RestructuredIn r c left left')
    (hr : RestructuredIn r (c.behind left) right right')
    (hv : ∀ v, v ∈ right.freeVars ∨ v ∈ Expr.varsOf condition → c.Settles left v) :
    RestructuredIn r c (leftJoin left right condition)
      (if left'.isEmpty then empty else if right'.isEmpty then left'
        else leftJoin left' right' condition) := by
  have optional : ∀ b, c.Admits b → (left'.rows r b).bind
      (fun x => Feed.optionalRows (Expr.acceptsAll condition) x (right'.rows r x)) =
        (leftJoin left right condition).rows r b := by
    intro b hb
    rw [rows, hl.rows b hb]
    refine Multiset.bind_congr fun x hx => ?_
    rw [hr.rows x (hb.behind hs hx)]
  split
  · next he =>
    refine restructuredIn_empty fun b hb => ?_
    rw [← optional b hb, rows_eq_zero_of_isEmpty he, Multiset.zero_bind]
  next hl' =>
  rw [Bool.not_eq_true] at hl'
  split
  · next he =>
    refine ⟨⟨fun hw => hl.sourced hw.1, ?_, fun v hf => ?_, hl.certain, hl.remains⟩, hl.steady,
      fun b hb => ?_⟩
    · exact hl.width.trans (Nat.le_mul_of_pos_right _ (width_pos right))
    · exact List.mem_eraseDups.2 (List.mem_append_left _ (hl.free v hf))
    · rw [← optional b hb, eq_empty_of_isEmpty he]
      show _ = (left'.rows r b).bind fun x => {x}
      rw [Multiset.bind_singleton, Multiset.map_id']
  · next hr' =>
    rw [Bool.not_eq_true] at hr'
    refine ⟨⟨fun hw => ⟨hl.sourced hw.1, hr.sourced hw.2⟩, Nat.mul_le_mul hl.width hr.width,
      fun v hf => ?_, fun _ => hl.certain hl', hl.remains⟩, ?_, optional⟩
    · refine List.mem_eraseDups.2 (List.mem_append.2 ?_)
      exact (List.mem_append.1 (List.mem_eraseDups.1 hf)).imp (hl.free v) (hr.free v)
    · refine .leftJoin hl.steady
        (hr.steady.mono ((Context.Within.refl c).behind hl.free (hl.certain hl'))) fun v hm => ?_
      exact (hv v (hm.imp_left (hr.free v))).mono (.refl c) (hl.certain hl' v)

theorem restructured_join {xs ys : List Plan} (h : SteadyArgs c xs)
    (hall : List.Forall₂ (Restructures r) xs ys) (n : Nat) :
    RestructuredIn r c (join xs vars) (if ys.any isEmpty then empty
      else joinOf (groupIndependent (orderArgs [] (groupExclusive n ys).1))) := by
  split
  · next he => exact restructuredIn_empty fun b hb => h.rows_eq_zero hall he hb
  · next hne =>
    have nonempty : ∀ y ∈ ys, y.isEmpty = false := by simpa using hne
    have args : RestructuredIn r c (join xs vars) (join ys []) := h.restructured_args hall nonempty
    have regrouped : RestructuredIn r c (join ys []) (join _ []) :=
      (steady_join_iff.1 args.steady).restructured_regroups (regroups_join n ys)
    exact args.trans (regrouped.trans (steady_join_iff.1 regrouped.steady).restructured_joinOf rfl)
      rfl

/-! ### Plans -/

mutual

/-- **Attaching sources keeps the rows of a steady plan**, and keeps it steady. -/
theorem attach_restructured (sources : Nat → List Source) : ∀ (p : Plan) (n : Nat) (c : Context),
    (p.withSources sources).Steady c →
      RestructuredIn r c (p.withSources sources) (attached sources n p)
  | statement s, n, c, h => by
    cases h with
    | statement hs => exact restructured_statement ⟨hs.1, hs.2, hs.3⟩
  | group g, n, c, h => .refl h
  | independent members, n, c, h => .refl h
  | empty, n, c, h => .refl h
  | join args vars, n, c, h => by
    rw [attached_join]
    exact restructured_join (steady_join_iff.1 h) (attachAll_restructures sources args n) _
  | union args, n, c, h => by
    cases h with
    | union hs => exact restructured_union hs (attachAll_restructures sources args n)
  | leftJoin left right condition, n, c, h => by
    rw [attached_leftJoin]
    cases h with
    | leftJoin hl hr hv =>
      exact restructured_leftJoin hl (attach_restructured sources left n c hl)
        (attach_restructured sources right _ _ hr) hv
  | filter e a, n, c, h => by
    cases h with
    | filter ha he => exact restructured_filter (attach_restructured sources a n c ha) he
  | distinct a, n, c, h => by
    cases h with
    | distinct ha hv => exact restructured_distinct (attach_restructured sources a n c ha) hv
  | project .., _, _, h => nomatch h
  | slice .., _, _, h => nomatch h
  | service _, _, _, h => nomatch h
  | passThrough .., _, _, h => nomatch h

theorem attachAll_restructures (sources : Nat → List Source) : ∀ (args : List Plan) (n : Nat),
    List.Forall₂ (Restructures r) (withSourcesAll sources args)
      ((attachAll sources args).run n).1
  | [], _ => .nil
  | a :: rest, n =>
    .cons (attach_restructured sources a n)
      (attachAll_restructures sources rest ((a.attach sources).run n).2)

end

end Attach

/-- **Restructuring around sources keeps the answer** of every query whose plan is steady: evaluation
yields the same rows as for the plan with the sources in place. -/
theorem attached_agrees_in_place {env : Environment} (hr : env.registry.Sound) (a : Algebra)
    (sources : Nat → List Source) (n : Nat)
    (hs : ((build a).1.withSources sources).Steady .start)
    (hw : ((build a).1.withSources sources).WellSourced env.registry)
    (hf : ((build a).1.withSources sources).Fits env.registry env.config.boundJoinBlockSize) :
    ∃ M, (env.evaluate ((build a).1.withSources sources) ∅).Yields env.registry.answers M ∧
      (env.evaluate (attached sources n (build a).1) ∅).Yields env.registry.answers M := by
  have kept := attach_restructured (r := env.registry) sources (build a).1 n .start hs
  refine ⟨_, (hs.evaluate_comes hr hw hf).yields, ?_⟩
  rw [← kept.rows ∅ Context.start_admits]
  exact (kept.steady.evaluate_comes hr (kept.sourced hw) (hf.mono kept.width)).yields

/-! ### An optional part that other arguments reach into -/

/-- A federation of one member that holds three triples on one subject. -/
def threeFacts : Environment :=
  ⟨.single [⟨.iri "s", .iri "p", .iri "o"⟩, ⟨.iri "s", .iri "q", .iri "c"⟩,
    ⟨.iri "s", .iri "r", .iri "t"⟩], {}⟩

/-- All facts of subjects that are marked, and optionally a term for each subject. -/
def factsWith (name : String) : Algebra :=
  .join (.pattern ⟨.var "s", .var "p", .var "v"⟩)
    (.leftJoin (.pattern ⟨.var "s", .const (.iri "q"), .const (.iri "c")⟩)
      (.pattern ⟨.var "s", .const (.iri "r"), .var name⟩) none)

/-- Everything comes from the only member. -/
def fromOnlySource (_ : Nat) : List Source := [Registry.onlySource]

theorem threeFacts_sound : threeFacts.registry.Sound := Registry.single_sound (by decide)

theorem perm_pair_cases {α : Type} {x y a : α} {rest : List α} (h : [x, y].Perm (a :: rest)) :
    a = x ∧ rest = [y] ∨ a = y ∧ rest = [x] := by
  rcases perm_cons_cases h with ⟨ha, hp⟩ | ⟨zs, hp, hrest⟩
  · exact .inl ⟨ha, List.perm_singleton.1 hp.symm⟩
  · obtain ⟨rfl, rfl⟩ : a = y ∧ zs = [] := by simpa using List.perm_singleton.1 hp.symm
    exact .inr ⟨rfl, List.perm_singleton.1 hrest⟩

theorem not_looseIn_statement (s : Statement) : ¬ LooseIn [statement s] v := by
  rintro ⟨a, ha, hf, hc⟩
  obtain rfl := List.mem_singleton.1 ha
  exact hc hf

theorem factsWith_steady : ((build (factsWith "t")).1.withSources fromOnlySource).Steady .start := by
  refine .join (List.cons_ne_nil _ _) (fun a rest hp => ?_) fun a rest hp s hs => ?_
  all_goals rcases perm_pair_cases hp with ⟨rfl, rfl⟩ | ⟨rfl, rfl⟩
  · exact .statement ⟨rfl, rfl, rfl⟩
  · refine .leftJoin (.statement ⟨rfl, rfl, rfl⟩) (.statement ⟨rfl, rfl, rfl⟩) fun v hv ho => .inr ?_
    have apart : ∀ v ∈ ["s", "t"], v ∈ ["s", "p", "v"] → v ∈ ["s"] := by decide
    exact apart v (hv.resolve_right List.not_mem_nil) ho
  · obtain rfl := List.mem_singleton.1 hs
    refine .inr fun v hv ⟨a, ha, hf, hc⟩ => absurd ?_ hc
    obtain rfl := List.mem_singleton.1 ha
    have apart : ∀ v ∈ ["s", "p", "v"], v ∈ ["s", "t"] → v ∈ ["s"] := by decide
    exact apart v hv hf
  · exact .inr fun v _ hl => absurd hl (not_looseIn_statement _)

/-- An optional part whose own variable no other argument mentions may be moved. -/
theorem attached_agrees_where_apart :
    ∃ M, (threeFacts.evaluate ((build (factsWith "t")).1.withSources fromOnlySource) ∅).Yields
        threeFacts.registry.answers M ∧
      (threeFacts.evaluate (attached fromOnlySource 3 (build (factsWith "t")).1) ∅).Yields
        threeFacts.registry.answers M := by
  have registers := Registry.single_registers [⟨.iri "s", .iri "p", .iri "o"⟩,
    ⟨.iri "s", .iri "q", .iri "c"⟩, ⟨.iri "s", .iri "r", .iri "t"⟩]
  refine attached_agrees_in_place threeFacts_sound (factsWith "t") fromOnlySource 3
    factsWith_steady ?_ (.inl (by decide))
  exact ⟨⟨registers, by decide⟩, ⟨⟨registers, by decide⟩, ⟨registers, by decide⟩⟩, trivial⟩

/-- **An optional part that shares a variable with another argument spoils the answer**: the argument
comes first as the query has it, and the optional part comes first as the plan has it. -/
theorem attached_disagrees :
    ∃ M N, (threeFacts.evaluate ((build (factsWith "v")).1.withSources fromOnlySource) ∅).Yields
        threeFacts.registry.answers M ∧
      (threeFacts.evaluate (attached fromOnlySource 3 (build (factsWith "v")).1) ∅).Yields
        threeFacts.registry.answers N ∧ M ≠ N := by
  refine ⟨↑([.ofList [("p", .iri "p"), ("s", .iri "s"), ("v", .iri "o")],
      .ofList [("p", .iri "q"), ("s", .iri "s"), ("v", .iri "c")],
      .ofList [("p", .iri "r"), ("s", .iri "s"), ("v", .iri "t")]] : List Bindings),
    ↑([.ofList [("p", .iri "r"), ("s", .iri "s"), ("v", .iri "t")]] : List Bindings),
    ⟨_, by decide +kernel, rfl⟩, ⟨_, by decide +kernel, rfl⟩, fun h => ?_⟩
  simpa using congrArg Multiset.card h

end FederatedSparql.Plan
