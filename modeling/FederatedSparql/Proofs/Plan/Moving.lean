import FederatedSparql.Proofs.Plan.Placing

/-!
Filters moved towards their statements.

Moving the filters of a plan splits them into conjuncts, places some of these and leaves the others
in a filter where they were (`Plan.Moved`).

* `Plan.moved_pushFilters`: that is all that moving filters does.
* `Plan.Moved.rows_eq`: the plan has the same rows as before.
-/

namespace FederatedSparql.Plan

variable {r : Registry} {b c : Bindings} {e : Expr} {es : List Expr} {p q : Plan}

/-! ### Several conditions -/

/-- The second plan is the first one with several conditions placed, one after another. -/
inductive AddedAll : List Expr → Plan → Plan → Prop
  | nil (p : Plan) : AddedAll [] p p
  | cons {e : Expr} {es : List Expr} {p p' q : Plan} (h : Added e p p') (hs : AddedAll es p' q) :
    AddedAll (e :: es) p q

/-- A plan below a filter with all of some conditions, if there are any. -/
def under (residual : List Expr) (a : Plan) : Plan :=
  match Expr.andAll residual with
  | some condition => filter condition a
  | none => a

/-- A plan below a filter has those of its rows that meet all conditions of it. -/
theorem rows_under (residual : List Expr) (a : Plan) (b : Bindings) :
    (under residual a).rows r b =
      (a.rows r b).filter fun c => (residual.all fun e => e.accepts c) = true := by
  simp only [← Expr.acceptsAll_andAll]
  unfold under
  cases Expr.andAll residual with
  | none => exact (Multiset.filter_eq_self.2 fun _ _ => rfl).symm
  | some condition => rfl

namespace AddedAll

theorem pushable (h : AddedAll es p q) (hp : p.Pushable r) : q.Pushable r := by
  induction h with
  | nil => exact hp
  | cons h _ ih => exact ih (h.pushable hp)

theorem width_eq (h : AddedAll es p q) : q.width r = p.width r := by
  induction h with
  | nil => rfl
  | cons h _ ih => rw [ih, h.width_eq]

theorem rows_eq (h : AddedAll es p q) (hp : p.Pushable r) (b : Bindings) :
    q.rows r b = (p.rows r b).filter fun c => (es.all fun e => e.accepts c) = true := by
  induction h with
  | nil => exact (Multiset.filter_eq_self.2 fun _ _ => rfl).symm
  | cons h _ ih =>
    rw [ih (h.pushable hp), (h.rows hp b).1, Multiset.filter_filter]
    refine Multiset.filter_congr fun c _ => ?_
    rw [List.all_cons, Bool.and_eq_true, and_comm]

/-- What a filter over a plan comes to when some of its conjuncts are placed in the plan. -/
theorem rows_under {placed residual : List Expr} (h : AddedAll placed p q) (hp : p.Pushable r)
    (hes : es.Perm (placed ++ residual)) (b : Bindings) :
    (under residual q).rows r b = (p.rows r b).filter fun c => es.all (·.accepts c) = true := by
  rw [Plan.rows_under, h.rows_eq hp, Multiset.filter_filter]
  refine Multiset.filter_congr fun c _ => ?_
  rw [hes.all_eq, List.all_append, Bool.and_eq_true, and_comm]

end AddedAll

/-- What is done with one condition: it is placed or kept. -/
def placeOrKeep (state : Plan × List Expr) (e : Expr) : Plan × List Expr :=
  if e.vars.isEmpty || !e.isPushable then (state.1, state.2 ++ [e])
  else
    match state.1.place? e with
    | some a => (a, state.2)
    | none => (state.1, state.2 ++ [e])

theorem placeAll_eq_foldl (es : List Expr) (a : Plan) :
    placeAll es a = es.foldl placeOrKeep (a, []) := rfl

theorem placeOrKeep_cases (a : Plan) (kept : List Expr) (e : Expr) :
    placeOrKeep (a, kept) e = (a, kept ++ [e]) ∨
      ∃ a', Added e a a' ∧ placeOrKeep (a, kept) e = (a', kept) := by
  unfold placeOrKeep
  split
  · exact .inl rfl
  · split
    · next a' ha => exact .inr ⟨a', added_of_place? a ha, rfl⟩
    · exact .inl rfl

theorem exists_of_foldl_placeOrKeep (es kept : List Expr) (a : Plan) :
    ∃ placed residual, AddedAll placed a (es.foldl placeOrKeep (a, kept)).1 ∧
      (es.foldl placeOrKeep (a, kept)).2 = kept ++ residual ∧ es.Perm (placed ++ residual) := by
  induction es generalizing kept a with
  | nil => exact ⟨[], [], .nil a, (List.append_nil kept).symm, .refl _⟩
  | cons e es ih =>
    rw [List.foldl_cons]
    rcases placeOrKeep_cases a kept e with hkeep | ⟨a', ha, hplace⟩
    · obtain ⟨placed, residual, hadd, hres, hperm⟩ := ih (kept ++ [e]) a
      rw [hkeep]
      refine ⟨placed, e :: residual, hadd, by rw [hres, List.append_assoc]; rfl, ?_⟩
      exact (hperm.cons e).trans List.perm_middle.symm
    · obtain ⟨placed, residual, hadd, hres, hperm⟩ := ih kept a'
      rw [hplace]
      exact ⟨e :: placed, residual, .cons ha hadd, hres, hperm.cons e⟩

/-- **Each of several conditions is placed or kept.** -/
theorem exists_of_placeAll (es : List Expr) (a : Plan) :
    ∃ placed, AddedAll placed a (placeAll es a).1 ∧ es.Perm (placed ++ (placeAll es a).2) := by
  obtain ⟨placed, residual, hadd, hres, hperm⟩ := exists_of_foldl_placeOrKeep es [] a
  rw [List.nil_append] at hres
  rw [placeAll_eq_foldl, hres]
  exact ⟨placed, hadd, hperm⟩

/-! ### Moving filters -/

/-- The second plan is the first one with conjuncts of filters placed. -/
inductive Moved : Plan → Plan → Prop
  | refl (p : Plan) : Moved p p
  | trans {p q s : Plan} (h : Moved p q) (h' : Moved q s) : Moved p s
  | place {condition : Expr} {placed residual : List Expr} {a a' : Plan}
    (h : AddedAll placed a a') (hc : condition.conjuncts.Perm (placed ++ residual)) :
    Moved (filter condition a) (under residual a')
  | join {pre post : List Plan} {vars : List String} {a a' : Plan} (h : Moved a a') :
    Moved (join (pre ++ a :: post) vars) (join (pre ++ a' :: post) vars)
  | filter {condition : Expr} {a a' : Plan} (h : Moved a a') :
    Moved (filter condition a) (filter condition a')
  | leftJoin {left left' right right' : Plan} {condition : Option Expr} (hl : Moved left left')
    (hr : Moved right right') :
    Moved (leftJoin left right condition) (leftJoin left' right' condition)

/-- Plans that are not empty. -/
theorem Conjunctive.isEmpty_eq (h : p.Conjunctive r) : p.isEmpty = false := by
  cases p with
  | empty => exact h.elim
  | _ => rfl

theorem pair_under (residual : List Expr) (a : Plan) (bound : Bindings) :
    (match Expr.andAll residual with
      | some condition => (filter condition a, bound)
      | none => (a, bound)) = (under residual a, bound) := by
  unfold under
  cases Expr.andAll residual <;> rfl

/-- A filter that may not fix variables places its conjuncts or keeps them. -/
theorem pushFilter_false (condition : Expr) {a : Plan} (ha : a.isEmpty = false) :
    ∃ placed residual a', AddedAll placed a a' ∧ condition.conjuncts.Perm (placed ++ residual) ∧
      pushFilter condition a false = (under residual a', ∅) := by
  have same : condition.conjuncts.map (·.substitute ∅) = condition.conjuncts := by
    simp only [Expr.substitute_empty, List.map_id']
  obtain ⟨placed, hadd, hperm⟩ := exists_of_placeAll condition.conjuncts a
  refine ⟨placed, _, _, hadd, hperm, ?_⟩
  rw [← same]
  unfold pushFilter
  rw [if_neg (by simp [ha])]
  exact pair_under ..

theorem moved_pushFilter (condition : Expr) {a : Plan} (ha : a.isEmpty = false) :
    Moved (filter condition a) (pushFilter condition a false).1 := by
  obtain ⟨placed, residual, a', hadd, hperm, heq⟩ := pushFilter_false condition ha
  rw [heq]
  exact .place hadd hperm

namespace Moved

theorem joinAll {args args' : List Plan} (h : List.Forall₂ Moved args args') (pre : List Plan)
    (vars : List String) : Moved (Plan.join (pre ++ args) vars) (Plan.join (pre ++ args') vars) := by
  induction h generalizing pre with
  | nil => exact .refl _
  | @cons a a' args args' ha _ ih =>
    have rest := ih (pre ++ [a'])
    rw [List.append_assoc, List.append_assoc] at rest
    exact .trans (.join ha) rest

/-- What conditions are placed in keeps its shape. -/
theorem conjunctive_of_addedAll (h : AddedAll es p q) (hp : p.Conjunctive r) :
    q.Conjunctive r := by
  induction h with
  | nil => exact hp
  | cons h _ ih => exact ih (h.conjunctive hp)

theorem conjunctive (h : Moved p q) : p.Conjunctive r → q.Conjunctive r := by
  induction h with
  | refl _ => exact id
  | trans _ _ ih ih' => exact ih' ∘ ih
  | @place condition placed residual a a' h _ =>
    intro ha
    have ha' : a'.Conjunctive r := conjunctive_of_addedAll h ha
    unfold under
    split
    · exact ha'
    · exact ha'
  | join _ ih =>
    intro hargs
    obtain ⟨hpre, ha, hpost⟩ := conjunctiveAll_append.1 hargs
    exact conjunctiveAll_append.2 ⟨hpre, ih ha, hpost⟩
  | filter _ ih => exact ih
  | leftJoin _ _ => exact False.elim

theorem pushable (h : Moved p q) : p.Pushable r → q.Pushable r := by
  induction h with
  | refl _ => exact id
  | trans _ _ ih ih' => exact ih' ∘ ih
  | place h hc =>
    intro hp
    cases hp with
    | conjunctive hp => exact .conjunctive ((Moved.place h hc).conjunctive hp)
  | join h =>
    intro hp
    cases hp with
    | conjunctive hp => exact .conjunctive ((Moved.join h).conjunctive hp)
  | filter h =>
    intro hp
    cases hp with
    | conjunctive hp => exact .conjunctive ((Moved.filter h).conjunctive hp)
  | leftJoin _ hr ihl =>
    intro hp
    cases hp with
    | conjunctive hp => exact hp.elim
    | leftJoin hl hright => exact .leftJoin (ihl hl) (hr.conjunctive hright)

theorem width_eq (h : Moved p q) : q.width r = p.width r := by
  induction h with
  | refl _ => rfl
  | trans _ _ ih ih' => rw [ih', ih]
  | @place condition placed residual a a' h _ =>
    have under_eq : (under residual a').width r = a'.width r := by
      unfold under
      split <;> rfl
    rw [under_eq, h.width_eq]
    rfl
  | join _ ih => simp only [width, Added.joinWidth_append, joinWidth, ih]
  | filter _ ih => exact ih
  | leftJoin _ _ ihl ihr => simp only [width, ihl, ihr]

/-- **A plan with filters moved has the same rows as before.** -/
theorem rows_eq (h : Moved p q) (hp : p.Pushable r) (b : Bindings) : q.rows r b = p.rows r b := by
  induction h generalizing b with
  | refl _ => rfl
  | trans h _ ih ih' => rw [ih' (h.pushable hp), ih hp]
  | @place condition placed residual a a' h hc =>
    cases hp with
    | conjunctive hp =>
      rw [h.rows_under (.conjunctive hp) hc, rows]
      refine Multiset.filter_congr fun c _ => ?_
      rw [Expr.accepts_eq_all_conjuncts]
  | @join pre post vars a a' h ih =>
    cases hp with
    | conjunctive hp =>
      have hp' : (Plan.join (pre ++ a' :: post) vars).Conjunctive r := (Moved.join h).conjunctive hp
      have ha := (conjunctiveAll_append.1 hp).2.1
      rw [rows_join hp, rows_join hp', restRows_append, restRows_append,
        restRows_cons_of_conjunctive ha, restRows_cons_of_conjunctive (h.conjunctive ha)]
      exact congrArg _ (Multiset.bind_congr fun x _ => ih (.conjunctive ha) x)
  | filter _ ih =>
    cases hp with
    | conjunctive hp => exact congrArg _ (ih (.conjunctive hp) b)
  | @leftJoin left left' right right' condition _ _ ihl ihr =>
    cases hp with
    | conjunctive hp => exact hp.elim
    | leftJoin hl hr =>
      rw [rows, rows, ihl hl]
      refine Multiset.bind_congr fun x _ => ?_
      rw [ihr (.conjunctive hr)]

end Moved

mutual

theorem moved_of_conjunctive : ∀ {p : Plan}, p.Conjunctive r → Moved p p.pushFilters
  | statement s, _ => .refl _
  | group g, _ => .refl _
  | independent _, _ => .refl _
  | join args vars, (h : ConjunctiveAll r args) => .joinAll (moved_of_conjunctiveAll h) [] vars
  | filter condition a, h => by
    have ha : a.Conjunctive r := h
    have moved := moved_of_conjunctive ha
    exact .trans (.filter moved) (moved_pushFilter condition (moved.conjunctive ha).isEmpty_eq)

theorem moved_of_conjunctiveAll :
    ∀ {args : List Plan}, ConjunctiveAll r args → List.Forall₂ Moved args (pushFiltersAll args)
  | [], _ => .nil
  | _ :: _, h => .cons (moved_of_conjunctive h.1) (moved_of_conjunctiveAll h.2)

end

/-- **Moving the filters of a plan places some of their conjuncts**, and does nothing else. -/
theorem moved_pushFilters (hp : p.Pushable r) : Moved p p.pushFilters := by
  induction hp with
  | conjunctive hp => exact moved_of_conjunctive hp
  | leftJoin _ hr ih => exact .leftJoin ih (moved_of_conjunctive hr)

end FederatedSparql.Plan
