import FederatedSparql.Proofs.Plan.NestedFilters

/-!
Filters above plans of statements and groups, before and after they are moved.

Below a projection, equalities of a filter with a resource fix variables in the statements, and the
projection puts the resources back.  Terms for fixed variables are also put into the conditions of
filters inside the plan, even where the variable is not bound.

* `Plan.pushFilters_agrees_iff`: a filter alone may always be moved.  Below a projection the answer
  stays the same exactly if it does not depend on whether the terms are put into the filters inside
  the plan; it does not if each of them that mentions a fixed variable stands where that is bound.
* `Plan.pushFilters_disagrees`: a filter inside the plan that asks whether a variable is bound that is
  bound only later.
-/

namespace FederatedSparql

variable {r : Registry} {b c x β : Bindings} {v : String} {t : Term} {e : Expr}

/-! ### Putting terms back -/

namespace Plan

/-- Inserted terms take precedence over those that are there. -/
theorem get?_insertAll (a b : Bindings) (v : String) :
    (insertAll a b).get? v = (b.get? v).or (a.get? v) :=
  Bindings.get?_foldl_insert b.ascending a v

theorem insertAll_empty (b : Bindings) : insertAll ∅ b = b := by
  refine Bindings.ext_get? fun v => ?_
  rw [get?_insertAll, Bindings.get?_empty, Option.or_none]

/-- Putting fixed terms back into a row restores it. -/
theorem insertAll_restrict (h : β.Extends c) :
    insertAll (c.restrict fun v => !β.contains v) β = c := by
  refine Bindings.ext_get? fun v => ?_
  rw [get?_insertAll, Bindings.get?_restrict]
  cases hβ : β.get? v with
  | none => simp [Bindings.contains, hβ]
  | some t => simp [h v t hβ]

theorem projectOnto_eq (vars : List String) (inserted row : Bindings) :
    Environment.projectOnto vars inserted ∅ row = (insertAll row inserted).project vars := by
  rw [Environment.projectOnto, Bindings.empty_merge?, Option.getD_some]
  rfl

/-! ### Equalities that fix variables -/

/-- What is done with one conjunct: it fixes a variable or is kept. -/
def takeOrKeep (blocked reachable : List String) (state : Bindings × List Expr) (e : Expr) :
    Bindings × List Expr :=
  match e.resourceEquality? with
  | some (v, t) =>
    if !state.1.contains v && !blocked.contains v && reachable.contains v then
      (state.1.insert v t, state.2)
    else (state.1, state.2 ++ [e])
  | none => (state.1, state.2 ++ [e])

theorem takeEqualities_eq_foldl (blocked reachable : List String) (es : List Expr) :
    takeEqualities blocked reachable es = es.foldl (takeOrKeep blocked reachable) (∅, []) := rfl

theorem takeOrKeep_cases (blocked reachable : List String) (β : Bindings) (kept : List Expr)
    (e : Expr) :
    takeOrKeep blocked reachable (β, kept) e = (β, kept ++ [e]) ∨
      ∃ v t, e.resourceEquality? = some (v, t) ∧ β.get? v = none ∧ v ∉ blocked ∧ v ∈ reachable ∧
        takeOrKeep blocked reachable (β, kept) e = (β.insert v t, kept) := by
  unfold takeOrKeep
  split
  · next v t he =>
    split
    · next hv =>
      simp only [Bool.and_eq_true, Bool.not_eq_true', List.contains_eq_mem, decide_eq_true_eq,
        decide_eq_false_iff_not] at hv
      exact .inr ⟨v, t, he, Bindings.contains_eq_false_iff.1 hv.1.1, hv.1.2, hv.2, rfl⟩
    · exact .inl rfl
  · exact .inl rfl

theorem extends_insert_iff (hv : β.get? v = none) :
    (β.insert v t).Extends c ↔ β.Extends c ∧ c.get? v = some t := by
  constructor
  · intro h
    refine ⟨fun w u hw => h w u ?_, h v t (by simp)⟩
    have hne : w ≠ v := by
      rintro rfl
      simp [hv] at hw
    simpa [hne] using hw
  · rintro ⟨hβ, hc⟩ w u hw
    rw [Bindings.get?_insert] at hw
    split at hw
    · next heq => simp_all
    · exact hβ w u hw

theorem foldl_takeOrKeep_spec (blocked reachable : List String) (es kept : List Expr)
    (β : Bindings) (hβ : ∀ v, β.contains v = true → v ∉ blocked ∧ v ∈ reachable) :
    (∀ v, (es.foldl (takeOrKeep blocked reachable) (β, kept)).1.contains v = true →
      v ∉ blocked ∧ v ∈ reachable) ∧
    ∀ c : Bindings, ((es.foldl (takeOrKeep blocked reachable) (β, kept)).1.Extends c ∧
      (es.foldl (takeOrKeep blocked reachable) (β, kept)).2.all (·.accepts c) = true ↔
        β.Extends c ∧ kept.all (·.accepts c) = true ∧ es.all (·.accepts c) = true) := by
  induction es generalizing β kept with
  | nil => exact ⟨hβ, fun c => by simp⟩
  | cons e es ih =>
    rw [List.foldl_cons]
    rcases takeOrKeep_cases blocked reachable β kept e with hkeep | ⟨v, t, he, hv, hb, hr, htake⟩
    · rw [hkeep]
      obtain ⟨hvars, hiff⟩ := ih (kept ++ [e]) β hβ
      refine ⟨hvars, fun c => ?_⟩
      rw [hiff]
      simp [and_assoc]
    · rw [htake]
      obtain ⟨hvars, hiff⟩ := ih kept (β.insert v t) fun w hw => by
        rw [Bindings.contains_iff] at hw
        obtain ⟨u, hu⟩ := hw
        rw [Bindings.get?_insert] at hu
        split at hu
        · next heq => exact heq ▸ ⟨hb, hr⟩
        · exact hβ w (Bindings.contains_iff.2 ⟨u, hu⟩)
      refine ⟨hvars, fun c => ?_⟩
      rw [hiff, extends_insert_iff hv, List.all_cons, Bool.and_eq_true,
        Expr.accepts_resourceEquality he]
      tauto

/-- The terms that a filter fixes for variables of the plan below it. -/
def fixedTerms (condition : Expr) (a : Plan) : Bindings :=
  (takeEqualities a.opaqueVars a.reachableVars condition.conjuncts).1

/-- The conjuncts of a filter that fix nothing. -/
def otherConjuncts (condition : Expr) (a : Plan) : List Expr :=
  (takeEqualities a.opaqueVars a.reachableVars condition.conjuncts).2

/-- Variables are fixed only if statements bind them and no opaque part mentions them. -/
theorem of_contains_fixedTerms {condition : Expr} {a : Plan}
    (h : (fixedTerms condition a).contains v = true) : v ∉ a.opaqueVars ∧ v ∈ a.reachableVars := by
  rw [fixedTerms, takeEqualities_eq_foldl] at h
  exact (foldl_takeOrKeep_spec a.opaqueVars a.reachableVars condition.conjuncts [] ∅ fun v hv => by
    simp [Bindings.contains] at hv).1 v h

/-- **A condition accepts the rows that have the terms it fixes and meet its other conjuncts.** -/
theorem accepts_iff_fixedTerms (condition : Expr) (a : Plan) (c : Bindings) :
    condition.accepts c = true ↔ (fixedTerms condition a).Extends c ∧
      (otherConjuncts condition a).all (·.accepts c) = true := by
  rw [fixedTerms, otherConjuncts, takeEqualities_eq_foldl, Expr.accepts_eq_all_conjuncts,
    (foldl_takeOrKeep_spec a.opaqueVars a.reachableVars condition.conjuncts [] ∅ fun v hv => by
      simp [Bindings.contains] at hv).2 c]
  simp [Bindings.Extends.empty c]

/-! ### Moving filters keeps what is fixed -/

theorem opaqueVarsAll_append (xs ys : List Plan) :
    opaqueVarsAll (xs ++ ys) = opaqueVarsAll xs ++ opaqueVarsAll ys := by
  induction xs with
  | nil => rfl
  | cons a xs ih => rw [List.cons_append, opaqueVarsAll, opaqueVarsAll, ih, List.append_assoc]

theorem reachableVarsAll_append (xs ys : List Plan) :
    reachableVarsAll (xs ++ ys) = reachableVarsAll xs ++ reachableVarsAll ys := by
  induction xs with
  | nil => rfl
  | cons a xs ih =>
    rw [List.cons_append, reachableVarsAll, reachableVarsAll, ih, List.append_assoc]

/-- Both plans can bind the same variables, and to the same of them can terms be given. -/
structure SameReach (p q : Plan) : Prop where
  freeVars : q.freeVars = p.freeVars
  opaqueVars : q.opaqueVars = p.opaqueVars
  reachableVars : q.reachableVars = p.reachableVars

namespace SameReach

variable {p q s : Plan}

theorem trans (h : SameReach p q) (h' : SameReach q s) : SameReach p s :=
  ⟨h'.freeVars.trans h.freeVars, h'.opaqueVars.trans h.opaqueVars,
    h'.reachableVars.trans h.reachableVars⟩

theorem join {pre post : List Plan} {vars : List String} (h : SameReach p q) :
    SameReach (Plan.join (pre ++ p :: post) vars) (Plan.join (pre ++ q :: post) vars) where
  freeVars := by simp only [Plan.freeVars, freeVarsAll_append, freeVarsAll, h.freeVars]
  opaqueVars := by simp only [Plan.opaqueVars, opaqueVarsAll_append, opaqueVarsAll, h.opaqueVars]
  reachableVars := by
    simp only [Plan.reachableVars, reachableVarsAll_append, reachableVarsAll, h.reachableVars]

theorem leftJoin {right right' : Plan} {condition : Option Expr} (h : SameReach p q)
    (hr : SameReach right right') :
    SameReach (Plan.leftJoin p right condition) (Plan.leftJoin q right' condition) where
  freeVars := by simp only [Plan.freeVars, h.freeVars, hr.freeVars]
  opaqueVars := by simp only [Plan.opaqueVars, h.opaqueVars, hr.freeVars]
  reachableVars := h.reachableVars

end SameReach

theorem Added.sameReach {p q : Plan} (h : Added e p q) : SameReach p q := by
  induction h with
  | statement _ => exact ⟨rfl, rfl, rfl⟩
  | group _ => exact ⟨rfl, rfl, rfl⟩
  | independent _ =>
    refine ⟨?_, rfl, ?_⟩
    · simp only [freeVars, List.flatMap_append, List.flatMap_cons]
      rfl
    · simp only [reachableVars, List.flatMap_append, List.flatMap_cons]
      rfl
  | join _ ih => exact ih.join
  | filter _ ih => exact ⟨ih.freeVars, ih.opaqueVars, ih.reachableVars⟩
  | leftJoin _ ih => exact ih.leftJoin ⟨rfl, rfl, rfl⟩

theorem AddedAll.sameReach {p q : Plan} {es : List Expr} (h : AddedAll es p q) :
    SameReach p q := by
  induction h with
  | nil => exact ⟨rfl, rfl, rfl⟩
  | cons h _ ih => exact h.sameReach.trans ih

theorem Moved.sameReach {p q : Plan} (h : Moved p q) : SameReach p q := by
  induction h with
  | refl _ => exact ⟨rfl, rfl, rfl⟩
  | trans _ _ ih ih' => exact ih.trans ih'
  | @place condition placed residual a a' h _ =>
    have same := h.sameReach
    unfold under
    split
    · exact ⟨same.freeVars, same.opaqueVars, same.reachableVars⟩
    · exact ⟨same.freeVars, same.opaqueVars, same.reachableVars⟩
  | join _ ih => exact ih.join
  | filter _ ih => exact ⟨ih.freeVars, ih.opaqueVars, ih.reachableVars⟩
  | leftJoin _ _ ihl ihr => exact ihl.leftJoin ihr

/-! ### A filter below a projection -/

theorem fixStatement_empty (s : Statement) : fixStatement ∅ s = s := by
  unfold fixStatement
  induction s.pattern.vars with
  | nil => rfl
  | cons v vs ih => exact ih

theorem fixGroup_empty (g : ExclusiveGroup) : fixGroup ∅ g = g := by
  unfold fixGroup
  induction g.freeVars with
  | nil => rfl
  | cons v vs ih => exact ih

mutual

theorem fixVars_empty : ∀ p : Plan, p.fixVars ∅ = p
  | statement s => congrArg statement (fixStatement_empty s)
  | group g => congrArg group (fixGroup_empty g)
  | independent members => by
    rw [fixVars, List.map_congr_left fun s _ => fixStatement_empty s, List.map_id']
  | join args vars => by
    rw [fixVars, fixVarsAll_empty args]
    exact congrArg _ (List.filter_eq_self.2 fun v _ => rfl)
  | filter condition a => by rw [fixVars, Expr.substitute_empty, fixVars_empty a]
  | leftJoin left right condition => by rw [fixVars, fixVars_empty left]
  | union _ => rfl
  | service _ => rfl
  | passThrough .. => rfl
  | empty => rfl
  | project .. => rfl
  | slice .. => rfl
  | distinct _ => rfl

theorem fixVarsAll_empty : ∀ args : List Plan, fixVarsAll ∅ args = args
  | [] => rfl
  | a :: rest => by rw [fixVarsAll, fixVars_empty a, fixVarsAll_empty rest]

end

theorem bindings_eq_empty (h : β.isEmpty = true) : β = ∅ := by
  refine Bindings.ext_get? fun v => ?_
  rw [Bindings.get?, List.isEmpty_iff.1 h]
  rfl

/-- A filter that may fix variables fixes those first and then places its other conjuncts. -/
theorem pushFilter_true (condition : Expr) {a : Plan} (ha : a.isEmpty = false) :
    ∃ placed residual a', AddedAll placed (a.fixVars (fixedTerms condition a)) a' ∧
      ((otherConjuncts condition a).map (·.substitute (fixedTerms condition a))).Perm
        (placed ++ residual) ∧
      pushFilter condition a true = (under residual a', fixedTerms condition a) := by
  have fixed : (if (fixedTerms condition a).isEmpty then a
      else a.fixVars (fixedTerms condition a)) = a.fixVars (fixedTerms condition a) := by
    split
    · next h => rw [bindings_eq_empty h, fixVars_empty]
    · rfl
  obtain ⟨placed, hadd, hperm⟩ := exists_of_placeAll
    ((otherConjuncts condition a).map (·.substitute (fixedTerms condition a)))
    (a.fixVars (fixedTerms condition a))
  have unfolded : pushFilter condition a true =
      let placed := placeAll
        ((otherConjuncts condition a).map (·.substitute (fixedTerms condition a)))
        (if (fixedTerms condition a).isEmpty then a else a.fixVars (fixedTerms condition a))
      (under placed.2 placed.1, fixedTerms condition a) := by
    unfold pushFilter
    rw [if_neg (by simp [ha])]
    exact pair_under ..
  refine ⟨placed, _, _, hadd, hperm, ?_⟩
  rw [unfolded, fixed]

/-! ### The rows before and after -/

/-- Joining with terms for variables that rows bind takes the rows that agree with them. -/
theorem singleton_mul_eq_agreeing {X : Rows}
    (hX : ∀ x ∈ X, ∀ v, β.contains v = true → x.contains v = true) :
    {β} * X = Rows.agreeing β X := by
  rw [Rows.singleton_mul, Rows.agreeing, ← Multiset.filterMap_eq_filter]
  refine Rows.filterMap_congr fun x hx => ?_
  by_cases h : β.Agrees x
  · have extends_ : β.Extends x := by
      intro v t hv
      obtain ⟨s, hs⟩ := Bindings.contains_iff.1 (hX x hx v (Bindings.contains_iff.2 ⟨t, hv⟩))
      rw [hs, h v t s hv hs]
    have merged : β.merge? x = some x := by
      rw [Bindings.merge?_comm, Bindings.merge?_of_extends extends_]
    simp [Option.guard, merged]
  · simp [Option.guard, Bindings.merge?_eq_none_iff.2 h]

/-- A filter takes the rows that agree with the terms it fixes and meet its other conjuncts. -/
theorem filter_eq_agreeing {condition : Expr} {a : Plan} {X : Rows}
    (hX : ∀ x ∈ X, ∀ v ∈ a.reachableVars, x.contains v = true) :
    X.filter (condition.accepts · = true) =
      (Rows.agreeing (fixedTerms condition a) X).filter
        fun c => (otherConjuncts condition a).all (·.accepts c) = true := by
  rw [Rows.agreeing, Multiset.filter_filter]
  refine Multiset.filter_congr fun x hx => ?_
  rw [accepts_iff_fixedTerms condition a x, Bindings.merge?_isSome_iff, and_comm]
  refine and_congr_right fun _ => ⟨Bindings.Extends.agrees, fun h v t hv => ?_⟩
  have bound := hX x hx v (of_contains_fixedTerms (Bindings.contains_iff.2 ⟨t, hv⟩)).2
  obtain ⟨s, hs⟩ := Bindings.contains_iff.1 bound
  rw [hs, h v t s hv hs]

/-- Projecting rows with variables fixed and put back is projecting the rows as they were. -/
theorem map_projectOnto_fix (vars : List String) (es : List Expr) (X : Rows) :
    ((Rows.fix β X).filter fun c => (es.map (·.substitute β)).all (·.accepts c) = true).map
        (Environment.projectOnto vars β ∅) =
      (({β} * X : Rows).filter fun c => es.all (·.accepts c) = true).map
        (Environment.projectOnto vars ∅ ∅) := by
  have restored : ∀ c ∈ ({β} * X : Rows), ∀ v,
      c.get? v = (β.get? v).or ((c.restrict fun v => !β.contains v).get? v) := by
    intro c hc v
    rw [← get?_insertAll, insertAll_restrict (Rows.extends_of_mem_singleton_mul hc)]
  rw [Rows.fix, Rows.restrict, Multiset.filter_map, Multiset.map_map]
  have same : (({β} * X : Rows).filter ((fun c => (es.map (·.substitute β)).all (·.accepts c) =
        true) ∘ fun c => c.restrict fun v => !β.contains v)) =
      ({β} * X : Rows).filter fun c => es.all (·.accepts c) = true := by
    refine Multiset.filter_congr fun c hc => ?_
    rw [Function.comp_apply, List.all_map]
    have each : ∀ e ∈ es, ((·.accepts (c.restrict fun v => !β.contains v)) ∘ (·.substitute β)) e =
        e.accepts c := fun e _ => Expr.accepts_substitute fun v _ => restored c hc v
    simp only [List.all_eq_true]
    exact forall_congr' fun e => ⟨fun h he => each e he ▸ h he, fun h he => each e he ▸ h he⟩
  rw [same]
  refine Multiset.map_congr rfl fun c hc => ?_
  have hc := Rows.extends_of_mem_singleton_mul (Multiset.mem_of_mem_filter hc)
  rw [Function.comp_apply, projectOnto_eq, projectOnto_eq, insertAll_restrict hc]
  refine congrArg (Bindings.project · vars) (Bindings.ext_get? fun v => ?_)
  rw [get?_insertAll, Bindings.get?_empty, Option.none_or]

theorem Moved.isEmpty_eq {p q : Plan} (h : Moved p q) (hp : p.Pushable r) : q.isEmpty = false := by
  cases h.pushable hp with
  | conjunctive hq => exact hq.isEmpty_eq
  | leftJoin _ _ => rfl

/-! ### Evaluation before and after -/

section Evaluation

variable {env : Environment} {A : Plan}

theorem evaluate_filter_comes {M : Rows} (condition : Expr)
    (h : (env.evaluate A ∅).Comes env.registry.answers M) :
    (env.evaluate (filter condition A) ∅).Comes env.registry.answers
      (M.filter (condition.accepts · = true)) :=
  Environment.guarded_comes (h.mapFeed fun _ hf => hf.filter _)

theorem evaluate_under_comes (hr : env.registry.Sound) (hA : A.Pushable env.registry)
    (hfits : A.Fits env.registry env.config.boundJoinBlockSize) (residual : List Expr) :
    (env.evaluate (under residual A) ∅).Comes env.registry.answers
      ((under residual A).rows env.registry ∅) := by
  unfold under
  cases Expr.andAll residual with
  | none => exact hA.evaluate_comes hr hfits
  | some condition => exact evaluate_filter_comes condition (hA.evaluate_comes hr hfits)

/-- A filter alone brings the same before and after. -/
theorem pushFilters_filter_comes (hr : env.registry.Sound) (hA : A.Pushable env.registry)
    (hfits : A.Fits env.registry env.config.boundJoinBlockSize) (condition : Expr) :
    (env.evaluate (filter condition A).pushFilters ∅).Comes env.registry.answers
      ((A.rows env.registry ∅).filter (condition.accepts · = true)) := by
  have moved := moved_pushFilters hA
  obtain ⟨placed, residual, a', hadd, hperm, heq⟩ :=
    pushFilter_false condition (moved.isEmpty_eq hA)
  have ha := moved.pushable hA
  have rows_eq : (under residual a').rows env.registry ∅ =
      (A.rows env.registry ∅).filter (condition.accepts · = true) := by
    rw [hadd.rows_under ha hperm, moved.rows_eq hA]
    refine Multiset.filter_congr fun c _ => ?_
    rw [Expr.accepts_eq_all_conjuncts]
  rw [pushFilters, heq, ← rows_eq]
  refine evaluate_under_comes hr (hadd.pushable ha) (hfits.mono ?_) residual
  rw [hadd.width_eq, moved.width_eq]

/-- Below a projection the moved filter brings what the filter brings where the terms it fixes are
put into the filters inside the plan. -/
theorem pushFilters_project_comes (hr : env.registry.Sound) (hA : A.Pushable env.registry)
    (hbare : A.Bare true) (hfits : A.Fits env.registry env.config.boundJoinBlockSize)
    (condition : Expr) (vars : List String) :
    (env.evaluate (project vars ∅ (filter condition A)).pushFilters ∅).Comes env.registry.answers
      ((((A.substituteFilters (fixedTerms condition A)).rows env.registry ∅).filter
        (condition.accepts · = true)).map (Environment.projectOnto vars ∅ ∅)) := by
  have moved := moved_pushFilters hA
  have same := moved.sameReach
  have fixed : fixedTerms condition A.pushFilters = fixedTerms condition A := by
    rw [fixedTerms, fixedTerms, same.opaqueVars, same.reachableVars]
  have others : otherConjuncts condition A.pushFilters = otherConjuncts condition A := by
    rw [otherConjuncts, otherConjuncts, same.opaqueVars, same.reachableVars]
  obtain ⟨placed, residual, a', hadd, hperm, heq⟩ :=
    pushFilter_true condition (moved.isEmpty_eq hA)
  rw [fixed] at hadd heq
  rw [fixed, others] at hperm
  have unfixed := hbare.unfixed
  have movedFixed : Moved (A.fixVars (fixedTerms condition A)) _ := moved.fixVars unfixed
  have hAfixed : (A.fixVars (fixedTerms condition A)).Pushable env.registry := hA.fixVars unfixed
  have ha := movedFixed.pushable hAfixed
  have bound : ∀ c ∈ (A.substituteFilters (fixedTerms condition A)).rows env.registry ∅,
      ∀ v ∈ A.reachableVars, c.contains v = true := by
    intro c hc v hv
    refine hA.substituteFilters.contains_of_mem_reachableVars hc ?_
    rwa [reachableVars_substituteFilters]
  have rows_fixed : (A.fixVars (fixedTerms condition A)).rows env.registry ∅ =
      Rows.fix (fixedTerms condition A)
        ((A.substituteFilters (fixedTerms condition A)).rows env.registry ∅) := by
    rw [fix_rows hA hbare (fun v hv => (of_contains_fixedTerms hv).1) ∅, ← Rows.one_def,
      Rows.fix_one, Rows.one_def, Multiset.singleton_bind]
  have rows_eq : ((under residual a').rows env.registry ∅).map
      (Environment.projectOnto vars (fixedTerms condition A) ∅) =
        (((A.substituteFilters (fixedTerms condition A)).rows env.registry ∅).filter
          (condition.accepts · = true)).map (Environment.projectOnto vars ∅ ∅) := by
    rw [hadd.rows_under ha hperm, movedFixed.rows_eq hAfixed, rows_fixed, map_projectOnto_fix,
      singleton_mul_eq_agreeing fun c hc v hv => bound c hc v (of_contains_fixedTerms hv).2,
      ← filter_eq_agreeing bound]
  have moved_eq : (project vars ∅ (filter condition A)).pushFilters =
      project vars (fixedTerms condition A) (under residual a') := by
    rw [pushFilters, heq]
    exact congrArg (project vars · _) (insertAll_empty _)
  rw [← rows_eq, moved_eq]
  refine Environment.evaluate_project_comes vars _ ?_
  refine evaluate_under_comes hr (hadd.pushable ha) (hfits.mono ?_) residual
  rw [hadd.width_eq, movedFixed.width_eq, width_fixVars A unfixed]

/-- **Moving a filter keeps the answer**, and below a projection it does so exactly if the answer does
not depend on whether the terms that the filter fixes are put into the filters inside the plan.  It
does not if each of these that mentions a fixed variable stands where the variable is bound. -/
theorem pushFilters_agrees_iff (hr : env.registry.Sound) (hA : A.Pushable env.registry)
    (hbare : A.Bare true) (hfits : A.Fits env.registry env.config.boundJoinBlockSize)
    (condition : Expr) (vars : List String) :
    (∃ M, (env.evaluate (filter condition A) ∅).Yields env.registry.answers M ∧
      (env.evaluate (filter condition A).pushFilters ∅).Yields env.registry.answers M) ∧
    ∃ M N, (env.evaluate (project vars ∅ (filter condition A)) ∅).Yields env.registry.answers M ∧
      (env.evaluate (project vars ∅ (filter condition A)).pushFilters ∅).Yields
        env.registry.answers N ∧
      (M = N ↔ (env.evaluate (project vars ∅ (filter condition
        (A.substituteFilters (fixedTerms condition A)))) ∅).Yields env.registry.answers M) ∧
      (A.Scoped (fixedTerms condition A) [] → M = N) := by
  have before := evaluate_filter_comes condition (hA.evaluate_comes hr hfits)
  refine ⟨⟨_, before.yields, (pushFilters_filter_comes hr hA hfits condition).yields⟩, ?_⟩
  have substituted : (env.evaluate (project vars ∅ (filter condition
      (A.substituteFilters (fixedTerms condition A)))) ∅).Comes env.registry.answers
      ((((A.substituteFilters (fixedTerms condition A)).rows env.registry ∅).filter
        (condition.accepts · = true)).map (Environment.projectOnto vars ∅ ∅)) := by
    refine Environment.evaluate_project_comes vars ∅ (evaluate_filter_comes condition ?_)
    exact hA.substituteFilters.evaluate_comes hr (hfits.mono (width_substituteFilters A).le)
  have projected := Environment.evaluate_project_comes vars ∅ before
  have moved := pushFilters_project_comes hr hA hbare hfits condition vars
  refine ⟨_, _, projected.yields, moved.yields,
    ⟨fun h => h ▸ substituted.yields, fun h => h.unique substituted.yields⟩, fun hs => ?_⟩
  have bound : ∀ c ∈ (A.substituteFilters (fixedTerms condition A)).rows env.registry ∅,
      ∀ v ∈ A.reachableVars, c.contains v = true := by
    intro c hc v hv
    refine hA.substituteFilters.contains_of_mem_reachableVars hc ?_
    rwa [reachableVars_substituteFilters]
  have agreeing := agreeing_substituteFilters (b := ∅) hA hs fun v hv => absurd hv List.not_mem_nil
  rw [filter_eq_agreeing bound, agreeing,
    ← filter_eq_agreeing fun c hc v hv => hA.contains_of_mem_reachableVars hc hv]

end Evaluation

/-! ### A filter that asks for a variable before it is bound -/

/-- A federation of one member that holds two triples on one subject. -/
def twoFacts : Environment :=
  ⟨.single [⟨.iri "s", .iri "p", .iri "o"⟩, ⟨.iri "s", .iri "q", .iri "r"⟩], {}⟩

/-- Asks for the subject by the first triple. -/
def subjectOf : Plan :=
  statement { id := 0, pattern := ⟨.var "s", .const (.iri "p"), .const (.iri "o")⟩,
              sources := [Registry.onlySource] }

/-- Asks for subject and object by the second triple. -/
def objectOf : Plan :=
  statement { id := 1, pattern := ⟨.var "s", .const (.iri "q"), .var "x"⟩,
              sources := [Registry.onlySource] }

/-- Fixes the object. -/
def objectIsR : Expr := .compare .eq (.var "x") (.const (.iri "r"))

/-- The object is asked for before it is bound. -/
def askedBefore : Plan := join [filter (.not (.bound "x")) subjectOf, objectOf] []

/-- The object is asked for behind the statement that binds it. -/
def askedBehind : Plan := join [objectOf, filter (.bound "x") subjectOf] []

theorem twoFacts_sound : twoFacts.registry.Sound := Registry.single_sound (by decide)

theorem askedBehind_pushable : askedBehind.Pushable twoFacts.registry := by
  have registers := Registry.single_registers
    [⟨.iri "s", .iri "p", .iri "o"⟩, ⟨.iri "s", .iri "q", .iri "r"⟩]
  exact .conjunctive ⟨⟨⟨registers, by decide⟩, rfl⟩, ⟨⟨registers, by decide⟩, rfl⟩, trivial⟩

/-- A filter that asks for a variable where it is bound may be below one that fixes it. -/
theorem pushFilters_agrees_where_bound :
    ∃ M, (twoFacts.evaluate (project ["x"] ∅ (filter objectIsR askedBehind)) ∅).Yields
        twoFacts.registry.answers M ∧
      (twoFacts.evaluate (project ["x"] ∅ (filter objectIsR askedBehind)).pushFilters ∅).Yields
        twoFacts.registry.answers M := by
  obtain ⟨-, M, N, hM, hN, -, hscoped⟩ := pushFilters_agrees_iff twoFacts_sound
    askedBehind_pushable ⟨⟨rfl, rfl⟩, ⟨rfl, rfl, rfl⟩, trivial⟩ (.inl (by decide)) objectIsR ["x"]
  have standing : askedBehind.Scoped (fixedTerms objectIsR askedBehind) [] :=
    ⟨trivial, ⟨trivial, by decide⟩, trivial⟩
  obtain rfl := hscoped standing
  exact ⟨M, hM, hN⟩

/-- **A filter that asks whether a variable is bound spoils the answer** if the variable is fixed by
the filter above and bound only later: the term is put in where nothing is bound. -/
theorem pushFilters_disagrees :
    ∃ M N, (twoFacts.evaluate (project ["x"] ∅ (filter objectIsR askedBefore)) ∅).Yields
        twoFacts.registry.answers M ∧
      (twoFacts.evaluate (project ["x"] ∅ (filter objectIsR askedBefore)).pushFilters ∅).Yields
        twoFacts.registry.answers N ∧ M ≠ N := by
  refine ⟨{.single "x" (.iri "r")}, 0, ⟨[.single "x" (.iri "r")], by decide +kernel, rfl⟩,
    ⟨[], by decide +kernel, rfl⟩, ?_⟩
  decide

end Plan

end FederatedSparql
