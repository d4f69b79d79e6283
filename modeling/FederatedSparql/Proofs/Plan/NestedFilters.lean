import FederatedSparql.Proofs.Plan.FixedVars

/-!
What fixing variables does to the rows of a plan, and to the filters inside it.

* `Plan.fix_rows`: fixing variables takes the rows that agree with the fixed terms, without the fixed
  variables, once the terms are put into the conditions of all filters inside the plan.
* `Plan.agreeing_substituteFilters`: putting them in changes no row that agrees with them, if every
  filter that mentions a fixed variable stands where that variable is bound (`Plan.Scoped`).
-/

namespace FederatedSparql

variable {r : Registry} {b c x β : Bindings} {v : String} {e : Expr}

/-! ### Statements and groups without conditions -/

theorem Statement.rows_of_filter_eq_none {s : Statement} (h : s.filter = none) (b : Bindings) :
    s.rows r b = {b} * s.effectivePattern.solutions (r.triplesOf s.sources) := by
  rw [rows, Store.filteredRows, h, Store.bgpRows, Store.bgpSolutions_cons, Store.bgpSolutions_nil,
    mul_one]
  exact Multiset.filter_eq_self.2 fun _ _ => rfl

theorem ExclusiveGroup.rows_of_filter_eq_none {g : ExclusiveGroup} (h : g.filter = none)
    (b : Bindings) :
    g.rows r b = {b} * Store.bgpSolutions (r.triplesOf [g.owner]) g.patterns := by
  rw [rows, Store.filteredRows, h, Store.bgpRows]
  exact Multiset.filter_eq_self.2 fun _ _ => rfl

/-- A binding set need only be joined once with a product. -/
theorem Rows.singleton_mul_prod {α : Type} (b : Bindings) (K : α → Rows) (xs : List α) :
    {b} * (xs.map fun x => {b} * K x).prod = {b} * (xs.map K).prod := by
  induction xs with
  | nil => rfl
  | cons x xs ih =>
    rw [List.map_cons, List.map_cons, List.prod_cons, List.prod_cons, mul_left_comm, ih,
      mul_mul_mul_comm, singleton_mul_self]

theorem Rows.fix_prod {α : Type} (β : Bindings) (K : α → Rows) (xs : List α) :
    fix β (xs.map K).prod = (xs.map fun x => fix β (K x)).prod := by
  induction xs with
  | nil => exact fix_one β
  | cons x xs ih => rw [List.map_cons, List.map_cons, List.prod_cons, List.prod_cons, fix_mul, ih]

/-- Joining with fixed solutions is fixing the join. -/
theorem Rows.fix_bind_singleton_mul (β b : Bindings) (K : Rows) :
    ((fix β {b}).bind fun x => {x} * fix β K) = fix β ({b} * K) := by
  rw [bind_singleton_mul, fix_mul]

theorem Statement.joinedRows_of_filter_eq_none {members : List Statement}
    (h : ∀ s ∈ members, s.filter = none) (b : Bindings) :
    Statement.joinedRows r members b =
      {b} * (members.map fun s => s.effectivePattern.solutions (r.triplesOf s.sources)).prod := by
  have each : members.map (fun s => s.rows r b) =
      members.map fun s => {b} * s.effectivePattern.solutions (r.triplesOf s.sources) :=
    List.map_congr_left fun s hs => rows_of_filter_eq_none (h s hs) b
  rw [Statement.joinedRows, each, Rows.singleton_mul_prod]

namespace Plan

/-! ### Plans without filters -/

mutual

/-- A plan without conditions joins a binding set with the rows that it has under none. -/
theorem rows_of_bare : ∀ {p : Plan}, p.Conjunctive r → p.Bare false → ∀ b,
    p.rows r b = {b} * p.rows r ∅
  | statement s, h, hb, b => by
    simp only [rows, Statement.wantedRows_of_localVars_eq_nil h.2,
      Statement.rows_of_filter_eq_none hb.1, ← Rows.one_def, one_mul]
  | group g, h, hb, b => by
    simp only [rows, ExclusiveGroup.wantedRows_of_localVars_eq_nil h.2.2,
      ExclusiveGroup.rows_of_filter_eq_none hb.1, ← Rows.one_def, one_mul]
  | independent members, h, hb, b => by
    have bare : ∀ s ∈ members, s.filter = none := fun s hs => (hb s hs).1
    rw [← Conjunctive.rightRows_eq h, ← Conjunctive.rightRows_eq h]
    simp only [rightRows, Statement.joinedRows_of_filter_eq_none bare, ← Rows.one_def, one_mul]
  | join args vars, h, hb, b => by
    rw [rows_join h, rows_join h, restRows_of_bare h hb, restRows_of_bare h hb, ← Rows.one_def,
      one_mul]

theorem restRows_of_bare : ∀ {l : List Plan}, ConjunctiveAll r l → BareAll false l → ∀ X : Rows,
    restRows r l X = X * restRows r l 1
  | [], _, _, X => (mul_one X).symm
  | a :: rest, h, hb, X => by
    have linear : ∀ Y : Rows, Y.bind (a.rows r) = Y * a.rows r ∅ := by
      intro Y
      rw [Multiset.bind_congr fun y _ => rows_of_bare h.1 hb.1 y, Rows.bind_singleton_mul]
    rw [restRows_cons_of_conjunctive h.1, restRows_cons_of_conjunctive h.1, linear, linear,
      restRows_of_bare h.2 hb.2, restRows_of_bare h.2 hb.2 (1 * _), one_mul, mul_assoc]

end

/-! ### Terms in the conditions of filters -/

mutual

/-- Puts terms into the conditions of the filters inside a plan, apart from optional parts. -/
def substituteFilters (β : Bindings) : Plan → Plan
  | filter condition a => filter (condition.substitute β) (a.substituteFilters β)
  | join args vars => join (substituteFiltersAll β args) vars
  | leftJoin left right condition => leftJoin (left.substituteFilters β) right condition
  | p => p

/-- The same for all plans. -/
def substituteFiltersAll (β : Bindings) : List Plan → List Plan
  | [] => []
  | a :: rest => a.substituteFilters β :: substituteFiltersAll β rest

end

mutual

theorem Conjunctive.substituteFilters : ∀ {p : Plan}, p.Conjunctive r →
    (p.substituteFilters β).Conjunctive r
  | statement _, h => h
  | group _, h => h
  | independent _, h => h
  | join args _, h => ConjunctiveAll.substituteFiltersAll (l := args) h
  | filter _ a, h => Conjunctive.substituteFilters (p := a) h

theorem ConjunctiveAll.substituteFiltersAll : ∀ {l : List Plan}, ConjunctiveAll r l →
    ConjunctiveAll r (substituteFiltersAll β l)
  | [], _ => trivial
  | _ :: _, h => ⟨h.1.substituteFilters, h.2.substituteFiltersAll⟩

end

theorem Pushable.substituteFilters {p : Plan} (h : p.Pushable r) :
    (p.substituteFilters β).Pushable r := by
  induction h with
  | conjunctive hp => exact .conjunctive hp.substituteFilters
  | leftJoin _ hr ih => exact .leftJoin ih hr

mutual

theorem width_substituteFilters : ∀ p : Plan, (p.substituteFilters β).width r = p.width r
  | join args _ => joinWidth_substituteFiltersAll args
  | filter _ a => width_substituteFilters a
  | leftJoin left _ _ => congrArg (· * _) (width_substituteFilters left)
  | statement _ => rfl
  | group _ => rfl
  | independent _ => rfl
  | union _ => rfl
  | service _ => rfl
  | passThrough .. => rfl
  | empty => rfl
  | project .. => rfl
  | slice .. => rfl
  | distinct _ => rfl

theorem joinWidth_substituteFiltersAll :
    ∀ args : List Plan, joinWidth r (substituteFiltersAll β args) = joinWidth r args
  | [] => rfl
  | a :: rest => by
    rw [substituteFiltersAll, joinWidth, joinWidth, width_substituteFilters a,
      joinWidth_substituteFiltersAll rest]

end

/-! ### The rows of a plan with fixed variables -/

mutual

/-- The rows of statements and groups with fixed variables, under joins and filters. -/
theorem fix_rows_of_conjunctive : ∀ {p : Plan}, p.Conjunctive r → p.Bare true → ∀ b,
    Rows.fix β ((p.substituteFilters β).rows r b) =
      (Rows.fix β {b}).bind ((p.fixVars β).rows r)
  | statement s, h, hb, b => by
    have fixed : (fixStatement β s).filter = none ∧
        (fixStatement β s).sources = s.sources := by
      rw [fixStatement_eq β hb.2]
      exact ⟨by rw [hb.1]; rfl, rfl⟩
    have hlocal : (fixStatement β s).localVars = [] := (fixStatement_conjunctive hb.2 h).2
    simp only [substituteFilters, Plan.fixVars, rows,
      Statement.wantedRows_of_localVars_eq_nil h.2,
      Statement.wantedRows_of_localVars_eq_nil hlocal, Statement.rows_of_filter_eq_none hb.1,
      Statement.rows_of_filter_eq_none fixed.1, fixed.2, effectivePattern_fixStatement hb.2,
      ← TriplePattern.fix_solutions, Rows.fix_bind_singleton_mul]
  | group g, h, hb, b => by
    have members : ∀ s ∈ g.statements, s.boundFilters = ∅ := fun s hs => (hb.2.2 s hs).2
    have fixed : (fixGroup β g).filter = none ∧ (fixGroup β g).owner = g.owner ∧
        (fixGroup β g).localVars = [] := by
      rw [fixGroup_eq β hb.2.1]
      exact ⟨by rw [hb.1]; rfl, rfl, h.2.2⟩
    simp only [substituteFilters, Plan.fixVars, rows,
      ExclusiveGroup.wantedRows_of_localVars_eq_nil h.2.2,
      ExclusiveGroup.wantedRows_of_localVars_eq_nil fixed.2.2,
      ExclusiveGroup.rows_of_filter_eq_none hb.1,
      ExclusiveGroup.rows_of_filter_eq_none fixed.1, fixed.2.1, patterns_fixGroup hb.2.1 members,
      ← Store.fix_bgpSolutions, Rows.fix_bind_singleton_mul]
  | independent members, h, hb, b => by
    have bare : ∀ s ∈ members, s.filter = none := fun s hs => (hb s hs).1
    have fixed : ∀ s ∈ members.map (fixStatement β), s.filter = none := by
      intro s hs
      obtain ⟨t, ht, rfl⟩ := List.mem_map.1 hs
      rw [fixStatement_eq β (hb t ht).2, (hb t ht).1]
      rfl
    have solutions : ∀ s ∈ members, (fixStatement β s).effectivePattern.solutions
        (r.triplesOf (fixStatement β s).sources) =
          Rows.fix β (s.effectivePattern.solutions (r.triplesOf s.sources)) := by
      intro s hs
      rw [effectivePattern_fixStatement (hb s hs).2, TriplePattern.fix_solutions,
        fixStatement_eq β (hb s hs).2]
    have hfixed : (independent (members.map (fixStatement β))).Conjunctive r :=
      Conjunctive.fixVars (p := independent members) h fun s hs => (hb s hs).2
    have each : ∀ x, (independent (members.map (fixStatement β))).rows r x = {x} * Rows.fix β
        (members.map fun s => s.effectivePattern.solutions (r.triplesOf s.sources)).prod := by
      intro x
      rw [← hfixed.rightRows_eq, rightRows, Statement.joinedRows_of_filter_eq_none fixed,
        List.map_map, Rows.fix_prod]
      exact congrArg (fun Xs : List Rows => {x} * Xs.prod) (List.map_congr_left solutions)
    have same : (independent members).substituteFilters β = independent members := rfl
    rw [same, Plan.fixVars, ← Conjunctive.rightRows_eq h, rightRows,
      Statement.joinedRows_of_filter_eq_none bare, Multiset.bind_congr fun x _ => each x,
      Rows.fix_bind_singleton_mul]
  | join args vars, h, hb, b => by
    have hs : ConjunctiveAll r (substituteFiltersAll β args) :=
      ConjunctiveAll.substituteFiltersAll h
    have hf : ConjunctiveAll r (fixVarsAll β args) :=
      ConjunctiveAll.fixVarsAll h (BareAll.unfixed hb)
    rw [substituteFilters, rows_join hs, Plan.fixVars, fix_restRows h hb]
    rw [Multiset.bind_congr fun x _ => rows_join hf x]
    exact restRows_eq_bind _ _
  | filter condition a, h, hb, b => by
    have unmentioned : ∀ v ∈ Expr.varsOf (some (condition.substitute β)), β.contains v = false :=
      fun v hv => Bindings.contains_eq_false_iff.2 (Expr.mem_vars_substitute.1 hv).2
    have inner := fix_rows_of_conjunctive (p := a) h hb.2 b
    have kept := Rows.fix_filter unmentioned ((a.substituteFilters β).rows r b)
    rw [inner, Multiset.filter_bind] at kept
    exact kept

theorem fix_restRows : ∀ {l : List Plan}, ConjunctiveAll r l → BareAll true l → ∀ X : Rows,
    Rows.fix β (restRows r (substituteFiltersAll β l) X) =
      restRows r (fixVarsAll β l) (Rows.fix β X)
  | [], _, _, _ => rfl
  | a :: rest, h, hb, X => by
    have step : Rows.fix β (X.bind ((a.substituteFilters β).rows r)) =
        (Rows.fix β X).bind ((a.fixVars β).rows r) := by
      rw [Rows.fix_bind, Multiset.bind_congr fun x _ => fix_rows_of_conjunctive h.1 hb.1 x,
        ← Multiset.bind_assoc, ← Rows.fix_eq_bind]
    rw [substituteFiltersAll, fixVarsAll, restRows_cons_of_conjunctive h.1.substituteFilters,
      restRows_cons_of_conjunctive (h.1.fixVars (Bare.unfixed hb.1)), fix_restRows h.2 hb.2, step]

end

/-- What an optional part has for a row with fixed variables. -/
theorem fix_optionalRows {K : Rows} {condition : Option Expr}
    (hK : ∀ c ∈ K, ∀ v, β.contains v = true → c.contains v = false)
    (hc : ∀ v ∈ Expr.varsOf condition, β.contains v = false) (x : Bindings) :
    Rows.fix β (Feed.optionalRows (Expr.acceptsAll condition) x ({x} * K)) =
      (Rows.fix β {x}).bind fun y =>
        Feed.optionalRows (Expr.acceptsAll condition) y ({y} * K) := by
  have kept : Rows.fix β (({x} * K).filter (Expr.acceptsAll condition · = true)) =
      (Rows.fix β {x} * K).filter (Expr.acceptsAll condition · = true) := by
    rw [Rows.fix_filter hc, Rows.fix_mul, Rows.fix_of_free hK]
  rcases Rows.fix_singleton β x with ⟨hag, hx⟩ | ⟨hag, hx⟩
  · have agree : ∀ c ∈ ({x} * K : Rows).filter (Expr.acceptsAll condition · = true),
        β.Agrees c := by
      intro c hc v s t hs ht
      obtain ⟨y, hy, hm⟩ := Rows.mem_singleton_mul.1 (Multiset.mem_of_mem_filter hc)
      have free := hK y hy v (Bindings.contains_iff.2 ⟨s, hs⟩)
      rw [Bindings.get?_of_merge hm, Bindings.contains_eq_false_iff.1 free, Option.or_none] at ht
      exact hag v s t hs ht
    have none_left := Rows.fix_eq_zero_iff agree
    rw [kept, hx] at none_left
    rw [hx, Multiset.singleton_bind, Feed.optionalRows, Feed.optionalRows]
    split
    · next h0 => rw [if_pos (none_left.2 h0), hx]
    · next h0 => rw [if_neg fun h => h0 (none_left.1 h), kept, hx]
  · have extended : ∀ c ∈ Feed.optionalRows (Expr.acceptsAll condition) x ({x} * K),
        x.Extends c := by
      intro c hc
      rcases mem_optionalRows hc with rfl | hc
      · exact .refl c
      · exact Rows.extends_of_mem_singleton_mul hc
    rw [← Rows.fix_singleton_mul extended, hx, zero_mul]
    rfl

/-- **Fixing variables takes the rows that agree with the fixed terms**, without the fixed variables,
once the terms are put into the conditions of the filters inside the plan. -/
theorem fix_rows {p : Plan} (h : p.Pushable r) (hb : p.Bare true)
    (hfree : ∀ v, β.contains v = true → v ∉ p.opaqueVars) (b : Bindings) :
    Rows.fix β ((p.substituteFilters β).rows r b) =
      (Rows.fix β {b}).bind ((p.fixVars β).rows r) := by
  induction h with
  | conjunctive hp => exact fix_rows_of_conjunctive hp hb b
  | @leftJoin left right condition hl hr ih =>
    simp only [opaqueVars, List.mem_append, not_or] at hfree
    have right_free : ∀ c ∈ right.rows r ∅, ∀ v, β.contains v = true → c.contains v = false := by
      intro c hc v hv
      rw [Bool.eq_false_iff]
      intro hcv
      rcases (grows_of_mem_rows right hc).within v hcv with hv' | hv'
      · exact absurd hv' (by simp [Bindings.contains])
      · exact (hfree v hv).1.2 hv'
    have condition_free : ∀ v ∈ Expr.varsOf condition, β.contains v = false := by
      intro v hv
      rw [Bool.eq_false_iff]
      exact fun hβ => (hfree v hβ).2 hv
    have optional : ∀ x, Rows.fix β (Feed.optionalRows (Expr.acceptsAll condition) x
        (right.rows r x)) = (Rows.fix β {x}).bind fun y =>
          Feed.optionalRows (Expr.acceptsAll condition) y (right.rows r y) := by
      intro x
      have parts := fix_optionalRows right_free condition_free x
      simp only [← rows_of_bare hr hb.2] at parts
      exact parts
    rw [substituteFilters, rows, Rows.fix_bind, Multiset.bind_congr fun x _ => optional x,
      ← Multiset.bind_assoc, ← Rows.fix_eq_bind, ih hb.1 fun v hv => (hfree v hv).1.1,
      Multiset.bind_assoc]
    rfl

/-! ### Filters inside a plan -/

mutual

/-- Every filter inside a plan that mentions a fixed variable stands where the variable is bound: in
the part below it or by one of the given variables. -/
def Scoped (β : Bindings) : List String → Plan → Prop
  | vars, filter condition a =>
    a.Scoped β vars ∧
      ∀ v ∈ condition.vars, β.contains v = true → v ∈ vars ∨ v ∈ a.reachableVars
  | vars, join args _ => ScopedAll β vars args
  | vars, leftJoin left _ _ => left.Scoped β vars
  | _, _ => True

/-- The same for the arguments of a join, which stand behind one another. -/
def ScopedAll (β : Bindings) : List String → List Plan → Prop
  | _, [] => True
  | vars, a :: rest => a.Scoped β vars ∧ ScopedAll β (vars ++ a.reachableVars) rest

end

mutual

theorem Conjunctive.contains_of_mem_reachableVars : ∀ {p : Plan}, p.Conjunctive r →
    ∀ {b c : Bindings}, c ∈ p.rows r b → ∀ v ∈ p.reachableVars, c.contains v = true
  | statement s, h, b, c, hc, v, hv => by
    refine (Statement.contains_of_mem_wantedRows hc v).2 (.inr ⟨hv, ?_⟩)
    rw [h.2]
    exact List.not_mem_nil
  | group g, h, b, c, hc, v, hv => by
    refine (ExclusiveGroup.contains_of_mem_wantedRows hc v).2 (.inr ⟨hv, ?_⟩)
    rw [h.2.2]
    exact List.not_mem_nil
  | independent members, h, b, c, hc, v, hv => by
    obtain ⟨s, hs, hv⟩ := List.mem_flatMap.1 hv
    refine (contains_of_mem_independent hc v).2 (.inr ⟨s, hs, hv, ?_⟩)
    rw [(h s hs).2]
    exact List.not_mem_nil
  | join args _, h, b, c, hc, v, hv => by
    rw [rows_join h] at hc
    exact ConjunctiveAll.contains_of_mem_reachableVars (l := args) h hc v hv
  | filter _ a, h, b, c, hc, v, hv =>
    Conjunctive.contains_of_mem_reachableVars (p := a) h (Multiset.mem_of_mem_filter hc) v hv

theorem ConjunctiveAll.contains_of_mem_reachableVars : ∀ {l : List Plan}, ConjunctiveAll r l →
    ∀ {X : Rows} {c : Bindings}, c ∈ restRows r l X →
      ∀ v ∈ reachableVarsAll l, c.contains v = true
  | [], _, _, _, _, _, hv => absurd hv List.not_mem_nil
  | a :: rest, h, X, c, hc, v, hv => by
    rw [restRows_cons_of_conjunctive h.1] at hc
    rcases List.mem_append.1 hv with hv | hv
    · obtain ⟨y, hy, hyc⟩ := grows_of_mem_restRows rest hc
      obtain ⟨x, -, hy⟩ := Multiset.mem_bind.1 hy
      exact hyc.extended.contains (h.1.contains_of_mem_reachableVars hy v hv)
    · exact h.2.contains_of_mem_reachableVars hc v hv

end

/-- The variables that statements bind in every row are bound. -/
theorem Pushable.contains_of_mem_reachableVars {p : Plan} (h : p.Pushable r)
    (hc : c ∈ p.rows r b) (hv : v ∈ p.reachableVars) : c.contains v = true := by
  induction h generalizing c with
  | conjunctive hp => exact hp.contains_of_mem_reachableVars hc v hv
  | leftJoin _ _ ih =>
    obtain ⟨x, hx, hc⟩ := Multiset.mem_bind.1 hc
    have bound := ih hx hv
    rcases mem_optionalRows hc with rfl | hc
    · exact bound
    · exact (grows_of_mem_rows _ hc).extended.contains bound

mutual

theorem reachableVars_substituteFilters :
    ∀ p : Plan, (p.substituteFilters β).reachableVars = p.reachableVars
  | join args _ => reachableVarsAll_substituteFiltersAll args
  | filter _ a => reachableVars_substituteFilters a
  | leftJoin left _ _ => reachableVars_substituteFilters left
  | statement _ => rfl
  | group _ => rfl
  | independent _ => rfl
  | union _ => rfl
  | service _ => rfl
  | passThrough .. => rfl
  | empty => rfl
  | project .. => rfl
  | slice .. => rfl
  | distinct _ => rfl

theorem reachableVarsAll_substituteFiltersAll :
    ∀ args : List Plan, reachableVarsAll (substituteFiltersAll β args) = reachableVarsAll args
  | [] => rfl
  | a :: rest => by
    rw [substituteFiltersAll, reachableVarsAll, reachableVarsAll,
      reachableVars_substituteFilters a, reachableVarsAll_substituteFiltersAll rest]

end

end Plan

/-- The rows that agree with some terms. -/
def Rows.agreeing (β : Bindings) (X : Rows) : Rows := X.filter fun c => (β.merge? c).isSome = true

namespace Rows

theorem mem_agreeing {X : Rows} : c ∈ agreeing β X ↔ c ∈ X ∧ β.Agrees c := by
  rw [agreeing, Multiset.mem_filter, Bindings.merge?_isSome_iff]

theorem agreeing_filter (β : Bindings) (X : Rows) (e : Expr) :
    agreeing β (X.filter (e.accepts · = true)) = (agreeing β X).filter (e.accepts · = true) :=
  Multiset.filter_comm ..

/-- Rows that disagree with some terms have no rows that agree with them. -/
theorem agreeing_bind {X : Rows} {f : Bindings → Rows} (h : ∀ x ∈ X, ∀ c ∈ f x, x.Extends c) :
    agreeing β (X.bind f) = (agreeing β X).bind fun x => agreeing β (f x) := by
  rw [agreeing, Multiset.filter_bind, agreeing, Multiset.bind_filter]
  refine Multiset.bind_congr fun x hx => ?_
  split
  · rfl
  · next hag =>
    refine Multiset.filter_eq_nil.2 fun c hc hcag => hag ?_
    rw [Bindings.merge?_isSome_iff] at hcag ⊢
    exact fun v s t hs ht => hcag v s t hs (h x hx c hc v t ht)

end Rows

namespace Plan

/-- Terms may be put into a condition without changing what it says of rows that have them. -/
theorem filter_substitute {X : Rows} (hX : ∀ x ∈ X, β.Agrees x)
    (h : ∀ x ∈ X, ∀ v ∈ e.vars, β.contains v = true → x.contains v = true) :
    X.filter ((e.substitute β).accepts · = true) = X.filter (e.accepts · = true) := by
  refine Multiset.filter_congr fun x hx => ?_
  rw [Expr.accepts_substitute fun v hv => ?_]
  cases hβ : β.get? v with
  | none => rfl
  | some t =>
    obtain ⟨s, hs⟩ := Bindings.contains_iff.1 (h x hx v hv (Bindings.contains_iff.2 ⟨t, hβ⟩))
    rw [hs, hX x hx v t s hβ hs]
    rfl

mutual

theorem agreeing_of_conjunctive : ∀ {p : Plan} {vars : List String}, p.Conjunctive r →
    p.Scoped β vars → ∀ {b : Bindings}, (∀ v ∈ vars, b.contains v = true) →
      Rows.agreeing β ((p.substituteFilters β).rows r b) = Rows.agreeing β (p.rows r b)
  | statement _, _, _, _, _, _ => rfl
  | group _, _, _, _, _, _ => rfl
  | independent _, _, _, _, _, _ => rfl
  | join args _, vars, h, hs, b, hb => by
    have hsub : ConjunctiveAll r (substituteFiltersAll β args) :=
      ConjunctiveAll.substituteFiltersAll h
    rw [substituteFilters, rows_join hsub, rows_join h]
    refine agreeing_restRows h hs rfl fun x hx => ?_
    obtain rfl := Multiset.mem_singleton.1 hx
    exact hb
  | filter condition a, vars, h, hs, b, hb => by
    have inner := agreeing_of_conjunctive (p := a) h hs.1 hb
    rw [substituteFilters, rows, rows, Rows.agreeing_filter, Rows.agreeing_filter, inner]
    refine filter_substitute (fun x hx => (Rows.mem_agreeing.1 hx).2) fun x hx v hv hβ => ?_
    have hx := (Rows.mem_agreeing.1 hx).1
    rcases hs.2 v hv hβ with hvars | hreach
    · exact (grows_of_mem_rows a hx).extended.contains (hb v hvars)
    · exact Conjunctive.contains_of_mem_reachableVars (p := a) h hx v hreach

theorem agreeing_restRows : ∀ {l : List Plan} {vars : List String}, ConjunctiveAll r l →
    ScopedAll β vars l → ∀ {X Y : Rows}, Rows.agreeing β X = Rows.agreeing β Y →
    (∀ y ∈ Y, ∀ v ∈ vars, y.contains v = true) →
      Rows.agreeing β (restRows r (substituteFiltersAll β l) X) =
        Rows.agreeing β (restRows r l Y)
  | [], _, _, _, _, _, hXY, _ => hXY
  | a :: rest, vars, h, hs, X, Y, hXY, hY => by
    rw [substituteFiltersAll, restRows_cons_of_conjunctive h.1,
      restRows_cons_of_conjunctive h.1.substituteFilters]
    refine agreeing_restRows h.2 hs.2 ?_ fun y hy v hv => ?_
    · rw [Rows.agreeing_bind fun x _ c hc => (grows_of_mem_rows _ hc).extended,
        Rows.agreeing_bind fun x _ c hc => (grows_of_mem_rows _ hc).extended, hXY]
      refine Multiset.bind_congr fun x hx => ?_
      exact agreeing_of_conjunctive h.1 hs.1 (hY x (Rows.mem_agreeing.1 hx).1)
    · obtain ⟨x, hx, hy⟩ := Multiset.mem_bind.1 hy
      rcases List.mem_append.1 hv with hv | hv
      · exact (grows_of_mem_rows a hy).extended.contains (hY x hx v hv)
      · exact h.1.contains_of_mem_reachableVars hy v hv

end

/-- **Putting fixed terms into the filters inside a plan changes no row that agrees with them**, if
every filter that mentions a fixed variable stands where it is bound. -/
theorem agreeing_substituteFilters {p : Plan} {vars : List String} (h : p.Pushable r)
    (hs : p.Scoped β vars) (hb : ∀ v ∈ vars, b.contains v = true) :
    Rows.agreeing β ((p.substituteFilters β).rows r b) = Rows.agreeing β (p.rows r b) := by
  induction h with
  | conjunctive hp => exact agreeing_of_conjunctive hp hs hb
  | @leftJoin left right condition _ _ ih =>
    have extended : ∀ x : Bindings, ∀ c ∈ Feed.optionalRows (Expr.acceptsAll condition) x
        (right.rows r x), x.Extends c := by
      intro x c hc
      rcases mem_optionalRows hc with rfl | hc
      · exact .refl c
      · exact (grows_of_mem_rows right hc).extended
    rw [substituteFilters, rows, rows, Rows.agreeing_bind fun x _ => extended x,
      Rows.agreeing_bind fun x _ => extended x, ih hs]

end Plan

end FederatedSparql
