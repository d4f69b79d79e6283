import FederatedSparql.Proofs.Engine.Parts

/-!
What plans come to.

`Plan.rows` gives the rows of a plan under a binding set as a multiset, by recursion on the plan: a
join is a product that goes from left to right, an optional part is asked for once per row, and so
on.  It covers the plans that stand below a projection of a query without SERVICE clauses.

* `Plan.grows_of_mem_rows`: rows extend the binding set that they are asked for under, by variables
  of the plan only.
* `Plan.card_rows_le_width`: a plan has no more rows than the triples behind its patterns allow.
-/

namespace FederatedSparql

variable {r : Registry} {b c x y : Bindings} {v : String}

/-! ### Rows -/

namespace Plan

mutual

/-- The rows of a plan that extend a binding set, without the variables that endpoints may leave
out. -/
def rows (r : Registry) : Plan → Bindings → Rows
  | statement s, b => s.wantedRows r b
  | group g, b => g.wantedRows r b
  | independent members, b => {b} * (members.map fun s => s.wantedRows r b).prod
  | join args _, b => joinRows r args b
  | union args, b => unionRows r args b
  | filter condition a, b => (a.rows r b).filter (condition.accepts · = true)
  | leftJoin left right condition, b =>
    (left.rows r b).bind fun x => Feed.optionalRows (Expr.acceptsAll condition) x (right.rows r x)
  | distinct a, b => (a.rows r b).dedup
  | _, _ => 0

/-- The rows of a join. -/
def joinRows (r : Registry) : List Plan → Bindings → Rows
  | [], b => {b}
  | first :: rest, b => restRows r rest (first.rows r b)

/-- The rows that further arguments of a join make of rows.  For a block of rows endpoints leave
nothing out. -/
def restRows (r : Registry) : List Plan → Rows → Rows
  | [], X => X
  | right :: rest, X =>
    restRows r rest (X.bind fun x =>
      match right with
      | statement s => s.rows r x
      | independent members => Statement.joinedRows r members x
      | _ => right.rows r x)

/-- The rows of all plans. -/
def unionRows (r : Registry) : List Plan → Bindings → Rows
  | [], _ => 0
  | a :: rest, b => a.rows r b + unionRows r rest b

end

/-- The rows of a plan as the right argument of a join. -/
def rightRows (r : Registry) (p : Plan) (b : Bindings) : Rows :=
  match p with
  | statement s => s.rows r b
  | independent members => Statement.joinedRows r members b
  | _ => p.rows r b

theorem restRows_cons (a : Plan) (rest : List Plan) (X : Rows) :
    restRows r (a :: rest) X = restRows r rest (X.bind (a.rightRows r)) := by
  cases a <;> rfl

@[simp] theorem restRows_zero (args : List Plan) : restRows r args 0 = 0 := by
  induction args with
  | nil => rfl
  | cons a rest ih => rw [restRows_cons, Multiset.zero_bind, ih]

/-- Joining goes on with each row by itself. -/
theorem restRows_eq_bind (args : List Plan) (X : Rows) :
    restRows r args X = X.bind fun x => restRows r args {x} := by
  induction args generalizing X with
  | nil =>
    show X = X.bind fun x => {x}
    rw [Multiset.bind_singleton, Multiset.map_id']
  | cons a rest ih =>
    rw [restRows_cons, ih, Multiset.bind_assoc]
    refine Multiset.bind_congr fun x _ => ?_
    rw [restRows_cons, Multiset.singleton_bind, ih]

theorem unionRows_eq_sum (args : List Plan) (b : Bindings) :
    unionRows r args b = (args.map fun a => a.rows r b).sum := by
  induction args with
  | nil => rfl
  | cons a rest ih => rw [unionRows, ih, List.map_cons, List.sum_cons]


/-! ### What rows bind -/

end Plan

namespace Bindings

/-- The second mapping extends the first one by some of the variables. -/
structure Grows (vars : List String) (a b : Bindings) : Prop where
  extended : a.Extends b
  within : ∀ v, b.contains v = true → a.contains v = true ∨ v ∈ vars

theorem Grows.refl (vars : List String) (a : Bindings) : Grows vars a a :=
  ⟨.refl a, fun _ h => .inl h⟩

theorem Grows.mono {vars more : List String} {a b : Bindings} (h : Grows vars a b)
    (hv : ∀ v ∈ vars, v ∈ more) : Grows more a b :=
  ⟨h.extended, fun v hb => (h.within v hb).imp_right (hv v)⟩

theorem Grows.trans {vars : List String} {a b c : Bindings} (hab : Grows vars a b)
    (hbc : Grows vars b c) : Grows vars a c := by
  refine ⟨hab.extended.trans hbc.extended, fun v hv => ?_⟩
  rcases hbc.within v hv with hb | hm
  · exact hab.within v hb
  · exact .inr hm

end Bindings

section Projection

variable {vars free localVars : List String}

/-- What a row binds that lacks local variables, unless they were bound before. -/
theorem contains_projectRow_wanted (hx : ∀ v, x.contains v = true ↔ b.contains v = true ∨ v ∈ vars)
    (hfree : ∀ v, v ∈ free ↔ v ∈ vars ∧ b.contains v = false) (v : String) :
    (Store.projectRow (Environment.wanted free localVars) b x).contains v = true ↔
      b.contains v = true ∨ v ∈ vars ∧ v ∉ localVars := by
  unfold Environment.wanted
  split
  · next hempty =>
    rw [List.isEmpty_iff] at hempty
    simp [Store.projectRow, hx, hempty]
  · rw [Store.projectRow, Bindings.contains_iff]
    simp only [Bindings.get?_project, List.mem_append, List.mem_filter, hfree,
      Bindings.mem_names_iff, Option.ite_none_right_eq_some, exists_and_left,
      ← Bindings.contains_iff, hx]
    cases b.contains v with
    | true => simp
    | false => simp; tauto

theorem extends_projectRow {projection : Option (List String)} (h : b.Extends x) :
    b.Extends (Store.projectRow projection b x) := by
  cases projection with
  | none => exact h
  | some vars =>
    intro v t ht
    have hv : v ∈ b.names := Bindings.mem_names_iff.2 (Bindings.contains_iff.2 ⟨t, ht⟩)
    rw [Store.projectRow, Bindings.get?_project, if_pos (List.mem_append_right _ hv)]
    exact h v t ht

end Projection

namespace Statement

variable {s : Statement}

theorem mem_freeVars : v ∈ s.freeVars ↔ v ∈ s.effectivePattern.vars := by
  rw [freeVars, TriplePattern.mem_freeVars, effectivePattern, TriplePattern.mem_vars_bind,
    Bindings.contains_eq_false_iff]

theorem contains_of_mem_wantedRows (h : c ∈ s.wantedRows r b) (v : String) :
    c.contains v = true ↔ b.contains v = true ∨ v ∈ s.freeVars ∧ v ∉ s.localVars := by
  obtain ⟨x, hx, rfl⟩ := Multiset.mem_map.1 h
  rw [mem_freeVars]
  exact contains_projectRow_wanted (contains_of_mem_rows hx)
    (fun v => TriplePattern.mem_freeVars) v

theorem grows_of_mem_rows (h : c ∈ s.rows r b) : b.Grows s.freeVars c :=
  ⟨extends_of_mem_rows h, fun v hv => by
    rw [mem_freeVars]
    exact (contains_of_mem_rows h v).1 hv⟩

theorem grows_of_mem_wantedRows (h : c ∈ s.wantedRows r b) : b.Grows s.freeVars c where
  extended := by
    obtain ⟨x, hx, rfl⟩ := Multiset.mem_map.1 h
    exact extends_projectRow (extends_of_mem_rows hx)
  within v hv := ((contains_of_mem_wantedRows h v).1 hv).imp_right And.left

end Statement

namespace ExclusiveGroup

variable {g : ExclusiveGroup}

theorem mem_freeVars : v ∈ g.freeVars ↔ ∃ p ∈ g.patterns, v ∈ p.vars := by
  simp [freeVars]

theorem mem_freeVarsUnder : v ∈ g.freeVarsUnder b ↔ v ∈ g.freeVars ∧ b.contains v = false := by
  simp only [freeVarsUnder, mem_freeVars, List.mem_eraseDups, List.mem_flatMap, List.mem_map,
    exists_exists_and_eq_and, TriplePattern.mem_vars_bind, Bindings.contains_eq_false_iff]
  constructor
  · rintro ⟨p, hp, hv, hb⟩
    exact ⟨⟨p, hp, hv⟩, hb⟩
  · rintro ⟨⟨p, hp, hv⟩, hb⟩
    exact ⟨p, hp, hv, hb⟩

theorem contains_of_mem_rows (h : c ∈ g.rows r b) (v : String) :
    c.contains v = true ↔ b.contains v = true ∨ v ∈ g.freeVars := by
  rw [mem_freeVars]
  exact Store.contains_of_mem_filteredRows h v

theorem contains_of_mem_wantedRows (h : c ∈ g.wantedRows r b) (v : String) :
    c.contains v = true ↔ b.contains v = true ∨ v ∈ g.freeVars ∧ v ∉ g.localVars := by
  obtain ⟨x, hx, rfl⟩ := Multiset.mem_map.1 h
  exact contains_projectRow_wanted (contains_of_mem_rows hx) (fun v => mem_freeVarsUnder) v

theorem grows_of_mem_wantedRows (h : c ∈ g.wantedRows r b) : b.Grows g.freeVars c where
  extended := by
    obtain ⟨x, hx, rfl⟩ := Multiset.mem_map.1 h
    exact extends_projectRow (Store.extends_of_mem_filteredRows hx)
  within v hv := ((contains_of_mem_wantedRows h v).1 hv).imp_right And.left

end ExclusiveGroup

namespace Plan

theorem freeVarsAll_append (xs ys : List Plan) :
    freeVarsAll (xs ++ ys) = freeVarsAll xs ++ freeVarsAll ys := by
  induction xs with
  | nil => rfl
  | cons a xs ih => rw [List.cons_append, freeVarsAll, freeVarsAll, ih, List.append_assoc]

/-- What the rows of a product bind besides a binding set. -/
theorem contains_of_mem_prod {members : List Statement} {R : Statement → Bindings → Rows}
    {Binds : Statement → String → Prop}
    (hR : ∀ s ∈ members, ∀ y ∈ R s b, ∀ v,
      y.contains v = true ↔ b.contains v = true ∨ Binds s v)
    (h : c ∈ ({b} : Rows) * (members.map fun s => R s b).prod) (v : String) :
    c.contains v = true ↔ b.contains v = true ∨ ∃ s ∈ members, Binds s v := by
  induction members generalizing c with
  | nil =>
    rw [List.map_nil, List.prod_nil, mul_one, Multiset.mem_singleton] at h
    simp [h]
  | cons s members ih =>
    rw [List.map_cons, List.prod_cons, mul_left_comm] at h
    obtain ⟨y, hy, z, hz, hc⟩ := Rows.mem_mul.1 h
    have hy := hR s List.mem_cons_self y hy v
    have hz := ih (fun t ht => hR t (List.mem_cons_of_mem s ht)) hz
    rw [Bindings.contains_of_merge hc, Bool.or_eq_true, hy, hz, List.exists_mem_cons_iff]
    tauto

theorem contains_of_mem_joinedRows {members : List Statement}
    (h : c ∈ Statement.joinedRows r members b) (v : String) :
    c.contains v = true ↔ b.contains v = true ∨ v ∈ (independent members).freeVars := by
  have each : ∀ s ∈ members, ∀ y ∈ s.rows r b, ∀ v,
      y.contains v = true ↔ b.contains v = true ∨ v ∈ s.freeVars := fun s _ y hy v => by
    rw [Statement.contains_of_mem_rows hy, Statement.mem_freeVars]
  have bound := contains_of_mem_prod each h v
  rw [bound]
  simp [freeVars]

theorem contains_of_mem_independent {members : List Statement}
    (h : c ∈ (independent members).rows r b) (v : String) :
    c.contains v = true ↔
      b.contains v = true ∨ ∃ s ∈ members, v ∈ s.freeVars ∧ v ∉ s.localVars :=
  contains_of_mem_prod (fun _ _ _ hy => Statement.contains_of_mem_wantedRows hy) h v

theorem mem_optionalRows {keep : Bindings → Bool} {matched : Rows}
    (h : c ∈ Feed.optionalRows keep x matched) : c = x ∨ c ∈ matched := by
  unfold Feed.optionalRows at h
  split at h
  · exact .inl (Multiset.mem_singleton.1 h)
  · exact .inr (Multiset.mem_of_mem_filter h)

theorem grows_of_mem_rightRows {a : Plan} (ha : c ∈ a.rows r b → b.Grows a.freeVars c)
    (h : c ∈ a.rightRows r b) : b.Grows a.freeVars c := by
  cases a with
  | statement s => exact Statement.grows_of_mem_rows h
  | independent members =>
    exact ⟨Rows.extends_of_mem_singleton_mul h, fun v => (contains_of_mem_joinedRows h v).1⟩
  | _ => exact ha h

mutual

/-- **Rows extend the binding set by variables of the plan.** -/
theorem grows_of_mem_rows : ∀ (p : Plan) {b c : Bindings}, c ∈ p.rows r b → b.Grows p.freeVars c
  | statement s, b, c, h => Statement.grows_of_mem_wantedRows h
  | group g, b, c, h => ExclusiveGroup.grows_of_mem_wantedRows h
  | independent members, b, c, h => by
    refine ⟨Rows.extends_of_mem_singleton_mul h, fun v hv => ?_⟩
    refine ((contains_of_mem_independent h v).1 hv).imp_right fun ⟨s, hs, hv, _⟩ => ?_
    exact List.mem_eraseDups.2 (List.mem_flatMap.2 ⟨s, hs, hv⟩)
  | join args _, b, c, h => by
    suffices grown : b.Grows (freeVarsAll args) c from
      grown.mono fun v hv => List.mem_eraseDups.2 hv
    cases args with
    | nil =>
      obtain rfl := Multiset.mem_singleton.1 h
      exact .refl _ c
    | cons first rest =>
      obtain ⟨x, hx, hc⟩ := grows_of_mem_restRows rest h
      exact ((grows_of_mem_rows first hx).mono fun v => List.mem_append_left _).trans
        (hc.mono fun v => List.mem_append_right _)
  | union args, b, c, h =>
    (grows_of_mem_unionRows args h).mono fun v hv => List.mem_eraseDups.2 hv
  | filter _ a, b, c, h => grows_of_mem_rows a (Multiset.mem_of_mem_filter h)
  | leftJoin left right _, b, c, h => by
    obtain ⟨x, hx, hc⟩ := Multiset.mem_bind.1 h
    have hbx : b.Grows (leftJoin left right none).freeVars x :=
      (grows_of_mem_rows left hx).mono fun v hv =>
        List.mem_eraseDups.2 (List.mem_append_left _ hv)
    rcases mem_optionalRows hc with rfl | hc
    · exact hbx
    · exact hbx.trans <| (grows_of_mem_rows right hc).mono fun v hv =>
        List.mem_eraseDups.2 (List.mem_append_right _ hv)
  | distinct a, b, c, h => grows_of_mem_rows a (Multiset.mem_dedup.1 h)
  | service _, _, _, h => by simp [rows] at h
  | passThrough .., _, _, h => by simp [rows] at h
  | empty, _, _, h => by simp [rows] at h
  | project .., _, _, h => by simp [rows] at h
  | slice .., _, _, h => by simp [rows] at h

theorem grows_of_mem_restRows :
    ∀ (args : List Plan) {X : Rows} {c : Bindings}, c ∈ restRows r args X →
      ∃ x ∈ X, x.Grows (freeVarsAll args) c
  | [], X, c, h => ⟨c, h, .refl _ c⟩
  | a :: rest, X, c, h => by
    rw [restRows_cons] at h
    obtain ⟨y, hy, hc⟩ := grows_of_mem_restRows rest h
    obtain ⟨x, hx, hy⟩ := Multiset.mem_bind.1 hy
    have hxy : x.Grows a.freeVars y := grows_of_mem_rightRows (grows_of_mem_rows a) hy
    exact ⟨x, hx, (hxy.mono fun v => List.mem_append_left _).trans
      (hc.mono fun v => List.mem_append_right _)⟩

theorem grows_of_mem_unionRows :
    ∀ (args : List Plan) {b c : Bindings}, c ∈ unionRows r args b → b.Grows (freeVarsAll args) c
  | [], b, c, h => by simp [unionRows] at h
  | a :: rest, b, c, h => by
    rcases Multiset.mem_add.1 h with h | h
    · exact (grows_of_mem_rows a h).mono fun v => List.mem_append_left _
    · exact (grows_of_mem_unionRows rest h).mono fun v => List.mem_append_right _

end

/-! ### How many rows there are -/

end Plan

namespace Rows

theorem card_filterMap_le {α β : Type} (f : α → Option β) (X : Multiset α) :
    Multiset.card (X.filterMap f) ≤ Multiset.card X :=
  Quot.inductionOn X fun xs => xs.length_filterMap_le f

theorem card_singleton_mul_le (b : Bindings) (X : Rows) :
    Multiset.card ({b} * X) ≤ Multiset.card X := by
  rw [singleton_mul]
  exact card_filterMap_le _ X

theorem card_bind_le {n : Nat} {X : Rows} {f : Bindings → Rows}
    (h : ∀ x ∈ X, Multiset.card (f x) ≤ n) : Multiset.card (X.bind f) ≤ Multiset.card X * n := by
  induction X using Multiset.induction with
  | empty => simp
  | cons x X ih =>
    rw [Multiset.cons_bind, Multiset.card_add, Multiset.card_cons, Nat.succ_mul, Nat.add_comm]
    exact Nat.add_le_add (ih fun y hy => h y (Multiset.mem_cons_of_mem hy))
      (h x (Multiset.mem_cons_self x X))

theorem card_mul_le (X Y : Rows) : Multiset.card (X * Y) ≤ Multiset.card X * Multiset.card Y := by
  rw [← bind_singleton_mul]
  exact card_bind_le fun x _ => card_singleton_mul_le x Y

end Rows

theorem Store.card_bgpSolutions_le (triples : List Triple) (ps : List TriplePattern) :
    Multiset.card (Store.bgpSolutions triples ps) ≤ triples.length ^ ps.length := by
  induction ps with
  | nil => simp [Rows.one_def]
  | cons p ps ih =>
    rw [Store.bgpSolutions_cons, List.length_cons, pow_succ']
    refine (Rows.card_mul_le _ _).trans (Nat.mul_le_mul ?_ ih)
    exact (Rows.card_filterMap_le _ (triples : Multiset Triple)).trans_eq
      (Multiset.coe_card triples)

theorem Store.card_filteredRows_le (triples : List Triple) (ps : List TriplePattern)
    (f : Option Expr) (b : Bindings) :
    Multiset.card (Store.filteredRows triples ps f b) ≤ triples.length ^ ps.length :=
  (Multiset.card_le_card (Multiset.filter_le _ _)).trans <|
    (Rows.card_singleton_mul_le b _).trans (Store.card_bgpSolutions_le triples ps)

/-- How many rows a statement can have at most, and at least one. -/
def Statement.width (r : Registry) (s : Statement) : Nat := max 1 (r.triplesOf s.sources).length

/-- How many rows a group can have at most, and at least one. -/
def ExclusiveGroup.width (r : Registry) (g : ExclusiveGroup) : Nat :=
  max 1 (r.triplesOf [g.owner]).length ^ g.patterns.length

theorem Statement.card_rows_le (s : Statement) (b : Bindings) :
    Multiset.card (s.rows r b) ≤ s.width r := by
  refine (Store.card_filteredRows_le ..).trans ?_
  rw [List.length_singleton, pow_one]
  exact le_max_right ..

theorem Statement.card_wantedRows_le (s : Statement) (b : Bindings) :
    Multiset.card (s.wantedRows r b) ≤ s.width r := by
  rw [wantedRows, Multiset.card_map]
  exact s.card_rows_le b

theorem ExclusiveGroup.card_wantedRows_le (g : ExclusiveGroup) (b : Bindings) :
    Multiset.card (g.wantedRows r b) ≤ g.width r := by
  rw [wantedRows, Multiset.card_map]
  exact (Store.card_filteredRows_le ..).trans (Nat.pow_le_pow_left (le_max_right ..) _)

namespace Plan

mutual

/-- How many rows a plan can have at most by the triples behind its patterns, and at least one. -/
def width (r : Registry) : Plan → Nat
  | statement s => s.width r
  | group g => g.width r
  | independent members => (members.map (·.width r)).prod
  | join args _ => joinWidth r args
  | union args => unionWidth r args
  | filter _ a => a.width r
  | leftJoin left right _ => left.width r * right.width r
  | distinct a => a.width r
  | _ => 1

/-- How many rows a join can have at most. -/
def joinWidth (r : Registry) : List Plan → Nat
  | [] => 1
  | a :: rest => a.width r * joinWidth r rest

/-- How many rows a union can have at most, and at least one. -/
def unionWidth (r : Registry) : List Plan → Nat
  | [] => 1
  | a :: rest => a.width r + unionWidth r rest

end

mutual

theorem width_pos : ∀ p : Plan, 0 < p.width r
  | statement _ => Nat.lt_of_lt_of_le Nat.one_pos (le_max_left ..)
  | group _ => Nat.pow_pos (Nat.lt_of_lt_of_le Nat.one_pos (le_max_left ..))
  | independent members => by
    show 0 < (members.map (·.width r)).prod
    induction members with
    | nil => exact Nat.one_pos
    | cons s members ih =>
      exact Nat.mul_pos (Nat.lt_of_lt_of_le Nat.one_pos (le_max_left ..)) ih
  | join args _ => joinWidth_pos args
  | union args => unionWidth_pos args
  | filter _ a => width_pos a
  | leftJoin left right _ => Nat.mul_pos (width_pos left) (width_pos right)
  | distinct a => width_pos a
  | service _ => Nat.one_pos
  | passThrough .. => Nat.one_pos
  | empty => Nat.one_pos
  | project .. => Nat.one_pos
  | slice .. => Nat.one_pos

theorem joinWidth_pos : ∀ args : List Plan, 0 < joinWidth r args
  | [] => Nat.one_pos
  | a :: rest => Nat.mul_pos (width_pos a) (joinWidth_pos rest)

theorem unionWidth_pos : ∀ args : List Plan, 0 < unionWidth r args
  | [] => Nat.one_pos
  | a :: _ => Nat.add_pos_left (width_pos a) _

end

theorem card_prod_le {members : List Statement} {R : Statement → Rows}
    (h : ∀ s ∈ members, Multiset.card (R s) ≤ s.width r) (b : Bindings) :
    Multiset.card ({b} * (members.map R).prod) ≤ (members.map (·.width r)).prod := by
  refine (Rows.card_singleton_mul_le b _).trans ?_
  induction members with
  | nil => simp [Rows.one_def]
  | cons s members ih =>
    rw [List.map_cons, List.map_cons, List.prod_cons, List.prod_cons]
    exact (Rows.card_mul_le _ _).trans
      (Nat.mul_le_mul (h s List.mem_cons_self) (ih fun t ht => h t (List.mem_cons_of_mem s ht)))

theorem card_rightRows_le {a : Plan} (ha : Multiset.card (a.rows r b) ≤ a.width r) :
    Multiset.card (a.rightRows r b) ≤ a.width r := by
  cases a with
  | statement s => exact s.card_rows_le b
  | independent members => exact card_prod_le (fun s _ => s.card_rows_le b) b
  | _ => exact ha

mutual

/-- **A plan has no more rows than the triples behind its patterns allow.** -/
theorem card_rows_le_width : ∀ (p : Plan) (b : Bindings), Multiset.card (p.rows r b) ≤ p.width r
  | statement s, b => s.card_wantedRows_le b
  | group g, b => g.card_wantedRows_le b
  | independent members, b => card_prod_le (fun s _ => s.card_wantedRows_le b) b
  | join [] _, b => (Multiset.card_singleton b).le
  | join (first :: rest) _, b =>
    (card_restRows_le rest _).trans (Nat.mul_le_mul_right _ (card_rows_le_width first b))
  | union args, b => card_unionRows_le args b
  | filter _ a, b =>
    (Multiset.card_le_card (Multiset.filter_le _ _)).trans (card_rows_le_width a b)
  | leftJoin left right _, b => by
    refine (Rows.card_bind_le fun x _ => ?_).trans
      (Nat.mul_le_mul_right _ (card_rows_le_width left b))
    unfold Feed.optionalRows
    split
    · exact (Multiset.card_singleton x).trans_le (width_pos right)
    · exact (Multiset.card_le_card (Multiset.filter_le _ _)).trans (card_rows_le_width right x)
  | distinct a, b =>
    (Multiset.card_le_card (Multiset.dedup_le _)).trans (card_rows_le_width a b)
  | service _, _ => Nat.zero_le _
  | passThrough .., _ => Nat.zero_le _
  | empty, _ => Nat.zero_le _
  | project .., _ => Nat.zero_le _
  | slice .., _ => Nat.zero_le _

theorem card_restRows_le : ∀ (args : List Plan) (X : Rows),
    Multiset.card (restRows r args X) ≤ Multiset.card X * joinWidth r args
  | [], X => (Nat.mul_one _).ge
  | a :: rest, X => by
    rw [restRows_cons, joinWidth, ← Nat.mul_assoc]
    refine (card_restRows_le rest _).trans (Nat.mul_le_mul_right _ ?_)
    exact Rows.card_bind_le fun x _ => card_rightRows_le (card_rows_le_width a x)

theorem card_unionRows_le : ∀ (args : List Plan) (b : Bindings),
    Multiset.card (unionRows r args b) ≤ unionWidth r args
  | [], _ => Nat.zero_le _
  | a :: rest, b => by
    rw [unionRows, unionWidth, Multiset.card_add]
    exact Nat.add_le_add (card_rows_le_width a b) (card_unionRows_le rest b)

end

end Plan

end FederatedSparql
