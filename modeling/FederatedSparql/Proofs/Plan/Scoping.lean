import FederatedSparql.Plan.Scope
import FederatedSparql.Proofs.Plan.NestedFilters

/-!
Leaving out local variables keeps the rest of the rows.

A variable that one argument of a join alone mentions cannot decide whether rows merge, so it may be
left out before they do.  What marking local variables does to a plan is told by `Plan.Marks`, without
the numbers that go round while it is done.

* `Plan.restrict_rows_of_marks`: rows of a marked plan agree with those of the plan as it was, but for
  local variables.
* `Plan.scopeVars_project`: below a projection only variables are marked that are local to one argument
  and are not kept.
-/

namespace FederatedSparql

variable {r : Registry} {b x y z : Bindings} {v : String} {isLocal : String → Bool}

/-! ### Rows beside each other -/

namespace Bindings

/-- What the second mapping binds is bound by the first one to the same, or is one of some variables
that the first one leaves free. -/
def Adds (b : Bindings) (vars : List String) (y : Bindings) : Prop :=
  ∀ v t, y.get? v = some t → b.get? v = some t ∨ b.get? v = none ∧ v ∈ vars

theorem Grows.adds {vars : List String} (h : b.Grows vars y) : b.Adds vars y := by
  intro v t ht
  cases hb : b.get? v with
  | none =>
    refine .inr ⟨rfl, ?_⟩
    rcases h.within v (contains_iff.2 ⟨t, ht⟩) with hv | hv
    · rw [contains, hb] at hv
      cases hv
    · exact hv
  | some u => exact .inl ((h.extended v u hb).symm.trans ht)

theorem adds_empty (vars : List String) : b.Adds vars ∅ := fun _ _ ht => nomatch ht

theorem Adds.merge {us vs : List String} (hx : b.Adds us x) (hy : b.Adds vs y)
    (hz : x.merge? y = some z) : b.Adds (us ++ vs) z := by
  intro v t ht
  rw [get?_of_merge hz] at ht
  rcases Option.or_eq_some_iff.1 ht with ht | ⟨-, ht⟩
  · exact (hx v t ht).imp_right fun h => ⟨h.1, List.mem_append_left _ h.2⟩
  · exact (hy v t ht).imp_right fun h => ⟨h.1, List.mem_append_right _ h.2⟩

/-- Rows that add variables to one binding set agree on all variables that not both add. -/
theorem Adds.eq_of_not_mem {us vs : List String} (hx : b.Adds us x) (hy : b.Adds vs y)
    (hv : v ∈ us → v ∉ vs) {s t : Term} (hs : x.get? v = some s) (ht : y.get? v = some t) : s = t := by
  rcases hx v s hs with hb | ⟨hb, hu⟩
  · rcases hy v t ht with hb' | ⟨hb', -⟩
    · exact Option.some.inj (hb.symm.trans hb')
    · rw [hb] at hb'
      cases hb'
  · rcases hy v t ht with hb' | ⟨-, hw⟩
    · rw [hb] at hb'
      cases hb'
    · exact absurd hw (hv hu)

end Bindings

/-- No local variable is mentioned in both lists. -/
def Apart (isLocal : String → Bool) (us vs : List String) : Prop :=
  ∀ v ∈ us, v ∈ vs → isLocal v = false

namespace Rows

/-- The rows without local variables. -/
abbrev shared (isLocal : String → Bool) (X : Rows) : Rows := X.restrict fun v => !isLocal v

/-- Local variables may be left out of the factors instead of the product. -/
theorem shared_mul {us vs : List String} {X Y : Rows} (h : Apart isLocal us vs)
    (hX : ∀ x ∈ X, b.Adds us x) (hY : ∀ y ∈ Y, b.Adds vs y) :
    shared isLocal (X * Y) = shared isLocal X * shared isLocal Y := by
  refine restrict_mul fun x hx y hy v hv s t hs ht => ?_
  refine (hX x hx).eq_of_not_mem (hY y hy) (fun hu hw => ?_) hs ht
  rw [h v hu hw] at hv
  cases hv

end Rows

/-! ### Marked statements and groups -/

namespace Statement

variable {s s' : Statement} {members members' : List Statement}

/-- The second statement is the first one with other local variables. -/
structure Marks (isLocal : String → Bool) (s s' : Statement) : Prop where
  same : s' = { s with localVars := s'.localVars }
  marked : ∀ v ∈ s'.localVars, isLocal v = true

theorem Marks.freeVars_eq (h : s.Marks isLocal s') : s'.freeVars = s.freeVars := by
  rw [h.same]
  rfl

theorem Marks.rows_eq (h : s.Marks isLocal s') (b : Bindings) : s'.rows r b = s.rows r b := by
  rw [h.same]
  rfl

theorem Marks.wellSourced (h : s.Marks isLocal s') (hs : s.WellSourced r) : s'.WellSourced r := by
  rw [h.same]
  exact ⟨hs.registers, hs.index⟩

theorem Marks.width_eq (h : s.Marks isLocal s') : s'.width r = s.width r := by
  rw [h.same]
  rfl

/-- A projection to what is asked for leaves out local variables only. -/
theorem restrict_projectRow {free localVars : List String}
    (hx : ∀ v, x.contains v = true → b.contains v = true ∨ v ∈ free)
    (hl : ∀ v ∈ localVars, isLocal v = true) :
    (Store.projectRow (Environment.wanted free localVars) b x).restrict (fun v => !isLocal v) =
      x.restrict fun v => !isLocal v := by
  unfold Environment.wanted
  split
  · rfl
  · refine Bindings.ext_get? fun v => ?_
    rw [Store.projectRow, Bindings.get?_restrict, Bindings.get?_restrict, Bindings.get?_project]
    split
    · next hv =>
      split
      · rfl
      · next hn =>
        refine (Bindings.contains_eq_false_iff.1 (Bool.eq_false_iff.2 fun hc => hn ?_)).symm
        rcases hx v hc with hb | hf
        · exact List.mem_append_right _ (Bindings.mem_names_iff.2 hb)
        · refine List.mem_append_left _ (List.mem_filter.2 ⟨hf, ?_⟩)
          rw [List.contains_eq_mem, Bool.not_eq_true', decide_eq_false_iff_not]
          intro hm
          rw [hl v hm] at hv
          cases hv
    · rfl

theorem Marks.shared_wantedRows (h : s.Marks isLocal s') (b : Bindings) :
    Rows.shared isLocal (s'.wantedRows r b) = Rows.shared isLocal (s.rows r b) := by
  have free : s'.effectivePattern = s.effectivePattern := by
    rw [h.same]
    rfl
  rw [wantedRows, h.rows_eq, free, Rows.shared, Rows.restrict, Multiset.map_map]
  refine Multiset.map_congr rfl fun x hx => restrict_projectRow (fun v hv => ?_) h.marked
  rcases (contains_of_mem_rows hx v).1 hv with hb | hf
  · exact .inl hb
  · cases hb : b.contains v with
    | true => exact .inl rfl
    | false => exact .inr (TriplePattern.mem_freeVars.2 ⟨hf, hb⟩)

theorem wellSourced_of_marks (h : List.Forall₂ (Marks isLocal) members members')
    (hw : ∀ s ∈ members, s.WellSourced r) : ∀ s ∈ members', s.WellSourced r := by
  induction h with
  | nil => exact hw
  | cons hs _ ih =>
    rw [List.forall_mem_cons] at hw ⊢
    exact ⟨hs.wellSourced hw.1, ih hw.2⟩

theorem flatMap_freeVars_of_marks (h : List.Forall₂ (Marks isLocal) members members') :
    members'.flatMap (·.freeVars) = members.flatMap (·.freeVars) := by
  induction h with
  | nil => rfl
  | cons hs _ ih => rw [List.flatMap_cons, List.flatMap_cons, hs.freeVars_eq, ih]

theorem joinedRows_of_marks (h : List.Forall₂ (Marks isLocal) members members') (b : Bindings) :
    joinedRows r members' b = joinedRows r members b := by
  have each : members'.map (fun s => s.rows r b) = members.map fun s => s.rows r b := by
    induction h with
    | nil => rfl
    | cons hs _ ih => rw [List.map_cons, List.map_cons, hs.rows_eq, ih]
  rw [joinedRows, joinedRows, each]

/-- The rows of statements each of which leaves out its own local variables. -/
theorem shared_prod_of_marks (h : List.Forall₂ (Marks isLocal) members members')
    (apart : (members.map (·.freeVars)).Pairwise (Apart isLocal)) (b : Bindings) :
    Rows.shared isLocal (members'.map fun s => s.wantedRows r b).prod =
        Rows.shared isLocal (members.map fun s => s.rows r b).prod ∧
      (∀ x ∈ (members'.map fun s => s.wantedRows r b).prod,
        b.Adds (members.flatMap (·.freeVars)) x) ∧
      ∀ x ∈ (members.map fun s => s.rows r b).prod, b.Adds (members.flatMap (·.freeVars)) x := by
  induction h with
  | nil =>
    have only : ∀ x ∈ (1 : Rows), b.Adds [] x := fun x hx => by
      rw [Rows.one_def, Multiset.mem_singleton] at hx
      exact hx ▸ Bindings.adds_empty _
    exact ⟨rfl, only, only⟩
  | @cons s s' members members' hs _ ih =>
    rw [List.map_cons, List.pairwise_cons] at apart
    obtain ⟨same, wanted, whole⟩ := ih apart.2
    have beside : Apart isLocal s.freeVars (members.flatMap (·.freeVars)) := by
      intro v hv hm
      obtain ⟨t, ht, hv'⟩ := List.mem_flatMap.1 hm
      exact apart.1 _ (List.mem_map_of_mem ht) v hv hv'
    have own : ∀ x ∈ s.rows r b, b.Adds s.freeVars x := fun x hx => (grows_of_mem_rows hx).adds
    have own' : ∀ x ∈ s'.wantedRows r b, b.Adds s.freeVars x := fun x hx => by
      rw [← hs.freeVars_eq]
      exact (grows_of_mem_wantedRows hx).adds
    simp only [List.map_cons, List.prod_cons, List.flatMap_cons]
    refine ⟨?_, fun x hx => ?_, fun x hx => ?_⟩
    · rw [Rows.shared_mul beside own' wanted, Rows.shared_mul beside own whole,
        hs.shared_wantedRows, same]
    · obtain ⟨y, hy, z, hz, hx⟩ := Rows.mem_mul.1 hx
      exact (own' y hy).merge (wanted z hz) hx
    · obtain ⟨y, hy, z, hz, hx⟩ := Rows.mem_mul.1 hx
      exact (own y hy).merge (whole z hz) hx

end Statement

namespace ExclusiveGroup

variable {g : ExclusiveGroup} {statements : List Statement}

theorem patterns_of_marks (h : List.Forall₂ (Statement.Marks isLocal) g.statements statements) :
    ({ g with statements := statements } : ExclusiveGroup).patterns = g.patterns := by
  show statements.map g.memberPattern = g.statements.map g.memberPattern
  generalize g.statements = before at h ⊢
  induction h with
  | nil => rfl
  | cons hs _ ih =>
    rw [List.map_cons, List.map_cons, ih, hs.same]
    rfl

theorem mem_localVars_of_marks (h : List.Forall₂ (Statement.Marks isLocal) g.statements statements)
    (hv : v ∈ ({ g with statements := statements } : ExclusiveGroup).localVars) :
    isLocal v = true := by
  replace hv : ∃ s ∈ statements, v ∈ s.localVars := List.mem_flatMap.1 (List.mem_eraseDups.1 hv)
  generalize g.statements = before at h
  induction h with
  | nil => simp at hv
  | cons hm _ ih =>
    rcases (List.exists_mem_cons_iff ..).1 hv with hv | hv
    · exact hm.marked v hv
    · exact ih hv

theorem shared_wantedRows (h : List.Forall₂ (Statement.Marks isLocal) g.statements statements)
    (b : Bindings) :
    Rows.shared isLocal (wantedRows r { g with statements := statements } b) =
      Rows.shared isLocal (g.rows r b) := by
  have rows_eq : rows r { g with statements := statements } b = g.rows r b := by
    rw [rows, rows, patterns_of_marks h]
  have free : freeVarsUnder { g with statements := statements } b = g.freeVarsUnder b := by
    rw [freeVarsUnder, freeVarsUnder, patterns_of_marks h]
  rw [wantedRows, rows_eq, free, Rows.shared, Rows.restrict, Multiset.map_map]
  refine Multiset.map_congr rfl fun x hx => ?_
  refine Statement.restrict_projectRow (fun v hv => ?_) fun v => mem_localVars_of_marks h
  rcases (contains_of_mem_rows hx v).1 hv with hb | hf
  · exact .inl hb
  · cases hb : b.contains v with
    | true => exact .inl rfl
    | false => exact .inr (mem_freeVarsUnder.2 ⟨hf, hb⟩)

end ExclusiveGroup

namespace Plan

variable {p p' : Plan} {args args' : List Plan} {vars : List String}

/-! ### Marked plans -/

mutual

/-- The second plan is the first one with other local variables. -/
inductive Marks (isLocal : String → Bool) : Plan → Plan → Prop
  | refl (p : Plan) : Marks isLocal p p
  | statement {s s' : Statement} (h : s.Marks isLocal s') :
      Marks isLocal (statement s) (statement s')
  | group {g : ExclusiveGroup} {statements : List Statement}
      (h : List.Forall₂ (Statement.Marks isLocal) g.statements statements) :
      Marks isLocal (group g) (group { g with statements := statements })
  | independent {members members' : List Statement}
      (h : List.Forall₂ (Statement.Marks isLocal) members members') :
      Marks isLocal (independent members) (independent members')
  | join {args args' : List Plan} (vars : List String) (h : MarksAll isLocal args args') :
      Marks isLocal (join args vars) (join args' vars)
  | filter {a a' : Plan} (condition : Expr) (h : Marks isLocal a a') :
      Marks isLocal (filter condition a) (filter condition a')
  | project {a a' : Plan} (vars : List String) (inserted : Bindings) (h : Marks isLocal a a') :
      Marks isLocal (project vars inserted a) (project vars inserted a')
  | slice {a a' : Plan} (offset : Nat) (limit : Option Nat) (h : Marks isLocal a a') :
      Marks isLocal (slice offset limit a) (slice offset limit a')
  | distinct {a a' : Plan} (h : Marks isLocal a a') : Marks isLocal (distinct a) (distinct a')

/-- The same for all plans, one by one. -/
inductive MarksAll (isLocal : String → Bool) : List Plan → List Plan → Prop
  | nil : MarksAll isLocal [] []
  | cons {a a' : Plan} {rest rest' : List Plan} (h : Marks isLocal a a')
      (hs : MarksAll isLocal rest rest') : MarksAll isLocal (a :: rest) (a' :: rest')

end

/-- The variables of each argument of a plan of joins. -/
def entries (p : Plan) : List (List String) := (p.mentions false).args

/-- The same for all plans in order. -/
def entriesAll (args : List Plan) : List (List String) := (mentionsAll args).args

theorem entriesAll_cons (a : Plan) (rest : List Plan) :
    entriesAll (a :: rest) = a.entries ++ entriesAll rest := rfl

mutual

theorem exists_entry : ∀ {p : Plan}, p.Conjunctive r → p.Bare false → v ∈ p.freeVars →
    ∃ us ∈ p.entries, v ∈ us
  | statement s, _, _, hv => ⟨_, List.mem_singleton_self _, hv⟩
  | group g, _, _, hv => ⟨_, List.mem_singleton_self _, hv⟩
  | independent members, _, _, hv => by
    obtain ⟨s, hs, hv⟩ := List.mem_flatMap.1 (List.mem_eraseDups.1 hv)
    exact ⟨_, List.mem_map_of_mem hs, hv⟩
  | join args _, h, hb, hv =>
    exists_entryAll (show ConjunctiveAll r args from h) hb (List.mem_eraseDups.1 hv)

theorem exists_entryAll : ∀ {args : List Plan}, ConjunctiveAll r args → BareAll false args →
    v ∈ freeVarsAll args → ∃ us ∈ entriesAll args, v ∈ us
  | a :: rest, h, hb, hv => by
    rw [entriesAll_cons]
    rcases List.mem_append.1 hv with hv | hv
    · obtain ⟨us, hu, hv⟩ := exists_entry h.1 hb.1 hv
      exact ⟨us, List.mem_append_left _ hu, hv⟩
    · obtain ⟨us, hu, hv⟩ := exists_entryAll h.2 hb.2 hv
      exact ⟨us, List.mem_append_right _ hu, hv⟩

end

mutual

theorem Marks.freeVars_eq : ∀ {p p' : Plan}, Marks isLocal p p' → p'.freeVars = p.freeVars
  | _, _, .refl _ => rfl
  | _, _, .statement h => h.freeVars_eq
  | _, _, .group h => by
    simp only [Plan.freeVars, ExclusiveGroup.freeVars, ExclusiveGroup.patterns_of_marks h]
  | _, _, .independent h => by
    rw [Plan.freeVars, Plan.freeVars, Statement.flatMap_freeVars_of_marks h]
  | _, _, .join _ h => congrArg List.eraseDups h.freeVarsAll_eq
  | _, _, .filter _ h => h.freeVars_eq
  | _, _, .project .. => rfl
  | _, _, .slice _ _ h => h.freeVars_eq
  | _, _, .distinct h => h.freeVars_eq

theorem MarksAll.freeVarsAll_eq :
    ∀ {args args' : List Plan}, MarksAll isLocal args args' → freeVarsAll args' = freeVarsAll args
  | _, _, .nil => rfl
  | _, _, .cons h hs => by
    rw [freeVarsAll, freeVarsAll, h.freeVars_eq, hs.freeVarsAll_eq]

end

mutual

theorem Marks.wellSourced :
    ∀ {p p' : Plan}, Marks isLocal p p' → p.WellSourced r → p'.WellSourced r
  | _, _, .refl _, hw => hw
  | _, _, .statement h, hw => h.wellSourced hw
  | _, _, .group h, hw => by
    refine ⟨hw.1, ?_⟩
    rw [ExclusiveGroup.freeVars, ExclusiveGroup.patterns_of_marks h]
    exact hw.2
  | _, _, .independent h, hw => Statement.wellSourced_of_marks h hw
  | _, _, .join _ h, hw => h.wellSourcedAll hw
  | .filter _ a, .filter _ a', .filter _ h, hw => show a'.WellSourced r from h.wellSourced hw
  | _, _, .project .., hw => nomatch hw
  | _, _, .slice .., hw => nomatch hw
  | .distinct a, .distinct a', .distinct h, hw => show a'.WellSourced r from h.wellSourced hw

theorem MarksAll.wellSourcedAll : ∀ {args args' : List Plan}, MarksAll isLocal args args' →
    WellSourcedAll r args → WellSourcedAll r args'
  | _, _, .nil, _ => trivial
  | _, _, .cons h hs, hw => ⟨h.wellSourced hw.1, hs.wellSourcedAll hw.2⟩

end

mutual

theorem Marks.width_eq : ∀ {p p' : Plan}, Marks isLocal p p' → p'.width r = p.width r
  | _, _, .refl _ => rfl
  | _, _, .statement h => h.width_eq
  | _, _, .group h => by
    rw [width, width, ExclusiveGroup.width, ExclusiveGroup.width,
      ExclusiveGroup.patterns_of_marks h]
  | _, _, .independent h => by
    rw [width, width]
    congr 1
    induction h with
    | nil => rfl
    | cons hs _ ih => rw [List.map_cons, List.map_cons, hs.width_eq, ih]
  | _, _, .join _ h => h.joinWidth_eq
  | _, _, .filter _ h => h.width_eq
  | _, _, .project .. => rfl
  | _, _, .slice .. => rfl
  | _, _, .distinct h => h.width_eq

theorem MarksAll.joinWidth_eq :
    ∀ {args args' : List Plan}, MarksAll isLocal args args' → joinWidth r args' = joinWidth r args
  | _, _, .nil => rfl
  | _, _, .cons h hs => by rw [joinWidth, joinWidth, h.width_eq, hs.joinWidth_eq]

end

mutual

theorem Marks.uniform : ∀ {p p' : Plan}, Marks isLocal p p' → p.Uniform → p'.Uniform
  | _, _, .refl _, hu => hu
  | _, _, .statement _, _ => trivial
  | _, _, .group _, _ => trivial
  | _, _, .independent _, _ => trivial
  | _, _, .join _ h, hu => h.uniformAll hu
  | _, _, .filter _ h, hu => h.uniform hu
  | _, _, .project .., hu => nomatch hu
  | _, _, .slice .., hu => nomatch hu
  | _, _, .distinct h, hu => h.uniform hu

theorem MarksAll.uniformAll :
    ∀ {args args' : List Plan}, MarksAll isLocal args args' → UniformAll args → UniformAll args'
  | _, _, .nil, _ => trivial
  | _, _, .cons h hs, hu => ⟨h.uniform hu.1, hs.uniformAll hu.2⟩

end

/-! ### Rows of marked plans -/

/-- For rows that come before it, a marked argument of a join does what the argument does. -/
theorem Marks.shared_rightRows (h : Marks isLocal p p')
    (ih : Rows.shared isLocal (p'.rows r b) = Rows.shared isLocal (p.rows r b)) :
    Rows.shared isLocal (p'.rightRows r b) = Rows.shared isLocal (p.rightRows r b) := by
  cases h with
  | refl => rfl
  | statement h => exact congrArg (Rows.shared isLocal) (h.rows_eq b)
  | independent h => exact congrArg (Rows.shared isLocal) (Statement.joinedRows_of_marks h b)
  | _ => exact ih

mutual

/-- **A marked plan has the rows of the plan**, but for local variables, if no such variable is
mentioned by two arguments. -/
theorem shared_rows_of_marks : ∀ {p p' : Plan}, p.Conjunctive r → p.Bare false →
    p.entries.Pairwise (Apart isLocal) → Marks isLocal p p' → ∀ b,
      Rows.shared isLocal (p'.rows r b) = Rows.shared isLocal (p.rows r b)
  | _, _, _, _, _, .refl _, _ => rfl
  | statement s, _, hc, _, _, .statement h, b => by
    rw [rows, rows, h.shared_wantedRows, Statement.wantedRows_of_localVars_eq_nil hc.2]
  | group g, _, hc, _, _, .group h, b => by
    rw [rows, rows, ExclusiveGroup.shared_wantedRows h,
      ExclusiveGroup.wantedRows_of_localVars_eq_nil hc.2.2]
  | independent members, _, hc, _, apart, .independent h, b => by
    obtain ⟨same, wanted, whole⟩ := Statement.shared_prod_of_marks (r := r) h apart b
    have own : ∀ x ∈ ({b} : Rows), b.Adds [] x := fun x hx =>
      Multiset.mem_singleton.1 hx ▸ (Bindings.Grows.refl [] b).adds
    have none_shared : Apart isLocal [] (members.flatMap (·.freeVars)) := fun _ hv =>
      absurd hv List.not_mem_nil
    have full : members.map (fun s => s.wantedRows r b) = members.map fun s => s.rows r b :=
      List.map_congr_left fun s hs => Statement.wantedRows_of_localVars_eq_nil (hc s hs).2 b
    rw [rows, rows, full, Rows.shared_mul none_shared own wanted,
      Rows.shared_mul none_shared own whole, same]
  | join [] _, _, _, _, _, .join _ .nil, _ => rfl
  | join (first :: rest) _, _, hc, hb, apart, .join _ (.cons h hs), b => by
    have parted := List.pairwise_append.1 apart
    refine shared_restRows_of_marks hc.2 hb.2 parted.2.1 hs b first.freeVars
      (fun v hv vs hvs hw => ?_) (fun x hx => grows_of_mem_rows first hx) (fun x hx => ?_)
      (shared_rows_of_marks hc.1 hb.1 parted.1 h b)
    · obtain ⟨us, hu, hv⟩ := exists_entry hc.1 hb.1 hv
      exact parted.2.2 us hu vs hvs v hv hw
    · rw [← h.freeVars_eq]
      exact grows_of_mem_rows _ hx

theorem shared_restRows_of_marks : ∀ {args args' : List Plan}, ConjunctiveAll r args →
    BareAll false args → (entriesAll args).Pairwise (Apart isLocal) → MarksAll isLocal args args' →
      ∀ (b : Bindings) (earlier : List String) {X X' : Rows},
        (∀ v ∈ earlier, ∀ vs ∈ entriesAll args, v ∈ vs → isLocal v = false) →
        (∀ x ∈ X, b.Grows earlier x) → (∀ x ∈ X', b.Grows earlier x) →
        Rows.shared isLocal X' = Rows.shared isLocal X →
          Rows.shared isLocal (restRows r args' X') = Rows.shared isLocal (restRows r args X)
  | [], _, _, _, _, .nil, _, _, _, _, _, _, _, same => same
  | a :: rest, a' :: _, hc, hb, apart, .cons h hs, b, earlier, X, X', cross, hX, hX', same => by
    have parted := List.pairwise_append.1 apart
    have own := shared_rows_of_marks hc.1 hb.1 parted.1 h
    have right : ∀ Y : Rows, (∀ y ∈ Y, b.Grows earlier y) →
        Y.bind (a.rightRows r) = Y * a.rows r b := by
      intro Y hY
      rw [← Rows.bind_singleton_mul]
      refine Multiset.bind_congr fun y hy => ?_
      rw [hc.1.rightRows_eq, rows_of_bare hc.1 hb.1 y, rows_of_bare hc.1 hb.1 b,
        Rows.singleton_mul_singleton_mul_of_extends (hY y hy).extended]
    have beside : Apart isLocal earlier a.freeVars := by
      intro v hv hf
      obtain ⟨us, hu, hf⟩ := exists_entry hc.1 hb.1 hf
      exact cross v hv us (List.mem_append_left _ hu) hf
    have step : Rows.shared isLocal (X'.bind (a'.rightRows r)) =
        Rows.shared isLocal (X.bind (a.rightRows r)) := by
      have marked : Rows.shared isLocal (X'.bind (a'.rightRows r)) =
          Rows.shared isLocal (X'.bind (a.rightRows r)) := by
        rw [Rows.shared, Rows.restrict_bind, Rows.shared, Rows.restrict_bind]
        exact Multiset.bind_congr fun x _ => h.shared_rightRows (own x)
      have added : ∀ y ∈ a.rows r b, b.Adds a.freeVars y := fun y hy => (grows_of_mem_rows a hy).adds
      rw [marked, right X' hX', right X hX, Rows.shared_mul beside (fun x hx => (hX' x hx).adds) added,
        Rows.shared_mul beside (fun x hx => (hX x hx).adds) added, same]
    rw [restRows_cons, restRows_cons]
    refine shared_restRows_of_marks hc.2 hb.2 parted.2.1 hs b (earlier ++ a.freeVars)
      (fun v hv vs hvs hw => ?_) ?_ ?_ step
    · rcases List.mem_append.1 hv with hv | hv
      · exact cross v hv vs (List.mem_append_right _ hvs) hw
      · obtain ⟨us, hu, hv⟩ := exists_entry hc.1 hb.1 hv
        exact parted.2.2 us hu vs hvs v hv hw
    all_goals
      intro y hy
      obtain ⟨x, hx, hy⟩ := Multiset.mem_bind.1 hy
    · exact ((hX x hx).mono fun v => List.mem_append_left _).trans
        ((grows_of_mem_rightRows (grows_of_mem_rows a) hy).mono fun v => List.mem_append_right _)
    · have grown := grows_of_mem_rightRows (grows_of_mem_rows a') hy
      rw [h.freeVars_eq] at grown
      exact ((hX' x hx).mono fun v => List.mem_append_left _).trans
        (grown.mono fun v => List.mem_append_right _)

end

/-! ### Marking -/

section Marking

variable {localTo? : String → Option Nat}

theorem markStatement_marks (s : Statement) (n : Nat) :
    s.Marks (fun v => (localTo? v).isSome) ((markStatement localTo? s).run n).1 where
  same := rfl
  marked v hv := by
    have owned := (List.mem_filter.1 hv).2
    rw [beq_iff_eq.1 owned]
    rfl

theorem markMembers_marks (g : ExclusiveGroup) {own : String → Bool}
    (h : ∀ v, own v = true → isLocal v = true) (claimed : List String) (statements : List Statement) :
    List.Forall₂ (Statement.Marks isLocal) statements (markMembers own g claimed statements) := by
  induction statements generalizing claimed with
  | nil => exact .nil
  | cons s rest ih =>
    refine .cons ⟨rfl, fun v hv => h v ?_⟩ (ih _)
    exact (Bool.and_eq_true_iff.1 (List.mem_filter.1 hv).2).1

theorem mapM_markStatement_marks (members : List Statement) (n : Nat) :
    List.Forall₂ (Statement.Marks fun v => (localTo? v).isSome) members
      ((members.mapM (markStatement localTo?)).run n).1 := by
  induction members generalizing n with
  | nil => exact .nil
  | cons s rest ih =>
    rw [List.mapM_cons]
    exact .cons (markStatement_marks s n) (ih _)

mutual

/-- **Marking gives statements local variables**, and does nothing else. -/
theorem markLocals_marks : ∀ (top : Bool) (p : Plan) (n : Nat),
    Marks (fun v => (localTo? v).isSome) p ((markLocals localTo? top p).run n).1
  | _, statement s, n => .statement (markStatement_marks s n)
  | _, group g, n => .group (markMembers_marks g (fun v hv => by rw [beq_iff_eq.1 hv]; rfl) [] _)
  | _, independent members, n => .independent (mapM_markStatement_marks members n)
  | _, join args vars, n => .join vars (markLocalsAll_marks args n)
  | _, filter condition a, n => .filter condition (markLocals_marks false a n)
  | true, project vars inserted a, n => .project vars inserted (markLocals_marks false a n)
  | false, project .., _ => .refl _
  | true, slice offset limit a, n => .slice offset limit (markLocals_marks true a n)
  | false, slice .., _ => .refl _
  | true, distinct a, n => .distinct (markLocals_marks true a n)
  | false, distinct _, _ => .refl _
  | _, union _, _ => .refl _
  | _, leftJoin .., _ => .refl _
  | _, service _, _ => .refl _
  | _, passThrough .., _ => .refl _
  | _, empty, _ => .refl _

theorem markLocalsAll_marks : ∀ (args : List Plan) (n : Nat),
    MarksAll (fun v => (localTo? v).isSome) args ((markLocalsAll localTo? args).run n).1
  | [], _ => .nil
  | a :: rest, n => .cons (markLocals_marks false a n) (markLocalsAll_marks rest _)

end

end Marking

namespace Mentions

variable {m : Mentions} {kept : List String}

/-- A local variable is mentioned in one list only, and is not kept. -/
theorem of_isSome_localTo? (h : (m.localTo? kept v).isSome = true) :
    m.args.countP (·.contains v) = 1 ∧ v ∉ kept := by
  unfold localTo? at h
  dsimp only at h
  split at h
  · next owner howner =>
    have count := congrArg List.length howner
    rw [List.length_map, ← List.countP_eq_length_filter] at count
    refine ⟨?_, fun hv => ?_⟩
    · have same : m.args.countP (·.contains v) = m.args.zipIdx.countP fun a => a.1.contains v := by
        conv_lhs => rw [← List.zipIdx_map_fst 0 m.args, List.countP_map]
        rfl
      exact same.trans count
    · rw [if_pos (by simp [hv])] at h
      cases h
  · cases h

theorem pairwise_of_countP : ∀ {args : List (List String)}, args.countP (·.contains v) = 1 →
    args.Pairwise fun us vs => v ∈ us → v ∉ vs
  | [], _ => .nil
  | us :: rest, h => by
    rw [List.countP_cons] at h
    rw [List.pairwise_cons]
    split at h
    · next hu =>
      have others : rest.countP (·.contains v) = 0 := by omega
      rw [List.countP_eq_zero] at others
      have absent : ∀ vs ∈ rest, v ∉ vs := fun vs hvs hv => others vs hvs (by simpa using hv)
      refine ⟨fun vs hvs _ => absent vs hvs, ?_⟩
      exact List.pairwise_of_forall_mem_list fun vs hvs ws hws _ => absent ws hws
    · next hu =>
      refine ⟨fun vs _ hv => absurd (by simpa using hv) hu, pairwise_of_countP ?_⟩
      simpa using h

/-- **No two arguments mention the same local variable.** -/
theorem pairwise_apart (m : Mentions) (kept : List String) :
    m.args.Pairwise (Apart fun v => (m.localTo? kept v).isSome) := by
  refine List.pairwise_iff_getElem.2 fun i j hi hj hij v hu hw => Bool.eq_false_iff.2 fun hv => ?_
  have once := pairwise_of_countP (of_isSome_localTo? hv).1
  exact List.pairwise_iff_getElem.1 once i j hi hj hij hu hw

end Mentions

/-- **Below a projection, scoping marks variables that are local to one argument and not kept.** -/
theorem scopeVars_project (vars : List String) (inserted : Bindings) (a : Plan) :
    ∃ isLocal a', (project vars inserted a).scopeVars = project vars inserted a' ∧
      Marks isLocal a a' ∧ a.entries.Pairwise (Apart isLocal) ∧
        ∀ v, isLocal v = true → v ∉ vars := by
  let isLocal := fun v => ((a.mentions false).localTo? vars v).isSome
  have apart : a.entries.Pairwise (Apart isLocal) := Mentions.pairwise_apart _ vars
  have dropped : ∀ v, isLocal v = true → v ∉ vars := fun v hv => (Mentions.of_isSome_localTo? hv).2
  unfold scopeVars
  simp only [topProjection?, mentions, ↓reduceIte]
  split
  · exact ⟨isLocal, _, rfl, markLocals_marks false a 0, apart, dropped⟩
  · exact ⟨isLocal, a, rfl, .refl a, apart, dropped⟩

/-- Rows that agree but for variables that are not kept are the same once they are projected. -/
theorem map_projectOnto_of_shared {X Y : Rows} (h : Rows.shared isLocal X = Rows.shared isLocal Y)
    (hv : ∀ v, isLocal v = true → v ∉ vars) :
    X.map (Environment.projectOnto vars ∅ ∅) = Y.map (Environment.projectOnto vars ∅ ∅) := by
  have through : ∀ x : Bindings, Environment.projectOnto vars ∅ ∅ x =
      (x.restrict fun v => !isLocal v).project vars := by
    intro x
    refine Bindings.ext_get? fun v => ?_
    show ((∅ : Bindings).merge? (x.project vars) |>.getD _).get? v = _
    rw [Bindings.empty_merge?, Option.getD_some, Bindings.get?_project, Bindings.get?_project,
      Bindings.get?_restrict]
    split
    · next hm =>
      cases hl : isLocal v with
      | true => exact absurd hm (hv v hl)
      | false => rfl
    · rfl
  have projected : ∀ X : Rows, X.map (Environment.projectOnto vars ∅ ∅) =
      (Rows.shared isLocal X).map (·.project vars) := by
    intro X
    rw [Rows.shared, Rows.restrict, Multiset.map_map]
    exact Multiset.map_congr rfl fun x _ => through x
  rw [projected, projected, h]

end Plan

end FederatedSparql
