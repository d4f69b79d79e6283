import FederatedSparql.Proofs.Engine.Planning
import FederatedSparql.Proofs.Plan.Scoping
import Mathlib.Algebra.Order.BigOperators.Group.List

/-!
Plans of basic graph patterns.

A basic graph pattern is a tree of joins over triple patterns.  Its plan joins one statement for each
pattern, in document order, and with truthful sources it has the solutions of the patterns over the
triples of all members.

* `Plan.build_projected`: the plan of a basic graph pattern, below a projection or not.
* `Plan.rows_ofStatements`: its rows are the product of the solutions of its statements.
* `Plan.attached_flat`: with sources attached it consists of statements and groups without
  conditions.
* `Plan.restructured_patterns`: and it has the solutions of its patterns.
-/

namespace FederatedSparql

namespace Algebra

/-- A triple pattern, or joins of triple patterns. -/
inductive Basic : Algebra → Prop
  | pattern (p : TriplePattern) : Basic (.pattern p)
  | join {left right : Algebra} (hl : Basic left) (hr : Basic right) : Basic (.join left right)

/-- The algebra below a projection, if there is one. -/
def projected (projection : Option (List String)) (a : Algebra) : Algebra :=
  match projection with
  | some vars => .project vars a
  | none => a

theorem Basic.patterns_ne_nil {a : Algebra} (h : a.Basic) : a.patterns ≠ [] := by
  cases h with
  | pattern p => exact List.cons_ne_nil _ _
  | join hl _ => exact fun h0 => hl.patterns_ne_nil (List.append_eq_nil_iff.1 h0).1

end Algebra

namespace Plan

variable {r : Registry} {b : Bindings} {statements : List Statement} {a : Algebra}
  {ps : List TriplePattern} {n : Nat}

/-! ### Plans as they are built -/

/-- Statements for patterns, numbered in document order. -/
def numbered (n : Nat) (ps : List TriplePattern) : List Statement :=
  (ps.zipIdx n).map fun x => { id := x.2, pattern := x.1 }

/-- The plan of some statements: a single one stands alone. -/
def ofStatements : List Statement → Plan
  | [s] => statement s
  | statements => join (statements.map statement) []

/-- The plan below a projection, if there is one. -/
def projected (projection : Option (List String)) (p : Plan) : Plan :=
  match projection with
  | some vars => project vars ∅ p
  | none => p

theorem ofStatements_cases (statements : List Statement) :
    (∃ s, statements = [s] ∧ ofStatements statements = statement s) ∨
      ofStatements statements = join (statements.map statement) [] := by
  rcases statements with _ | ⟨s, _ | ⟨t, rest⟩⟩
  · exact .inr rfl
  · exact .inl ⟨s, rfl, rfl⟩
  · exact .inr rfl

theorem joinOperands_ofStatements (statements : List Statement) :
    (ofStatements statements).joinOperands = statements.map statement := by
  rcases ofStatements_cases statements with ⟨s, rfl, h⟩ | h
  · rfl
  · rw [h, joinOperands]

theorem ofStatements_append {xs ys : List Statement} (hx : xs ≠ []) (hy : ys ≠ []) :
    ofStatements (xs ++ ys) = join (xs.map statement ++ ys.map statement) [] := by
  obtain ⟨x, xs, rfl⟩ := List.exists_cons_of_ne_nil hx
  obtain ⟨y, ys, rfl⟩ := List.exists_cons_of_ne_nil hy
  rw [← List.map_append]
  cases xs <;> rfl

theorem statements_ofStatements (statements : List Statement) :
    (ofStatements statements).statements = statements := by
  have all : ∀ xs : List Statement, statementsAll (xs.map statement) = xs := by
    intro xs
    induction xs with
    | nil => rfl
    | cons x xs ih => rw [List.map_cons, statementsAll, ih]; rfl
  rcases ofStatements_cases statements with ⟨s, rfl, h⟩ | h
  · rfl
  · rw [h, Plan.statements, all]

theorem statements_projected (projection : Option (List String)) (p : Plan) :
    (projected projection p).statements = p.statements := by
  cases projection <;> rfl

theorem withSources_ofStatements (sources : Nat → List Source) (statements : List Statement) :
    (ofStatements statements).withSources sources =
      ofStatements (statements.map fun s => { s with sources := sources s.id }) := by
  have all : ∀ xs : List Statement, withSourcesAll sources (xs.map statement) =
      (xs.map fun s => { s with sources := sources s.id }).map statement := by
    intro xs
    induction xs with
    | nil => rfl
    | cons x xs ih => rw [List.map_cons, withSourcesAll, ih]; rfl
  rcases statements with _ | ⟨s, _ | ⟨t, rest⟩⟩
  · rfl
  · rfl
  · exact congrArg (join · []) (all (s :: t :: rest))

theorem numbered_append (n : Nat) (xs ys : List TriplePattern) :
    numbered n (xs ++ ys) = numbered n xs ++ numbered (n + xs.length) ys := by
  simp [numbered, List.zipIdx_append]

theorem numbered_ne_nil (n : Nat) (h : ps ≠ []) : numbered n ps ≠ [] := by
  intro h0
  have length := congrArg List.length h0
  rw [numbered, List.length_map, List.length_zipIdx, List.length_nil] at length
  exact h (List.length_eq_zero_iff.1 length)

theorem map_pattern_numbered (n : Nat) (ps : List TriplePattern) :
    (numbered n ps).map (·.pattern) = ps := by
  rw [numbered, List.map_map]
  exact List.zipIdx_map_fst n ps

theorem map_id_numbered (n : Nat) (ps : List TriplePattern) :
    (numbered n ps).map (·.id) = List.range' n ps.length := by
  rw [numbered, List.map_map]
  exact List.zipIdx_map_snd n ps

theorem plain_of_mem_numbered {s : Statement} (hs : s ∈ numbered n ps) : s.Plain := by
  obtain ⟨x, -, rfl⟩ := List.mem_map.1 hs
  exact ⟨rfl, rfl, rfl⟩

/-- **Patterns become statements in document order.**  Numbers go on behind those given before, and
no filter is noted. -/
theorem run_ofAlgebra_of_basic (h : a.Basic) (inSubselect : Bool) (s : Progress) :
    ((ofAlgebra inSubselect a).run s).1 = ofStatements (numbered s.nextId a.patterns) ∧
      ((ofAlgebra inSubselect a).run s).2.nextId = s.nextId + a.patterns.length ∧
      ((ofAlgebra inSubselect a).run s).2.structure_.hasFilter = s.structure_.hasFilter := by
  induction h generalizing s with
  | pattern p => exact ⟨rfl, rfl, rfl⟩
  | @join left right hl hr ihl ihr =>
    obtain ⟨pl, nl, fl⟩ := ihl s
    obtain ⟨pr, nr, fr⟩ := ihr ((ofAlgebra inSubselect left).run s).2
    have run : (ofAlgebra inSubselect (.join left right)).run s =
        (join (((ofAlgebra inSubselect left).run s).1.joinOperands ++
          ((ofAlgebra inSubselect right).run ((ofAlgebra inSubselect left).run s).2).1.joinOperands)
            [], ((ofAlgebra inSubselect right).run ((ofAlgebra inSubselect left).run s).2).2) := rfl
    rw [run]
    refine ⟨?_, ?_, fr.trans fl⟩
    · rw [pl, pr, nl, joinOperands_ofStatements, joinOperands_ofStatements, Algebra.patterns,
        numbered_append]
      exact (ofStatements_append (numbered_ne_nil _ hl.patterns_ne_nil)
        (numbered_ne_nil _ hr.patterns_ne_nil)).symm
    · rw [nr, nl, Algebra.patterns, List.length_append, Nat.add_assoc]

/-- **The plan of a basic graph pattern**, below a projection or not. -/
theorem build_projected (h : a.Basic) (projection : Option (List String)) :
    (build (a.projected projection)).1 =
        projected projection (ofStatements (numbered 0 a.patterns)) ∧
      (build (a.projected projection)).2.1.hasFilter = false := by
  cases projection with
  | none =>
    obtain ⟨plan, -, filter⟩ := run_ofAlgebra_of_basic h false {}
    exact ⟨plan, filter⟩
  | some vars =>
    obtain ⟨plan, -, filter⟩ := run_ofAlgebra_of_basic h false { seenProjection := true }
    exact ⟨congrArg (project vars ∅) plan, filter⟩

/-! ### Rows of statements -/

theorem steadyArgs_statements (hne : statements ≠ []) (h : ∀ s ∈ statements, s.Plain) (c : Context) :
    SteadyArgs c (statements.map statement) := by
  have plain : ∀ {q rest}, (statements.map statement).Perm (q :: rest) →
      ∃ s, q = statement s ∧ s.Plain := by
    intro q rest hp
    obtain ⟨s, hs, rfl⟩ := List.mem_map.1 (hp.symm.subset List.mem_cons_self)
    exact ⟨s, rfl, h s hs⟩
  refine ⟨fun h0 => hne (List.map_eq_nil_iff.1 h0), fun q rest hp => ?_, fun q rest hp s _ => ?_⟩
  · obtain ⟨s, rfl, hs⟩ := plain hp
    exact .statement hs
  · refine .inr fun v _ ⟨q', hq', hf, hc⟩ => absurd ?_ hc
    obtain ⟨t, -, rfl⟩ := List.mem_map.1 (hp.symm.subset (List.mem_cons_of_mem q hq'))
    exact hf

theorem steady_ofStatements (hne : statements ≠ []) (h : ∀ s ∈ statements, s.Plain) (c : Context) :
    (ofStatements statements).Steady c := by
  rcases ofStatements_cases statements with ⟨s, rfl, heq⟩ | heq
  · exact .statement (h s (List.mem_singleton_self s))
  · rw [heq, steady_join_iff]
    exact steadyArgs_statements hne h c

theorem rows_statement_of_plain {s : Statement} (h : s.Plain) :
    (statement s).rows r ∅ = s.pattern.solutions (r.triplesOf s.sources) := by
  have unbound : s.effectivePattern = s.pattern := by
    rw [Statement.effectivePattern, h.boundFilters, TriplePattern.bind_empty]
  rw [rows, Statement.wantedRows_of_localVars_eq_nil h.localVars,
    Statement.rows_of_filter_eq_none h.filter, unbound, ← Rows.one_def, one_mul]

/-- **The rows of statements are the product of their solutions.** -/
theorem rows_ofStatements (hne : statements ≠ []) (h : ∀ s ∈ statements, s.Plain) :
    (ofStatements statements).rows r ∅ =
      (statements.map fun s => s.pattern.solutions (r.triplesOf s.sources)).prod := by
  rcases ofStatements_cases statements with ⟨s, rfl, heq⟩ | heq
  · rw [heq, rows_statement_of_plain (h s (List.mem_singleton_self s)), List.map_singleton,
      List.prod_singleton]
  · rw [heq, (steadyArgs_statements hne h .start).rows_join Context.start_admits, ← Rows.one_def,
      one_mul, List.map_map]
    exact congrArg List.prod (List.map_congr_left fun s hs => rows_statement_of_plain (h s hs))

theorem width_ofStatements (statements : List Statement) :
    (ofStatements statements).width r = (statements.map (·.width r)).prod := by
  rcases ofStatements_cases statements with ⟨s, rfl, h⟩ | h
  · rw [h, width, List.map_singleton, List.prod_singleton]
  · rw [h, width, joinWidth_eq_prod, List.map_map]
    rfl

/-! ### Plans of statements and groups -/

/-- A plan of statements and groups without conditions. -/
def Flat (r : Registry) (p : Plan) : Prop := p.Conjunctive r ∧ p.Bare false

theorem flat_statement_iff {s : Statement} :
    (statement s).Flat r ↔ s.WellSourced r ∧ s.Plain := by
  constructor
  · rintro ⟨⟨sourced, whole⟩, unfiltered, unfixed⟩
    exact ⟨sourced, unfiltered, unfixed, whole⟩
  · rintro ⟨sourced, plain⟩
    exact ⟨⟨sourced, plain.localVars⟩, plain.filter, plain.boundFilters⟩

theorem flat_join {args : List Plan} {vars : List String} (h : ∀ q ∈ args, q.Flat r) :
    (join args vars).Flat r := by
  suffices all : ConjunctiveAll r args ∧ BareAll false args from all
  induction args with
  | nil => exact ⟨trivial, trivial⟩
  | cons q rest ih =>
    obtain ⟨conjunctive, bare⟩ := h q List.mem_cons_self
    obtain ⟨restConjunctive, restBare⟩ := ih fun q' hq' => h q' (List.mem_cons_of_mem q hq')
    exact ⟨⟨conjunctive, restConjunctive⟩, bare, restBare⟩

theorem flat_group {members : List Statement} {owner : Source} (id : Nat) (hne : members ≠ [])
    (h : ∀ s ∈ members, (statement s).Flat r) (howned : ∀ s ∈ members, OwnedBy owner.endpoint s) :
    (group (.ofStatements id members owner)).Flat r := by
  have plain : ∀ s ∈ members, s.Plain := fun s hs => (flat_statement_iff.1 (h s hs)).2
  have sourced := (group_standsFor id hne plain howned).sourced
    fun s hs => (flat_statement_iff.1 (h s hs)).1
  refine ⟨⟨sourced.1, sourced.2, ExclusiveGroup.localVars_ofStatements id owner plain⟩, ?_⟩
  rw [ExclusiveGroup.ofStatements_of_plain id owner plain]
  exact ⟨rfl, rfl, fun s hs => ⟨(plain s hs).filter, (plain s hs).boundFilters⟩⟩

theorem flat_independent {members : List Statement} (h : ∀ s ∈ members, (statement s).Flat r) :
    (independent members).Flat r := by
  refine ⟨fun s hs => ?_, fun s hs => ?_⟩
  · exact (h s hs).1
  · exact (h s hs).2

/-- **Rearranged arguments are plans of statements and groups** again. -/
theorem Regroups.flat {args args' : List Plan} (hg : Regroups args args')
    (h : ∀ q ∈ args, q.Flat r) : ∀ q ∈ args', q.Flat r := by
  have parts : ∀ {members : List Statement} {rest : List Plan},
      (∀ q ∈ members.map statement ++ rest, q.Flat r) →
        (∀ s ∈ members, (statement s).Flat r) ∧ ∀ q ∈ rest, q.Flat r := by
    intro members rest hall
    rw [List.forall_mem_append, List.forall_mem_map] at hall
    exact hall
  induction hg with
  | perm hp => exact fun q hq => h q (hp.mem_iff.2 hq)
  | group id rest hne howned =>
    exact List.forall_mem_cons.2 ⟨flat_group id hne (parts h).1 howned, (parts h).2⟩
  | independent members rest =>
    exact List.forall_mem_cons.2 ⟨flat_independent (parts h).1, (parts h).2⟩
  | trans _ _ ih ih' => exact ih' (ih h)

theorem flat_joinOf {args : List Plan} (h : ∀ q ∈ args, q.Flat r) :
    joinOf args = empty ∨ (joinOf args).Flat r := by
  rcases args with _ | ⟨q, _ | ⟨q', rest⟩⟩
  · exact .inl rfl
  · exact .inr (h q (List.mem_singleton_self q))
  · exact .inr (flat_join h)

/-! ### Attaching sources -/

section Attach

variable {sources : Nat → List Source}

theorem attached_statement_cases {s : Statement}
    (h : (statement { s with sources := sources s.id }).Flat r) (n : Nat) :
    attached sources n (statement s) = empty ∨ (attached sources n (statement s)).Flat r := by
  rw [attached, attach]
  split
  · exact .inl rfl
  · exact .inr h

theorem attachAll_statements_cases
    (h : ∀ s ∈ statements, (statement { s with sources := sources s.id }).Flat r) (n : Nat) :
    ∀ q ∈ ((attachAll sources (statements.map statement)).run n).1, q = empty ∨ q.Flat r := by
  induction statements generalizing n with
  | nil => exact fun q hq => absurd hq List.not_mem_nil
  | cons s rest ih =>
    intro q hq
    rcases List.mem_cons.1 hq with rfl | hq
    · exact attached_statement_cases (h s List.mem_cons_self) n
    · exact ih (fun t ht => h t (List.mem_cons_of_mem s ht)) _ q hq

/-- **With sources attached, statements make a plan of statements and groups**, or have no
solutions. -/
theorem attached_flat
    (h : ∀ s ∈ statements, (statement { s with sources := sources s.id }).Flat r) (n : Nat) :
    attached sources n (ofStatements statements) = empty ∨
      (attached sources n (ofStatements statements)).Flat r := by
  rcases ofStatements_cases statements with ⟨s, rfl, heq⟩ | heq
  · exact attached_statement_cases (h s (List.mem_singleton_self s)) n
  · rw [heq, attached_join]
    split
    · exact .inl rfl
    · next hne =>
      refine flat_joinOf ((regroups_join _ _).flat fun q hq => ?_)
      rcases attachAll_statements_cases h n q hq with rfl | hflat
      · exact absurd (List.any_eq_true.2 ⟨empty, hq, rfl⟩) hne
      · exact hflat

theorem attached_projected (projection : Option (List String)) (n : Nat) (p : Plan) :
    attached sources n (projected projection p) =
      (attached sources n p).orEmpty (projected projection) := by
  cases projection with
  | none => cases h : attached sources n p <;> exact h
  | some vars => rfl

end Attach

/-! ### Truthful sources -/

section Truthful

variable {ms : List Member} {sources : Nat → List Source}

/-- The patterns leave the variable for numbers alone, and each statement for them has truthful
sources. -/
structure TruthfullySourced (ms : List Member) (ps : List TriplePattern)
    (sources : Nat → List Source) : Prop where
  index : ∀ p ∈ ps, Tag.indexVar ∉ p.vars
  truthful : ∀ s ∈ numbered 0 ps, (sources s.id).Perm (Selection.matchingSources ms s.pattern)

/-- The statements for some patterns, with sources. -/
def inPlace (sources : Nat → List Source) (ps : List TriplePattern) : List Statement :=
  (numbered 0 ps).map fun s => { s with sources := sources s.id }

theorem flat_of_mem_inPlace (h : r.Holds ms) (ht : TruthfullySourced ms ps sources) :
    ∀ s ∈ numbered 0 ps, (statement { s with sources := sources s.id }).Flat r := by
  intro s hs
  have plain := plain_of_mem_numbered hs
  refine flat_statement_iff.2 ⟨⟨Selection.registers_of_truthful h (ht.truthful s hs), fun hv => ?_⟩,
    plain.filter, plain.boundFilters, plain.localVars⟩
  have hp : s.pattern ∈ ps := by
    rw [← map_pattern_numbered 0 ps]
    exact List.mem_map_of_mem hs
  refine ht.index _ hp ?_
  have unbound : s.effectivePattern = s.pattern := by
    rw [Statement.effectivePattern, plain.boundFilters, TriplePattern.bind_empty]
  rw [← unbound]
  exact Statement.mem_freeVars.1 hv

/-- **With truthful sources attached, the plan of patterns has their solutions** over the triples of
all members. -/
theorem restructured_patterns (h : r.Holds ms) (hne : ps ≠ [])
    (ht : TruthfullySourced ms ps sources) (n : Nat) :
    (attached sources n (ofStatements (numbered 0 ps))).rows r ∅ =
        Store.bgpSolutions (ms.flatMap (·.triples)) ps ∧
      (attached sources n (ofStatements (numbered 0 ps))).width r ≤
        max 1 (ms.flatMap (·.triples)).length ^ ps.length := by
  have flat : ∀ s ∈ inPlace sources ps, s.WellSourced r ∧ s.Plain := by
    intro s hs
    obtain ⟨t, ht', rfl⟩ := List.mem_map.1 hs
    exact flat_statement_iff.1 (flat_of_mem_inPlace h ht t ht')
  have plain : ∀ s ∈ inPlace sources ps, s.Plain := fun s hs => (flat s hs).2
  have nonempty : inPlace sources ps ≠ [] := fun h0 =>
    numbered_ne_nil 0 hne (List.map_eq_nil_iff.1 h0)
  have kept := attach_restructured (r := r) sources (ofStatements (numbered 0 ps)) n .start
  rw [withSources_ofStatements] at kept
  have kept := kept (steady_ofStatements nonempty plain .start)
  refine ⟨?_, kept.width.trans ?_⟩
  · rw [kept.rows ∅ Context.start_admits]
    show (ofStatements (inPlace sources ps)).rows r ∅ = _
    rw [rows_ofStatements nonempty plain, inPlace, List.map_map, Store.bgpSolutions,
      ← map_pattern_numbered 0 ps, List.map_map, map_pattern_numbered]
    exact congrArg List.prod (List.map_congr_left fun s hs =>
      Selection.solutions_of_truthful h (ht.truthful s hs))
  · show (ofStatements (inPlace sources ps)).width r ≤ _
    rw [width_ofStatements, inPlace, List.map_map]
    have each : ∀ w ∈ (numbered 0 ps).map
        (Statement.width r ∘ fun s => { s with sources := sources s.id }),
        w ≤ max 1 (ms.flatMap (·.triples)).length := by
      intro w hw
      obtain ⟨s, hs, rfl⟩ := List.mem_map.1 hw
      exact max_le_max_left 1 (Selection.length_triplesOf_le h (ht.truthful s hs))
    have bound := List.prod_le_pow_card _ _ each
    rwa [List.length_map, numbered, List.length_map, List.length_zipIdx] at bound

end Truthful

end Plan

end FederatedSparql
