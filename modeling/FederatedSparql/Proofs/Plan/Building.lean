import FederatedSparql.Plan.Build

/-!
The shape of plans before they have sources.

Statements hold patterns and nothing else, joins and unions have at least two arguments, and nothing
has been put together yet (`Plan.Built`).  Statements are numbered one after another in document
order, so that a number belongs to one statement only (`Plan.built_build`, `Plan.nodup_ids_build`).
-/

namespace FederatedSparql.Plan

variable {p : Plan} {args : List Plan}

/-- A plan as it is built from an algebra. -/
inductive Built : Plan → Prop
  | statement (id : Nat) (pattern : TriplePattern) : Built (statement { id, pattern })
  | join {args : List Plan} (two : 2 ≤ args.length) (each : ∀ a ∈ args, Built a) :
    Built (join args [])
  | union {args : List Plan} (two : 2 ≤ args.length) (each : ∀ a ∈ args, Built a) :
    Built (union args)
  | leftJoin {l r : Plan} (condition : Option Expr) (hl : Built l) (hr : Built r) :
    Built (leftJoin l r condition)
  | filter (condition : Expr) {a : Plan} (ha : Built a) : Built (filter condition a)
  | project (vars : List String) {a : Plan} (ha : Built a) : Built (project vars ∅ a)
  | slice (offset : Nat) (limit : Option Nat) {a : Plan} (ha : Built a) :
    Built (slice offset limit a)
  | distinct {a : Plan} (ha : Built a) : Built (distinct a)
  | service (s : Service) : Built (service s)

/-! ### Operands -/

theorem joinOperands_cases (p : Plan) :
    (∃ args vars, p = join args vars ∧ p.joinOperands = args) ∨ p.joinOperands = [p] := by
  cases p with
  | join args vars => exact .inl ⟨args, vars, rfl, rfl⟩
  | _ => exact .inr rfl

theorem unionOperands_cases (p : Plan) :
    (∃ args, p = union args ∧ p.unionOperands = args) ∨ p.unionOperands = [p] := by
  cases p with
  | union args => exact .inl ⟨args, rfl, rfl⟩
  | _ => exact .inr rfl

theorem Built.joinOperands (h : p.Built) :
    1 ≤ p.joinOperands.length ∧ ∀ a ∈ p.joinOperands, a.Built := by
  rcases joinOperands_cases p with ⟨args, vars, rfl, hargs⟩ | hp
  · cases h with
    | join two each => exact ⟨Nat.le_of_succ_le two, each⟩
  · rw [hp]
    exact ⟨Nat.le_refl 1, List.forall_mem_singleton.2 h⟩

theorem Built.unionOperands (h : p.Built) :
    1 ≤ p.unionOperands.length ∧ ∀ a ∈ p.unionOperands, a.Built := by
  rcases unionOperands_cases p with ⟨args, rfl, hargs⟩ | hp
  · cases h with
    | union two each => exact ⟨Nat.le_of_succ_le two, each⟩
  · rw [hp]
    exact ⟨Nat.le_refl 1, List.forall_mem_singleton.2 h⟩

theorem statementsAll_eq_flatMap (args : List Plan) :
    statementsAll args = args.flatMap statements := by
  induction args with
  | nil => rfl
  | cons a args ih => rw [statementsAll, ih, List.flatMap_cons]

theorem statementsAll_append (xs ys : List Plan) :
    statementsAll (xs ++ ys) = statementsAll xs ++ statementsAll ys := by
  simp only [statementsAll_eq_flatMap, List.flatMap_append]

/-- A join of the operands of two plans has the statements of both. -/
theorem statements_join_joinOperands (l r : Plan) (vars : List String) :
    (join (l.joinOperands ++ r.joinOperands) vars).statements = l.statements ++ r.statements := by
  have operands : ∀ p : Plan, statementsAll p.joinOperands = p.statements := by
    intro p
    rcases joinOperands_cases p with ⟨args, vars, rfl, -⟩ | hp
    · rfl
    · rw [hp, statementsAll, statementsAll, List.append_nil]
  rw [statements, statementsAll_append, operands, operands]

theorem statements_union_unionOperands (l r : Plan) :
    (union (l.unionOperands ++ r.unionOperands)).statements = l.statements ++ r.statements := by
  have operands : ∀ p : Plan, statementsAll p.unionOperands = p.statements := by
    intro p
    rcases unionOperands_cases p with ⟨args, rfl, -⟩ | hp
    · rfl
    · rw [hp, statementsAll, statementsAll, List.append_nil]
  rw [statements, statementsAll_append, operands, operands]

theorem built_join_joinOperands {l r : Plan} (hl : l.Built) (hr : r.Built) :
    (join (l.joinOperands ++ r.joinOperands) []).Built := by
  obtain ⟨lengthl, eachl⟩ := hl.joinOperands
  obtain ⟨lengthr, eachr⟩ := hr.joinOperands
  apply Built.join
  · rw [List.length_append]
    exact Nat.add_le_add lengthl lengthr
  · intro x hx
    rcases List.mem_append.1 hx with hx | hx
    · exact eachl x hx
    · exact eachr x hx

theorem built_union_unionOperands {l r : Plan} (hl : l.Built) (hr : r.Built) :
    (union (l.unionOperands ++ r.unionOperands)).Built := by
  obtain ⟨lengthl, eachl⟩ := hl.unionOperands
  obtain ⟨lengthr, eachr⟩ := hr.unionOperands
  apply Built.union
  · rw [List.length_append]
    exact Nat.add_le_add lengthl lengthr
  · intro x hx
    rcases List.mem_append.1 hx with hx | hx
    · exact eachl x hx
    · exact eachr x hx

/-! ### Building -/

/-- A plan is built with the numbers from one on, as many as it has statements. -/
structure BuiltFrom (n : Nat) (p : Plan) (next : Nat) : Prop where
  built : p.Built
  ids : p.statements.map (·.id) = List.range' n p.statements.length
  next_eq : next = n + p.statements.length

/-- Parts that are built one after another have the numbers of a whole. -/
theorem ids_append {xs ys : List Statement} {n : Nat}
    (hx : xs.map (·.id) = List.range' n xs.length)
    (hy : ys.map (·.id) = List.range' (n + xs.length) ys.length) :
    (xs ++ ys).map (·.id) = List.range' n (xs ++ ys).length := by
  rw [List.map_append, hx, hy, List.range'_append_1, List.length_append]

/-- A plan of two parts that are built one after another. -/
theorem BuiltFrom.both {l r : Plan} {n m next : Nat} (hl : BuiltFrom n l m)
    (hr : BuiltFrom m r next) (hp : p.Built) (hs : p.statements = l.statements ++ r.statements) :
    BuiltFrom n p next where
  built := hp
  ids := by
    have second := hr.ids
    rw [hl.next_eq] at second
    rw [hs]
    exact ids_append hl.ids second
  next_eq := by rw [hr.next_eq, hl.next_eq, hs, List.length_append, Nat.add_assoc]

/-- A plan around another one has its statements. -/
theorem BuiltFrom.around {a : Plan} {n next : Nat} (ha : BuiltFrom n a next) (hp : p.Built)
    (hs : p.statements = a.statements) : BuiltFrom n p next where
  built := hp
  ids := hs ▸ ha.ids
  next_eq := hs ▸ ha.next_eq

/-- **What is built of an algebra**, behind the numbers given before. -/
theorem builtFrom_run (a : Algebra) (inSubselect : Bool) (s : Progress) :
    BuiltFrom s.nextId ((ofAlgebra inSubselect a).run s).1
      ((ofAlgebra inSubselect a).run s).2.nextId := by
  induction a generalizing inSubselect s with
  | pattern pattern => exact ⟨.statement s.nextId pattern, rfl, rfl⟩
  | join l r ihl ihr =>
    have left := ihl inSubselect s
    have right := ihr inSubselect ((ofAlgebra inSubselect l).run s).2
    exact left.both right (built_join_joinOperands left.built right.built)
      (statements_join_joinOperands _ _ [])
  | union l r ihl ihr =>
    let noted : Progress := { s with structure_ := { s.structure_ with hasUnion := true } }
    have left := ihl inSubselect noted
    have right := ihr inSubselect ((ofAlgebra inSubselect l).run noted).2
    exact left.both right (built_union_unionOperands left.built right.built)
      (statements_union_unionOperands _ _)
  | leftJoin l r condition ihl ihr =>
    let noted : Progress := { s with structure_ := { s.structure_ with hasOptional := true } }
    have left := ihl inSubselect noted
    have right := ihr inSubselect ((ofAlgebra inSubselect l).run noted).2
    exact left.both right (.leftJoin condition left.built right.built) rfl
  | filter condition a ih =>
    have arg := ih inSubselect { s with structure_ := { s.structure_ with hasFilter := true } }
    exact arg.around (.filter condition arg.built) rfl
  | project vars a ih =>
    have arg := ih (inSubselect || s.seenProjection) { s with seenProjection := true }
    exact arg.around (.project vars arg.built) rfl
  | slice offset limit a ih =>
    cases inSubselect with
    | true =>
      have arg := ih true s
      exact arg.around (.slice offset limit arg.built) rfl
    | false =>
      have arg := ih false
        { s with structure_ := { s.structure_ with limit := s.structure_.limit.or limit } }
      exact arg.around (.slice offset limit arg.built) rfl
  | distinct a ih =>
    have arg := ih inSubselect s
    exact arg.around (.distinct arg.built) rfl
  | service endpoint body silent => exact ⟨.service _, rfl, rfl⟩

/-- **Plans of queries** have the shape that plans are built with. -/
theorem built_build (a : Algebra) : (build a).1.Built := (builtFrom_run a false {}).built

/-- **A number belongs to one statement only.** -/
theorem nodup_ids_build (a : Algebra) : ((build a).1.statements.map (·.id)).Nodup := by
  have ids := (builtFrom_run a false {}).ids
  rw [show (build a).1 = ((ofAlgebra false a).run {}).1 from rfl, ids]
  exact List.nodup_range'

end FederatedSparql.Plan
