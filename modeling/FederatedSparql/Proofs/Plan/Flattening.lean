import FederatedSparql.Proofs.Plan.Building

/-!
What becomes of the tree of an algebra when its plan is built.

Nested joins and unions are made flat and all else stays in place.  A plan is read back as an algebra
by bracketing the arguments of joins and unions to the left (`Plan.readBack?`); what is read back of
a built plan differs from the algebra in the brackets of its joins and unions only
(`Algebra.Reassociated`).

* `Plan.build_exact`: the statements of a plan are the patterns outside SERVICE bodies, numbered in
  document order; no join stands directly in a join and no union in a union; and the plan reads back
  as its algebra.
-/

namespace FederatedSparql

namespace Algebra

/-- The triple patterns in document order, without those of SERVICE bodies. -/
def ownPatterns : Algebra → List TriplePattern
  | pattern p => [p]
  | join l r => l.ownPatterns ++ r.ownPatterns
  | union l r => l.ownPatterns ++ r.ownPatterns
  | leftJoin l r _ => l.ownPatterns ++ r.ownPatterns
  | filter _ a => a.ownPatterns
  | project _ a => a.ownPatterns
  | slice _ _ a => a.ownPatterns
  | distinct a => a.ownPatterns
  | service _ _ _ => []

/-- Equality up to the brackets of joins and of unions. -/
inductive Reassociated : Algebra → Algebra → Prop
  | refl (a : Algebra) : Reassociated a a
  | symm {a b : Algebra} (h : Reassociated a b) : Reassociated b a
  | trans {a b c : Algebra} (h : Reassociated a b) (h' : Reassociated b c) : Reassociated a c
  | joinAssoc (a b c : Algebra) : Reassociated (join (join a b) c) (join a (join b c))
  | unionAssoc (a b c : Algebra) : Reassociated (union (union a b) c) (union a (union b c))
  | join {a a' b b' : Algebra} (ha : Reassociated a a') (hb : Reassociated b b') :
    Reassociated (join a b) (join a' b')
  | union {a a' b b' : Algebra} (ha : Reassociated a a') (hb : Reassociated b b') :
    Reassociated (union a b) (union a' b')
  | leftJoin {a a' b b' : Algebra} (condition : Option Expr) (ha : Reassociated a a')
    (hb : Reassociated b b') : Reassociated (leftJoin a b condition) (leftJoin a' b' condition)
  | filter {a a' : Algebra} (condition : Expr) (ha : Reassociated a a') :
    Reassociated (filter condition a) (filter condition a')
  | project {a a' : Algebra} (vars : List String) (ha : Reassociated a a') :
    Reassociated (project vars a) (project vars a')
  | slice {a a' : Algebra} (offset : Nat) (limit : Option Nat) (ha : Reassociated a a') :
    Reassociated (slice offset limit a) (slice offset limit a')
  | distinct {a a' : Algebra} (ha : Reassociated a a') : Reassociated (distinct a) (distinct a')

/-- An operator whose brackets may be moved. -/
structure Associative (op : Algebra → Algebra → Algebra) : Prop where
  assoc : ∀ a b c, Reassociated (op (op a b) c) (op a (op b c))
  congr : ∀ {a a' b b'}, Reassociated a a' → Reassociated b b' → Reassociated (op a b) (op a' b')

theorem associative_join : Associative join := ⟨.joinAssoc, .join⟩

theorem associative_union : Associative union := ⟨.unionAssoc, .union⟩

/-- Operands with the brackets to the left; there has to be one. -/
def leftDeep? (op : Algebra → Algebra → Algebra) : List Algebra → Option Algebra
  | [] => none
  | a :: rest => some (rest.foldl op a)

namespace Associative

variable {op : Algebra → Algebra → Algebra}

theorem foldl_congr (h : Associative op) {a b : Algebra} (hab : Reassociated a b)
    (rest : List Algebra) : Reassociated (rest.foldl op a) (rest.foldl op b) := by
  induction rest generalizing a b with
  | nil => exact hab
  | cons c rest ih => exact ih (h.congr hab (.refl c))

/-- The first operand may be left outside the brackets. -/
theorem foldl_op (h : Associative op) (a b : Algebra) (rest : List Algebra) :
    Reassociated (rest.foldl op (op a b)) (op a (rest.foldl op b)) := by
  induction rest generalizing b with
  | nil => exact .refl _
  | cons c rest ih => exact (h.foldl_congr (h.assoc a b c) rest).trans (ih (op b c))

/-- Two groups of operands may be put into brackets of their own. -/
theorem foldl_append (h : Associative op) (a b : Algebra) (xs ys : List Algebra) :
    Reassociated ((xs ++ b :: ys).foldl op a) (op (xs.foldl op a) (ys.foldl op b)) := by
  rw [List.foldl_append]
  exact h.foldl_op (xs.foldl op a) b ys

end Associative

end Algebra

namespace Plan

variable {p : Plan}

/-! ### Flat plans -/

mutual

/-- Joins and unions have at least two arguments; no join is an argument of a join and no union one
of a union. -/
def Flattened : Plan → Prop
  | join args _ => 2 ≤ args.length ∧ (∀ inner vars, join inner vars ∉ args) ∧ FlattenedAll args
  | union args => 2 ≤ args.length ∧ (∀ inner, union inner ∉ args) ∧ FlattenedAll args
  | leftJoin l r _ => l.Flattened ∧ r.Flattened
  | filter _ a => a.Flattened
  | project _ _ a => a.Flattened
  | slice _ _ a => a.Flattened
  | distinct a => a.Flattened
  | statement _ | group _ | independent _ | service _ | passThrough .. | empty => True

/-- `Flattened` for all plans of a list. -/
def FlattenedAll : List Plan → Prop
  | [] => True
  | a :: rest => a.Flattened ∧ FlattenedAll rest

end

/-! ### Reading plans back -/

mutual

/-- The algebra that a plan without sources stands for, with the brackets of joins and unions to the
left. -/
def readBack? : Plan → Option Algebra
  | statement s => some (.pattern s.pattern)
  | join args _ => (readBackAll? args).bind (Algebra.leftDeep? .join)
  | union args => (readBackAll? args).bind (Algebra.leftDeep? .union)
  | leftJoin l r condition => do return .leftJoin (← l.readBack?) (← r.readBack?) condition
  | filter condition a => a.readBack?.map (.filter condition)
  | project vars _ a => a.readBack?.map (.project vars)
  | slice offset limit a => a.readBack?.map (.slice offset limit)
  | distinct a => a.readBack?.map .distinct
  | service s => some (.service s.endpoint s.body s.silent)
  | group _ | independent _ | passThrough .. | empty => none

/-- The algebras that plans stand for. -/
def readBackAll? : List Plan → Option (List Algebra)
  | [] => some []
  | a :: rest => do return (← a.readBack?) :: (← readBackAll? rest)

end

theorem flattenedAll_append {xs ys : List Plan} :
    FlattenedAll (xs ++ ys) ↔ FlattenedAll xs ∧ FlattenedAll ys := by
  induction xs with
  | nil => simp [FlattenedAll]
  | cons x xs ih => simp [FlattenedAll, ih, and_assoc]

theorem Flattened.joinOperands (h : p.Flattened) :
    (∀ inner vars, join inner vars ∉ p.joinOperands) ∧ FlattenedAll p.joinOperands := by
  cases p with
  | join args vars => exact h.2
  | _ => exact ⟨by simp [Plan.joinOperands], h, trivial⟩

theorem Flattened.unionOperands (h : p.Flattened) :
    (∀ inner, union inner ∉ p.unionOperands) ∧ FlattenedAll p.unionOperands := by
  cases p with
  | union args => exact h.2
  | _ => exact ⟨by simp [Plan.unionOperands], h, trivial⟩

theorem Built.two_le_of_join {args : List Plan} {vars : List String}
    (h : (Plan.join args vars).Built) : 2 ≤ args.length := by
  cases h with
  | join two _ => exact two

theorem Built.two_le_of_union {args : List Plan} (h : (Plan.union args).Built) :
    2 ≤ args.length := by
  cases h with
  | union two _ => exact two

theorem flattened_join_joinOperands {l r : Plan} (hl : l.Flattened) (hr : r.Flattened)
    (two : 2 ≤ (l.joinOperands ++ r.joinOperands).length) :
    (join (l.joinOperands ++ r.joinOperands) []).Flattened := by
  obtain ⟨apartl, eachl⟩ := hl.joinOperands
  obtain ⟨apartr, eachr⟩ := hr.joinOperands
  refine ⟨two, fun inner vars hm => ?_, flattenedAll_append.2 ⟨eachl, eachr⟩⟩
  exact (List.mem_append.1 hm).elim (apartl inner vars) (apartr inner vars)

theorem flattened_union_unionOperands {l r : Plan} (hl : l.Flattened) (hr : r.Flattened)
    (two : 2 ≤ (l.unionOperands ++ r.unionOperands).length) :
    (union (l.unionOperands ++ r.unionOperands)).Flattened := by
  obtain ⟨apartl, eachl⟩ := hl.unionOperands
  obtain ⟨apartr, eachr⟩ := hr.unionOperands
  refine ⟨two, fun inner hm => ?_, flattenedAll_append.2 ⟨eachl, eachr⟩⟩
  exact (List.mem_append.1 hm).elim (apartl inner) (apartr inner)

/-! ### Operands that are read back -/

theorem readBackAll?_append {xs ys : List Plan} {as bs : List Algebra}
    (hx : readBackAll? xs = some as) (hy : readBackAll? ys = some bs) :
    readBackAll? (xs ++ ys) = some (as ++ bs) := by
  induction xs generalizing as with
  | nil =>
    obtain rfl : [] = as := Option.some.inj hx
    exact hy
  | cons x xs ih =>
    simp only [readBackAll?, Option.bind_eq_bind, Option.bind_eq_some_iff] at hx
    obtain ⟨a, ha, rest, hrest, has⟩ := hx
    obtain rfl := Option.some.inj has
    simp [readBackAll?, ha, ih hrest]

/-- `operands` are what a plan contributes to a join or a union: its own arguments, or itself. -/
theorem exists_readBackAll?_operands {op : Algebra → Algebra → Algebra} {operands : List Plan}
    {back : Algebra} (h : p.readBack? = some back)
    (contributed : p.readBack? = (readBackAll? operands).bind (Algebra.leftDeep? op) ∨
      operands = [p]) :
    ∃ a rest, readBackAll? operands = some (a :: rest) ∧ rest.foldl op a = back := by
  rcases contributed with own | rfl
  · rw [own] at h
    obtain ⟨as, has, hback⟩ := Option.bind_eq_some_iff.1 h
    cases as with
    | nil => simp [Algebra.leftDeep?] at hback
    | cons a rest => exact ⟨a, rest, has, Option.some.inj hback⟩
  · exact ⟨back, [], by simp [readBackAll?, h], rfl⟩

/-- The operands of two plans, bracketed to the left, are both plans up to the brackets. -/
theorem exists_leftDeep?_operands {op : Algebra → Algebra → Algebra} (hop : Algebra.Associative op)
    {l r : Plan} {xs ys : List Plan} {a b : Algebra}
    (hl : ∃ back, l.readBack? = some back ∧ back.Reassociated a)
    (hr : ∃ back, r.readBack? = some back ∧ back.Reassociated b)
    (hxs : l.readBack? = (readBackAll? xs).bind (Algebra.leftDeep? op) ∨ xs = [l])
    (hys : r.readBack? = (readBackAll? ys).bind (Algebra.leftDeep? op) ∨ ys = [r]) :
    ∃ back, (readBackAll? (xs ++ ys)).bind (Algebra.leftDeep? op) = some back ∧
      back.Reassociated (op a b) := by
  obtain ⟨backl, hl, samel⟩ := hl
  obtain ⟨backr, hr, samer⟩ := hr
  obtain ⟨x, restx, hx, rfl⟩ := exists_readBackAll?_operands hl hxs
  obtain ⟨y, resty, hy, rfl⟩ := exists_readBackAll?_operands hr hys
  refine ⟨(restx ++ y :: resty).foldl op x, ?_, ?_⟩
  · rw [readBackAll?_append hx hy]
    rfl
  · exact (hop.foldl_append x y restx resty).trans (hop.congr samel samer)

theorem readBack?_joinOperands (p : Plan) :
    p.readBack? = (readBackAll? p.joinOperands).bind (Algebra.leftDeep? .join) ∨
      p.joinOperands = [p] := by
  rcases joinOperands_cases p with ⟨args, vars, rfl, hargs⟩ | hp
  · exact .inl rfl
  · exact .inr hp

theorem readBack?_unionOperands (p : Plan) :
    p.readBack? = (readBackAll? p.unionOperands).bind (Algebra.leftDeep? .union) ∨
      p.unionOperands = [p] := by
  rcases unionOperands_cases p with ⟨args, rfl, hargs⟩ | hp
  · exact .inl rfl
  · exact .inr hp

theorem exists_readBack?_leftJoin (condition : Option Expr) {l r : Plan} {a b : Algebra}
    (hl : ∃ back, l.readBack? = some back ∧ back.Reassociated a)
    (hr : ∃ back, r.readBack? = some back ∧ back.Reassociated b) :
    ∃ back, (leftJoin l r condition).readBack? = some back ∧
      back.Reassociated (.leftJoin a b condition) := by
  obtain ⟨backl, hl, samel⟩ := hl
  obtain ⟨backr, hr, samer⟩ := hr
  exact ⟨.leftJoin backl backr condition, by simp [readBack?, hl, hr],
    .leftJoin condition samel samer⟩

/-! ### Building -/

/-- A plan is what becomes of an algebra: it has its patterns, which have been counted, it is flat,
and it reads back as the algebra. -/
structure Represents (a : Algebra) (count : Nat) (p : Plan) (count' : Nat) : Prop where
  patterns : p.statements.map (·.pattern) = a.ownPatterns
  counted : count' = count + a.ownPatterns.length
  flattened : p.Flattened
  readsBack : ∃ back, p.readBack? = some back ∧ back.Reassociated a

/-- A plan of two parts that are built one after another. -/
theorem Represents.both {a b c : Algebra} {l r : Plan} {n m k : Nat} (hl : Represents a n l m)
    (hr : Represents b m r k) (hc : c.ownPatterns = a.ownPatterns ++ b.ownPatterns)
    (hs : p.statements = l.statements ++ r.statements) (flattened : p.Flattened)
    (readsBack : ∃ back, p.readBack? = some back ∧ back.Reassociated c) : Represents c n p k where
  patterns := by rw [hs, hc, List.map_append, hl.patterns, hr.patterns]
  counted := by rw [hr.counted, hl.counted, hc, List.length_append, Nat.add_assoc]
  flattened := flattened
  readsBack := readsBack

/-- A plan around another one, which keeps the brackets inside. -/
theorem Represents.around {a c : Algebra} {q : Plan} {n m : Nat} {op : Algebra → Algebra}
    (ha : Represents a n q m) (hc : c.ownPatterns = a.ownPatterns)
    (hs : p.statements = q.statements) (flattened : q.Flattened → p.Flattened)
    (hp : p.readBack? = q.readBack?.map op)
    (congr : ∀ {back}, back.Reassociated a → (op back).Reassociated c) : Represents c n p m where
  patterns := by rw [hs, hc, ha.patterns]
  counted := by rw [ha.counted, hc]
  flattened := flattened ha.flattened
  readsBack := by
    obtain ⟨back, hback, same⟩ := ha.readsBack
    exact ⟨op back, by rw [hp, hback, Option.map_some], congr same⟩

/-- **Plans represent the algebras they are built from.** -/
theorem represents_run (a : Algebra) (inSubselect : Bool) (s : Progress) :
    Represents a s.structure_.statementCount ((ofAlgebra inSubselect a).run s).1
      ((ofAlgebra inSubselect a).run s).2.structure_.statementCount := by
  induction a generalizing inSubselect s with
  | pattern p => exact ⟨rfl, rfl, trivial, _, rfl, .refl _⟩
  | join l r ihl ihr =>
    have left := ihl inSubselect s
    have right := ihr inSubselect ((ofAlgebra inSubselect l).run s).2
    have two := (builtFrom_run (.join l r) inSubselect s).built.two_le_of_join
    exact left.both right rfl (statements_join_joinOperands _ _ [])
      (flattened_join_joinOperands left.flattened right.flattened two)
      (exists_leftDeep?_operands Algebra.associative_join left.readsBack right.readsBack
        (readBack?_joinOperands _) (readBack?_joinOperands _))
  | union l r ihl ihr =>
    let noted : Progress := { s with structure_ := { s.structure_ with hasUnion := true } }
    have left := ihl inSubselect noted
    have right := ihr inSubselect ((ofAlgebra inSubselect l).run noted).2
    have two := (builtFrom_run (.union l r) inSubselect s).built.two_le_of_union
    exact left.both right rfl (statements_union_unionOperands _ _)
      (flattened_union_unionOperands left.flattened right.flattened two)
      (exists_leftDeep?_operands Algebra.associative_union left.readsBack right.readsBack
        (readBack?_unionOperands _) (readBack?_unionOperands _))
  | leftJoin l r condition ihl ihr =>
    let noted : Progress := { s with structure_ := { s.structure_ with hasOptional := true } }
    have left := ihl inSubselect noted
    have right := ihr inSubselect ((ofAlgebra inSubselect l).run noted).2
    exact left.both right rfl rfl ⟨left.flattened, right.flattened⟩
      (exists_readBack?_leftJoin condition left.readsBack right.readsBack)
  | filter condition a ih =>
    have arg := ih inSubselect { s with structure_ := { s.structure_ with hasFilter := true } }
    exact arg.around rfl rfl id rfl (.filter condition)
  | project vars a ih =>
    have arg := ih (inSubselect || s.seenProjection) { s with seenProjection := true }
    exact arg.around rfl rfl id rfl (.project vars)
  | slice offset limit a ih =>
    cases inSubselect with
    | true =>
      have arg := ih true s
      exact arg.around rfl rfl id rfl (.slice offset limit)
    | false =>
      have arg := ih false
        { s with structure_ := { s.structure_ with limit := s.structure_.limit.or limit } }
      exact arg.around rfl rfl id rfl (.slice offset limit)
  | distinct a ih =>
    have arg := ih inSubselect s
    exact arg.around rfl rfl id rfl .distinct
  | service endpoint body silent => exact ⟨rfl, rfl, trivial, _, rfl, .refl _⟩

/-- **A plan follows its algebra.**  Its statements are the patterns outside SERVICE bodies in
document order, numbered from nothing up to the number that comes next, which is how many have been
counted.  Statements have no sources or conditions yet, joins and unions are flat, and the plan reads
back as the algebra up to the brackets of joins and of unions. -/
theorem build_exact (a : Algebra) :
    (build a).1.statements.map (·.pattern) = a.ownPatterns ∧
      (build a).1.statements.map (·.id) = List.range (build a).2.2 ∧
      (build a).2.1.statementCount = (build a).2.2 ∧
      (build a).1.Built ∧ (build a).1.Flattened ∧
      ∃ back, (build a).1.readBack? = some back ∧ back.Reassociated a := by
  have numbered := builtFrom_run a false {}
  have represents := represents_run a false {}
  have next : (build a).2.2 = a.ownPatterns.length := by
    rw [← represents.patterns, List.length_map]
    exact numbered.next_eq.trans (Nat.zero_add _)
  refine ⟨represents.patterns, ?_, ?_, numbered.built, represents.flattened, represents.readsBack⟩
  · rw [next, ← represents.patterns, List.length_map, List.range_eq_range']
    exact numbered.ids
  · rw [next]
    exact represents.counted.trans (Nat.zero_add _)

end Plan

end FederatedSparql
