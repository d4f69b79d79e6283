import FederatedSparql.Plan.Basic

/-!
The plan of a query before it has sources.

Nested joins become one join and nested unions one union, and the statements are numbered in
document order.  Along the way the structure of the query is noted.
-/

namespace FederatedSparql

/-- What there is in a query outside its SERVICE bodies. -/
structure QueryStructure where
  statementCount : Nat := 0
  hasUnion : Bool := false
  hasFilter : Bool := false
  hasService : Bool := false
  hasOptional : Bool := false
  /-- The first limit outside sub-selects. -/
  limit : Option Nat := none
deriving DecidableEq, Repr, Inhabited

namespace Plan

/-- The arguments of a join, or the plan alone. -/
def joinOperands : Plan → List Plan
  | join args _ => args
  | p => [p]

/-- The arguments of a union, or the plan alone. -/
def unionOperands : Plan → List Plan
  | union args => args
  | p => [p]

/-- What is known while a plan is built. -/
structure Progress where
  structure_ : QueryStructure := {}
  nextId : Nat := 0
  /-- Whether a projection has been met; any further one belongs to a sub-select. -/
  seenProjection : Bool := false
deriving Inhabited

/-- Notes a fact on the structure of the query. -/
def note (f : QueryStructure → QueryStructure) : StateM Progress Unit :=
  modify fun p => { p with structure_ := f p.structure_ }

/-- The plan of an algebra, inside a sub-select or not. -/
def ofAlgebra (inSubselect : Bool) : Algebra → StateM Progress Plan
  | .pattern pattern => do
    let id := (← get).nextId
    modify fun p => { p with nextId := id + 1 }
    note fun s => { s with statementCount := s.statementCount + 1 }
    return statement { id, pattern }
  | .join l r => do
    let l ← ofAlgebra inSubselect l
    let r ← ofAlgebra inSubselect r
    return join (l.joinOperands ++ r.joinOperands) []
  | .union l r => do
    note fun s => { s with hasUnion := true }
    let l ← ofAlgebra inSubselect l
    let r ← ofAlgebra inSubselect r
    return union (l.unionOperands ++ r.unionOperands)
  | .leftJoin l r condition => do
    note fun s => { s with hasOptional := true }
    let l ← ofAlgebra inSubselect l
    let r ← ofAlgebra inSubselect r
    return leftJoin l r condition
  | .filter condition a => do
    note fun s => { s with hasFilter := true }
    return filter condition (← ofAlgebra inSubselect a)
  | .project vars a => do
    let nested := inSubselect || (← get).seenProjection
    modify fun p => { p with seenProjection := true }
    return project vars ∅ (← ofAlgebra nested a)
  | .slice offset limit a => do
    if !inSubselect then note fun s => { s with limit := s.limit.or limit }
    return slice offset limit (← ofAlgebra inSubselect a)
  | .distinct a => return distinct (← ofAlgebra inSubselect a)
  | .service endpoint body silent => do
    note fun s => { s with hasService := true }
    return service { endpoint, body, silent }

/-- The plan of a query, its structure, and the first number not given to a statement. -/
def build (a : Algebra) : Plan × QueryStructure × Nat :=
  let (plan, p) := (ofAlgebra false a).run {}
  (plan, p.structure_, p.nextId)

end Plan

end FederatedSparql
