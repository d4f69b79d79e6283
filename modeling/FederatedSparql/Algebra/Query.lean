import FederatedSparql.Algebra.QueryForm
import FederatedSparql.Algebra.TriplePattern
import FederatedSparql.Algebra.Expr

/-!
Queries as trees of algebra operators.
-/

namespace FederatedSparql

/-- The algebra of a query. -/
inductive Algebra where
  | pattern (p : TriplePattern)
  | join (left right : Algebra)
  | leftJoin (left right : Algebra) (condition : Option Expr)
  | union (left right : Algebra)
  | filter (condition : Expr) (arg : Algebra)
  | project (vars : List String) (arg : Algebra)
  | slice (offset : Nat) (limit : Option Nat) (arg : Algebra)
  | distinct (arg : Algebra)
  | service (endpoint : String) (arg : Algebra) (silent : Bool)
deriving DecidableEq, Repr, Inhabited

/-- A query: its text, its form and its algebra. -/
structure Query where
  text : String
  form : QueryForm
  algebra : Algebra
deriving DecidableEq, Repr, Inhabited

/-- The triple patterns in document order, those of SERVICE bodies included. -/
def Algebra.patterns : Algebra → List TriplePattern
  | pattern p => [p]
  | join l r => l.patterns ++ r.patterns
  | union l r => l.patterns ++ r.patterns
  | leftJoin l r _ => l.patterns ++ r.patterns
  | filter _ a => a.patterns
  | project _ a => a.patterns
  | slice _ _ a => a.patterns
  | distinct a => a.patterns
  | service _ a _ => a.patterns

end FederatedSparql
