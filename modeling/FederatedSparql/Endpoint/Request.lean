import FederatedSparql.Algebra.Query

/-!
What endpoints are asked, and what they answer.
-/

namespace FederatedSparql

/-- A request to an endpoint. -/
inductive Request where
  /-- Whether a pattern has a match under a binding set. -/
  | has (pattern : TriplePattern) (bindings : Bindings)
  /-- The solutions of patterns that extend a binding set; of other variables than those bound there
  only the ones of the projection are wanted, or all without one. -/
  | get (patterns : List TriplePattern) (bindings : Bindings) (filter : Option Expr)
      (projection : Option (List String))
  /-- The solutions of patterns that extend each of some binding sets, tagged with its number. -/
  | bound (patterns : List TriplePattern) (rows : List Bindings) (filter : Option Expr)
  /-- The triples with the given terms at some positions. -/
  | triples (subject predicate object : Option Term)
  /-- The solutions of a whole query that extend a binding set. -/
  | query (text : String) (bindings : Bindings)
deriving Repr

/-- An answer to a request. -/
inductive Answer where
  | found (yes : Bool)
  | rows (rows : List Bindings)
  | triples (triples : List Triple)
deriving Repr

namespace Answer

/-- Whether there is a match. -/
def isFound : Answer → Bool
  | found yes => yes
  | rows rs => !rs.isEmpty
  | triples ts => !ts.isEmpty

/-- The solutions. -/
def toRows : Answer → List Bindings
  | rows rs => rs
  | _ => []

/-- The triples. -/
def toTriples : Answer → List Triple
  | triples ts => ts
  | _ => []

end Answer

end FederatedSparql
