import FederatedSparql.Algebra.Query
import FederatedSparql.Endpoint.Tag
import FederatedSparql.Error

/-!
The text of the queries that endpoints are asked.
-/

namespace FederatedSparql.QueryText

/-- A text in braces. -/
def braced (s : String) : String := "\x7b " ++ s ++ " \x7d"

/-- Variables as a query lists them. -/
def varList (vars : List String) : String := " ".intercalate (vars.map ("?" ++ ·))

/-- Patterns and a condition, with bound variables replaced. -/
def groupBody (patterns : List TriplePattern) (b : Bindings) (filter : Option Expr) : String :=
  " ".intercalate
    (patterns.map (fun p => (p.bind b).toSparql) ++
      (filter.map fun e => "FILTER " ++ (e.substitute b).toSparql).toList)

/-- The variables of patterns that are not bound, each once. -/
def freeVars (patterns : List TriplePattern) (b : Bindings) : List String :=
  (patterns.flatMap (·.freeVars b)).eraseDups

/-- The variables to select: those asked for, or all if none of them is free. -/
def selectedVars (free : List String) (projection : Option (List String)) : List String :=
  match projection with
  | none => free
  | some vars =>
    let kept := free.filter vars.contains
    if kept.isEmpty then free else kept

/-- The query for the solutions of patterns; there has to be a free variable. -/
def select (patterns : List TriplePattern) (b : Bindings) (filter : Option Expr)
    (projection : Option (List String)) : Except FedError String :=
  let free := freeVars patterns b
  if free.isEmpty then .error (.malformedQuery .allVariablesBound)
  else
    .ok ("SELECT " ++ varList (selectedVars free projection) ++ " WHERE " ++
      braced (groupBody patterns b filter))

/-- The query whether a pattern has a match. -/
def ask (p : TriplePattern) (b : Bindings) : String := "ASK " ++ braced (p.bind b).toSparql

/-- The query for one match of a pattern, for endpoints that cannot be asked whether there is any.
-/
def selectOne (p : TriplePattern) (b : Bindings) : String :=
  "SELECT * WHERE " ++ braced (p.bind b).toSparql ++ " LIMIT 1"

/-- One branch of a bound join: the patterns under one binding set, tagged with its number. -/
def boundBranch (patterns : List TriplePattern) (filter : Option Expr) (index : Nat)
    (b : Bindings) : String :=
  braced (groupBody patterns b filter ++ " BIND(" ++ toString index ++ " AS ?" ++ Tag.indexVar ++
    ")")

/-- The query for the solutions of patterns under each of some binding sets. -/
def boundJoin (patterns : List TriplePattern) (rows : List Bindings) (filter : Option Expr) :
    Except FedError String :=
  if rows.isEmpty then .error (.malformedQuery .noBindings)
  else
    .ok ("SELECT * WHERE " ++ braced (" UNION ".intercalate
      (rows.mapIdx fun index b => boundBranch patterns filter index b)))

/-! ### Whole queries -/

/-- The modifiers of a query that have been met on the way to its pattern. -/
structure SelectHead where
  distinct : Bool := false
  vars : Option (List String) := none
  /-- Offsets and limits as they are written behind the pattern, outermost first. -/
  modifiers : String := ""

namespace SelectHead

/-- Adds an offset, unless it is zero, and a limit, if there is one. -/
def slice (h : SelectHead) (offset : Nat) (limit : Option Nat) : SelectHead :=
  { h with
    modifiers := h.modifiers ++ (if offset = 0 then "" else " OFFSET " ++ toString offset) ++
      (limit.map fun n => " LIMIT " ++ toString n).getD "" }

/-- The query with a pattern. -/
def close (h : SelectHead) (body : String) : String :=
  let vars :=
    match h.vars with
    | some (v :: vs) => varList (v :: vs)
    | _ => "*"
  "SELECT " ++ (if h.distinct then "DISTINCT " else "") ++ vars ++ " WHERE " ++ braced body ++
    h.modifiers

end SelectHead

/-- A group pattern, or the pattern of a query whose modifiers have been met. -/
def close : Option SelectHead → String → String
  | none, body => body
  | some h, body => h.close body

/-- A sub-select, or the query itself if its modifiers are being met. -/
def enter (head : Option SelectHead) (inner : SelectHead → String) : String :=
  match head with
  | none => braced (inner {})
  | some h => inner h

/-- The text of an algebra.  Without a head that is a group pattern; under a head it is a query, to
which modifiers that are met first belong.  A second projection starts a sub-select. -/
def render (head : Option SelectHead) : Algebra → String
  | .pattern p => close head p.toSparql
  | .join l r => close head (render none l ++ " " ++ render none r)
  | .union l r => close head (braced (render none l) ++ " UNION " ++ braced (render none r))
  | .filter condition a => close head (render none a ++ " FILTER " ++ condition.toSparql)
  | .leftJoin l r condition =>
    let filter := (condition.map fun e => " FILTER " ++ e.toSparql).getD ""
    close head (render none l ++ " OPTIONAL " ++ braced (render none r ++ filter))
  | .service endpoint a silent =>
    close head ("SERVICE " ++ (if silent then "SILENT " else "") ++ "<" ++ endpoint ++ "> " ++
      braced (render none a))
  | .slice offset limit a => enter head fun h => render (some (h.slice offset limit)) a
  | .distinct a => enter head fun h => render (some { h with distinct := true }) a
  | .project vars a =>
    match head with
    | none => braced (render (some { vars := some vars }) a)
    | some h =>
      if h.vars.isNone then render (some { h with vars := some vars }) a
      else h.close (braced (render (some { vars := some vars }) a))

/-- The body of a group graph pattern. -/
def group (a : Algebra) : String := render none a

/-- The text of a whole query; only selections and questions can be passed on. -/
def query (q : Query) : Except FedError String :=
  match q.form with
  | .select => .ok (render (some {}) q.algebra)
  | .ask => .ok ("ASK " ++ braced (group q.algebra))
  | form => .error (.malformedQuery (.notRenderable form))

end FederatedSparql.QueryText
