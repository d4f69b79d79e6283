import FederatedSparql.Algebra.Query

/-!
Executable plans: the algebra of a query with n-ary joins and unions, annotated with the endpoints
that can answer each part.
-/

namespace FederatedSparql

/-- Whether an endpoint's data is at hand or behind a network. -/
inductive Locality where
  | «local»
  | remote
deriving DecidableEq, Repr, Inhabited

/-- An endpoint that can answer part of a plan. -/
structure Source where
  endpoint : String
  locality : Locality
deriving DecidableEq, Repr, Inhabited

/-- A triple pattern with its sources and with the filters pushed down to it. -/
structure Statement where
  id : Nat
  pattern : TriplePattern
  sources : List Source := []
  filter : Option Expr := none
  /-- Terms that filters have fixed for variables. -/
  boundFilters : Bindings := ∅
  /-- Variables that nothing else refers to, which endpoints may leave out of rows. -/
  localVars : List String := []
deriving DecidableEq, Repr, Inhabited

/-- Statements of one owner, sent as a single request. -/
structure ExclusiveGroup where
  id : Nat
  statements : List Statement
  owner : Source
  filter : Option Expr := none
  boundFilters : Bindings := ∅
deriving DecidableEq, Repr, Inhabited

/-- A SERVICE clause with its body as it was written. -/
structure Service where
  endpoint : String
  body : Algebra
  silent : Bool
deriving DecidableEq, Repr, Inhabited

/-- An executable plan. -/
inductive Plan where
  | statement (s : Statement)
  | group (g : ExclusiveGroup)
  | join (args : List Plan) (joinVars : List String)
  | union (args : List Plan)
  | service (s : Service)
  /-- Statements that depend on earlier arguments of a join only, and not on one another. -/
  | independent (members : List Statement)
  /-- A whole query for one endpoint. -/
  | passThrough (endpoint : String) (query : Query)
  /-- No solutions. -/
  | empty
  | filter (condition : Expr) (arg : Plan)
  | leftJoin (left right : Plan) (condition : Option Expr)
  /-- The terms of `inserted` have been fixed by filters and are put back into every row. -/
  | project (vars : List String) (inserted : Bindings) (arg : Plan)
  | slice (offset : Nat) (limit : Option Nat) (arg : Plan)
  | distinct (arg : Plan)
deriving Repr, Inhabited

/-- The conjunction of a condition with one that may be there already. -/
def conjoin (existing : Option Expr) (e : Expr) : Option Expr :=
  match existing with
  | some f => some (.and f e)
  | none => some e

namespace Statement

/-- The only source, if there is exactly one. -/
def owner? (s : Statement) : Option Source :=
  match s.sources with
  | [source] => some source
  | _ => none

/-- The pattern with the terms that filters have fixed. -/
def effectivePattern (s : Statement) : TriplePattern := s.pattern.bind s.boundFilters

/-- The variables of the pattern that no filter has fixed. -/
def freeVars (s : Statement) : List String := s.pattern.freeVars s.boundFilters

/-- Whether some variable is left under further bindings. -/
def hasFreeVarsFor (s : Statement) (b : Bindings) : Bool := s.effectivePattern.hasFreeVars b

/-- Adds a condition on the rows. -/
def addFilter (s : Statement) (e : Expr) : Statement := { s with filter := conjoin s.filter e }

/-- Fixes a variable, also in the conditions so far. -/
def fix (s : Statement) (name : String) (t : Term) : Statement :=
  let bound := s.boundFilters.insert name t
  { s with boundFilters := bound, filter := s.filter.map (·.substitute bound) }

end Statement

namespace ExclusiveGroup

/-- Adds a condition on the rows. -/
def addFilter (g : ExclusiveGroup) (e : Expr) : ExclusiveGroup :=
  { g with filter := conjoin g.filter e }

/-- Fixes a variable, also in the conditions so far. -/
def fix (g : ExclusiveGroup) (name : String) (t : Term) : ExclusiveGroup :=
  let bound := g.boundFilters.insert name t
  { g with boundFilters := bound, filter := g.filter.map (·.substitute bound) }

/-- Adds a statement, whose condition and fixed terms become those of the group. -/
def push (g : ExclusiveGroup) (s : Statement) : ExclusiveGroup :=
  let g :=
    match s.filter with
    | some e => g.addFilter e
    | none => g
  { g with
    boundFilters := s.boundFilters.entries.foldl (fun b e => b.insert e.1 e.2) g.boundFilters
    statements := g.statements ++ [{ s with filter := none }] }

/-- The group of statements of one owner. -/
def ofStatements (id : Nat) (statements : List Statement) (owner : Source) : ExclusiveGroup :=
  statements.foldl push { id, statements := [], owner }

/-- The pattern of a member with all terms that filters have fixed. -/
def memberPattern (g : ExclusiveGroup) (s : Statement) : TriplePattern :=
  (s.pattern.bind g.boundFilters).bind s.boundFilters

/-- The patterns of the members with all terms that filters have fixed. -/
def patterns (g : ExclusiveGroup) : List TriplePattern := g.statements.map g.memberPattern

/-- The variables of these patterns. -/
def freeVars (g : ExclusiveGroup) : List String := (g.patterns.flatMap (·.vars)).eraseDups

/-- The variables that nothing outside refers to. -/
def localVars (g : ExclusiveGroup) : List String :=
  (g.statements.flatMap (·.localVars)).eraseDups

end ExclusiveGroup

/-- The patterns and the conditions of an algebra that has only patterns, joins and filters. -/
def Algebra.bgpParts? : Algebra → Option (List TriplePattern × List Expr)
  | .pattern p => some ([p], [])
  | .join l r => do
    let (ps, es) ← l.bgpParts?
    let (qs, fs) ← r.bgpParts?
    return (ps ++ qs, es ++ fs)
  | .filter c a => do
    let (ps, es) ← a.bgpParts?
    return (ps, c :: es)
  | _ => none

namespace Service

/-- The body as a basic graph pattern with a condition, if it is one. -/
def bgp? (s : Service) : Option (List TriplePattern × Option Expr) :=
  s.body.bgpParts?.map fun (ps, es) => (ps, Expr.andAll es)

/-- The variables of the body's patterns. -/
def vars (s : Service) : List String := (s.body.patterns.flatMap (·.vars)).eraseDups

end Service

namespace Plan

/-- Whether the plan is the one without solutions. -/
def isEmpty : Plan → Bool
  | empty => true
  | _ => false

mutual

/-- The variables that the plan can bind. -/
def freeVars : Plan → List String
  | statement s => s.freeVars
  | group g => g.freeVars
  | join args _ => (freeVarsAll args).eraseDups
  | union args => (freeVarsAll args).eraseDups
  | independent members => (members.flatMap (·.freeVars)).eraseDups
  | service s => s.vars
  | passThrough _ q => (q.algebra.patterns.flatMap (·.vars)).eraseDups
  | empty => []
  | filter _ a => a.freeVars
  | slice _ _ a => a.freeVars
  | distinct a => a.freeVars
  | leftJoin l r _ => (l.freeVars ++ r.freeVars).eraseDups
  | project vars _ _ => vars.eraseDups

/-- The variables that the plans can bind, with repetitions. -/
def freeVarsAll : List Plan → List String
  | [] => []
  | a :: rest => a.freeVars ++ freeVarsAll rest

end

/-- A short name. -/
def label : Plan → String
  | statement s =>
    "Statement#" ++ toString s.id ++ "[" ++ toString s.sources.length ++ " source(s)]"
  | group g => "ExclusiveGroup#" ++ toString g.id ++ "@" ++ g.owner.endpoint
  | join args _ => "NJoin[" ++ toString args.length ++ "]"
  | union args => "NUnion[" ++ toString args.length ++ "]"
  | service s => "Service<" ++ s.endpoint ++ ">"
  | independent members => "IndependentJoinGroup[" ++ toString members.length ++ "]"
  | passThrough endpoint _ => "SingleSourceQuery@" ++ endpoint
  | empty => "Empty"
  | filter .. => "Filter"
  | leftJoin .. => "LeftJoin"
  | project .. => "Projection"
  | slice .. => "Slice"
  | distinct _ => "Distinct"

mutual

/-- The statements, also those inside groups, in document order. -/
def statements : Plan → List Statement
  | statement s => [s]
  | group g => g.statements
  | independent members => members
  | join args _ => statementsAll args
  | union args => statementsAll args
  | filter _ a => a.statements
  | project _ _ a => a.statements
  | slice _ _ a => a.statements
  | distinct a => a.statements
  | leftJoin l r _ => l.statements ++ r.statements
  | service _ => []
  | passThrough .. => []
  | empty => []

/-- The statements of all plans. -/
def statementsAll : List Plan → List Statement
  | [] => []
  | a :: rest => a.statements ++ statementsAll rest

end

end Plan

end FederatedSparql
