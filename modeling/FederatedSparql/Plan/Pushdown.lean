import FederatedSparql.Plan.Basic

/-!
Filters moved towards the statements that bind their variables.

A filter is split into its conjuncts.  Each one that may be evaluated next to a single pattern goes
to the first statement or group that binds all its variables, and the others stay in a filter above.
Directly below a projection an equality of a variable with a resource fixes the variable instead, if
all parts that mention it are statements, and the projection puts the resource back into every row.
-/

namespace FederatedSparql.Plan

/-! ### What a plan binds -/

mutual

/-- The variables of parts into which no term can be put. -/
def opaqueVars : Plan → List String
  | statement _ => []
  | group _ => []
  | independent _ => []
  | empty => []
  | join args _ => opaqueVarsAll args
  | filter _ a => a.opaqueVars
  | leftJoin l r condition =>
    l.opaqueVars ++ r.freeVars ++ (condition.map Expr.vars).getD []
  | union args => (union args).freeVars
  | service s => s.vars
  | passThrough endpoint q => (passThrough endpoint q).freeVars
  | project vars inserted a => (project vars inserted a).freeVars
  | slice _ _ a => a.freeVars
  | distinct a => a.freeVars

/-- The variables of parts of any of the plans into which no term can be put. -/
def opaqueVarsAll : List Plan → List String
  | [] => []
  | a :: rest => a.opaqueVars ++ opaqueVarsAll rest

end

mutual

/-- The variables that statements bind in every row. -/
def reachableVars : Plan → List String
  | statement s => s.freeVars
  | group g => g.freeVars
  | independent members => members.flatMap (·.freeVars)
  | join args _ => reachableVarsAll args
  | filter _ a => a.reachableVars
  | leftJoin l _ _ => l.reachableVars
  | _ => []

/-- The variables that statements of any of the plans bind in every row. -/
def reachableVarsAll : List Plan → List String
  | [] => []
  | a :: rest => a.reachableVars ++ reachableVarsAll rest

end

/-! ### Fixing variables -/

/-- Fixes the variables of a statement that are given a term. -/
def fixStatement (bound : Bindings) (s : Statement) : Statement :=
  s.pattern.vars.foldl (fun s v =>
    match bound.get? v with
    | some t => s.fix v t
    | none => s) s

/-- Fixes the variables of a group that are given a term. -/
def fixGroup (bound : Bindings) (g : ExclusiveGroup) : ExclusiveGroup :=
  g.freeVars.foldl (fun g v =>
    match bound.get? v with
    | some t => g.fix v t
    | none => g) g

mutual

/-- Fixes variables in all statements that are not below an opaque part. -/
def fixVars (bound : Bindings) : Plan → Plan
  | statement s => statement (fixStatement bound s)
  | group g => group (fixGroup bound g)
  | independent members => independent (members.map (fixStatement bound))
  | join args joinVars =>
    join (fixVarsAll bound args) (joinVars.filter fun v => !bound.contains v)
  | filter condition a => filter (condition.substitute bound) (a.fixVars bound)
  | leftJoin l r condition => leftJoin (l.fixVars bound) r condition
  | union args => union args
  | service s => service s
  | passThrough endpoint query => passThrough endpoint query
  | empty => empty
  | project vars inserted a => project vars inserted a
  | slice offset limit a => slice offset limit a
  | distinct a => distinct a

/-- `fixVars` on all plans. -/
def fixVarsAll (bound : Bindings) : List Plan → List Plan
  | [] => []
  | a :: rest => a.fixVars bound :: fixVarsAll bound rest

end

/-! ### Placing conditions -/

/-- Whether all variables are among the given ones. -/
def covers (free vars : List String) : Bool := vars.all free.contains

/-- Adds a condition to the first statement that binds all its variables. -/
def placeInMembers? (e : Expr) : List Statement → Option (List Statement)
  | [] => none
  | s :: rest =>
    if covers s.freeVars e.vars then some (s.addFilter e :: rest)
    else (placeInMembers? e rest).map (s :: ·)

mutual

/-- Adds a condition to the first statement or group that binds all its variables. -/
def place? (e : Expr) : Plan → Option Plan
  | statement s => if covers s.freeVars e.vars then some (statement (s.addFilter e)) else none
  | group g => if covers g.freeVars e.vars then some (group (g.addFilter e)) else none
  | independent members => (placeInMembers? e members).map independent
  | join args joinVars => (placeInFirst? e args).map fun args => join args joinVars
  | filter condition a => (a.place? e).map (filter condition)
  | leftJoin l r condition => (l.place? e).map fun l => leftJoin l r condition
  | _ => none

/-- Adds a condition to the first of the plans that can take it. -/
def placeInFirst? (e : Expr) : List Plan → Option (List Plan)
  | [] => none
  | a :: rest =>
    match a.place? e with
    | some a => some (a :: rest)
    | none => (placeInFirst? e rest).map (a :: ·)

end

/-! ### Filters -/

/-- Takes the equalities that may fix a variable out of conjuncts: the terms they fix, the first one
for each variable, and the conjuncts that are left. -/
def takeEqualities (blocked reachable : List String) (conjuncts : List Expr) :
    Bindings × List Expr :=
  conjuncts.foldl (fun (bound, rest) e =>
    match e.resourceEquality? with
    | some (v, t) =>
      if !bound.contains v && !blocked.contains v && reachable.contains v then
        (bound.insert v t, rest)
      else (bound, rest ++ [e])
    | none => (bound, rest ++ [e])) (∅, [])

/-- Places each conjunct or keeps it: the plan and the conjuncts that are kept. -/
def placeAll (conjuncts : List Expr) (a : Plan) : Plan × List Expr :=
  conjuncts.foldl (fun (a, residual) e =>
    if e.vars.isEmpty || !e.isPushable then (a, residual ++ [e])
    else
      match a.place? e with
      | some a => (a, residual)
      | none => (a, residual ++ [e])) (a, [])

/-- A filter over a plan, as far as the plan cannot take its conjuncts, and the terms that
equalities have fixed, if they may. -/
def pushFilter (condition : Expr) (a : Plan) (mayFix : Bool) : Plan × Bindings :=
  if a.isEmpty then (a, ∅)
  else
    let (bound, conjuncts) :=
      if mayFix then takeEqualities a.opaqueVars a.reachableVars condition.conjuncts
      else (∅, condition.conjuncts)
    let a := if bound.isEmpty then a else a.fixVars bound
    let (a, residual) := placeAll (conjuncts.map (·.substitute bound)) a
    match Expr.andAll residual with
    | some condition => (filter condition a, bound)
    | none => (a, bound)

/-- Adds terms to those a projection puts back. -/
def insertAll (inserted bound : Bindings) : Bindings :=
  bound.entries.foldl (fun b e => b.insert e.1 e.2) inserted

mutual

/-- Moves all filters of a plan. -/
def pushFilters : Plan → Plan
  | filter condition a => (pushFilter condition a.pushFilters false).1
  | project vars inserted (filter condition a) =>
    let (a, bound) := pushFilter condition a.pushFilters true
    project vars (insertAll inserted bound) a
  | project vars inserted a => project vars inserted a.pushFilters
  | join args joinVars => join (pushFiltersAll args) joinVars
  | union args => union (pushFiltersAll args)
  | leftJoin l r condition => leftJoin l.pushFilters r.pushFilters condition
  | slice offset limit a => slice offset limit a.pushFilters
  | distinct a => distinct a.pushFilters
  | statement s => statement s
  | group g => group g
  | independent members => independent members
  | service s => service s
  | passThrough endpoint query => passThrough endpoint query
  | empty => empty

/-- `pushFilters` on all plans. -/
def pushFiltersAll : List Plan → List Plan
  | [] => []
  | a :: rest => a.pushFilters :: pushFiltersAll rest

end

end FederatedSparql.Plan
