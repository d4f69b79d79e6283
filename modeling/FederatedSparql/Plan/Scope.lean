import FederatedSparql.Plan.Basic

/-!
Variables that endpoints may leave out of their rows.

Below a projection a variable is local to a statement or group if that is the only argument of the
join to mention it and nothing else needs it.  Whatever is not a join of statements and groups under
filters is opaque: every variable it mentions is needed.
-/

namespace FederatedSparql.Plan

/-- The variables that the topmost projection keeps. -/
def topProjection? : Plan → Option (List String)
  | project vars _ _ => some vars
  | slice _ _ a => a.topProjection?
  | distinct a => a.topProjection?
  | _ => none

/-- The variables that an opaque part mentions. -/
def mentionedVars (p : Plan) : List String :=
  p.freeVars ++ p.statements.flatMap (·.pattern.vars)

/-- Variables by where they are mentioned. -/
structure Mentions where
  /-- Variables of conditions and opaque parts. -/
  needed : List String := []
  /-- Variables of each argument, in order. -/
  args : List (List String) := []

namespace Mentions

/-- The mentions in either part of a plan. -/
def append (a b : Mentions) : Mentions := ⟨a.needed ++ b.needed, a.args ++ b.args⟩

/-- Where a variable is local: the number of the only argument that mentions it. -/
def localTo? (m : Mentions) (kept : List String) (v : String) : Option Nat :=
  let owners := (m.args.zipIdx.filter fun a => a.1.contains v).map (·.2)
  match owners with
  | [owner] => if kept.contains v || m.needed.contains v then none else some owner
  | _ => none

end Mentions

mutual

/-- The mentions in a plan.  The Boolean tells whether only modifiers stand above it. -/
def mentions (top : Bool) : Plan → Mentions
  | statement s => { args := [s.freeVars] }
  | group g => { args := [g.freeVars] }
  | independent members => { args := members.map (·.freeVars) }
  | join args _ => mentionsAll args
  | filter condition a => .append { needed := condition.vars } (a.mentions false)
  | project vars inserted a =>
    if top then a.mentions false else { needed := (project vars inserted a).mentionedVars }
  | slice offset limit a =>
    if top then a.mentions true else { needed := (slice offset limit a).mentionedVars }
  | distinct a => if top then a.mentions true else { needed := (distinct a).mentionedVars }
  | empty => {}
  | union args => { needed := (union args).mentionedVars }
  | leftJoin l r condition => { needed := (leftJoin l r condition).mentionedVars }
  | service s => { needed := (service s).mentionedVars }
  | passThrough endpoint query => { needed := (passThrough endpoint query).mentionedVars }

/-- The mentions in the arguments of a join. -/
def mentionsAll : List Plan → Mentions
  | [] => {}
  | a :: rest => .append (a.mentions false) (mentionsAll rest)

end

/-- The number of the next argument. -/
def nextArg : StateM Nat Nat := modifyGet fun n => (n, n + 1)

/-- Marks the local variables of one statement. -/
def markStatement (localTo? : String → Option Nat) (s : Statement) : StateM Nat Statement := do
  let arg ← nextArg
  return { s with localVars := s.freeVars.filter fun v => localTo? v == some arg }

/-- Marks the local variables of the members of a group, each variable at the first member that has
it. -/
def markMembers (isLocal : String → Bool) (g : ExclusiveGroup) :
    List String → List Statement → List Statement
  | _, [] => []
  | claimed, s :: rest =>
    let vars := (s.pattern.bind g.boundFilters).freeVars s.boundFilters
    let own := vars.filter fun v => isLocal v && !claimed.contains v
    { s with localVars := own } :: markMembers isLocal g (claimed ++ own) rest

mutual

/-- Marks the local variables of all arguments, numbered as by `mentions`. -/
def markLocals (localTo? : String → Option Nat) (top : Bool) : Plan → StateM Nat Plan
  | statement s => do return statement (← markStatement localTo? s)
  | group g => do
    let arg ← nextArg
    return group
      { g with statements := markMembers (fun v => localTo? v == some arg) g [] g.statements }
  | independent members => do return independent (← members.mapM (markStatement localTo?))
  | join args joinVars => do return join (← markLocalsAll localTo? args) joinVars
  | filter condition a => do return filter condition (← markLocals localTo? false a)
  | project vars inserted a =>
    if top then do return project vars inserted (← markLocals localTo? false a)
    else return project vars inserted a
  | slice offset limit a =>
    if top then do return slice offset limit (← markLocals localTo? true a)
    else return slice offset limit a
  | distinct a =>
    if top then do return distinct (← markLocals localTo? true a) else return distinct a
  | union args => return union args
  | leftJoin l r condition => return leftJoin l r condition
  | service s => return service s
  | passThrough endpoint query => return passThrough endpoint query
  | empty => return empty

/-- `markLocals` on the arguments of a join. -/
def markLocalsAll (localTo? : String → Option Nat) : List Plan → StateM Nat (List Plan)
  | [] => return []
  | a :: rest => do
    let a ← markLocals localTo? false a
    let rest ← markLocalsAll localTo? rest
    return a :: rest

end

/-- Marks the local variables of a plan, if it has any. -/
def scopeVars (p : Plan) : Plan :=
  match p.topProjection? with
  | none => p
  | some kept =>
    let m := p.mentions true
    if m.args.any fun vars => vars.any fun v => (m.localTo? kept v).isSome then
      ((markLocals (m.localTo? kept) true p).run 0).1
    else p

end FederatedSparql.Plan
