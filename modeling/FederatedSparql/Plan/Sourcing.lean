import FederatedSparql.Plan.Basic

/-!
Plans with sources, restructured around them.

A statement without a source has no solutions, which propagates to whatever cannot have any without
it.  In a join, statements of one owner become a group, the arguments are ordered so that each is
connected to those before it where possible, and statements that depend on earlier arguments only
are brought together.
-/

namespace FederatedSparql.Plan

/-! ### Groups of one owner -/

/-- The owner of a statement that has only one source. -/
def exclusiveOwner? : Plan → Option Source
  | statement s => s.owner?
  | _ => none

/-- Whether the plan is a statement that only the given endpoint can answer. -/
def isOwnedBy (endpoint : String) (p : Plan) : Bool :=
  p.exclusiveOwner?.any fun owner => owner.endpoint == endpoint

/-- Whether the plan is anything else. -/
def isNotOwnedBy (endpoint : String) (p : Plan) : Bool := !p.isOwnedBy endpoint

/-- Merges the statements of each owner that has more than one, at the place of the first; groups
are numbered from `nextId` on. -/
def groupExclusive (nextId : Nat) : List Plan → List Plan × Nat
  | [] => ([], nextId)
  | a :: rest =>
    match a.exclusiveOwner? with
    | none =>
      let (out, nextId) := groupExclusive nextId rest
      (a :: out, nextId)
    | some owner =>
      let mates := rest.filter (isOwnedBy owner.endpoint)
      if mates.isEmpty then
        let (out, nextId) := groupExclusive nextId rest
        (a :: out, nextId)
      else
        let others := rest.filter (isNotOwnedBy owner.endpoint)
        let members := (a :: mates).flatMap statements
        let (out, next) := groupExclusive (nextId + 1) others
        (group (.ofStatements nextId members owner) :: out, next)
termination_by args => args.length
decreasing_by
  · simp
  · simp
  · exact Nat.lt_succ_of_le (by simpa using List.length_filter_le ..)

/-! ### Order of arguments -/

/-- How well an argument comes next: whether it is connected to what is bound so far, if anything
is, and then how many variables it binds anew.  Less is better. -/
def joinCost (bound : List String) (a : Plan) : Nat × Nat :=
  let vars := a.freeVars
  let connected := vars.any bound.contains
  let unbound := (vars.filter fun v => !bound.contains v).length
  (if !connected && !bound.isEmpty then 1 else 0, unbound)

/-- Costs compare by connection first. -/
def costLess (a b : Nat × Nat) : Bool := a.1 < b.1 || (a.1 == b.1 && a.2 < b.2)

/-- Takes out the first of the cheapest elements. -/
def takeCheapest {α : Type} (cost : α → Nat × Nat) : List α → Option (α × List α)
  | [] => none
  | a :: as =>
    match takeCheapest cost as with
    | none => some (a, [])
    | some (b, rest) => if costLess (cost b) (cost a) then some (b, a :: rest) else some (a, as)

theorem takeCheapest_length {α : Type} {cost : α → Nat × Nat} {as : List α} {b : α}
    {rest : List α} (h : takeCheapest cost as = some (b, rest)) : rest.length + 1 = as.length := by
  induction as generalizing b rest with
  | nil => simp [takeCheapest] at h
  | cons a as ih =>
    unfold takeCheapest at h
    split at h
    · next hn =>
      cases as with
      | nil => simp at h; simp [← h.2]
      | cons x xs =>
        exfalso
        unfold takeCheapest at hn
        split at hn
        · simp at hn
        · split at hn <;> simp at hn
    · next c r hs =>
      have := ih hs
      split at h
      · simp at h; simp [← h.2, this]
      · simp at h; simp [← h.2]

/-- Orders arguments, always taking the cheapest one next; among equals the earlier one. -/
def orderArgs (bound : List String) (args : List Plan) : List Plan :=
  match _h : takeCheapest (joinCost bound) args with
  | none => []
  | some (a, rest) => a :: orderArgs (bound ++ a.freeVars) rest
termination_by args.length
decreasing_by
  have := takeCheapest_length ‹_›
  omega

/-! ### Independent statements -/

/-- A run of statements that do not depend on one another, behind the arguments that are done. -/
structure Run where
  done : List Plan := []
  /-- Variables bound before the run. -/
  bound : List String := []
  /-- Variables that the run binds. -/
  introduced : List String := []
  members : List Statement := []
  /-- Whether all arguments so far bind all their variables in every row. -/
  reliable : Bool := true

namespace Run

/-- Whether a statement may join the run: it is connected to what is bound before the run, binds
something, and nothing that the run binds. -/
def accepts (r : Run) (s : Statement) : Bool :=
  let vars := s.freeVars
  let fresh := vars.filter fun v => !r.bound.contains v
  vars.any r.bound.contains && !fresh.isEmpty && fresh.all fun v => !r.introduced.contains v

/-- Adds a member. -/
def push (r : Run) (s : Statement) : Run :=
  { r with
    introduced := r.introduced ++ s.freeVars.filter fun v => !r.bound.contains v
    members := r.members ++ [s] }

/-- Ends the run. -/
def flush (r : Run) : Run :=
  let done :=
    match r.members with
    | [] => r.done
    | [s] => r.done ++ [statement s]
    | members => r.done ++ [independent members]
  { r with done, bound := r.bound ++ r.introduced, introduced := [], members := [] }

/-- Adds an argument that is not in the run. -/
def append (r : Run) (a : Plan) : Run :=
  { r with done := r.done ++ [a], bound := r.bound ++ a.freeVars }

/-- Whether the argument binds all its variables in every row. -/
def isReliable : Plan → Bool
  | statement _ => true
  | group _ => true
  | _ => false

/-- Takes the next argument. -/
def step (r : Run) (a : Plan) : Run :=
  let other :=
    let r := r.flush
    { r with reliable := r.reliable && isReliable a }.append a
  match a with
  | statement s =>
    if r.reliable && !(r.done.isEmpty && r.members.isEmpty) then
      let r := if r.accepts s then r else r.flush
      if r.accepts s then r.push s else r.append a
    else other
  | _ => other

end Run

/-- Brings together consecutive statements that do not depend on one another.  That stops behind an
argument that may leave variables unbound. -/
def groupIndependent (args : List Plan) : List Plan := (args.foldl Run.step {}).flush.done

/-! ### Joins -/

/-- The variables that at least two arguments can bind. -/
def sharedVars (args : List Plan) : List String :=
  let all := freeVarsAll args
  all.eraseDups.filter fun v => 1 < all.count v

/-- The join of arguments; a single one stands alone. -/
def joinOf : List Plan → Plan
  | [] => empty
  | [a] => a
  | args => join args (sharedVars args)

/-- The union of arguments; a single one stands alone. -/
def unionOf : List Plan → Plan
  | [] => empty
  | [a] => a
  | args => union args

/-- Wraps a plan, unless it has no solutions. -/
def orEmpty (wrap : Plan → Plan) : Plan → Plan
  | empty => empty
  | a => wrap a

mutual

/-- Attaches sources to all statements by their numbers and restructures the plan around them.
The state is the next free number. -/
def attach (sources : Nat → List Source) : Plan → StateM Nat Plan
  | statement s =>
    match sources s.id with
    | [] => return empty
    | found => return statement { s with sources := found }
  | join args _ => do
    let args ← attachAll sources args
    if args.any isEmpty then return empty
    let (grouped, nextId) := groupExclusive (← get) args
    set nextId
    return joinOf (groupIndependent (orderArgs [] grouped))
  | union args => do
    let args ← attachAll sources args
    return unionOf (args.filter fun a => !a.isEmpty)
  | leftJoin l r condition => do
    let l ← attach sources l
    if l.isEmpty then return empty
    let r ← attach sources r
    if r.isEmpty then return l
    return leftJoin l r condition
  | filter condition a => do
    let a ← attach sources a
    return a.orEmpty (filter condition)
  | project vars inserted a => do
    let a ← attach sources a
    return a.orEmpty (project vars inserted)
  | slice offset limit a => do
    let a ← attach sources a
    return a.orEmpty (slice offset limit)
  | distinct a => do
    let a ← attach sources a
    return a.orEmpty distinct
  | group g => return group g
  | service s => return service s
  | independent members => return independent members
  | passThrough endpoint query => return passThrough endpoint query
  | empty => return empty

/-- `attach` on all plans in order. -/
def attachAll (sources : Nat → List Source) : List Plan → StateM Nat (List Plan)
  | [] => return []
  | a :: rest => do
    let a ← attach sources a
    let rest ← attachAll sources rest
    return a :: rest

end

end FederatedSparql.Plan
