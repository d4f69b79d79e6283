/-!
Counting outstanding sub-tasks, and waiting until there are none.

Completions may be announced for a later time.  Waiting lets time pass from one announced completion
to the next; a wait that is over at the very moment of a completion does not see it.
-/

namespace FederatedSparql

/-- Outstanding sub-tasks on a clock of milliseconds. -/
structure WaitGroup where
  now : Nat := 0
  count : Nat := 0
  /-- When completions have been announced for, in ascending order. -/
  announced : List Nat := []
deriving DecidableEq, Repr, Inhabited

namespace WaitGroup

/-- Adds sub-tasks. -/
def add (g : WaitGroup) (n : Nat) : WaitGroup := { g with count := g.count + n }

/-- Completes a sub-task; without any this has no effect. -/
def finish (g : WaitGroup) : WaitGroup := { g with count := g.count - 1 }

/-- Puts a time at its place. -/
def insertTime (t : Nat) : List Nat → List Nat
  | [] => [t]
  | s :: rest => if t < s then t :: s :: rest else s :: insertTime t rest

/-- Announces a completion. -/
def announce (g : WaitGroup) (delay : Nat) : WaitGroup :=
  { g with announced := insertTime (g.now + delay) g.announced }

/-- Lets the completions of the present moment happen. -/
def settle (g : WaitGroup) : WaitGroup :=
  let due := (g.announced.takeWhile (· ≤ g.now)).length
  { g with count := g.count - due, announced := g.announced.drop due }

/-- Lets time pass, completion by completion, until no sub-task is left or the wait is over. -/
def passTime (deadline : Option Nat) (g : WaitGroup) : List Nat → Bool × WaitGroup
  | [] =>
    match deadline with
    | some t => (false, { g with now := t })
    | none => (false, g)
  | t :: rest =>
    if deadline.any (· ≤ t) then (false, { g with now := deadline.getD t })
    else
      let g := { g with now := t, count := g.count - 1, announced := rest }
      if g.count = 0 then (true, g.settle) else passTime deadline g rest

/-- Waits until no sub-task is left, at most for some time; tells whether none is left. -/
def wait (g : WaitGroup) (timeout : Option Nat) : Bool × WaitGroup :=
  if g.count = 0 then (true, g)
  else if timeout = some 0 then (false, g)
  else
    let g := g.settle
    if g.count = 0 then (true, g) else passTime (timeout.map (g.now + ·)) g g.announced

end WaitGroup

end FederatedSparql
