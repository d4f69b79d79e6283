import FederatedSparql.Engine.Machine.Thread

/-!
Letting threads take their turns, and time pass, until main has what it wants.

The loops end by a bound on their number of steps that no run comes near.
-/

namespace FederatedSparql.Machine

variable {α : Type}

/-- More steps than any run takes. -/
def stepLimit : Nat := 1000000000000

/-- How many threads may take a turn before main is asked again. -/
def turnsPerRound : Nat := 61

/-- Lets a thread run until it can go no further. -/
def runThread [BEq α] (t : Nat) : Nat → Action α Unit
  | 0 => pure ()
  | limit + 1 => do
    match ← stepThread t with
    | .goesOn => runThread t limit
    | .ends => pure ()

/-- Lets threads that can go on take their turns, so many at most. -/
def runReady [BEq α] : Nat → Action α Unit
  | 0 => pure ()
  | turns + 1 => do
    match (← get).ready with
    | [] => pure ()
    | t :: rest =>
      modify fun m => { m with ready := rest }
      runThread t stepLimit
      runReady turns

/-- Lets time pass until the next timers are due; tells whether there are any. -/
def advance : Action α Bool := do
  match (← get).timers with
  | [] => return false
  | (due, _) :: _ =>
    let now := max (← get).now due
    let (due, later) := (← get).timers.span fun t => t.1 ≤ now
    modify fun m => { m with now := now, timers := later }
    for t in due do wake t.2
    return true

/-- Lets threads run and time pass until main is woken; tells whether it is. -/
def awaitWake [BEq α] : Nat → Action α Bool
  | 0 => return false
  | limit + 1 => do
    if (← get).mainReady then
      modify fun m => { m with mainReady := false }
      return true
    runReady turnsPerRound
    let m ← get
    if m.mainReady || !m.ready.isEmpty then awaitWake limit
    else if ← advance then awaitWake limit
    else return false

/-- What a step of main comes to. -/
inductive MainStep (σ β : Type) where
  | finished (result : β)
  | goesOn (state : σ)
  | waits (state : σ)

/-- Runs main until it is finished; nothing comes of it if nothing can ever wake it. -/
def runMain [BEq α] {σ β : Type} (step : σ → Action α (MainStep σ β)) :
    Nat → σ → Action α (Option β)
  | 0, _ => return none
  | limit + 1, s => do
    match ← step s with
    | .finished r => return some r
    | .goesOn s => runMain step limit s
    | .waits s => if ← awaitWake stepLimit then runMain step limit s else return none

/-! ### What main wants -/

/-- Waits until some time. -/
def sleepUntil [BEq α] (due : Nat) : Action α Unit := do
  if due > (← get).now then wakeAt due .main
  let _ ← runMain (fun (_ : Unit) => do
    return if due ≤ (← get).now then MainStep.finished () else .waits ()) stepLimit ()

/-- Lets so much time pass. -/
def sleep [BEq α] (ms : Nat) : Action α Unit := do sleepUntil ((← get).now + ms)

/-- Starts a thread that aborts the query later on. -/
def abortAfter (ms : Nat) : Action α Unit := do
  let due := (← get).now + ms
  let t ← spawn (.alarm due)
  if ms > 0 then wakeAt due (.thread t)

/-- How pulling ended. -/
inductive Ending where
  /-- There were no more items. -/
  | exhausted
  | failed (e : FedError)
  /-- There were as many items as were wanted. -/
  | filled

/-- Items that have been pulled, and how that ended. -/
structure Taken (α : Type) where
  items : List α
  ending : Ending
  /-- What is left of the cursor. -/
  rest : Cursor α

/-- One step of pulling items with a function for one step of the cursor. -/
def takeStep (wanted : Option Nat) (next : Cursor α → Action α (Pulled α × Cursor α))
    (s : List α × Cursor α) : Action α (MainStep (List α × Cursor α) (Taken α)) := do
  let (taken, c) := s
  if wanted.any (· ≤ taken.length) then
    return .finished ⟨taken.reverse, .filled, c⟩
  match ← next c with
  | (.item x, c) => return .goesOn (x :: taken, c)
  | (.failure e, c) => return .finished ⟨taken.reverse, .failed e, c⟩
  | (.done, c) => return .finished ⟨taken.reverse, .exhausted, c⟩
  | (.progress, c) => return .goesOn (taken, c)
  | (.wait, c) => return .waits (taken, c)

/-- Pulls items until there are as many as wanted, a failure or no more. -/
def take [BEq α] (wanted : Option Nat) (c : Cursor α) : Action α (Option (Taken α)) :=
  runMain (takeStep wanted (pull .main)) stepLimit ([], c)

/-- One step of pulling all items and failures. -/
def drainStep [BEq α] (s : List (Except FedError α) × Cursor α) :
    Action α (MainStep (List (Except FedError α) × Cursor α) (List (Except FedError α))) := do
  let (drained, c) := s
  match ← pull .main c with
  | (.item x, c) => return .goesOn (.ok x :: drained, c)
  | (.failure e, c) => return .goesOn (.error e :: drained, c)
  | (.done, _) => return .finished drained.reverse
  | (.progress, c) => return .goesOn (drained, c)
  | (.wait, c) => return .waits (drained, c)

/-- Pulls all items and failures. -/
def drain [BEq α] (c : Cursor α) : Action α (Option (List (Except FedError α))) :=
  runMain drainStep stepLimit ([], c)

/-- Runs a program to its end. -/
def runWork [BEq α] (w : Work α) : Action α (Option (Except FedError (Cursor α))) :=
  runMain (fun run => do
    match ← stepRun (← get).executors.size .main run with
    | .done c => return .finished (.ok c)
    | .failed e => return .finished (.error e)
    | .panicked => return .finished (.error (.internalScheduling (.taskPanicked "evaluation")))
    | .progress run => return .goesOn run
    | .wait run => return .waits run) stepLimit (.ready w)

end FederatedSparql.Machine
