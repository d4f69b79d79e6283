import FederatedSparql.Engine.Machine.Basic

/-!
Pulling items: one small step of a cursor, or of a program that is being run.

A step either gets somewhere or has to wait; whoever waits has arranged to be woken.
-/

namespace FederatedSparql

/-- What a step of a cursor comes to. -/
inductive Pulled (α : Type) where
  | item (x : α)
  | failure (e : FedError)
  /-- There are no more items. -/
  | done
  /-- Nothing yet, but the next step goes on. -/
  | progress
  /-- Nothing before something else happens. -/
  | wait

/-- What a step of a program comes to. -/
inductive Ran (α : Type) where
  | done (c : Cursor α)
  | failed (e : FedError)
  | panicked
  | progress (run : Run α)
  | wait (run : Run α)

/-- What a step of several collected programs comes to. -/
inductive Gathered where
  /-- All are finished. -/
  | finished
  | progress
  | wait
deriving DecidableEq, Repr

namespace Gathered

/-- Two groups are finished if both are; while either gets somewhere, both together do. -/
def and : Gathered → Gathered → Gathered
  | finished, b => b
  | a, finished => a
  | wait, wait => wait
  | _, _ => progress

end Gathered

namespace Machine

variable {α : Type}

/-- Gives what follows for the next step of a pipe. -/
def onPipe (rebuild : Pipe α → Pipe β) (onItem : α → Pulled β) :
    Pulled α × Pipe α → Pulled β × Pipe β
  | (.item x, p) => (onItem x, rebuild p)
  | (.failure e, p) => (.failure e, rebuild p)
  | (.done, p) => (.done, rebuild p)
  | (.progress, p) => (.progress, rebuild p)
  | (.wait, p) => (.wait, rebuild p)

/-- One step of an offset and a limit, given the step of what they apply to. -/
def sliceStep (toSkip : Nat) (toTake : Option Nat) : Pulled α × Cursor α → Pulled α × Pipe α
  | (.item x, c) =>
    if toSkip = 0 then (.item x, .slice 0 (toTake.map (· - 1)) c)
    else (.progress, .slice (toSkip - 1) toTake c)
  | (.failure e, c) =>
    if toSkip = 0 then (.failure e, .slice 0 (toTake.map (· - 1)) c)
    else (.progress, .slice (toSkip - 1) toTake c)
  | (r, c) => (r, .slice toSkip toTake c)

/-- One step of a program that has not started anything it waits for. -/
def stepWork [BEq α] (me : Waker) : Work α → Action α (Ran α)
  | .done feed => do return .done (← openFeed feed)
  | .fail e => return .failed e
  | .panic => return .panicked
  | .sleep ms next => do
    let now := (← get).now
    if ms = 0 then return .progress (.ready next)
    wakeAt (now + ms) me
    return .wait (.sleeping (now + ms) next)
  | .request endpoint r next => do
    let m ← get
    match m.registry.known? endpoint with
    | none => return .progress (.ready (next (.error (.endpoint (.unknownEndpoint endpoint)))))
    | some member =>
      modify fun m => { m with registry := m.registry.update endpoint (·.receive r) }
      let due := m.now + member.latency r
      if due > m.now then
        wakeAt due me
        return .wait (.awaiting due endpoint r next)
      return .progress (.awaiting due endpoint r next)
  | .repair endpoint next => do
    modify fun m => { m with registry := (m.registry.repair endpoint).2 }
    return .progress (.ready next)
  | .check next => do
    let m ← get
    match m.query.checkActive m.now with
    | .ok () => return .progress (.ready next)
    | .error e => return .failed e
  | .gather parts next =>
    return .progress (.gathering (parts.map fun w => .running (.ready w)) next)

/-- The results of collected programs; one that is not finished has none yet. -/
def resultsOf (parts : List (Part α)) : List (Except FedError (List α)) :=
  parts.map fun
    | .finished r => r
    | _ => .ok []

/-- What collecting does with a step of the cursor. -/
def collectStep (collected : List α) : Pulled α × Cursor α → Gathered × Part α
  | (.item x, c) => (.progress, .draining (x :: collected) c)
  | (.failure e, _) => (.progress, .finished (.error e))
  | (.done, _) => (.progress, .finished (.ok collected.reverse))
  | (.progress, c) => (.progress, .draining collected c)
  | (.wait, c) => (.wait, .draining collected c)

mutual

/-- One step of a cursor.  The results of an executor are pulled one level deeper; `depth` bounds
how many levels there are. -/
def stepCursor [BEq α] (depth : Nat) (me : Waker) (c : Cursor α) :
    Action α (Pulled α × Cursor α) :=
  match c with
  | .empty => return (.done, .empty)
  | .closed => return (.done, .closed)
  | .buffered [] => return (.done, .buffered [])
  | .buffered (x :: xs) => return (.item x, .buffered xs)
  | .pipe source => do
    let (r, source) ← stepPipe depth me source
    return (r, .pipe source)
termination_by (depth, sizeOf c)

/-- One step of a pipe. -/
def stepPipe [BEq α] (depth : Nat) (me : Waker) (p : Pipe α) : Action α (Pulled α × Pipe α) :=
  match p with
  | .outcomes [] => return (.done, .outcomes [])
  | .outcomes (.ok x :: rest) => return (.item x, .outcomes rest)
  | .outcomes (.error e :: rest) => return (.failure e, .outcomes rest)
  | .map f source => do
    return onPipe (.map f) (fun x => .item (f x)) (← stepPipe depth me source)
  | .filter keep source => do
    return onPipe (.filter keep) (fun x => if keep x then .item x else .progress)
      (← stepPipe depth me source)
  | .distinct seen source => do
    match ← stepPipe depth me source with
    | (.item x, source) =>
      if seen.contains x then return (.progress, .distinct seen source)
      else return (.item x, .distinct (x :: seen) source)
    | r => return onPipe (.distinct seen) .item r
  | .slice toSkip toTake source => do
    if toTake = some 0 then return (.done, .slice toSkip toTake source)
    return sliceStep toSkip toTake (← stepCursor depth me source)
  | .chain [] => return (.done, .chain [])
  | .chain (c :: rest) => do
    match ← stepCursor depth me c with
    | (.done, c) =>
      discard c
      return (.progress, .chain rest)
    | (r, c) => return (r, .chain (c :: rest))
  | .executor id =>
    match depth with
    | 0 => return (.wait, .executor id)
    | depth + 1 => do
      match (← get).executors[id]? with
      | none => return (.done, .executor id)
      | some e =>
        if e.finished then return (.done, .executor id)
        match e.current with
        | some c =>
          let (r, c) ← stepCursor depth me c
          match r with
          | .failure error =>
            updateExecutor id fun e => { e with current := some c }
            closeAll [id]
            return (.failure error, .executor id)
          | .done =>
            updateExecutor id fun e => { e with current := none }
            discard c
            return (.progress, .executor id)
          | r =>
            updateExecutor id fun e => { e with current := some c }
            return (r, .executor id)
        | none =>
          match e.queue with
          | c :: queue =>
            updateExecutor id fun e => { e with current := some c, queue := queue }
            wakeThread? e.waiting.head?
            return (.progress, .executor id)
          | [] =>
            if e.isExhausted then
              updateExecutor id fun e => { e with error := none }
              closeAll [id]
              match e.error with
              | some error => return (.failure error, .executor id)
              | none => return (.done, .executor id)
            else
              updateExecutor id fun e => { e with consumer := some me }
              return (.wait, .executor id)
  | .deferred run => do
    match ← stepRun depth me run with
    | .done c => return (.progress, .chain [c])
    | .failed e => return (.failure e, .outcomes [])
    | .panicked =>
      return (.failure (.internalScheduling (.taskPanicked "evaluation")), .outcomes [])
    | .progress run => return (.progress, .deferred run)
    | .wait run => return (.wait, .deferred run)
  | .optional left right keep (x :: next) => return (.item x, .optional left right keep next)
  | .optional left right keep [] => do
    match ← stepCursor depth me left with
    | (.item row, left) =>
      return (.progress, .matching left right keep row (.running (.ready (right row))))
    | (.failure e, left) => return (.failure e, .optional left right keep [])
    | (.done, left) => return (.done, .optional left right keep [])
    | (.progress, left) => return (.progress, .optional left right keep [])
    | (.wait, left) => return (.wait, .optional left right keep [])
  | .matching left right keep row matched => do
    match matched with
    | .finished (.error e) => return (.failure e, .optional left right keep [])
    | .finished (.ok rows) =>
      match rows.filter keep with
      | [] => return (.progress, .optional left right keep [row])
      | kept => return (.progress, .optional left right keep kept)
    | matched =>
      let (r, matched) ← stepPart depth me matched
      match r with
      | .wait => return (.wait, .matching left right keep row matched)
      | _ => return (.progress, .matching left right keep row matched)
termination_by (depth, sizeOf p)

/-- One step of a program. -/
def stepRun [BEq α] (depth : Nat) (me : Waker) (run : Run α) : Action α (Ran α) :=
  match run with
  | .ready w => stepWork me w
  | .sleeping due next => do
    if due ≤ (← get).now then return .progress (.ready next)
    return .wait (.sleeping due next)
  | .awaiting due endpoint r next => do
    let m ← get
    if due ≤ m.now then
      match m.registry.known? endpoint with
      | some member => return .progress (.ready (next (member.answer r)))
      | none => return .progress (.ready (next (.error (.endpoint (.unknownEndpoint endpoint)))))
    return .wait (.awaiting due endpoint r next)
  | .gathering parts next => do
    match ← stepParts depth me parts with
    | (.finished, parts) => return .progress (.ready (next (resultsOf parts)))
    | (.progress, parts) => return .progress (.gathering parts next)
    | (.wait, parts) => return .wait (.gathering parts next)
termination_by (depth, sizeOf run)

/-- One step of a collected program. -/
def stepPart [BEq α] (depth : Nat) (me : Waker) (part : Part α) :
    Action α (Gathered × Part α) :=
  match part with
  | .finished r => return (.finished, .finished r)
  | .running run => do
    match ← stepRun depth me run with
    | .done c => return (.progress, .draining [] c)
    | .failed e => return (.progress, .finished (.error e))
    | .panicked =>
      return (.progress, .finished (.error (.internalScheduling (.taskPanicked "evaluation"))))
    | .progress run => return (.progress, .running run)
    | .wait run => return (.wait, .running run)
  | .draining collected source => do
    let (r, source) ← stepCursor depth me source
    let step := collectStep collected (r, source)
    match step with
    | (_, .finished _) => discard source
    | _ => pure ()
    return step
termination_by (depth, sizeOf part)

/-- One step of each of several collected programs. -/
def stepParts [BEq α] (depth : Nat) (me : Waker) (parts : List (Part α)) :
    Action α (Gathered × List (Part α)) :=
  match parts with
  | [] => return (.finished, [])
  | part :: rest => do
    let (a, part) ← stepPart depth me part
    let (b, rest) ← stepParts depth me rest
    return (a.and b, part :: rest)
termination_by (depth, sizeOf parts)

end

end Machine

end FederatedSparql
