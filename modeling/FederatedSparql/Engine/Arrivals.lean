import FederatedSparql.Endpoint.Registry
import FederatedSparql.Engine.BoundTask
import FederatedSparql.Engine.Work

/-!
What a program comes to when its parts run one after another and nothing takes time.

Items and failures arrive in a row.  Running tasks side by side may change the order in which the
items of different tasks arrive, and so which of several failures is first; it changes nothing else.
-/

namespace FederatedSparql

/-- Items and failures in the order of their arrival. -/
abbrev Arrivals (α : Type) : Type := List (Except FedError α)

/-- The answer of every endpoint to every request. -/
abbrev Answers : Type := String → Request → Except FedError Answer

namespace Arrivals

variable {α : Type}

/-- Items alone. -/
def ofList (xs : List α) : Arrivals α := xs.map .ok

/-- What arrives from a program that may fail as a whole. -/
def ofResult : Except FedError (Arrivals α) → Arrivals α
  | .ok arrivals => arrivals
  | .error e => [.error e]

/-- What arrives before the first failure. -/
def items : Arrivals α → List α
  | .ok x :: rest => x :: items rest
  | _ => []

/-- The first failure. -/
def failure? : Arrivals α → Option FedError
  | [] => none
  | .ok _ :: rest => failure? rest
  | .error e :: _ => some e

/-- Everything up to the first failure, which is the last to arrive. -/
def upToFailure (as : Arrivals α) : Arrivals α := ofList as.items ++ as.failure?.toList.map .error

/-- All items, or the first failure. -/
def collect (as : Arrivals α) : Except FedError (List α) :=
  match as.failure? with
  | some e => .error e
  | none => .ok as.items

@[simp] theorem items_ofList_append (xs : List α) (as : Arrivals α) :
    items (ofList xs ++ as) = xs ++ as.items := by
  induction xs with
  | nil => rfl
  | cons x xs ih => exact congrArg (x :: ·) ih

@[simp] theorem failure?_ofList_append (xs : List α) (as : Arrivals α) :
    failure? (ofList xs ++ as) = as.failure? := by
  induction xs with
  | nil => rfl
  | cons x xs ih => exact ih

@[simp] theorem items_ofList (xs : List α) : items (ofList xs) = xs := by
  simpa [items] using items_ofList_append xs []

@[simp] theorem failure?_ofList (xs : List α) : failure? (ofList xs) = none := by
  simpa [failure?] using failure?_ofList_append xs []

/-- Items alone are collected as they are. -/
theorem collect_ofList (xs : List α) : collect (ofList xs) = .ok xs := by simp [collect]

/-- Transforms every item. -/
def map (f : α → α) (as : Arrivals α) : Arrivals α := List.map (·.map f) as

/-- Leaves out items. -/
def filter (keep : α → Bool) (as : Arrivals α) : Arrivals α :=
  List.filter (fun
    | .ok x => keep x
    | .error _ => true) as

/-- Leaves out items that have been there before. -/
def distinct [BEq α] (seen : List α) : Arrivals α → Arrivals α
  | [] => []
  | .error e :: rest => .error e :: distinct seen rest
  | .ok x :: rest =>
    if seen.contains x then distinct seen rest else .ok x :: distinct (x :: seen) rest

/-- Leaves out the first arrivals and all behind a number of them. -/
def slice (offset : Nat) (limit : Option Nat) (as : Arrivals α) : Arrivals α :=
  match limit with
  | some n => (as.drop offset).take n
  | none => as.drop offset

/-- The blocks that are sent of what arrives. -/
def blocks (configured : Nat) (as : Arrivals α) : List (List α) :=
  match as.failure? with
  | none => BoundJoin.blocks configured as.items
  | some _ => BoundJoin.filledBlocks configured as.items

/-- What arrives from tasks, of which a failure ends all. -/
def ofTasks (tasks : List (Arrivals α)) : Arrivals α := upToFailure tasks.flatten

/-- What arrives from tasks for the items of a left side, which may fail itself. -/
def ofJoin (left : Arrivals α) (tasks : List (Arrivals α)) : Arrivals α :=
  ofTasks (tasks ++ [left.failure?.toList.map .error])

/-- An item of the left with what the right has for it. -/
def optional (row : α) (keep : α → Bool) (right : Arrivals α) : Arrivals α :=
  match right.collect with
  | .error e => [.error e]
  | .ok rows =>
    match rows.filter keep with
    | [] => [.ok row]
    | kept => ofList kept

end Arrivals

mutual

/-- What arrives from the feed that a program ends in, unless the program fails. -/
def Work.arrivals {α : Type} [BEq α] (answers : Answers) :
    Work α → Except FedError (Arrivals α)
  | .done feed => .ok (feed.arrivals answers)
  | .fail e => .error e
  | .panic => .error (.internalScheduling (.taskPanicked "evaluation"))
  | .sleep _ next => next.arrivals answers
  | .request endpoint r next => (next (answers endpoint r)).arrivals answers
  | .repair _ next => next.arrivals answers
  | .check next => next.arrivals answers
  | .gather parts next => (next (collectedOf answers parts)).arrivals answers
termination_by structural w => w

/-- What arrives from a feed. -/
def Feed.arrivals {α : Type} [BEq α] (answers : Answers) : Feed α → Arrivals α
  | .rows xs => .ofList xs
  | .outcomes as => as
  | .union false branches => .ofTasks (branchArrivals answers branches)
  | .union true branches =>
    .ofTasks ((branchArrivals answers branches).find? fun as => !as.isEmpty).toList
  | .nestedJoin left right =>
    let left := left.arrivals answers
    .ofJoin left (left.items.map fun row => .ofResult ((right row).arrivals answers))
  | .boundJoin left blockSize right =>
    let left := left.arrivals answers
    .ofJoin left
      (match left.items with
        | [] => []
        | first :: _ =>
          (left.blocks blockSize).map fun block => .ofResult ((right first block).arrivals answers))
  | .map f source => (source.arrivals answers).map f
  | .filter keep source => (source.arrivals answers).filter keep
  | .distinct source => (source.arrivals answers).distinct []
  | .slice offset limit source => (source.arrivals answers).slice offset limit
  | .optional left right keep =>
    (left.arrivals answers).flatMap fun
      | .error e => [.error e]
      | .ok row => Arrivals.optional row keep (.ofResult ((right row).arrivals answers))
  | .deferred work => .ofResult (work.arrivals answers)
termination_by structural f => f

/-- What arrives from each of some branches. -/
def branchArrivals {α : Type} [BEq α] (answers : Answers) :
    List (String × Work α) → List (Arrivals α)
  | [] => []
  | branch :: rest => branchArrival answers branch :: branchArrivals answers rest
termination_by structural branches => branches

/-- What arrives from a branch. -/
def branchArrival {α : Type} [BEq α] (answers : Answers) : String × Work α → Arrivals α
  | (_, work) => .ofResult (work.arrivals answers)
termination_by structural branch => branch

/-- All items of each of some programs. -/
def collectedOf {α : Type} [BEq α] (answers : Answers) :
    List (Work α) → List (Except FedError (List α))
  | [] => []
  | part :: rest =>
    Arrivals.collect (.ofResult (part.arrivals answers)) :: collectedOf answers rest
termination_by structural parts => parts

end

namespace Registry

/-- The answers of members as they are. -/
def answers (r : Registry) : Answers := fun endpoint request =>
  match r.known? endpoint with
  | some m => m.answer request
  | none => .error (.endpoint (.unknownEndpoint endpoint))

end Registry

end FederatedSparql
