import FederatedSparql.Engine.Work

/-!
Sequences of items while they are being pulled.

A `Cursor` has its items at hand or pulls them through a `Pipe`; a `Pipe` may hold an executor by
its number, or a `Run`, which is a `Work` that has got somewhere.  What is at hand is transformed
at once; through a pipe, items are transformed one by one, and failures pass unchanged.
-/

namespace FederatedSparql

mutual

/-- Items that can be pulled one after another. -/
inductive Cursor (α : Type) where
  | empty
  | buffered (rows : List α)
  | pipe (source : Pipe α)
  | closed

/-- Where a cursor pulls its items from. -/
inductive Pipe (α : Type) where
  /-- Items that are at hand and failures among them. -/
  | outcomes (rest : List (Except FedError α))
  | map (f : α → α) (source : Pipe α)
  | filter (keep : α → Bool) (source : Pipe α)
  /-- Leaves out what has been seen. -/
  | distinct (seen : List α) (source : Pipe α)
  /-- Leaves out so many items or failures, and gives at most so many of those behind them. -/
  | slice (toSkip : Nat) (toTake : Option Nat) (source : Cursor α)
  /-- One cursor after the other. -/
  | chain (sources : List (Cursor α))
  /-- The results of an executor. -/
  | executor (id : Nat)
  /-- The feed that a program ends in. -/
  | deferred (run : Run α)
  /-- The next items, and behind them what the right has for further items of the left. -/
  | optional (left : Cursor α) (right : α → Work α) (keep : α → Bool) (next : List α)
  /-- The right is being evaluated for an item of the left. -/
  | matching (left : Cursor α) (right : α → Work α) (keep : α → Bool) (row : α)
      (matched : Part α)

/-- A program that has got somewhere. -/
inductive Run (α : Type) where
  | ready (next : Work α)
  | sleeping (due : Nat) (next : Work α)
  /-- An endpoint has been asked and will answer. -/
  | awaiting (due : Nat) (endpoint : String) (r : Request)
      (next : Except FedError Answer → Work α)
  | gathering (parts : List (Part α)) (next : List (Except FedError (List α)) → Work α)

/-- A program of which all items are being collected. -/
inductive Part (α : Type) where
  | running (run : Run α)
  | draining (collected : List α) (source : Cursor α)
  | finished (result : Except FedError (List α))

end

/-! ### Executors that are held -/

mutual

/-- The executors that a cursor holds. -/
def Cursor.held {α : Type} : Cursor α → List Nat
  | .pipe source => source.held
  | _ => []

/-- The executors that a pipe holds. -/
def Pipe.held {α : Type} : Pipe α → List Nat
  | .map _ source => source.held
  | .filter _ source => source.held
  | .distinct _ source => source.held
  | .slice _ _ source => source.held
  | .chain sources => heldByAll sources
  | .executor id => [id]
  | .deferred run => run.held
  | .optional left _ _ _ => left.held
  | .matching left _ _ _ matched => matched.held ++ left.held
  | .outcomes _ => []

/-- The executors that a program holds. -/
def Run.held {α : Type} : Run α → List Nat
  | .gathering parts _ => heldByParts parts
  | _ => []

/-- The executors that a collected program holds. -/
def Part.held {α : Type} : Part α → List Nat
  | .running run => run.held
  | .draining _ source => source.held
  | .finished _ => []

/-- The executors that cursors hold. -/
def heldByAll {α : Type} : List (Cursor α) → List Nat
  | [] => []
  | c :: rest => c.held ++ heldByAll rest

/-- The executors that collected programs hold. -/
def heldByParts {α : Type} : List (Part α) → List Nat
  | [] => []
  | p :: rest => p.held ++ heldByParts rest

end

namespace Cursor

variable {α : Type}

/-! ### Making cursors -/

/-- The items at hand. -/
def ofList : List α → Cursor α
  | [] => empty
  | xs => buffered xs

/-- Whether it is certain without pulling that there are no items. -/
def isKnownEmpty : Cursor α → Bool
  | empty => true
  | closed => true
  | buffered xs => xs.isEmpty
  | pipe _ => false

/-- Whether the cursor has been closed. -/
def isClosed : Cursor α → Bool
  | closed => true
  | _ => false

/-- A word for the state of a cursor. -/
def stateName : Cursor α → String
  | empty => "empty"
  | buffered _ => "buffered"
  | pipe _ => "stream"
  | closed => "closed"

/-! ### Transforming cursors -/

/-- Transforms every item. -/
def map (f : α → α) : Cursor α → Cursor α
  | buffered xs => ofList (xs.map f)
  | pipe source => pipe (.map f source)
  | _ => empty

/-- Leaves out items. -/
def filter (keep : α → Bool) : Cursor α → Cursor α
  | buffered xs => ofList (xs.filter keep)
  | pipe source => pipe (.filter keep source)
  | _ => empty

/-- Leaves out items that have been there before. -/
def distinct [BEq α] : Cursor α → Cursor α
  | buffered xs => ofList xs.eraseDups
  | pipe source => pipe (.distinct [] source)
  | _ => empty

/-- Leaves out the first items and all behind a number of them. -/
def slice (offset : Nat) (limit : Option Nat) (c : Cursor α) : Cursor α :=
  pipe (.slice offset limit c)

/-- One cursor after the other. -/
def chainAll (cs : List (Cursor α)) : Cursor α :=
  match cs.filter fun c => !c.isKnownEmpty with
  | [] => empty
  | [c] => c
  | live => pipe (.chain live)

end Cursor

end FederatedSparql
