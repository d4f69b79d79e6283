import FederatedSparql.Endpoint.Request
import FederatedSparql.Error

/-!
What evaluating a plan comes to, as a description that nothing has run yet.

A `Work` is a program for one task: it asks endpoints, may take its time and ends in a failure or in
a `Feed`.  A `Feed` says where items come from: they are at hand, or other tasks have to be run for
them, or they come out of another feed.  How many tasks run at a time, and in which order their
results arrive, is not part of the description.
-/

namespace FederatedSparql

mutual

/-- A program for one task. -/
inductive Work (α : Type) where
  | done (feed : Feed α)
  | fail (e : FedError)
  /-- The task breaks off. -/
  | panic
  | sleep (ms : Nat) (next : Work α)
  /-- Asks an endpoint. -/
  | request (endpoint : String) (r : Request) (next : Except FedError Answer → Work α)
  /-- Asks for a repair of the connection to an endpoint. -/
  | repair (endpoint : String) (next : Work α)
  /-- Goes on only while the query is neither aborted nor out of time. -/
  | check (next : Work α)
  /-- Runs programs side by side and collects all items of each. -/
  | gather (parts : List (Work α)) (next : List (Except FedError (List α)) → Work α)

/-- Where items come from. -/
inductive Feed (α : Type) where
  | rows (items : List α)
  /-- Items that are at hand and failures among them. -/
  | outcomes (outcomes : List (Except FedError α))
  /-- The items of all branches, each of them a task with a name; with `firstOnly` only those of the
  first branch that has any. -/
  | union (firstOnly : Bool) (branches : List (String × Work α))
  /-- For each item of the left a task of its own. -/
  | nestedJoin (left : Feed α) (right : α → Work α)
  /-- The items of the left in blocks of a configured size, for each block a task; the first item
  decides what the tasks do. -/
  | boundJoin (left : Feed α) (blockSize : Nat) (right : α → List α → Work α)
  | map (f : α → α) (source : Feed α)
  | filter (keep : α → Bool) (source : Feed α)
  | distinct (source : Feed α)
  | slice (offset : Nat) (limit : Option Nat) (source : Feed α)
  /-- For each item of the left what the right has for it that is to be kept, or else the item
  itself. -/
  | optional (left : Feed α) (right : α → Work α) (keep : α → Bool)
  /-- The items of the feed that a program ends in, run by whoever wants the items. -/
  | deferred (work : Work α)

end

namespace Feed

/-- The items, if all of them are at hand. -/
def buffered? {α : Type} [BEq α] : Feed α → Option (List α)
  | rows xs => some xs
  | map f source => source.buffered?.map (·.map f)
  | filter keep source => source.buffered?.map (·.filter keep)
  | distinct source => source.buffered?.map (·.eraseDups)
  | _ => none

/-- Whether it is certain without running anything that there are no items. -/
def isKnownEmpty {α : Type} [BEq α] (f : Feed α) : Bool :=
  match f.buffered? with
  | some xs => xs.isEmpty
  | none => false

end Feed

namespace Work

/-- Goes on with the feed that a program ends in. -/
def bind {α : Type} (w : Work α) (k : Feed α → Work α) : Work α :=
  match w with
  | done feed => k feed
  | fail e => fail e
  | panic => panic
  | sleep ms next => sleep ms (next.bind k)
  | request endpoint r next => request endpoint r fun answer => (next answer).bind k
  | repair endpoint next => repair endpoint (next.bind k)
  | check next => check (next.bind k)
  | gather parts next => gather parts fun results => (next results).bind k

/-- Changes the feed that a program ends in. -/
def mapFeed {α : Type} (f : Feed α → Feed α) (w : Work α) : Work α :=
  w.bind fun feed => done (f feed)

/-- Goes on with the failure that a program ends in. -/
def handle {α : Type} (w : Work α) (h : FedError → Work α) : Work α :=
  match w with
  | done feed => done feed
  | fail e => h e
  | panic => panic
  | sleep ms next => sleep ms (next.handle h)
  | request endpoint r next => request endpoint r fun answer => (next answer).handle h
  | repair endpoint next => repair endpoint (next.handle h)
  | check next => check (next.handle h)
  | gather parts next => gather parts fun results => (next results).handle h

/-- Fails after asking for a repair if the failure is a fault of a connection. -/
def failRepairing {α : Type} (e : FedError) : Work α :=
  match e with
  | .endpoint (.connection endpoint _) => repair endpoint (fail e)
  | _ => fail e

/-- Asks for a repair whenever a program fails by a fault of a connection. -/
def repairingFaults {α : Type} (w : Work α) : Work α := w.handle failRepairing

/-- Goes on with a value, or fails. -/
def ofExcept {α β : Type} (r : Except FedError β) (k : β → Work α) : Work α :=
  match r with
  | .ok b => k b
  | .error e => fail e

end Work

end FederatedSparql
