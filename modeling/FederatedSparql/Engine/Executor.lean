import FederatedSparql.Engine.Cursor

/-!
What the tasks of an executor and the consumer of its results share.

Results wait in a queue of bounded length, in the order in which they were completed; the first
failure ends production and is delivered behind the results that were queued before it.
-/

namespace FederatedSparql

/-- Whose turn it is to go on: whoever wants the results of the whole run, or a thread. -/
inductive Waker where
  | main
  | thread (id : Nat)
deriving DecidableEq, Repr, Inhabited

/-- What kind of evaluation an executor stands for. -/
inductive ExecutorKind where
  | nestedLoopJoin
  | boundJoin
  | union
  | existenceCheck
deriving DecidableEq, Repr, Inhabited

/-- The kind's name. -/
def ExecutorKind.name : ExecutorKind → String
  | nestedLoopJoin => "NestedLoopJoin"
  | boundJoin => "BoundJoin"
  | union => "Union"
  | existenceCheck => "ExistenceCheck"

/-- Results on their way from tasks to a consumer. -/
structure Executor (α : Type) where
  /-- The branch of the query that is cancelled with the executor. -/
  branch : Nat
  /-- Whether the first result ends production. -/
  firstOnly : Bool := false
  /-- Whether production goes on. -/
  producing : Bool := true
  queue : List (Cursor α) := []
  /-- The first failure, until it is delivered. -/
  error : Option FedError := none
  /-- Tasks that have been scheduled and are not finished. -/
  pending : Nat := 0
  closed : Bool := false
  /-- Whether the consumer still takes results. -/
  receiving : Bool := true
  /-- Threads with a result for which the queue has no room, in order. -/
  waiting : List Nat := []
  /-- Who is to be told of results. -/
  consumer : Option Waker := none
  /-- The thread that schedules the tasks. -/
  producer : Option Nat := none
  /-- The result that is being consumed. -/
  current : Option (Cursor α) := none
  /-- Whether all has been consumed. -/
  finished : Bool := false

namespace Executor

variable {α : Type}

/-- How many results may wait for the consumer. -/
def queueCapacity : Nat := 1024

/-- Whether results are still wanted. -/
def isActive (e : Executor α) (cancelled : Bool) : Bool := !cancelled && !e.closed

/-- What becomes of a result. -/
inductive Admission where
  | dropped
  | queued
  /-- There is no room yet. -/
  | waits
deriving DecidableEq, Repr

/-- Whether a new result is taken: empty ones are dropped, and all once nothing is wanted any more.
-/
def admission (e : Executor α) (cancelled : Bool) (result : Cursor α) : Admission :=
  if result.isKnownEmpty || !e.isActive cancelled || e.error.isSome || !e.producing ||
      !e.receiving then .dropped
  else if e.queue.length < queueCapacity && e.waiting.isEmpty then .queued
  else .waits

/-- Whether the thread with a result that has waited for room goes on. -/
def admissionOfWaiting (e : Executor α) (cancelled : Bool) (thread : Nat) : Admission :=
  if cancelled || !e.receiving then .dropped
  else if e.queue.length < queueCapacity && e.waiting.head? == some thread then .queued
  else .waits

/-- Queues a result; under `firstOnly` it is the last one. -/
def push (e : Executor α) (result : Cursor α) : Executor α :=
  { e with queue := e.queue ++ [result], producing := e.producing && !e.firstOnly }

/-- Ends production. -/
def endProduction (e : Executor α) : Executor α := { e with producing := false }

/-- Records a failure unless there is one already, and ends production. -/
def toss (e : Executor α) (error : FedError) : Executor α :=
  if e.closed then e else { e with error := e.error.or (some error), producing := false }

/-- Whether no result will be queued any more. -/
def isExhausted (e : Executor α) : Bool := e.queue.isEmpty && !e.producing && e.waiting.isEmpty

/-- Ends everything and forgets what has been produced. -/
def close (e : Executor α) : Executor α :=
  { e with
    finished := true, closed := true, producing := false, receiving := false
    current := none, queue := [], waiting := [] }

/-- Counts a scheduled task. -/
def addTask (e : Executor α) : Executor α := { e with pending := e.pending + 1 }

/-- Counts a finished task. -/
def finishTask (e : Executor α) : Executor α := { e with pending := e.pending - 1 }

end Executor

end FederatedSparql
