import FederatedSparql.Engine.Work

/-!
Pools of workers that take jobs from one queue, first come, first served.
-/

namespace FederatedSparql

/-- How many jobs a pool was given and what became of them. -/
structure PoolStats where
  workers : Nat
  scheduled : Nat
  completed : Nat
  failed : Nat
  cancelled : Nat
deriving DecidableEq, Repr, Inhabited

/-- A pool between runs. -/
structure Pool where
  name : String
  /-- The number of workers, at least one. -/
  workers : Nat
  /-- Whether jobs are accepted. -/
  accepting : Bool := true
  running : Bool := false
  scheduled : Nat := 0
  completed : Nat := 0
  failed : Nat := 0
  cancelled : Nat := 0
deriving DecidableEq, Repr, Inhabited

namespace Pool

/-- A pool that has not been started. -/
def create (name : String) (workers : Nat) : Pool := { name, workers := max workers 1 }

/-- The counts. -/
def stats (p : Pool) : PoolStats := ⟨p.workers, p.scheduled, p.completed, p.failed, p.cancelled⟩

/-- The pool in words. -/
def display (p : Pool) : String :=
  "Scheduler \x7b name: \"" ++ p.name ++ "\", worker_count: " ++ toString p.workers ++
    ", running: " ++ toString p.running ++ " \x7d"

/-- Fails if no jobs are accepted. -/
def checkAccepting (p : Pool) : Except FedError Unit :=
  if p.accepting then .ok () else .error (.internalScheduling (.schedulerShutDown p.name))

/-- Counts a job that was given to the pool. -/
def countScheduled (p : Pool) : Pool := { p with scheduled := p.scheduled + 1 }

/-- Counts a job that ended in a result. -/
def countCompleted (p : Pool) : Pool := { p with completed := p.completed + 1 }

/-- Counts a job that failed. -/
def countFailed (p : Pool) : Pool := { p with failed := p.failed + 1 }

/-- Counts a job that was cancelled. -/
def countCancelled (p : Pool) : Pool := { p with cancelled := p.cancelled + 1 }

/-- Takes no more jobs; those that were given are still done. -/
def stop (p : Pool) : Pool := { p with running := false, accepting := false }

end Pool

/-- A job of a pool: a task of an executor. -/
structure Job (α : Type) where
  executor : Nat
  /-- The number of the task in its query. -/
  task : Nat
  name : String
  work : Work α

/-- A pool while it runs. -/
structure Crew (α : Type) where
  pool : Pool
  jobs : List (Job α) := []
  /-- Workers without a job; the first one takes the next. -/
  line : List Nat := []
  /-- The threads that the pool has started. -/
  threads : List Nat := []

end FederatedSparql
