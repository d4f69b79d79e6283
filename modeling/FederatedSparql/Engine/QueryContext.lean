import FederatedSparql.Error

/-!
The life of one query: its deadline, whether it has been aborted or closed, and its tasks.

Cancellation runs down a tree: a query has branches, one for each of its executors, and a task hangs
on a branch or on the query itself.  What hangs on something cancelled is cancelled, also when it is
added later.
-/

namespace FederatedSparql

/-- A task of a query. -/
structure TaskRecord where
  /-- The branch the task hangs on; without one it hangs on the query. -/
  branch : Option Nat
  cancelled : Bool := false
  /-- Whether the task is still to be waited for. -/
  registered : Bool := true
deriving DecidableEq, Repr, Inhabited

/-- A query that is being evaluated. -/
structure QueryContext where
  id : Nat := 1
  text : String := ""
  form : QueryForm := .select
  /-- When the query has to be answered, in milliseconds. -/
  deadline : Option Nat := none
  aborted : Bool := false
  cancelled : Bool := false
  /-- For each branch whether it has been cancelled. -/
  branches : Array Bool := #[]
  /-- All tasks there ever were; they are numbered from one. -/
  tasks : Array TaskRecord := #[]
deriving Repr, Inhabited

namespace QueryContext

/-- A query that starts now. -/
def start (text : String) (form : QueryForm) (now : Nat) (timeout : Option Nat) : QueryContext :=
  { text, form, deadline := timeout.map (now + ·) }

/-! ### Time -/

/-- The time left until the deadline. -/
def remaining? (q : QueryContext) (now : Nat) : Option Nat := q.deadline.map (· - now)

/-- Whether the deadline has passed. -/
def isExpired (q : QueryContext) (now : Nat) : Bool := q.deadline.any (· ≤ now)

/-- Fails once the deadline has passed. -/
def checkTimeout (q : QueryContext) (now : Nat) : Except FedError Unit :=
  if q.isExpired now then .error (.timeout (.deadlineExceeded q.id)) else .ok ()

/-- Fails once the query has been aborted. -/
def checkAborted (q : QueryContext) : Except FedError Unit :=
  if q.aborted then .error (.aborted q.id) else .ok ()

/-- Fails once the query has been aborted or its deadline has passed. -/
def checkActive (q : QueryContext) (now : Nat) : Except FedError Unit := do
  q.checkAborted
  q.checkTimeout now

/-! ### Cancellation -/

/-- Whether a branch is cancelled. -/
def isBranchCancelled (q : QueryContext) (branch : Nat) : Bool :=
  q.cancelled || q.branches[branch]?.getD true

/-- Whether a task is cancelled. -/
def isRecordCancelled (q : QueryContext) (t : TaskRecord) : Bool :=
  t.cancelled || q.cancelled || t.branch.any q.isBranchCancelled

/-- Whether the task of a number is cancelled. -/
def isTaskCancelled (q : QueryContext) (task : Nat) : Bool :=
  match q.tasks[task - 1]? with
  | some t => q.isRecordCancelled t
  | none => true

/-- Adds a branch and gives its number. -/
def addBranch (q : QueryContext) : Nat × QueryContext :=
  (q.branches.size, { q with branches := q.branches.push false })

/-- Cancels a branch. -/
def cancelBranch (q : QueryContext) (branch : Nat) : QueryContext :=
  { q with branches := q.branches.setIfInBounds branch true }

/-- Adds a task and gives its number; an aborted query takes no more. -/
def register (q : QueryContext) (branch : Option Nat) : Except FedError (Nat × QueryContext) := do
  q.checkAborted
  return (q.tasks.size + 1, { q with tasks := q.tasks.push { branch } })

/-- Notes that a task need not be waited for any more. -/
def deregister (q : QueryContext) (task : Nat) : QueryContext :=
  if task = 0 then q
  else { q with tasks := q.tasks.modify (task - 1) fun t => { t with registered := false } }

/-- The number of tasks to be waited for. -/
def taskCount (q : QueryContext) : Nat := q.tasks.countP (·.registered)

/-- Aborts the query: all its tasks are cancelled. -/
def abort (q : QueryContext) : QueryContext :=
  if q.aborted then q
  else
    { q with
      aborted := true
      cancelled := true
      tasks := q.tasks.map fun t => { t with cancelled := t.cancelled || t.registered } }

/-- Closes the query: whatever still runs is cancelled. -/
def close (q : QueryContext) : QueryContext := { q with cancelled := true }

end QueryContext

end FederatedSparql
