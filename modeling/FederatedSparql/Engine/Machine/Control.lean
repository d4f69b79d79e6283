import FederatedSparql.Engine.Machine.Clock

/-!
Starting and stopping pools, and using an executor by hand.
-/

namespace FederatedSparql.Machine

variable {α : Type}

/-! ### Pools -/

/-- Starts the workers of a pool, unless it runs already. -/
def startPool (p : PoolName) : Action α Unit := do
  let c := (← get).crew p
  unless c.pool.running do
    updatePool p fun pool => { pool with running := true }
    for _ in List.range c.pool.workers do
      let t ← spawn (.idle p)
      updateCrew p fun c => { c with threads := c.threads ++ [t] }

/-- Takes no more jobs for a pool, and gives the threads that it has started. -/
def stopIntake (p : PoolName) : Action α (List Nat) := do
  let c := (← get).crew p
  updateCrew p fun c => { c with pool := c.pool.stop, threads := [] }
  wakeThread? c.line.head?
  return c.threads

/-- Whether a thread is at its end. -/
def isFinished (m : Machine α) (t : Nat) : Bool :=
  match m.threads[t]? with
  | some { activity := .finished, .. } => true
  | some _ => false
  | none => true

/-- Waits until threads are at their ends, for some time at most; tells whether they are. -/
def joinThreads [BEq α] (ts : List Nat) (timeout : Nat) : Action α Bool := do
  let due := (← get).now + timeout
  if timeout > 0 then wakeAt due .main
  let r ← runMain (fun (_ : Unit) => do
    let m ← get
    return if ts.all m.isFinished then MainStep.finished true
      else if due ≤ m.now then .finished false else .waits ()) stepLimit ()
  return r.getD false

/-- Stops a pool once its jobs are done; workers that are not ready in time are interrupted. -/
def shutDownPool [BEq α] (p : PoolName) (timeout : Nat) : Action α Unit := do
  let ts ← stopIntake p
  unless ← joinThreads ts timeout do
    for t in ts do doom t

/-- Stops a pool at once: workers are interrupted, and jobs that wait are given up.  If the workers
are not stopped in time and one of them has the queue, the jobs remain. -/
def abortPool [BEq α] (p : PoolName) (timeout : Nat) : Action α Unit := do
  let ts ← stopIntake p
  for t in ts do doom t
  let _ ← joinThreads ts timeout
  let c := (← get).crew p
  if c.line.isEmpty then
    updateCrew p fun c => { c with jobs := [] }
    for job in c.jobs do finishJob job

/-! ### An executor by hand -/

/-- Adds an executor without a producer. -/
def addExecutor (firstOnly : Bool) : Action α Nat := do
  let id := (← get).executors.size
  let (branch, query) := (← get).query.addBranch
  modify fun m => { m with query := query, executors := m.executors.push { branch, firstOnly } }
  return id

/-- Queues a result, unless it is empty or no result is wanted. -/
def addResult (id : Nat) (result : Cursor α) : Action α Unit := do
  let m ← get
  match m.executors[id]? with
  | none => pure ()
  | some e =>
    match e.admission (m.isCancelled e) result with
    | .queued =>
      updateExecutor id (·.push result)
      wakeConsumer id
      if e.firstOnly then cancel id
    | _ => discard result

/-- Takes the failure that has been recorded. -/
def takeError (id : Nat) : Action α (Option FedError) := do
  let error := ((← get).executors[id]?).bind (·.error)
  updateExecutor id fun e => { e with error := none }
  return error

/-- Waits for the tasks of an executor, as long as the query may take. -/
def awaitPending [BEq α] (id : Nat) : Action α (Except FedError Unit) := do
  let m ← get
  let limit := (m.query.remaining? m.now).map (m.now + ·)
  match limit with
  | some due => if due > m.now then wakeAt due .main
  | none => pure ()
  let r ← runMain (fun (_ : Unit) => do
    match ← checkTasks id limit with
    | .finished => return MainStep.finished (Except.ok ())
    | .timedOut e => return .finished (.error e)
    | .pending => return .waits ()) stepLimit ()
  return r.getD (.ok ())

/-- Takes all results that are queued; of each the items, or the first failure. -/
def receiveAll [BEq α] (id : Nat) : Action α (List (Except FedError (List α))) := do
  let queue := (((← get).executors[id]?).map (·.queue)).getD []
  updateExecutor id fun e => { e with queue := [] }
  wakeThread? (((← get).executors[id]?).bind (·.waiting.head?))
  queue.mapM fun c => do
    match ← take none c with
    | some ⟨_, .failed e, _⟩ => return .error e
    | some ⟨xs, _, _⟩ => return .ok xs
    | none => return .ok []

/-- Stops taking results. -/
def dropReceiver (id : Nat) : Action α Unit := do
  match (← get).executors[id]? with
  | some e =>
    updateExecutor id fun e => { e with receiving := false, queue := [] }
    closeAll (heldByAll e.queue)
    for t in e.waiting do wake (.thread t)
  | none => pure ()

/-! ### A run of tasks -/

/-- What consuming the results of an executor comes to. -/
structure Consumption (α : Type) where
  items : List α
  /-- The failure that ended the results. -/
  failure : Option FedError
  elapsed : Nat

/-- Runs tasks as the branches of a union and pulls their results, so many at most; then gives up
the rest, and a millisecond passes. -/
def consume [BEq α] (firstOnly : Bool) (tasks : List (String × Work α)) (wanted : Option Nat) :
    Action α (Option (Consumption α)) := do
  let c ← openFeed (.union firstOnly tasks)
  let start := (← get).now
  match ← take wanted c with
  | none => return none
  | some taken =>
    let elapsed := (← get).now - start
    discard taken.rest
    sleep 1
    let failure :=
      match taken.ending with
      | .failed e => some e
      | _ => none
    return some ⟨taken.items, failure, elapsed⟩

/-- The words for a union of tasks. -/
def describeUnion (label : String) (tasks : List (String × Work α)) : String :=
  "union " ++ label ++ " (" ++ toString tasks.length ++ " branches)"

end FederatedSparql.Machine
