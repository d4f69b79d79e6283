import FederatedSparql.Engine.BoundTask
import FederatedSparql.Engine.Machine.Pull

/-!
What threads do: workers take jobs, producers schedule the tasks of executors.
-/

namespace FederatedSparql.Machine

variable {α : Type}

/-- Whether a thread goes on after a step. -/
inductive Turn where
  | goesOn
  | ends
deriving DecidableEq, Repr

/-- One step of a cursor, at the depth that the executors so far need. -/
def pull [BEq α] (me : Waker) (c : Cursor α) : Action α (Pulled α × Cursor α) := do
  stepCursor (← get).executors.size me c

/-! ### Workers -/

/-- Takes a worker out of the line; whoever is then first may take the next job. -/
def leaveLine (p : PoolName) (t : Nat) : Action α Unit := do
  updateCrew p fun c => { c with line := c.line.filter (· != t) }
  wakeThread? ((← get).crew p).line.head?

/-- A worker is free again. -/
def endJob (p : PoolName) (t : Nat) (job : Job α) : Action α Turn := do
  finishJob job
  become t (.idle p)
  return .goesOn

/-- A worker without a job: the first in the line takes the next job, and ends if there will be
none. -/
def stepIdle (p : PoolName) (t : Nat) : Action α Turn := do
  updateCrew p fun c => if c.line.contains t then c else { c with line := c.line ++ [t] }
  let m ← get
  let c := m.crew p
  if c.line.head? ≠ some t then return .ends
  match c.jobs with
  | job :: rest =>
    updateCrew p fun c => { c with jobs := rest }
    leaveLine p t
    become t (.working p job (.ready job.work))
    return .goesOn
  | [] =>
    unless c.pool.accepting do
      leaveLine p t
      become t .finished
      wake .main
    return .ends

/-- A job has come to a result. -/
def deliver (p : PoolName) (t : Nat) (job : Job α) (result : Cursor α) : Action α Turn := do
  updatePool p Pool.countCompleted
  let m ← get
  match m.executors[job.executor]? with
  | none => endJob p t job
  | some e =>
    match e.admission (m.isCancelled e) result with
    | .dropped =>
      discard result
      endJob p t job
    | .queued =>
      updateExecutor job.executor (·.push result)
      wakeConsumer job.executor
      if e.firstOnly then cancel job.executor
      endJob p t job
    | .waits =>
      updateExecutor job.executor fun e => { e with waiting := e.waiting ++ [t] }
      become t (.sending p job result)
      return .ends

/-- A worker with a result that has waited for room. -/
def stepSending (p : PoolName) (t : Nat) (job : Job α) (result : Cursor α) : Action α Turn := do
  let m ← get
  match m.executors[job.executor]? with
  | none => endJob p t job
  | some e =>
    let leave (e : Executor α) : Executor α := { e with waiting := e.waiting.filter (· != t) }
    match e.admissionOfWaiting (m.isCancelled e) t with
    | .dropped =>
      updateExecutor job.executor leave
      wakeConsumer job.executor
      discard result
      endJob p t job
    | .queued =>
      updateExecutor job.executor fun e => leave (e.push result)
      wakeConsumer job.executor
      wakeThread? ((leave e).waiting.head?)
      if e.firstOnly then cancel job.executor
      endJob p t job
    | .waits => return .ends

/-- A worker with a job; a cancelled task goes no further. -/
def stepWorking [BEq α] (p : PoolName) (t : Nat) (job : Job α) (run : Run α) :
    Action α Turn := do
  let m ← get
  if m.query.isTaskCancelled job.task then
    updatePool p Pool.countCancelled
    closeAll run.held
    endJob p t job
  else
    match ← stepRun m.executors.size (.thread t) run with
    | .done c => deliver p t job c
    | .failed e =>
      updatePool p Pool.countFailed
      toss job.executor e
      endJob p t job
    | .panicked =>
      updatePool p Pool.countFailed
      toss job.executor (.internalScheduling (.taskPanicked job.name))
      endJob p t job
    | .progress run =>
      become t (.working p job run)
      return .goesOn
    | .wait run =>
      become t (.working p job run)
      return .ends

/-! ### Producers -/

/-- The cursor that a producer pulls from. -/
def leftOf : Production α → Cursor α
  | .branches _ => .empty
  | .nested left _ => left
  | .first left _ _ => left
  | .block left _ _ _ _ => left
  | .awaiting left _ => left

/-- A producer is at its end, with a failure or without one. -/
def endProducer (t id : Nat) (left : Cursor α) (result : Except FedError Unit) :
    Action α Turn := do
  let m ← get
  match result.bind fun _ => m.query.checkTimeout m.now with
  | .ok () => pure ()
  | .error e => toss id e
  endProduction id
  become t .finished
  discard left
  return .ends

/-- From now on a producer waits for its tasks, as long as the query may take. -/
def awaitTasks (t id : Nat) (left : Cursor α) : Action α Turn := do
  let m ← get
  let limit := m.query.remaining? m.now
  match limit with
  | some ms => if ms > 0 then wakeAt (m.now + ms) (.thread t)
  | none => pure ()
  become t (.producing id (.awaiting left (limit.map (m.now + ·))))
  return .goesOn

/-- What becomes of tasks that have been waited for. -/
inductive Awaited where
  | finished
  | timedOut (e : FedError)
  | pending

/-- Whether the tasks of an executor are finished; at the limit the query is aborted. -/
def checkTasks (id : Nat) (limit : Option Nat) : Action α Awaited := do
  let m ← get
  match m.executors[id]? with
  | none => return .finished
  | some e =>
    if m.isCancelled e || e.pending = 0 then return .finished
    else if limit.any (· ≤ m.now) then
      abortQuery
      return .timedOut (.timeout (.outstandingTasks m.query.id e.pending))
    else return .pending

/-- Schedules a task unless results are not wanted any more, and goes on accordingly. -/
def scheduleWanted (t id : Nat) (p : PoolName) (name : String) (work : Work α) (left : Cursor α)
    (next : Production α) : Action α Turn := do
  let m ← get
  match m.query.checkActive m.now with
  | .error e => endProducer t id left (.error e)
  | .ok () =>
    if (m.executors[id]?).all fun e => !e.isActive (m.isCancelled e) then awaitTasks t id left
    else
      match ← schedule p id name work with
      | .error e => endProducer t id left (.error e)
      | .ok () =>
        become t (.producing id next)
        return .goesOn

/-- Goes on with another cursor. -/
def resume (t id : Nat) (production : Production α) (turn : Turn) : Action α Turn := do
  become t (.producing id production)
  return turn

/-- A producer of an executor. -/
def stepProducing [BEq α] (t id : Nat) (production : Production α) : Action α Turn := do
  let m ← get
  if (m.executors[id]?).all m.isCancelled then
    endProduction id
    become t .finished
    discard (leftOf production)
    return .ends
  let me := Waker.thread t
  match production with
  | .branches [] => awaitTasks t id .empty
  | .branches ((name, work) :: rest) =>
    scheduleWanted t id .union name work .empty (.branches rest)
  | .nested left right =>
    match ← pull me left with
    | (.item row, left) => scheduleWanted t id .join "Join" (right row) left (.nested left right)
    | (.failure e, left) => endProducer t id left (.error e)
    | (.done, left) => awaitTasks t id left
    | (.progress, left) => resume t id (.nested left right) .goesOn
    | (.wait, left) => resume t id (.nested left right) .ends
  | .first left blockSize right =>
    match ← pull me left with
    | (.item row, left) =>
      let m ← get
      match m.query.checkActive m.now with
      | .error e => endProducer t id left (.error e)
      | .ok () =>
        match ← schedule .join id "BoundJoin" (right row [row]) with
        | .error e => endProducer t id left (.error e)
        | .ok () => resume t id (.block left blockSize (right row) 1 []) .goesOn
    | (.failure e, left) => endProducer t id left (.error e)
    | (.done, left) => endProducer t id left (.ok ())
    | (.progress, left) => resume t id (.first left blockSize right) .goesOn
    | (.wait, left) => resume t id (.first left blockSize right) .ends
  | .block left blockSize task total filled =>
    let size := BoundJoin.nextBlockSize blockSize total
    if filled.length ≥ size then
      scheduleWanted t id .join "BoundJoin" (task filled) left
        (.block left blockSize task (total + filled.length) [])
    else
      match ← pull me left with
      | (.item row, left) =>
        resume t id (.block left blockSize task total (filled ++ [row])) .goesOn
      | (.failure e, left) => endProducer t id left (.error e)
      | (.done, left) =>
        if filled.isEmpty then awaitTasks t id left
        else
          scheduleWanted t id .join "BoundJoin" (task filled) left
            (.block left blockSize task (total + filled.length) [])
      | (.progress, left) => resume t id (.block left blockSize task total filled) .goesOn
      | (.wait, left) => resume t id (.block left blockSize task total filled) .ends
  | .awaiting left limit =>
    match ← checkTasks id limit with
    | .finished => endProducer t id left (.ok ())
    | .timedOut e => endProducer t id left (.error e)
    | .pending => return .ends

/-! ### Threads -/

/-- Gives up all that a thread has in hand. -/
def abandon (t : Nat) : Activity α → Action α Unit
  | .idle p => leaveLine p t
  | .working _ job run => do
    closeAll run.held
    finishJob job
  | .sending _ job result => do
    updateExecutor job.executor fun e => { e with waiting := e.waiting.filter (· != t) }
    wakeConsumer job.executor
    discard result
    finishJob job
  | .producing _ production => discard (leftOf production)
  | .alarm _ => pure ()
  | .finished => pure ()

/-- One step of a thread. -/
def stepThread [BEq α] (t : Nat) : Action α Turn := do
  let m ← get
  match m.threads[t]? with
  | none => return .ends
  | some s =>
    if s.doomed then
      become t .finished
      abandon t s.activity
      wake .main
      return .ends
    match s.activity with
    | .idle p => stepIdle p t
    | .working p job run => stepWorking p t job run
    | .sending p job result => stepSending p t job result
    | .producing id production => stepProducing t id production
    | .alarm due =>
      if due ≤ m.now then
        become t .finished
        abortQuery
      return .ends
    | .finished => return .ends

end FederatedSparql.Machine
