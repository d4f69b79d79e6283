import FederatedSparql.Proofs.Machine.Site

/-!
Relations that are kept when threads take their turns.

A worker belongs to a pool, whether it has a job or not (`Activity.pool?`).  A `TurnFrame R u may` is
a relation that is kept by whatever the turn of thread `u` is made of, as long as the thread goes on
with what `may` admits: it belongs to the pools that `may` holds of, and takes jobs from no others.

* `Machine.TurnFrame.keeps_stepThread`: such a relation is kept by the whole turn.
* `Machine.TurnFrame.keeps_stepQuery` and `Deed.keeps`: it is also kept by what queries do, for which
  it does not matter what `may` admits.
-/

namespace FederatedSparql

variable {α β : Type}

/-- The pool that a worker belongs to. -/
def Activity.pool? : Activity α → Option PoolName
  | .idle p => some p
  | .working p _ _ => some p
  | .sending p _ _ => some p
  | _ => none

/-- What nothing changes of a query: which one it is, and when it has to be answered. -/
structure QueryContext.Alike (q q' : QueryContext) : Prop where
  id : q'.id = q.id
  deadline : q'.deadline = q.deadline

/-- What a change of a crew leaves alone unless jobs are given or taken, or the pool is started or
stopped. -/
structure Crew.Alike (c c' : Crew α) : Prop where
  jobs : c'.jobs = c.jobs
  threads : c'.threads = c.threads
  accepting : c'.pool.accepting = c.pool.accepting
  running : c'.pool.running = c.pool.running

namespace QueryContext

theorem alike_abort (q : QueryContext) : q.Alike q.abort := by
  unfold abort
  split <;> exact ⟨rfl, rfl⟩

theorem alike_deregister (q : QueryContext) (task : Nat) : q.Alike (q.deregister task) := by
  unfold deregister
  split <;> exact ⟨rfl, rfl⟩

end QueryContext

namespace Machine

/-- The pool that a thread belongs to. -/
def poolOf (m : Machine α) (t : Nat) : Option PoolName := (m.activity? t).bind Activity.pool?

/-- Whether the next turn of a thread may be its last one: a worker that is not interrupted ends only
when there are no jobs, and will be none. -/
def MayEnd (m : Machine α) (t : Nat) : Prop :=
  ∀ p, m.poolOf t = some p →
    m.isDoomed t = true ∨ (m.crew p).jobs = [] ∧ (m.crew p).pool.accepting = false

/-- A relation that is kept by whatever the turn of a thread is made of. -/
structure TurnFrame (R : Machine α → Machine α → Prop) (u : Nat) (may : Option PoolName → Prop) :
    Prop extends PullFrame R where
  query : ∀ f : QueryContext → QueryContext, (∀ q, QueryContext.Alike q (f q)) →
    Keeps R (modify fun m : Machine α => { m with query := f m.query })
  updateExecutor : ∀ id f, Keeps R (updateExecutor id f)
  /-- A pool counts something, or its line changes. -/
  updateCrew : ∀ p f, (∀ c, Crew.Alike c (f c)) → Keeps R (updateCrew p f)
  schedule : ∀ p id name work, Keeps R (schedule p id name work)
  become : ∀ a, may a.pool? → Keeps R (become u a)
  takeJob : ∀ {m : Machine α} {p : PoolName} {job : Job α} {rest : List (Job α)}, may (some p) →
    (m.crew p).jobs = job :: rest →
      R m (after (Machine.updateCrew p fun c => { c with jobs := rest }) m)

namespace TurnFrame

variable {R : Machine α → Machine α → Prop} {u : Nat} {may : Option PoolName → Prop}

/-! ### Executors and the query -/

section Actions

theorem keeps_updatePool (hR : TurnFrame R u may) (p : PoolName) (f : Pool → Pool)
    (hf : ∀ pool, (f pool).accepting = pool.accepting ∧ (f pool).running = pool.running) :
    Keeps R (updatePool p f) :=
  hR.updateCrew p _ fun c => ⟨rfl, rfl, (hf c.pool).1, (hf c.pool).2⟩

theorem keeps_abortQuery (hR : TurnFrame R u may) : Keeps R (abortQuery : Action α Unit) :=
  hR.bind (hR.query _ QueryContext.alike_abort) fun _ => hR.keeps_wakeWorkingFor _

theorem keeps_closeQuery (hR : TurnFrame R u may) : Keeps R (closeQuery : Action α Unit) :=
  hR.bind (hR.query _ fun _ => ⟨rfl, rfl⟩) fun _ => hR.keeps_wakeWorkingFor _

theorem keeps_endProduction (hR : TurnFrame R u may) (id : Nat) : Keeps R (endProduction id) :=
  hR.bind (hR.updateExecutor id _) fun _ => hR.keeps_wakeConsumer id

theorem keeps_toss (hR : TurnFrame R u may) (id : Nat) (error : FedError) :
    Keeps R (toss id error) := by
  apply Frame.keeps_get
  intro m
  split
  · split
    · exact hR.keeps_pure ()
    · exact hR.bind (hR.updateExecutor id _) fun _ =>
        hR.bind (hR.keeps_wakeConsumer id) fun _ => hR.keeps_cancel id
  · exact hR.keeps_pure ()

theorem keeps_finishJob (hR : TurnFrame R u may) (job : Job α) : Keeps R (finishJob job) :=
  hR.bind (hR.query (·.deregister job.task) fun q => q.alike_deregister job.task) fun _ =>
    hR.bind (hR.updateExecutor _ _) fun _ => hR.keeps_wakeFinished _

theorem keeps_addResult (hR : TurnFrame R u may) (id : Nat) (result : Cursor α) :
    Keeps R (addResult id result) := by
  apply Frame.keeps_get
  intro m
  split
  · exact hR.keeps_pure _
  · split
    · refine hR.bind (hR.updateExecutor id _) fun _ => hR.bind (hR.keeps_wakeConsumer id) fun _ => ?_
      split
      · exact hR.keeps_cancel id
      · exact hR.keeps_pure _
    · exact hR.keeps_discard _

theorem keeps_takeError (hR : TurnFrame R u may) (id : Nat) : Keeps R (takeError id) :=
  Frame.keeps_get fun _ => hR.bind (hR.updateExecutor id _) fun _ => hR.keeps_pure _

theorem keeps_dropReceiver (hR : TurnFrame R u may) (id : Nat) : Keeps R (dropReceiver id) := by
  apply Frame.keeps_get
  intro m
  split
  · exact hR.bind (hR.updateExecutor id _) fun _ => hR.bind (hR.keeps_closeAll _) fun _ =>
      hR.bind (hR.keeps_forIn _ fun _ => hR.bind (hR.wake _) fun _ => hR.keeps_pure _) fun _ =>
        hR.keeps_pure _
  · exact hR.keeps_pure _

theorem keeps_checkTasks (hR : TurnFrame R u may) (id : Nat) (limit : Option Nat) :
    Keeps R (checkTasks id limit) := by
  apply Frame.keeps_get
  intro m
  split
  · exact hR.keeps_pure _
  · split
    · exact hR.keeps_pure _
    · split
      · exact hR.bind hR.keeps_abortQuery fun _ => hR.keeps_pure _
      · exact hR.keeps_pure _

theorem keeps_leaveLine (hR : TurnFrame R u may) (t : Nat) (p : PoolName) :
    Keeps R (leaveLine p t) :=
  hR.bind (hR.updateCrew p _ fun _ => ⟨rfl, rfl, rfl, rfl⟩) fun _ =>
    Frame.keeps_get fun _ => hR.keeps_wakeThread? _

theorem keeps_abandon (hR : TurnFrame R u may) (t : Nat) (a : Activity α) :
    Keeps R (abandon t a) := by
  cases a with
  | idle p => exact hR.keeps_leaveLine t p
  | working p job run => exact hR.bind (hR.keeps_closeAll _) fun _ => hR.keeps_finishJob job
  | sending p job result =>
    exact hR.bind (hR.updateExecutor _ _) fun _ => hR.bind (hR.keeps_wakeConsumer _) fun _ =>
      hR.bind (hR.keeps_discard _) fun _ => hR.keeps_finishJob job
  | producing id production => exact hR.keeps_discard _
  | alarm due => exact hR.keeps_pure _
  | finished => exact hR.keeps_pure _

end Actions

/-! ### Workers -/

section Workers

variable {p : PoolName}

theorem keeps_endJob (hR : TurnFrame R u may) (hp : may (some p)) (job : Job α) :
    Keeps R (endJob p u job) :=
  hR.bind (hR.keeps_finishJob job) fun _ => hR.bind (hR.become (.idle p) hp) fun _ =>
    hR.keeps_pure _

theorem keeps_stepIdle (hR : TurnFrame R u may) (hp : may (some p)) {m : Machine α}
    (hends : (m.crew p).jobs = [] → (m.crew p).pool.accepting = false → may none) :
    R m (after (stepIdle p u) m) := by
  have alike (c : Crew α) :
      c.Alike (if c.line.contains u then c else { c with line := c.line ++ [u] }) := by
    split <;> exact ⟨rfl, rfl, rfl, rfl⟩
  have lined : Crew.Alike (m.crew p) ((after (Machine.updateCrew p fun c : Crew α =>
      if c.line.contains u then c else { c with line := c.line ++ [u] }) m).crew p) := by
    cases p <;> exact alike _
  apply hR.trans (hR.updateCrew p _ alike m)
  rw [stepIdle, after_bind]
  generalize after (Machine.updateCrew p fun c : Crew α =>
    if c.line.contains u then c else { c with line := c.line ++ [u] }) m = m' at lined ⊢
  rw [after_get_bind]
  dsimp only
  split
  · exact hR.refl m'
  · split
    · next job rest hjobs =>
      apply hR.trans (hR.takeJob hp hjobs)
      exact (hR.bind (hR.keeps_leaveLine u p) fun _ =>
        hR.bind (hR.become (.working p job (.ready job.work)) hp) fun _ => hR.keeps_pure _) _
    · next hjobs =>
      split
      · exact hR.refl m'
      · next haccepting =>
        have hended : may none := by
          apply hends (lined.jobs.symm.trans hjobs)
          rw [← lined.accepting]
          simpa using haccepting
        exact (hR.bind (hR.keeps_leaveLine u p) fun _ =>
          hR.bind (hR.become .finished hended) fun _ => hR.bind (hR.wake .main) fun _ =>
            hR.keeps_pure _) m'

theorem keeps_deliver (hR : TurnFrame R u may) (hp : may (some p)) (job : Job α)
    (result : Cursor α) : Keeps R (deliver p u job result) := by
  refine hR.bind (hR.keeps_updatePool p _ fun _ => ⟨rfl, rfl⟩) fun _ => Frame.keeps_get fun m => ?_
  split
  · exact hR.keeps_endJob hp job
  · split
    · exact hR.bind (hR.keeps_discard _) fun _ => hR.keeps_endJob hp job
    · refine hR.bind (hR.updateExecutor _ _) fun _ => hR.bind (hR.keeps_wakeConsumer _) fun _ => ?_
      dsimp only
      split
      · exact hR.bind (hR.keeps_cancel _) fun _ => hR.keeps_endJob hp job
      · exact hR.keeps_endJob hp job
    · exact hR.bind (hR.updateExecutor _ _) fun _ =>
        hR.bind (hR.become (.sending p job result) hp) fun _ => hR.keeps_pure _

theorem keeps_stepSending (hR : TurnFrame R u may) (hp : may (some p)) (job : Job α)
    (result : Cursor α) : Keeps R (stepSending p u job result) := by
  apply Frame.keeps_get
  intro m
  split
  · exact hR.keeps_endJob hp job
  · dsimp only
    split
    · exact hR.bind (hR.updateExecutor _ _) fun _ => hR.bind (hR.keeps_wakeConsumer _) fun _ =>
        hR.bind (hR.keeps_discard _) fun _ => hR.keeps_endJob hp job
    · refine hR.bind (hR.updateExecutor _ _) fun _ => hR.bind (hR.keeps_wakeConsumer _) fun _ =>
        hR.bind (hR.keeps_wakeThread? _) fun _ => ?_
      split
      · exact hR.bind (hR.keeps_cancel _) fun _ => hR.keeps_endJob hp job
      · exact hR.keeps_endJob hp job
    · exact hR.keeps_pure _

theorem keeps_stepWorking [BEq α] (hR : TurnFrame R u may) (hp : may (some p)) (job : Job α)
    (run : Run α) : Keeps R (stepWorking p u job run) := by
  apply Frame.keeps_get
  intro m
  split
  · exact hR.bind (hR.keeps_updatePool p _ fun _ => ⟨rfl, rfl⟩) fun _ =>
      hR.bind (hR.keeps_closeAll _) fun _ => hR.keeps_endJob hp job
  · refine hR.bind (hR.keeps_stepRun _ _ run) fun r => ?_
    have fails (e : FedError) : Keeps R (do
        updatePool p Pool.countFailed
        toss job.executor e
        endJob p u job) :=
      hR.bind (hR.keeps_updatePool p _ fun _ => ⟨rfl, rfl⟩) fun _ =>
        hR.bind (hR.keeps_toss _ e) fun _ => hR.keeps_endJob hp job
    have goesOn (run : Run α) (turn : Turn) : Keeps R (do
        Machine.become u (.working p job run)
        return turn) :=
      hR.bind (hR.become (.working p job run) hp) fun _ => hR.keeps_pure _
    cases r with
    | done c => exact hR.keeps_deliver hp job c
    | failed e => exact fails e
    | panicked => exact fails _
    | progress run => exact goesOn run .goesOn
    | wait run => exact goesOn run .ends

end Workers

/-! ### Producers -/

section Producers

theorem keeps_resume (hR : TurnFrame R u may) (hends : may none) (id : Nat)
    (production : Production α) (turn : Turn) : Keeps R (resume u id production turn) :=
  hR.bind (hR.become (.producing id production) hends) fun _ => hR.keeps_pure _

theorem keeps_endProducer (hR : TurnFrame R u may) (hends : may none) (id : Nat) (left : Cursor α)
    (result : Except FedError Unit) : Keeps R (endProducer u id left result) := by
  have ends : Keeps R (do
      endProduction id
      Machine.become u .finished
      discard left
      return Turn.ends) :=
    hR.bind (hR.keeps_endProduction id) fun _ => hR.bind (hR.become .finished hends) fun _ =>
      hR.bind (hR.keeps_discard left) fun _ => hR.keeps_pure _
  apply Frame.keeps_get
  intro m
  dsimp only
  split
  · exact ends
  · exact hR.bind (hR.keeps_toss id _) fun _ => ends

theorem keeps_awaitTasks (hR : TurnFrame R u may) (hends : may none) (id : Nat)
    (left : Cursor α) : Keeps R (awaitTasks u id left) := by
  apply Frame.keeps_get
  intro m
  have waits : Keeps R (do
      Machine.become u (.producing id (.awaiting left ((m.query.remaining? m.now).map (m.now + ·))))
      return Turn.goesOn) :=
    hR.bind (hR.become (.producing id _) hends) fun _ => hR.keeps_pure _
  dsimp only
  split
  · split
    · exact hR.bind (hR.wakeAt _ _) fun _ => waits
    · exact waits
  · exact waits

theorem keeps_scheduleWanted (hR : TurnFrame R u may) (hends : may none) (id : Nat) (p : PoolName)
    (name : String) (work : Work α) (left : Cursor α) (next : Production α) :
    Keeps R (scheduleWanted u id p name work left next) := by
  apply Frame.keeps_get
  intro m
  split
  · exact hR.keeps_endProducer hends id left _
  · split
    · exact hR.keeps_awaitTasks hends id left
    · refine hR.bind (hR.schedule p id name work) fun r => ?_
      split
      · exact hR.keeps_endProducer hends id left _
      · exact hR.bind (hR.become (.producing id next) hends) fun _ => hR.keeps_pure _

theorem keeps_stepProducing [BEq α] (hR : TurnFrame R u may) (hends : may none) (id : Nat)
    (production : Production α) : Keeps R (stepProducing u id production) := by
  apply Frame.keeps_get
  intro m
  dsimp only
  split
  · exact hR.bind (hR.keeps_endProduction id) fun _ => hR.bind (hR.become .finished hends) fun _ =>
      hR.bind (hR.keeps_discard _) fun _ => hR.keeps_pure _
  · cases production with
    | branches branches =>
      cases branches with
      | nil => exact hR.keeps_awaitTasks hends id .empty
      | cons branch rest => exact hR.keeps_scheduleWanted hends id .union _ _ .empty _
    | nested left right =>
      refine hR.bind (hR.keeps_pull _ left) fun r => ?_
      split
      · exact hR.keeps_scheduleWanted hends id .join _ _ _ _
      · exact hR.keeps_endProducer hends id _ _
      · exact hR.keeps_awaitTasks hends id _
      · exact hR.keeps_resume hends id _ _
      · exact hR.keeps_resume hends id _ _
    | first left size right =>
      refine hR.bind (hR.keeps_pull _ left) fun r => ?_
      split
      · apply Frame.keeps_get
        intro m
        split
        · exact hR.keeps_endProducer hends id _ _
        · refine hR.bind (hR.schedule .join id _ _) fun r => ?_
          split
          · exact hR.keeps_endProducer hends id _ _
          · exact hR.keeps_resume hends id _ _
      · exact hR.keeps_endProducer hends id _ _
      · exact hR.keeps_endProducer hends id _ _
      · exact hR.keeps_resume hends id _ _
      · exact hR.keeps_resume hends id _ _
    | block left size task total filled =>
      dsimp only
      split
      · exact hR.keeps_scheduleWanted hends id .join _ _ _ _
      · refine hR.bind (hR.keeps_pull _ left) fun r => ?_
        split
        · exact hR.keeps_resume hends id _ _
        · exact hR.keeps_endProducer hends id _ _
        · split
          · exact hR.keeps_awaitTasks hends id _
          · exact hR.keeps_scheduleWanted hends id .join _ _ _ _
        · exact hR.keeps_resume hends id _ _
        · exact hR.keeps_resume hends id _ _
    | awaiting left limit =>
      refine hR.bind (hR.keeps_checkTasks id limit) fun r => ?_
      cases r with
      | finished => exact hR.keeps_endProducer hends id _ _
      | timedOut e => exact hR.keeps_endProducer hends id _ _
      | pending => exact hR.keeps_pure _

end Producers

/-! ### Turns -/

/-- **The turn of a thread keeps the relation**, as what it is made of does.  A thread belongs to the
pool that it belonged to, unless it comes to its end. -/
theorem keeps_stepThread [BEq α] (hR : TurnFrame R u may) {m : Machine α}
    (hp : m.isDoomed u = false → may (m.poolOf u)) (hends : m.MayEnd u → may none) :
    R m (after (stepThread u) m) := by
  rw [stepThread, after_get_bind]
  cases hth : m.threads[u]? with
  | none => exact hR.refl m
  | some th =>
    obtain ⟨activity, doomed⟩ := th
    have hpool : m.poolOf u = activity.pool? := by simp [poolOf, activity?, hth]
    have hdoomed : m.isDoomed u = doomed := by simp [isDoomed, hth]
    cases doomed with
    | true =>
      have hended : may none := hends fun _ _ => .inl hdoomed
      exact (hR.bind (hR.become .finished hended) fun _ => hR.bind (hR.keeps_abandon u _) fun _ =>
        hR.bind (hR.wake .main) fun _ => hR.keeps_pure _) m
    | false =>
      have hstays : may activity.pool? := hpool ▸ hp hdoomed
      -- A thread that is no worker may end at any time.
      have hfree (hnone : activity.pool? = none) : may none := hnone ▸ hstays
      cases activity with
      | idle p =>
        apply hR.keeps_stepIdle hstays
        intro hjobs haccepting
        apply hends
        intro p' hp'
        obtain rfl : p = p' := Option.some.inj (hpool.symm.trans hp')
        exact .inr ⟨hjobs, haccepting⟩
      | working p job run => exact hR.keeps_stepWorking hstays job run m
      | sending p job result => exact hR.keeps_stepSending hstays job result m
      | producing id production => exact hR.keeps_stepProducing (hfree rfl) id production m
      | alarm due =>
        simp only [Bool.false_eq_true, if_false]
        split
        · exact (hR.bind (hR.become .finished (hfree rfl)) fun _ => hR.bind hR.keeps_abortQuery
            fun _ => hR.keeps_pure _) m
        · exact hR.refl m
      | finished => exact hR.refl m

/-! ### Queries -/

section Queries

variable {R : Machine Bindings → Machine Bindings → Prop}

theorem keeps_close (hR : TurnFrame R u may) (c : Cursor Bindings) :
    Keeps R (Federation.close c) :=
  hR.bind (hR.keeps_discard c) fun _ => hR.keeps_closeQuery

/-- **The poll of a query keeps the relation.** -/
theorem keeps_stepQuery (hR : TurnFrame R u may) (c : Cursor Bindings) :
    Keeps R (Federation.stepQuery c) := by
  apply Frame.keeps_get
  intro m
  split
  · exact hR.keeps_pure _
  · split
    · exact hR.bind hR.keeps_abortQuery fun _ => hR.bind (hR.keeps_close c) fun _ => hR.keeps_pure _
    · refine hR.bind (hR.keeps_pull .main c) fun r => ?_
      split
      · exact hR.bind (hR.keeps_close _) fun _ => hR.keeps_pure _
      · exact hR.bind (hR.keeps_close _) fun _ => hR.keeps_pure _
      · exact hR.keeps_pure _

end Queries

end TurnFrame

end Machine

open Machine

/-- **What a query does of its own accord keeps the relation.** -/
theorem Deed.keeps {R : Machine Bindings → Machine Bindings → Prop} {u : Nat}
    {may : Option PoolName → Prop} (hR : TurnFrame R u may) (d : Deed) : Keeps R d.act := by
  cases d with
  | pull me c => exact hR.bind (hR.keeps_pull me c) fun _ => hR.keeps_pure _
  | openFeed f => exact hR.bind (hR.keeps_openFeed f) fun _ => hR.keeps_pure _
  | run depth me r => exact hR.bind (hR.keeps_stepRun depth me r) fun _ => hR.keeps_pure _
  | discard c => exact hR.keeps_discard c
  | addExecutor firstOnly => exact hR.bind (hR.addExecutor firstOnly) fun _ => hR.keeps_pure _
  | endProduction id => exact hR.keeps_endProduction id
  | toss id e => exact hR.keeps_toss id e
  | takeError id => exact hR.bind (hR.keeps_takeError id) fun _ => hR.keeps_pure _
  | dropReceiver id => exact hR.keeps_dropReceiver id

end FederatedSparql
