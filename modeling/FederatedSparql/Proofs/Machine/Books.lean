import FederatedSparql.Engine.Federation
import FederatedSparql.Proofs.Machine.Interleaving
import FederatedSparql.Proofs.Machine.PullFrames

/-!
What is on record of the jobs of a machine, and what leaves it alone.

`Machine.books` are the books of a machine: who has which job in hand, which jobs and results wait,
and how many are counted.  Most of what is done on a machine has nothing to do with jobs: cursors
are pulled and given up, executors are started, fail and are closed, threads are woken.  All of this
leaves the books as they are, but for results that are taken from their queues.

* `Machine.Reaches` says of a machine what has come of an earlier one and what its books are;
* `Machine.Leaves` says that an action leaves the books alone on every machine, and `Leaves.bind`
  follows an action through its parts;
* `pullFrame_untouched`: pulling leaves the books alone, however deep executors hold one another's
  results.
-/

namespace FederatedSparql

variable {α β γ : Type}

/-- What is on record of jobs. -/
structure Books (α : Type) where
  /-- What a thread does with a job, if it has one in hand. -/
  hand : Nat → Option (Activity α)
  /-- The jobs that nobody has taken. -/
  jobs : PoolName → List (Job α)
  stats : PoolName → PoolStats
  /-- How many tasks of an executor are not finished. -/
  pending : Nat → Nat
  /-- The results of an executor that are queued. -/
  queue : Nat → List (Cursor α)
  /-- Which tasks of the query are to be waited for. -/
  registrations : List Bool

/-- Books that agree but for results that have been taken. -/
structure Books.Within (b b' : Books α) : Prop where
  hand : ∀ t, b'.hand t = b.hand t
  jobs : ∀ p, b'.jobs p = b.jobs p
  stats : ∀ p, b'.stats p = b.stats p
  pending : ∀ id, b'.pending id = b.pending id
  queue : ∀ id, b'.queue id <:+ b.queue id
  registrations : b'.registrations = b.registrations

namespace Books.Within

theorem refl (b : Books α) : b.Within b where
  hand _ := rfl
  jobs _ := rfl
  stats _ := rfl
  pending _ := rfl
  queue _ := List.suffix_refl _
  registrations := rfl

theorem trans {b b' b'' : Books α} (h : b.Within b') (h' : b'.Within b'') : b.Within b'' where
  hand t := (h'.hand t).trans (h.hand t)
  jobs p := (h'.jobs p).trans (h.jobs p)
  stats p := (h'.stats p).trans (h.stats p)
  pending id := (h'.pending id).trans (h.pending id)
  queue id := (h'.queue id).trans (h.queue id)
  registrations := h'.registrations.trans h.registrations

end Books.Within

namespace Machine

/-! ### The books of a machine -/

/-- What a thread does with a job, if it has one in hand. -/
def hand (m : Machine α) (t : Nat) : Option (Activity α) :=
  (m.activity? t).filter fun a => a.job?.isSome

/-- How many tasks of an executor are not finished. -/
def pendingOf (m : Machine α) (id : Nat) : Nat := (m.executors[id]?.map (·.pending)).getD 0

/-- The results of an executor that are queued. -/
def queueOf (m : Machine α) (id : Nat) : List (Cursor α) :=
  (m.executors[id]?.map (·.queue)).getD []

/-- Which of the query's tasks are to be waited for. -/
def registrations (m : Machine α) : List Bool := m.query.tasks.toList.map (·.registered)

/-- What is on record of the jobs of a machine. -/
def books (m : Machine α) : Books α where
  hand := m.hand
  jobs p := (m.crew p).jobs
  stats p := (m.crew p).pool.stats
  pending := m.pendingOf
  queue := m.queueOf
  registrations := m.registrations

/-- What only grows, and what is decided once. -/
structure Onward (m m' : Machine α) : Prop where
  threads : m.threads.size ≤ m'.threads.size
  executors : m.executors.size ≤ m'.executors.size
  query : m'.query.id = m.query.id
  /-- A query that has been aborted is cancelled. -/
  aborted : (m.query.aborted = true → m.query.cancelled = true) →
    m'.query.aborted = true → m'.query.cancelled = true
  cancelled : m.query.cancelled = true → m'.query.cancelled = true

/-- A machine has come of an earlier one, and these are its books. -/
structure Reaches (m : Machine α) (b : Books α) (m' : Machine α) : Prop
  extends m.Onward m', b.Within m'.books

/-- Nothing has been done with jobs; results may have been taken from queues, and the query may have
been aborted or closed. -/
abbrev Untouched (m m' : Machine α) : Prop := m.Reaches m.books m'

variable {m m' m'' : Machine α} {b : Books α}

theorem Onward.refl (m : Machine α) : m.Onward m where
  threads := Nat.le_refl _
  executors := Nat.le_refl _
  query := rfl
  aborted := id
  cancelled := id

theorem Onward.trans (h : m.Onward m') (h' : m'.Onward m'') : m.Onward m'' where
  threads := h.threads.trans h'.threads
  executors := h.executors.trans h'.executors
  query := h'.query.trans h.query
  aborted := h'.aborted ∘ h.aborted
  cancelled := h'.cancelled ∘ h.cancelled

theorem Reaches.trans (h : m.Reaches b m') (h' : m'.Untouched m'') : m.Reaches b m'' where
  toOnward := h.toOnward.trans h'.toOnward
  toWithin := h.toWithin.trans h'.toWithin

namespace Untouched

theorem refl (m : Machine α) : m.Untouched m where
  toOnward := .refl m
  toWithin := .refl m.books

/-- Where threads, executors, pools and the query are the same, nothing has been done. -/
theorem of_eq (hthreads : m'.threads = m.threads) (hexecutors : m'.executors = m.executors)
    (hcrew : ∀ p, (m'.crew p).jobs = (m.crew p).jobs ∧
      (m'.crew p).pool.stats = (m.crew p).pool.stats)
    (hquery : m'.query = m.query) : m.Untouched m' where
  threads := by rw [hthreads]
  executors := by rw [hexecutors]
  query := by rw [hquery]
  aborted := by rw [hquery]; exact id
  cancelled := by rw [hquery]; exact id
  hand t := by simp only [books, Machine.hand, activity?, hthreads]
  jobs p := (hcrew p).1
  stats p := (hcrew p).2
  pending id := by simp only [books, pendingOf, hexecutors]
  queue id := by simp only [books, queueOf, hexecutors]; exact List.suffix_refl _
  registrations := by simp only [books, Machine.registrations, hquery]

end Untouched

/-! ### Following actions -/

/-- An action leaves the jobs alone. -/
def Leaves (a : Action α β) : Prop := Keeps Untouched a

section Following

variable {a : Action α β} {f : β → Action α γ} {b : β}

theorem Leaves.of_pure (b : β) : Leaves (pure b : Action α β) := fun m => .refl m

theorem Leaves.bind (h : Leaves a) (hf : ∀ b, Leaves (f b)) : Leaves (a >>= f) :=
  fun m => (h m).trans (hf _ _)

theorem Leaves.of_get {f : Machine α → Action α γ} (h : ∀ m, Leaves (f m)) :
    Leaves (get >>= f) := fun m => h m m

theorem Leaves.of_modify {f : Machine α → Machine α} (h : ∀ m : Machine α, m.Untouched (f m)) :
    Leaves (modify f : Action α Unit) := h

end Following

/-! ### Turns -/

theorem leaves_wake (w : Waker) : Leaves (wake w : Action α Unit) := by
  cases w with
  | main =>
    exact Leaves.of_modify fun m => .of_eq rfl rfl (fun p => by cases p <;> exact ⟨rfl, rfl⟩) rfl
  | thread t =>
    refine Leaves.of_modify fun m => ?_
    split
    · exact .refl m
    · exact .of_eq rfl rfl (fun p => by cases p <;> exact ⟨rfl, rfl⟩) rfl

theorem leaves_wakeAt (due : Nat) (w : Waker) : Leaves (wakeAt due w : Action α Unit) :=
  Leaves.of_modify fun m => .of_eq rfl rfl (fun p => by cases p <;> exact ⟨rfl, rfl⟩) rfl

/-- Threads that are the same but for what those without a job do. -/
theorem Untouched.of_threads {m : Machine α} {threads : Array (Thread α)}
    (hsize : m.threads.size ≤ threads.size)
    (h : ∀ t, Machine.hand { m with threads } t = m.hand t) :
    m.Untouched { m with threads } :=
  { Untouched.refl m with
    threads := hsize
    hand := h
    jobs := fun p => by cases p <;> rfl
    stats := fun p => by cases p <;> rfl }

theorem hand_modify (m : Machine α) (t u : Nat) (f : Thread α → Thread α) :
    hand { m with threads := m.threads.modify t f } u =
      if t = u then (m.threads[u]?.map fun th => (f th).activity).filter (·.job?.isSome)
      else m.hand u := by
  simp only [hand, activity?, Array.getElem?_modify]
  split <;> simp [Function.comp_def]

theorem leaves_doom (t : Nat) : Leaves (doom t : Action α Unit) := by
  refine (Leaves.of_modify fun m => .of_threads (by simp) fun u => ?_).bind fun _ => leaves_wake _
  rw [hand_modify]
  split <;> rfl

/-- A thread that comes without a job. -/
theorem leaves_spawn {a : Activity α} (ha : a.job? = none) : Leaves (spawn a) := by
  refine Leaves.of_get fun m =>
    Leaves.bind (Leaves.of_modify fun m' => .of_threads (by simp) fun u => ?_) fun _ =>
      (leaves_wake _).bind fun _ => Leaves.of_pure _
  simp only [hand, activity?, Array.getElem?_push]
  split
  · next h => simp [h, ha]
  · rfl

/-- A thread without a job goes on to something else. -/
theorem untouched_become {m : Machine α} {t : Nat} {a : Activity α} (ht : m.hand t = none)
    (ha : a.job? = none) : m.Untouched (after (become t a) m) := by
  refine .of_threads (by simp) fun u => ?_
  rw [hand_modify]
  split
  · next h =>
    subst h
    rw [ht]
    cases m.threads[t]? with
    | none => rfl
    | some th => simp [ha]
  · rfl

/-! ### Executors, pools and the query -/

theorem pendingOf_modify (m : Machine α) (id i : Nat) (f : Executor α → Executor α) :
    pendingOf { m with executors := m.executors.modify id f } i =
      if id = i then (m.executors[i]?.map fun e => (f e).pending).getD 0 else m.pendingOf i := by
  simp only [pendingOf, Array.getElem?_modify]
  split <;> simp [Function.comp_def]

theorem queueOf_modify (m : Machine α) (id i : Nat) (f : Executor α → Executor α) :
    queueOf { m with executors := m.executors.modify id f } i =
      if id = i then (m.executors[i]?.map fun e => (f e).queue).getD [] else m.queueOf i := by
  simp only [queueOf, Array.getElem?_modify]
  split <;> simp [Function.comp_def]

/-- A change of an executor that counts nothing and queues nothing. -/
theorem untouched_modify {m : Machine α} {id : Nat} {f : Executor α → Executor α}
    (hpending : ∀ e, m.executors[id]? = some e → (f e).pending = e.pending)
    (hqueue : ∀ e, m.executors[id]? = some e → (f e).queue <:+ e.queue) :
    m.Untouched { m with executors := m.executors.modify id f } :=
  { Untouched.refl m with
    jobs := fun p => by cases p <;> rfl
    stats := fun p => by cases p <;> rfl
    pending := fun i => by
      refine (pendingOf_modify m id i f).trans ?_
      split
      · next h =>
        subst h
        show _ = m.pendingOf id
        rw [pendingOf]
        cases he : m.executors[id]? with
        | none => rfl
        | some e => exact hpending e he
      · rfl
    queue := fun i => by
      show queueOf _ i <:+ m.queueOf i
      rw [queueOf_modify]
      split
      · next h =>
        subst h
        rw [queueOf]
        cases he : m.executors[id]? with
        | none => exact List.suffix_refl _
        | some e => exact hqueue e he
      · exact List.suffix_refl _
    executors := by simp }

theorem leaves_updateExecutor {id : Nat} {f : Executor α → Executor α}
    (hpending : ∀ e, (f e).pending = e.pending) (hqueue : ∀ e, (f e).queue <:+ e.queue) :
    Leaves (updateExecutor id f) :=
  Leaves.of_modify fun _ => untouched_modify (fun e _ => hpending e) fun e _ => hqueue e

/-- A change of an executor that leaves its queue and its count as they are. -/
theorem leaves_updateExecutor_same {id : Nat} {f : Executor α → Executor α}
    (h : ∀ e, (f e).pending = e.pending ∧ (f e).queue = e.queue) :
    Leaves (updateExecutor id f) :=
  leaves_updateExecutor (fun e => (h e).1) fun e => by rw [(h e).2]

/-- An executor is added that has no results and no tasks. -/
theorem untouched_push {m : Machine α} {e : Executor α} (hpending : e.pending = 0)
    (hqueue : e.queue = []) : m.Untouched { m with executors := m.executors.push e } :=
  { Untouched.refl m with
    jobs := fun p => by cases p <;> rfl
    stats := fun p => by cases p <;> rfl
    pending := fun i => by
      simp only [books, pendingOf, Array.getElem?_push]
      split
      · next h => simp [h, hpending]
      · rfl
    queue := fun i => by
      simp only [books, queueOf, Array.getElem?_push]
      split
      · next h => simp [h, hqueue]
      · exact List.suffix_refl _
    executors := by simp }

theorem leaves_updateCrew {p : PoolName} {f : Crew α → Crew α}
    (h : ∀ c, (f c).jobs = c.jobs ∧ (f c).pool.stats = c.pool.stats) :
    Leaves (updateCrew p f) := by
  refine Leaves.of_modify fun m => ?_
  cases p <;> refine .of_eq rfl rfl (fun p => ?_) rfl <;> cases p <;>
    first | exact h _ | exact ⟨rfl, rfl⟩

/-- The query goes on with the same tasks, perhaps aborted or closed. -/
theorem untouched_query {m : Machine α} {q : QueryContext}
    (htasks : q.tasks.toList.map (·.registered) = m.registrations) (hid : q.id = m.query.id)
    (haborted : (m.query.aborted = true → m.query.cancelled = true) →
      q.aborted = true → q.cancelled = true)
    (hcancelled : m.query.cancelled = true → q.cancelled = true) :
    m.Untouched { m with query := q } :=
  { Untouched.refl m with
    jobs := fun p => by cases p <;> rfl
    stats := fun p => by cases p <;> rfl
    registrations := htasks
    query := hid
    aborted := haborted
    cancelled := hcancelled }

/-- **Leaving the jobs alone is kept when executors are closed.** -/
theorem frame_untouched : Frame (α := α) Untouched where
  refl := .refl
  trans h h' := h.trans h'
  wake := leaves_wake
  doom := leaves_doom
  cancelBranch _ := fun _ => untouched_query rfl rfl (fun h => h) fun h => h
  close _ := leaves_updateExecutor (fun _ => rfl) fun _ => List.nil_suffix

theorem leaves_forIn {ι : Type} (xs : List ι) {body : ι → PUnit → Action α (ForInStep PUnit)}
    (h : ∀ x, Leaves (body x PUnit.unit)) : Leaves (forIn xs PUnit.unit body) :=
  frame_untouched.keeps_forIn xs h

theorem leaves_wakeThread? (t : Option Nat) : Leaves (wakeThread? t : Action α Unit) :=
  frame_untouched.keeps_wakeThread? t

theorem leaves_wakeConsumer (id : Nat) : Leaves (wakeConsumer id : Action α Unit) :=
  frame_untouched.keeps_wakeConsumer id

theorem leaves_wakeWorkingFor (wanted : Nat → Bool) :
    Leaves (wakeWorkingFor wanted : Action α Unit) :=
  frame_untouched.keeps_wakeWorkingFor wanted

theorem leaves_cancel (id : Nat) : Leaves (cancel id : Action α Unit) :=
  frame_untouched.keeps_cancel id

theorem leaves_closeAll (ids : List Nat) : Leaves (closeAll ids : Action α Unit) :=
  frame_untouched.keeps_closeAll ids

theorem leaves_discard (c : Cursor α) : Leaves (discard c : Action α Unit) := leaves_closeAll _

theorem untouched_abort (m : Machine α) : m.Untouched { m with query := m.query.abort } := by
  unfold QueryContext.abort
  split
  · exact .refl m
  · refine untouched_query ?_ rfl (fun _ _ => rfl) fun _ => rfl
    simp [registrations, Function.comp_def]

theorem leaves_abortQuery : Leaves (abortQuery : Action α Unit) :=
  (Leaves.of_modify untouched_abort).bind fun _ => leaves_wakeWorkingFor _

theorem leaves_closeQuery : Leaves (closeQuery : Action α Unit) := by
  have closes : Leaves (modify fun m : Machine α => { m with query := m.query.close }) :=
    Leaves.of_modify fun _ => untouched_query rfl rfl (fun _ _ => rfl) fun _ => rfl
  exact closes.bind fun _ => leaves_wakeWorkingFor _

theorem leaves_endProduction (id : Nat) : Leaves (endProduction id : Action α Unit) := by
  have ends : Leaves (updateExecutor id Executor.endProduction : Action α Unit) :=
    leaves_updateExecutor_same fun _ => ⟨rfl, rfl⟩
  exact ends.bind fun _ => leaves_wakeConsumer id

theorem leaves_toss (id : Nat) (error : FedError) : Leaves (toss id error : Action α Unit) := by
  refine Leaves.of_get fun m => ?_
  split
  · split
    · exact Leaves.of_pure ()
    · have tosses : Leaves (updateExecutor id (·.toss error) : Action α Unit) := by
        refine leaves_updateExecutor_same fun e => ?_
        unfold Executor.toss
        split <;> exact ⟨rfl, rfl⟩
      exact tosses.bind fun _ => (leaves_wakeConsumer id).bind fun _ => leaves_cancel id
  · exact Leaves.of_pure ()

/-! ### Pulling -/

/-- An executor is added under a branch of its own. -/
theorem untouched_addExecutor (m : Machine α) (branch : Nat) (firstOnly : Bool) :
    m.Untouched { m with
      query := m.query.addBranch.2
      executors := m.executors.push { branch, firstOnly } } :=
  (untouched_query (m := m) (q := m.query.addBranch.2) rfl rfl (fun h => h) fun h => h).trans
    (untouched_push rfl rfl)

/-- **Pulling leaves the jobs alone**, as each of its parts does. -/
theorem pullFrame_untouched : PullFrame (α := α) Untouched where
  toFrame := frame_untouched
  wakeAt := leaves_wakeAt
  registry _ := Leaves.of_modify fun m =>
    .of_eq rfl rfl (fun p => by cases p <;> exact ⟨rfl, rfl⟩) rfl
  addExecutor firstOnly := fun m => untouched_addExecutor m m.query.branches.size firstOnly
  spawn _ _ := leaves_spawn rfl
  update _ _ h := leaves_updateExecutor_same fun e => ⟨(h e).1, (h e).2.1⟩
  take {m id e c queue} he hqueue := by
    refine untouched_modify (fun _ _ => rfl) fun e' he' => ?_
    obtain rfl : e = e' := Option.some.inj (he.symm.trans he')
    rw [hqueue]
    exact List.suffix_cons c queue

section Pulling

variable [BEq α]

theorem leaves_openFeed (f : Feed α) : Leaves (openFeed f) := pullFrame_untouched.keeps_openFeed f

theorem leaves_stepRun (depth : Nat) (me : Waker) (run : Run α) : Leaves (stepRun depth me run) :=
  pullFrame_untouched.keeps_stepRun depth me run

theorem leaves_pull (me : Waker) (c : Cursor α) : Leaves (pull me c) :=
  pullFrame_untouched.keeps_pull me c

end Pulling

/-! ### Pools, and executors by hand -/

theorem leaves_startPool (p : PoolName) : Leaves (startPool p : Action α Unit) := by
  have starts : Leaves (updatePool p fun pool => { pool with running := true } : Action α Unit) :=
    leaves_updateCrew fun _ => ⟨rfl, rfl⟩
  have spawns : Leaves (do
      let t ← spawn (.idle p)
      updateCrew p fun c => { c with threads := c.threads ++ [t] }
      return ForInStep.yield PUnit.unit : Action α (ForInStep PUnit)) :=
    (leaves_spawn rfl).bind fun _ => Leaves.bind (leaves_updateCrew fun _ => ⟨rfl, rfl⟩) fun _ =>
      Leaves.of_pure _
  refine Leaves.of_get fun m => ?_
  dsimp only
  split
  · exact Leaves.of_pure _
  · exact starts.bind fun _ => (leaves_forIn _ fun _ => spawns).bind fun _ => Leaves.of_pure _

theorem leaves_stopIntake (p : PoolName) : Leaves (stopIntake p : Action α (List Nat)) := by
  have stops :
      Leaves (updateCrew p fun c : Crew α => { c with pool := c.pool.stop, threads := [] }) :=
    leaves_updateCrew fun _ => ⟨rfl, rfl⟩
  exact Leaves.of_get fun _ => stops.bind fun _ => (leaves_wakeThread? _).bind fun _ =>
    Leaves.of_pure _

theorem leaves_addExecutor (firstOnly : Bool) : Leaves (addExecutor firstOnly : Action α Nat) :=
  pullFrame_untouched.addExecutor firstOnly

theorem leaves_takeError (id : Nat) : Leaves (takeError id : Action α (Option FedError)) := by
  have forgets : Leaves (updateExecutor id fun e : Executor α => { e with error := none }) :=
    leaves_updateExecutor_same fun _ => ⟨rfl, rfl⟩
  exact Leaves.of_get fun _ => forgets.bind fun _ => Leaves.of_pure _

theorem leaves_dropReceiver (id : Nat) : Leaves (dropReceiver id : Action α Unit) := by
  refine Leaves.of_get fun m => ?_
  split
  · have drops : Leaves (updateExecutor id fun e : Executor α =>
        { e with receiving := false, queue := [] }) :=
      leaves_updateExecutor (fun _ => rfl) fun _ => List.nil_suffix
    exact drops.bind fun _ => (leaves_closeAll _).bind fun _ => (leaves_forIn _ fun t =>
      (leaves_wake _).bind fun _ => Leaves.of_pure _).bind fun _ => Leaves.of_pure _
  · exact Leaves.of_pure _

end Machine

end FederatedSparql
