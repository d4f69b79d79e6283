import FederatedSparql.Proofs.Machine.Entries

/-!
What the turns of threads enter in the books.

`Machine.Entered` lists the entries that one turn can make together, with what must hold for it.

* `turned_stepThread`: a turn makes the entries of one of these lines, and leaves everything else on
  record alone.  Whatever is to be shown of the accounts is shown of these lines.
-/

namespace FederatedSparql

variable {α β γ : Type}

namespace Machine

/-! ### Turns -/

/-- Whether a thread is to end when its turn comes. -/
def isDoomed (m : Machine α) (t : Nat) : Bool := (m.threads[t]?.map (·.doomed)).getD false

/-- The entries that one turn of a thread can make together. -/
inductive Entered (m : Machine α) (t : Nat) (m' : Machine α) : List (Entry α) → Prop
  /-- Of those with a job in hand, only who waits for room rests, and only as long as the query is
  not cancelled. -/
  | rests (hwaits : ∀ a, m.hand t = some a →
      m.query.cancelled = false ∧ ∃ p job result, a = .sending p job result) : Entered m t m' []
  | takes {p : PoolName} {job : Job α} {rest : List (Job α)} (hhand : m.hand t = none)
      (hjobs : (m.crew p).jobs = job :: rest) :
      Entered m t m' [.jobs p rest, .hand t (some (.working p job (.ready job.work)))]
  | goesOn {p : PoolName} {job : Job α} {run : Run α}
      (hhand : m.hand t = some (.working p job run)) (hdoomed : m.isDoomed t = false)
      (hlive : m.query.cancelled = false) (next : Run α) : Entered m t m' [.hand t (some (.working p job next))]
  /-- A job is over without a result that is queued. -/
  | ends {p : PoolName} {job : Job α} {run : Run α}
      (hhand : m.hand t = some (.working p job run)) (hdoomed : m.isDoomed t = false)
      (outcome : Outcome) (hlive : outcome ≠ .cancelled → m.query.cancelled = false) :
      Entered m t m' [.counts p outcome, .finishes job, .hand t none]
  | delivers {p : PoolName} {job : Job α} {run : Run α}
      (hhand : m.hand t = some (.working p job run)) (hdoomed : m.isDoomed t = false)
      (hlive : m.query.cancelled = false) (result : Cursor α) :
      Entered m t m'
        [.counts p .completed, .queues job.executor result, .finishes job, .hand t none]
  /-- There is no room for a result. -/
  | waits {p : PoolName} {job : Job α} {run : Run α}
      (hhand : m.hand t = some (.working p job run)) (hdoomed : m.isDoomed t = false)
      (hlive : m.query.cancelled = false) (result : Cursor α) :
      Entered m t m' [.counts p .completed, .hand t (some (.sending p job result))]
  | sends {p : PoolName} {job : Job α} {result : Cursor α}
      (hhand : m.hand t = some (.sending p job result)) (hlive : m.query.cancelled = false) :
      Entered m t m' [.queues job.executor result, .finishes job, .hand t none]
  /-- A result that waited for room is not wanted any more. -/
  | drops {p : PoolName} {job : Job α} {result : Cursor α}
      (hhand : m.hand t = some (.sending p job result)) :
      Entered m t m' [.finishes job, .hand t none]
  /-- A worker is interrupted. -/
  | abandons {a : Activity α} {job : Job α} (hhand : m.hand t = some a) (hjob : a.job? = some job)
      (hdoomed : m.isDoomed t = true) :
      Entered m t m' [.hand t none, .finishes job]
  | schedules {id : Nat} {production : Production α}
      (hactivity : m.activity? t = some (.producing id production)) (hid : id < m'.executors.size)
      (p : PoolName) (name : String) (work : Work α) :
      Entered m t m'
        [.schedules p { executor := id, task := m.registrations.length + 1, name, work }]

/-- What has come of a machine is the turn of a thread. -/
def Turned (m : Machine α) (t : Nat) (m' : Machine α) : Prop :=
  ∃ xs, m.Entered t m' xs ∧ m.Reaches (m.books.enterAll xs) m'

/-! ### Producers -/

/-- An action leaves the books alone when it is the turn of a thread without a job. -/
def LeavesBy (t : Nat) (a : Action α β) : Prop :=
  ∀ m : Machine α, m.hand t = none → m.Untouched (after a m)

section Producers

variable {t : Nat} {a : Action α β} {f : β → Action α γ}

theorem Leaves.by (h : Leaves a) (t : Nat) : LeavesBy t a := fun m _ => h m

theorem LeavesBy.bind (h : LeavesBy t a) (hf : ∀ b, LeavesBy t (f b)) : LeavesBy t (a >>= f) := by
  intro m hhand
  have hfirst := h m hhand
  exact hfirst.trans (hf _ _ ((hfirst.hand t).trans hhand))

theorem LeavesBy.of_get {f : Machine α → Action α β} (h : ∀ m, LeavesBy t (f m)) :
    LeavesBy t (get >>= f) := fun m => h m m

theorem LeavesBy.of_pure (b : β) : LeavesBy t (pure b : Action α β) := (Leaves.of_pure b).by t

theorem leavesBy_become {a : Activity α} (ha : a.job? = none) : LeavesBy t (become t a) :=
  fun _ hhand => untouched_become hhand ha

theorem leavesBy_resume (id : Nat) (production : Production α) (turn : Turn) :
    LeavesBy t (resume t id production turn) :=
  (leavesBy_become rfl).bind fun _ => .of_pure turn

theorem leavesBy_endProducer (id : Nat) (left : Cursor α) (result : Except FedError Unit) :
    LeavesBy t (endProducer t id left result) := by
  have ends : LeavesBy t (do
      endProduction id
      become t .finished
      discard left
      return Turn.ends) :=
    ((leaves_endProduction id).by t).bind fun _ => (leavesBy_become rfl).bind fun _ =>
      ((leaves_discard left).by t).bind fun _ => .of_pure _
  refine .of_get fun m => ?_
  dsimp only
  split
  · exact ends
  · exact ((leaves_toss id _).by t).bind fun _ => ends

theorem leavesBy_awaitTasks (id : Nat) (left : Cursor α) : LeavesBy t (awaitTasks t id left) := by
  refine .of_get fun m => ?_
  have waits : LeavesBy t (do
      become t (.producing id (.awaiting left ((m.query.remaining? m.now).map (m.now + ·))))
      return Turn.goesOn) :=
    (leavesBy_become rfl).bind fun _ => .of_pure _
  dsimp only
  split
  · split
    · exact ((leaves_wakeAt _ _).by t).bind fun _ => waits
    · exact waits
  · exact waits

theorem leaves_checkTasks (id : Nat) (limit : Option Nat) :
    Leaves (checkTasks id limit : Action α Awaited) := by
  refine Leaves.of_get fun m => ?_
  split
  · exact Leaves.of_pure _
  · split
    · exact Leaves.of_pure _
    · split
      · exact leaves_abortQuery.bind fun _ => Leaves.of_pure _
      · exact Leaves.of_pure _

end Producers

section Turned

variable {m m₁ : Machine α} {t : Nat} {p : PoolName} {job : Job α} {run : Run α} {result : Cursor α}
  {xs ys : List (Entry α)} {a : Action α β}

theorem lt_size_of_hand {c : Activity α} (h : m.hand t = some c) : t < m.threads.size := by
  rw [hand, Option.filter_eq_some_iff, activity?, Option.map_eq_some_iff] at h
  obtain ⟨⟨s, hs, -⟩, -⟩ := h
  exact (Array.getElem?_eq_some_iff.mp hs).1

/-- Nothing is entered by a turn of a thread without a job. -/
theorem turned_of_untouched (hhand : m.hand t = none) (h : m.Untouched m₁) : m.Turned t m₁ :=
  ⟨[], .rests fun a ha => by simp [hhand] at ha, h⟩

/-- The rest of a turn, behind what has been entered. -/
theorem turned_of_reaches (ht : t < m.threads.size) (h : m.Reaches (m.books.enterAll xs) m₁)
    (ha : Enters t ys a) (hxs : m.Entered t (after a m₁) (xs ++ ys)) : m.Turned t (after a m₁) := by
  refine ⟨xs ++ ys, hxs, ?_⟩
  rw [Books.enterAll, List.foldl_append]
  exact h.enterAll (ha m₁ (Nat.lt_of_lt_of_le ht h.threads))

/-- The rest of a turn, when nothing has been entered yet. -/
theorem turned_of_enters (ht : t < m.threads.size) (h : m.Untouched m₁) (ha : Enters t ys a)
    (hys : m.Entered t (after a m₁) ys) : m.Turned t (after a m₁) :=
  ⟨ys, hys, h.enterAll (ha m₁ (Nat.lt_of_lt_of_le ht h.threads))⟩

theorem turned_deliver (h : m.Untouched m₁) (hhand : m.hand t = some (.working p job run))
    (hdoomed : m.isDoomed t = false) (hlive : m.query.cancelled = false) (result : Cursor α) :
    m.Turned t (after (deliver p t job result) m₁) := by
  have ht := lt_size_of_hand hhand
  have counts :
      Enters t [.counts p .completed] (updatePool p Pool.countCompleted : Action α Unit) :=
    enters_updatePool fun _ => rfl
  have counted := h.enterAll (counts m₁ (Nat.lt_of_lt_of_le ht h.threads))
  rw [deliver, after_bind, after_get_bind]
  generalize after (updatePool p Pool.countCompleted) m₁ = m₂ at counted
  split
  · exact turned_of_reaches ht counted (enters_endJob p t job)
      (.ends hhand hdoomed .completed fun _ => hlive)
  · next e _ =>
    split
    · have drops : Enters t [.finishes job, .hand t none] (do discard result; endJob p t job) :=
        ((leaves_discard result).enters t).bind fun _ => enters_endJob p t job
      exact turned_of_reaches ht counted drops (.ends hhand hdoomed .completed fun _ => hlive)
    · have cancels {a : Action α Turn} (ha : Enters t [.finishes job, .hand t none] a) :
          Enters t [.finishes job, .hand t none]
            (if e.firstOnly then do cancel job.executor; a else a) := by
        split
        · exact ((leaves_cancel _).enters t).bind fun _ => ha
        · exact ha
      have pushes : Enters t [.queues job.executor result]
          (updateExecutor job.executor (·.push result)) :=
        fun m _ => m.reaches_updateExecutor_push fun _ => ⟨rfl, rfl⟩
      have queues : Enters t [.queues job.executor result, .finishes job, .hand t none] (do
          updateExecutor job.executor (·.push result)
          wakeConsumer job.executor
          if e.firstOnly then cancel job.executor
          endJob p t job) :=
        pushes.bind fun _ => ((leaves_wakeConsumer _).enters t).bind fun _ =>
          cancels (enters_endJob p t job)
      exact turned_of_reaches ht counted queues (.delivers hhand hdoomed hlive result)
    · have waits : Leaves (updateExecutor job.executor fun e : Executor α =>
          { e with waiting := e.waiting ++ [t] }) := leaves_updateExecutor_same fun _ => ⟨rfl, rfl⟩
      have sends : Enters t [.hand t (some (.sending p job result))] (do
          updateExecutor job.executor fun e : Executor α => { e with waiting := e.waiting ++ [t] }
          become t (.sending p job result)
          return Turn.ends) :=
        (waits.enters t).bind fun _ => (enters_become t (.sending p job result)).bind fun _ =>
          .of_pure _
      exact turned_of_reaches ht counted sends (.waits hhand hdoomed hlive result)

theorem turned_stepSending (hhand : m.hand t = some (.sending p job result)) :
    m.Turned t (after (stepSending p t job result) m) := by
  have ht := lt_size_of_hand hhand
  have leaves : Leaves (updateExecutor job.executor fun e : Executor α =>
      { e with waiting := e.waiting.filter (· != t) }) :=
    leaves_updateExecutor_same fun _ => ⟨rfl, rfl⟩
  rw [stepSending, after_get_bind]
  split
  · exact turned_of_enters ht (.refl m) (enters_endJob p t job) (.drops hhand)
  · next e _ =>
    split
    · have drops : Enters t [.finishes job, .hand t none] (do
          updateExecutor job.executor fun e : Executor α =>
            { e with waiting := e.waiting.filter (· != t) }
          wakeConsumer job.executor
          discard result
          endJob p t job) :=
        (leaves.enters t).bind fun _ => ((leaves_wakeConsumer _).enters t).bind fun _ =>
          ((leaves_discard result).enters t).bind fun _ => enters_endJob p t job
      exact turned_of_enters ht (.refl m) drops (.drops hhand)
    · next hadmission =>
      have hlive : m.query.cancelled = false := by
        unfold Executor.admissionOfWaiting at hadmission
        refine cancelled_eq_false (e := e) ?_
        cases hcancelled : m.isCancelled e with
        | true => simp [hcancelled] at hadmission
        | false => rfl
      have pushes : Enters t [.queues job.executor result] (updateExecutor job.executor
          fun e => { e.push result with waiting := (e.push result).waiting.filter (· != t) }) :=
        fun m _ => m.reaches_updateExecutor_push fun _ => ⟨rfl, rfl⟩
      have cancels {a : Action α Turn} (ha : Enters t [.finishes job, .hand t none] a) :
          Enters t [.finishes job, .hand t none]
            (if e.firstOnly then do cancel job.executor; a else a) := by
        split
        · exact ((leaves_cancel _).enters t).bind fun _ => ha
        · exact ha
      have sends := pushes.bind fun _ => ((leaves_wakeConsumer job.executor).enters t).bind fun _ =>
        ((leaves_wakeThread? ((e.waiting.filter (· != t)).head?)).enters t).bind fun _ =>
          cancels (enters_endJob p t job)
      exact turned_of_enters ht (.refl m) sends (.sends hhand hlive)
    · next hadmission =>
      have hlive : m.isCancelled e = false := by
        unfold Executor.admissionOfWaiting at hadmission
        cases hcancelled : m.isCancelled e with
        | true => simp [hcancelled] at hadmission
        | false => rfl
      refine ⟨[], .rests fun a ha => ⟨cancelled_eq_false hlive, p, job, result, ?_⟩,
        Untouched.refl m⟩
      exact Option.some.inj (ha.symm.trans hhand)

theorem turned_stepWorking [BEq α] (hhand : m.hand t = some (.working p job run))
    (hdoomed : m.isDoomed t = false) :
    m.Turned t (after (stepWorking p t job run) m) := by
  have ht := lt_size_of_hand hhand
  rw [stepWorking, after_get_bind]
  split
  · have cancels : Enters t [.counts p .cancelled, .finishes job, .hand t none] (do
        updatePool p Pool.countCancelled
        closeAll run.held
        endJob p t job) :=
      (enters_updatePool fun _ => rfl).bind fun _ => ((leaves_closeAll _).enters t).bind fun _ =>
        enters_endJob p t job
    exact turned_of_enters ht (.refl m) cancels (.ends hhand hdoomed .cancelled nofun)
  · next hcancelled =>
    have hlive : m.query.cancelled = false := by
      cases hquery : m.query.cancelled with
      | true => exact absurd (m.query.isTaskCancelled_of_cancelled hquery _) hcancelled
      | false => rfl
    have ran := leaves_stepRun m.executors.size (.thread t) run m
    simp only [after_bind]
    generalize after (stepRun m.executors.size (.thread t) run) m = m₁ at ran ⊢
    have fails (e : FedError) : Enters t [.counts p .failed, .finishes job, .hand t none] (do
        updatePool p Pool.countFailed
        toss job.executor e
        endJob p t job) :=
      (enters_updatePool fun _ => rfl).bind fun _ => ((leaves_toss _ e).enters t).bind fun _ =>
        enters_endJob p t job
    have goes (next : Run α) (turn : Turn) : Enters t [.hand t (some (.working p job next))] (do
        become t (.working p job next)
        return turn) :=
      (enters_become t (.working p job next)).bind fun _ => .of_pure _
    split
    · exact turned_deliver ran hhand hdoomed hlive _
    · exact turned_of_enters ht ran (fails _) (.ends hhand hdoomed .failed fun _ => hlive)
    · exact turned_of_enters ht ran (fails _) (.ends hhand hdoomed .failed fun _ => hlive)
    · exact turned_of_enters ht ran (goes _ _) (.goesOn hhand hdoomed hlive _)
    · exact turned_of_enters ht ran (goes _ _) (.goesOn hhand hdoomed hlive _)

theorem turned_stepIdle (hactivity : m.activity? t = some (.idle p)) :
    m.Turned t (after (stepIdle p t) m) := by
  have hhand : m.hand t = none := by rw [hand, hactivity]; rfl
  have ht : t < m.threads.size := by
    rw [activity?, Option.map_eq_some_iff] at hactivity
    obtain ⟨s, hs, -⟩ := hactivity
    exact (Array.getElem?_eq_some_iff.mp hs).1
  have lines : Leaves (updateCrew p fun c : Crew α =>
      if c.line.contains t then c else { c with line := c.line ++ [t] }) := by
    refine leaves_updateCrew fun c => ?_
    split <;> exact ⟨rfl, rfl⟩
  have lined := lines m
  rw [stepIdle, after_bind, after_get_bind]
  generalize after (updateCrew p fun c : Crew α =>
      if c.line.contains t then c else { c with line := c.line ++ [t] }) m = m₁ at lined ⊢
  dsimp only
  split
  · exact turned_of_untouched hhand lined
  · split
    · next job rest hjobs =>
      have takes : Enters t [.jobs p rest, .hand t (some (.working p job (.ready job.work)))] (do
          updateCrew p fun c => { c with jobs := rest }
          leaveLine p t
          become t (.working p job (.ready job.work))
          return Turn.goesOn) :=
        Enters.bind (fun m _ => m.reaches_updateCrew_jobs p rest) fun _ =>
          ((leaves_leaveLine p t).enters t).bind fun _ =>
            (enters_become t (.working p job (.ready job.work))).bind fun _ => .of_pure _
      exact turned_of_enters ht lined takes (.takes hhand ((lined.jobs p).symm.trans hjobs))
    · have retires : LeavesBy t (do
          leaveLine p t
          become t .finished
          wake .main
          return Turn.ends : Action α Turn) :=
        ((leaves_leaveLine p t).by t).bind fun _ => (leavesBy_become rfl).bind fun _ =>
          ((leaves_wake .main).by t).bind fun _ => .of_pure _
      have hhand₁ : m₁.hand t = none := (lined.hand t).trans hhand
      refine turned_of_untouched hhand (lined.trans ?_)
      split
      · exact .refl m₁
      · exact retires m₁ hhand₁

/-- What a thread without a job does behind its entry. -/
theorem Turned.then (h : m.Turned t m₁) (hhand : m.hand t = none) (hhand₁ : m₁.hand t = none)
    (ha : LeavesBy t a) : m.Turned t (after a m₁) := by
  obtain ⟨xs, hxs, hreaches⟩ := h
  have hafter := ha m₁ hhand₁
  refine ⟨xs, ?_, hreaches.trans hafter⟩
  cases hxs with
  | rests hwaits => exact .rests hwaits
  | schedules hactivity hid p name work =>
    exact .schedules hactivity (Nat.lt_of_lt_of_le hid hafter.executors) p name work
  | takes hhand hjobs => exact .takes hhand hjobs
  | _ => simp_all

theorem turned_schedule {id : Nat} {production : Production α} (h : m.Untouched m₁)
    (hactivity : m.activity? t = some (.producing id production)) (p : PoolName) (name : String)
    (work : Work α) :
    m.Turned t (after (schedule p id name work) m₁) ∧
      (after (schedule p id name work) m₁).hand t = none := by
  have hhand : m.hand t = none := by rw [hand, hactivity]; rfl
  have hhand₁ : m₁.hand t = none := (h.hand t).trans hhand
  obtain hidle | ⟨-, hid, hscheduled⟩ := m₁.reaches_schedule p id name work
  · exact ⟨turned_of_untouched hhand (h.trans hidle), (hidle.hand t).trans hhand₁⟩
  · have hlength : m₁.registrations = m.registrations := h.registrations
    rw [hlength] at hscheduled
    have hentered := h.enterAll hscheduled
    exact ⟨⟨_, .schedules hactivity (Nat.lt_of_lt_of_le hid hscheduled.executors) p name work,
      hentered⟩, (hentered.hand t).trans hhand⟩

theorem turned_scheduleWanted {id : Nat} {production : Production α} (h : m.Untouched m₁)
    (hactivity : m.activity? t = some (.producing id production)) (name : String) (work : Work α)
    (left : Cursor α) (next : Production α) :
    m.Turned t (after (scheduleWanted t id p name work left next) m₁) := by
  have hhand : m.hand t = none := by rw [hand, hactivity]; rfl
  have hhand₁ : m₁.hand t = none := (h.hand t).trans hhand
  rw [scheduleWanted, after_get_bind]
  split
  · exact turned_of_untouched hhand (h.trans (leavesBy_endProducer id left _ m₁ hhand₁))
  · split
    · exact turned_of_untouched hhand (h.trans (leavesBy_awaitTasks id left m₁ hhand₁))
    · obtain ⟨scheduled, hidle⟩ := turned_schedule h hactivity p name work
      rw [after_bind]
      split
      · exact scheduled.then hhand hidle (leavesBy_endProducer id left _)
      · exact scheduled.then hhand hidle ((leavesBy_become rfl).bind fun _ => .of_pure _)

theorem turned_stepProducing [BEq α] {id : Nat} {production : Production α}
    (hactivity : m.activity? t = some (.producing id production)) :
    m.Turned t (after (stepProducing t id production) m) := by
  have hhand : m.hand t = none := by rw [hand, hactivity]; rfl
  have halts : LeavesBy t (do
      endProduction id
      become t .finished
      discard (leftOf production)
      return Turn.ends) :=
    ((leaves_endProduction id).by t).bind fun _ => (leavesBy_become rfl).bind fun _ =>
      ((leaves_discard _).by t).bind fun _ => .of_pure _
  rw [stepProducing, after_get_bind]
  split
  · exact turned_of_untouched hhand (halts m hhand)
  · dsimp only
    -- what is done when the left has been pulled
    have leaves {m₁ : Machine α} {a : Action α Turn} (h : m.Untouched m₁) (ha : LeavesBy t a) :
        m.Turned t (after a m₁) :=
      turned_of_untouched hhand (h.trans (ha m₁ ((h.hand t).trans hhand)))
    cases production with
    | branches rest =>
      cases rest with
      | nil => exact leaves (.refl m) (leavesBy_awaitTasks id _)
      | cons task rest => exact turned_scheduleWanted (.refl m) hactivity _ _ _ _
    | nested left right =>
      have pulled := leaves_pull (.thread t) left m
      rw [after_bind]
      split
      · exact turned_scheduleWanted pulled hactivity _ _ _ _
      · exact leaves pulled (leavesBy_endProducer id _ _)
      · exact leaves pulled (leavesBy_awaitTasks id _)
      · exact leaves pulled (leavesBy_resume id _ _)
      · exact leaves pulled (leavesBy_resume id _ _)
    | first left blockSize right =>
      have pulled := leaves_pull (.thread t) left m
      rw [after_bind]
      split
      · rw [after_get_bind]
        split
        · exact leaves pulled (leavesBy_endProducer id _ _)
        · obtain ⟨scheduled, hidle⟩ := turned_schedule pulled hactivity .join "BoundJoin" _
          rw [after_bind]
          split
          · exact scheduled.then hhand hidle (leavesBy_endProducer id _ _)
          · exact scheduled.then hhand hidle (leavesBy_resume id _ _)
      · exact leaves pulled (leavesBy_endProducer id _ _)
      · exact leaves pulled (leavesBy_endProducer id _ _)
      · exact leaves pulled (leavesBy_resume id _ _)
      · exact leaves pulled (leavesBy_resume id _ _)
    | block left blockSize task total filled =>
      dsimp only
      split
      · exact turned_scheduleWanted (.refl m) hactivity _ _ _ _
      · have pulled := leaves_pull (.thread t) left m
        rw [after_bind]
        split
        · exact leaves pulled (leavesBy_resume id _ _)
        · exact leaves pulled (leavesBy_endProducer id _ _)
        · split
          · exact leaves pulled (leavesBy_awaitTasks id _)
          · exact turned_scheduleWanted pulled hactivity _ _ _ _
        · exact leaves pulled (leavesBy_resume id _ _)
        · exact leaves pulled (leavesBy_resume id _ _)
    | awaiting left limit =>
      have checked := leaves_checkTasks id limit m
      rw [after_bind]
      split
      · exact leaves checked (leavesBy_endProducer id _ _)
      · exact leaves checked (leavesBy_endProducer id _ _)
      · exact leaves checked (.of_pure _)

/-- An interrupted thread gives up what it has in hand. -/
theorem turned_abandon {s : Thread α} (hs : m.threads[t]? = some s) (hdoomed : s.doomed = true) :
    m.Turned t (after (do
      become t .finished
      abandon t s.activity
      wake .main
      return Turn.ends) m) := by
  have ht : t < m.threads.size := (Array.getElem?_eq_some_iff.mp hs).1
  have hactivity : m.activity? t = some s.activity := by rw [activity?, hs]; rfl
  have hdoomed : m.isDoomed t = true := by rw [isDoomed, hs]; exact hdoomed
  have wakes : Leaves (do wake .main; return Turn.ends : Action α Turn) :=
    (leaves_wake _).bind fun _ => Leaves.of_pure _
  -- a thread without a job
  have gives {a : Action α Unit} (hjob : s.activity.job? = none) (ha : Leaves a) :
      m.Turned t (after (do become t .finished; a; wake .main; return Turn.ends) m) := by
    have hhand : m.hand t = none := by rw [hand, hactivity, Option.filter_some, hjob]; rfl
    have rests : LeavesBy t (do become t .finished; a; wake .main; return Turn.ends) :=
      (leavesBy_become rfl).bind fun _ => (ha.by t).bind fun _ => wakes.by t
    exact turned_of_untouched hhand (rests m hhand)
  -- a worker with a job
  have abandons {job : Job α} {a : Action α Unit} (hjob : s.activity.job? = some job)
      (ha : Enters t [.finishes job] a) :
      m.Turned t (after (do become t .finished; a; wake .main; return Turn.ends) m) := by
    have hhand : m.hand t = some s.activity := by
      rw [hand, hactivity, Option.filter_some, hjob]
      rfl
    have abandons : Enters t [.hand t none, .finishes job]
        (do become t .finished; a; wake .main; return Turn.ends) :=
      (enters_become t .finished).bind fun _ => ha.bind fun _ => wakes.enters t
    exact turned_of_enters ht (.refl m) abandons (.abandons hhand hjob hdoomed)
  cases hcase : s.activity with
  | idle p => exact gives (hcase ▸ rfl) (leaves_leaveLine p t)
  | working p job run =>
    exact abandons (hcase ▸ rfl)
      (((leaves_closeAll run.held).enters t).bind fun _ => enters_finishJob job)
  | sending p job result =>
    have leaves : Leaves (updateExecutor job.executor fun e : Executor α =>
        { e with waiting := e.waiting.filter (· != t) }) :=
      leaves_updateExecutor_same fun _ => ⟨rfl, rfl⟩
    exact abandons (hcase ▸ rfl) ((leaves.enters t).bind fun _ =>
      ((leaves_wakeConsumer _).enters t).bind fun _ =>
        ((leaves_discard result).enters t).bind fun _ => enters_finishJob job)
  | producing id production => exact gives (hcase ▸ rfl) (leaves_discard _)
  | alarm due => exact gives (hcase ▸ rfl) (Leaves.of_pure ())
  | finished => exact gives (hcase ▸ rfl) (Leaves.of_pure ())

/-- **A turn makes the entries of one of the lines, and leaves everything else on record alone.** -/
theorem turned_stepThread [BEq α] (m : Machine α) (t : Nat) :
    m.Turned t (after (stepThread t) m) := by
  rw [stepThread, after_get_bind]
  split
  · next hs =>
    have hhand : m.hand t = none := by rw [hand, activity?, hs]; rfl
    exact turned_of_untouched hhand (.refl m)
  · next s hs =>
    have hactivity : m.activity? t = some s.activity := by rw [activity?, hs]; rfl
    split
    · next hdoomed => exact turned_abandon hs hdoomed
    · next hdoomed =>
      have hdoomed : m.isDoomed t = false := by rw [isDoomed, hs]; simpa using hdoomed
      split
      · next p hcase => exact turned_stepIdle (hcase ▸ hactivity)
      · next p job run hcase =>
        refine turned_stepWorking ?_ hdoomed
        rw [hand, hactivity, hcase]
        rfl
      · next p job result hcase =>
        refine turned_stepSending ?_
        rw [hand, hactivity, hcase]
        rfl
      · next id production hcase => exact turned_stepProducing (hcase ▸ hactivity)
      · next due hcase =>
        have hhand : m.hand t = none := by rw [hand, hactivity, hcase]; rfl
        refine turned_of_untouched hhand ?_
        split
        · exact ((leavesBy_become rfl).bind fun _ => (leaves_abortQuery.by t).bind fun _ =>
            .of_pure _) m hhand
        · exact .refl m
      · next hcase =>
        have hhand : m.hand t = none := by rw [hand, hactivity, hcase]; rfl
        exact turned_of_untouched hhand (.refl m)

end Turned

end Machine

end FederatedSparql
