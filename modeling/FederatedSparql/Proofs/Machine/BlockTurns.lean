import FederatedSparql.Proofs.Engine.BlockSizes
import FederatedSparql.Proofs.Machine.Bystanders

/-!
The turns of a producer that fills blocks.

A producer pulls from its left and hands a block over when it is full or when there are no more
rows.  What can come of one turn is said once, by `BlockTurn`.

* `Machine.blockTurn_stepThread`: as long as nothing is in its way, the turn of such a producer is
  one of these.
* `Machine.rested_stepThread`: a producer that is through with its left hands over nothing more.
* `Machine.tossed_stepThread`: a failure of the left is tossed.
-/

namespace FederatedSparql

variable {α β : Type}

/-- What there is to say of a pull, unless the left has nothing to tell yet. -/
def Pulled.news : Pulled α → List (Pulled α)
  | .progress => []
  | .wait => []
  | r => [r]

/-- The cursor that a producer of blocks pulls from in its turn, unless its block is full. -/
def Production.source? : Production α → Option (Cursor α)
  | .first left _ _ => some left
  | .block left size _ total filled =>
    if filled.length < BoundJoin.nextBlockSize size total then some left else none
  | _ => none

/-- A producer of blocks that is not through with its left. -/
def Production.fillsBlocks : Production α → Bool
  | .first .. => true
  | .block .. => true
  | _ => false

/-- What is produced for an executor. -/
def Activity.production? (id : Nat) : Activity α → Option (Production α)
  | .producing i production => if i = id then some production else none
  | _ => none

theorem Activity.production?_eq_some {id : Nat} {a : Activity α} {production : Production α} :
    a.production? id = some production ↔ a = .producing id production := by
  cases a with
  | producing i production' => simp [production?]
  | _ => simp [production?]

/-- A producer of an executor that is through with its left. -/
inductive Activity.Rests (id : Nat) : Activity α → Prop
  | awaits (left : Cursor α) (limit : Option Nat) : Rests id (.producing id (.awaiting left limit))
  | finished : Rests id .finished

/-- What the turn of a producer of blocks can come to: what it is told by its left, the jobs that it
hands over, and what it does next. -/
inductive BlockTurn (id : Nat) :
    Production α → List (Pulled α) → List (Job α) → Activity α → Prop
  | waits {left left' : Cursor α} {size : Nat} {right : α → List α → Work α} :
      BlockTurn id (.first left size right) [] [] (.producing id (.first left' size right))
  | begins {left left' : Cursor α} {size : Nat} {right : α → List α → Work α} {row : α}
      {job : Job α} (hid : job.executor = id) (hwork : job.work = right row [row]) :
      BlockTurn id (.first left size right) [.item row] [job]
        (.producing id (.block left' size (right row) 1 []))
  | finds_nothing {left : Cursor α} {size : Nat} {right : α → List α → Work α} :
      BlockTurn id (.first left size right) [.done] [] .finished
  | fails {production : Production α} {left : Cursor α} (e : FedError)
      (hleft : production.source? = some left) :
      BlockTurn id production [.failure e] [] .finished
  | hands_over {left : Cursor α} {size total : Nat} {task : List α → Work α} {filled : List α}
      {job : Job α} (hfull : BoundJoin.nextBlockSize size total ≤ filled.length)
      (hid : job.executor = id) (hwork : job.work = task filled) :
      BlockTurn id (.block left size task total filled) [] [job]
        (.producing id (.block left size task (total + filled.length) []))
  | idles {left left' : Cursor α} {size total : Nat} {task : List α → Work α} {filled : List α}
      (hroom : filled.length < BoundJoin.nextBlockSize size total) :
      BlockTurn id (.block left size task total filled) [] []
        (.producing id (.block left' size task total filled))
  | fills {left left' : Cursor α} {size total : Nat} {task : List α → Work α} {filled : List α}
      {row : α} (hroom : filled.length < BoundJoin.nextBlockSize size total) :
      BlockTurn id (.block left size task total filled) [.item row] []
        (.producing id (.block left' size task total (filled ++ [row])))
  | ends {left left' : Cursor α} {size total : Nat} {task : List α → Work α} {limit : Option Nat}
      (hroom : 0 < BoundJoin.nextBlockSize size total) :
      BlockTurn id (.block left size task total []) [.done] []
        (.producing id (.awaiting left' limit))
  | hands_over_rest {left left' : Cursor α} {size total : Nat} {task : List α → Work α}
      {filled : List α} {job : Job α} (hsome : filled ≠ [])
      (hroom : filled.length < BoundJoin.nextBlockSize size total)
      (hid : job.executor = id) (hwork : job.work = task filled) :
      BlockTurn id (.block left size task total filled) [.done] [job]
        (.producing id (.block left' size task (total + filled.length) []))

namespace Machine

variable {m m₁ m₂ : Machine α} {t id : Nat} {a : Activity α}

/-- Results of an executor are wanted, and tasks for them are taken. -/
structure Wants (m : Machine α) (id : Nat) : Prop where
  aborted : m.query.aborted = false
  inTime : m.query.isExpired m.now = false
  executor : ∃ e, m.executors[id]? = some e ∧ e.isActive (m.isCancelled e) = true
  accepting : m.join.pool.accepting = true

/-- Nothing is in the way of a producer in its turn, neither before it pulls nor behind that. -/
structure Unhindered [BEq α] (m : Machine α) (t id : Nat) (production : Production α) : Prop where
  kept : m.isDoomed t = false
  wants : m.Wants id
  pulled : ∀ left, production.source? = some left → (after (pull (.thread t) left) m).Wants id

/-- If a thread fills blocks for an executor, nothing is in its way. -/
def MayFill [BEq α] (m : Machine α) (t id : Nat) : Prop :=
  ∀ production, m.activity? t = some (.producing id production) →
    production.fillsBlocks = true → m.Unhindered t id production

instance (m : Machine α) (id : Nat) : Decidable (m.Wants id) :=
  decidable_of_iff
    (m.query.aborted = false ∧ m.query.isExpired m.now = false ∧
      ((m.executors[id]?).any fun e => e.isActive (m.isCancelled e)) = true ∧
      m.join.pool.accepting = true)
    ⟨fun h => ⟨h.1, h.2.1, (Option.any_eq_true _ _).mp h.2.2.1, h.2.2.2⟩,
      fun h => ⟨h.aborted, h.inTime, (Option.any_eq_true _ _).mpr h.executor, h.accepting⟩⟩

instance [BEq α] (m : Machine α) (t id : Nat) (production : Production α) :
    Decidable (m.Unhindered t id production) :=
  decidable_of_iff
    (m.isDoomed t = false ∧ m.Wants id ∧
      ∀ left ∈ production.source?.toList, (after (pull (.thread t) left) m).Wants id)
    ⟨fun h => ⟨h.1, h.2.1, fun left hleft => h.2.2 left (by simp [hleft])⟩,
      fun h => ⟨h.kept, h.wants, fun left hleft => h.pulled left (by simpa using hleft)⟩⟩

instance [BEq α] (m : Machine α) (t id : Nat) : Decidable (m.MayFill t id) :=
  decidable_of_iff
    ((((m.activity? t).bind (Activity.production? id)).all fun production =>
      !production.fillsBlocks || decide (m.Unhindered t id production)) = true)
    (by
      simp [MayFill, Option.bind_eq_some_iff, Activity.production?_eq_some, Option.all_eq_true,
        imp_iff_not_or])

/-- Opening a join in blocks starts a producer that waits for the first row of its left side. -/
theorem exists_first_openFeed [BEq α] (m : Machine α) (left : Feed α) (size : Nat)
    (right : α → List α → Work α) : ∃ c,
      (after (openFeed (.boundJoin left size right)) m).activity?
          (after (openFeed left) m).threads.size =
        some (.producing (after (openFeed left) m).executors.size (.first c size right)) := by
  rw [openFeed]
  exact ⟨_, activity?_startExecutor _ _ _⟩

/-- What a producer of blocks gets from its left in its turn, if it pulls. -/
def asked [BEq α] (m : Machine α) (t : Nat) : List (Pulled α) :=
  match m.activity? t with
  | some (.producing _ production) =>
    production.source?.toList.map fun left => (value (pull (.thread t) left) m).1
  | _ => []

/-- What a producer of blocks is told by its left in its turn. -/
def told [BEq α] (m : Machine α) (t : Nat) : List (Pulled α) := (m.asked t).flatMap Pulled.news

/-! ### What a turn leaves a thread at -/

/-- A thread is left at something, with some more jobs waiting for joins. -/
structure LeavesAt (m : Machine α) (t : Nat) (jobs : List (Job α)) (a : Activity α)
    (m' : Machine α) : Prop where
  jobs : m'.join.jobs = m.join.jobs ++ jobs
  activity : m'.activity? t = some a

theorem LeavesAt.of_untouched {jobs : List (Job α)} (h : m.Untouched m₁)
    (h₁ : m₁.LeavesAt t jobs a m₂) : m.LeavesAt t jobs a m₂ where
  jobs := by
    have hsame : m₁.join.jobs = m.join.jobs := h.jobs .join
    rw [h₁.jobs, hsame]
  activity := h₁.activity

theorem LeavesAt.trans {jobs jobs' : List (Job α)} {b : Activity α} (h : m.LeavesAt t jobs b m₁)
    (h₁ : m₁.LeavesAt t jobs' a m₂) : m.LeavesAt t (jobs ++ jobs') a m₂ where
  jobs := by rw [h₁.jobs, h.jobs, List.append_assoc]
  activity := h₁.activity

/-- An action by which no jobs come leaves a thread at what it did. -/
theorem LeavesAt.of_leaves {x : Action α β} (hleaves : Leaves x) (hspares : Keeps (Spares t) x)
    (ht : m.activity? t = some a) : m.LeavesAt t [] a (after x m) where
  jobs := ((hleaves m).jobs .join).trans (List.append_nil _).symm
  activity := hspares m a ht

theorem hand_of_producing {production : Production α}
    (ht : m.activity? t = some (.producing id production)) : m.hand t = none := by
  rw [hand, ht]
  rfl

theorem leavesAt_become (ht : m.activity? t = some a) (b : Activity α) :
    m.LeavesAt t [] b (after (become t b) m) where
  jobs := (List.append_nil _).symm
  activity := by
    simp only [activity?, Option.map_eq_some_iff] at ht ⊢
    obtain ⟨th, hth, -⟩ := ht
    refine ⟨{ th with activity := b }, ?_, rfl⟩
    show (m.threads.modify t fun s => { s with activity := b })[t]? = _
    rw [Array.getElem?_modify, if_pos rfl, hth]
    rfl

theorem leavesAt_resume (ht : m.activity? t = some a) (production : Production α) (turn : Turn) :
    m.LeavesAt t [] (.producing id production) (after (resume t id production turn) m) :=
  leavesAt_become ht _

theorem leavesAt_endProducer (ht : m.activity? t = some a) (hjob : m.hand t = none)
    (left : Cursor α) (result : Except FedError Unit) :
    m.LeavesAt t [] .finished (after (endProducer t id left result) m) where
  jobs := ((leavesBy_endProducer id left result m hjob).jobs .join).trans
    (List.append_nil _).symm
  activity := by
    have hR := pullFrame_spares (α := α) t
    have ends (m : Machine α) (ht : m.activity? t = some a) :
        (after (do
          endProduction id
          become t .finished
          discard left
          return Turn.ends) m).activity? t = some .finished := by
      have hended := (turnFrame_spares_all t).keeps_endProduction id m a ht
      exact hR.keeps_discard left _ _ (leavesAt_become hended .finished).activity
    rw [endProducer, after_get_bind]
    dsimp only
    split
    · exact ends m ht
    · next e _ =>
      rw [after_bind]
      exact ends (after (toss id e) m) ((turnFrame_spares_all t).keeps_toss id e m a ht)

theorem leavesAt_awaitTasks (ht : m.activity? t = some a) (hjob : m.hand t = none)
    (left : Cursor α) : ∃ limit,
      m.LeavesAt t [] (.producing id (.awaiting left limit)) (after (awaitTasks t id left) m) := by
  refine ⟨(m.query.remaining? m.now).map (m.now + ·),
    ((leavesBy_awaitTasks id left m hjob).jobs .join).trans (List.append_nil _).symm, ?_⟩
  have hR := pullFrame_spares (α := α) t
  rw [awaitTasks, after_get_bind]
  dsimp only
  split
  · split
    · exact (leavesAt_become (hR.wakeAt _ _ m a ht) _).activity
    · exact (leavesAt_become ht _).activity
  · exact (leavesAt_become ht _).activity

/-- A producer that is through with its left hands over nothing when it is told to stop. -/
theorem leavesAt_stop (ht : m.activity? t = some a) (ha : a.Rests id) :
    m.LeavesAt t [] .finished
      (after (do become t .finished; abandon t a; wake .main; return Turn.ends) m) := by
  have hR := turnFrame_spares_all (α := α) t
  have abandons : Leaves (abandon t a) := by
    cases ha with
    | awaits left limit => exact leaves_discard left
    | finished => exact Leaves.of_pure ()
  have leaves : Leaves (do abandon t a; wake .main; return Turn.ends) :=
    abandons.bind fun _ => (leaves_wake .main).bind fun _ => Leaves.of_pure _
  have spares : Keeps (Spares t) (do abandon t a; wake .main; return Turn.ends) :=
    hR.bind (hR.keeps_abandon t a) fun _ => hR.bind (hR.wake .main) fun _ => hR.keeps_pure _
  have hended := leavesAt_become ht .finished
  exact hended.trans (.of_leaves leaves spares hended.activity)

/-! ### Turns of producers -/

theorem Wants.checkActive (h : m.Wants id) : m.query.checkActive m.now = .ok () := by
  simp [QueryContext.checkActive, QueryContext.checkAborted, QueryContext.checkTimeout, h.aborted,
    h.inTime, bind, Except.bind]

theorem Wants.not_cancelled (h : m.Wants id) : ¬ (m.executors[id]?).all m.isCancelled = true := by
  obtain ⟨e, he, hwanted⟩ := h.executor
  simp only [Executor.isActive, Bool.and_eq_true, Bool.not_eq_true'] at hwanted
  simp [he, hwanted.1]

/-- A task is taken as long as results are wanted. -/
theorem leavesAt_schedule (ht : m.activity? t = some a) (h : m.Wants id) (name : String)
    (work : Work α) :
    value (schedule .join id name work) m = .ok () ∧ ∃ job : Job α, job.executor = id ∧
      job.work = work ∧ m.LeavesAt t [job] a (after (schedule .join id name work) m) := by
  obtain ⟨e, he, -⟩ := h.executor
  have haccepting : (m.crew .join).pool.checkAccepting = .ok () := if_pos h.accepting
  have hregister : m.query.register (some e.branch) = .ok (m.query.tasks.size + 1,
      { m.query with tasks := m.query.tasks.push { branch := some e.branch } }) := by
    rw [QueryContext.register_eq, if_neg (by simp [h.aborted])]
  constructor
  · rw [schedule, value_bind, value_get, after_get, haccepting, he]
    dsimp only
    rw [hregister]
    rfl
  · refine ⟨{ executor := id, task := m.query.tasks.size + 1, name, work }, rfl, rfl, ?_,
      (turnFrame_spares_all t).schedule .join id name work m a ht⟩
    rw [schedule, after_get_bind, haccepting, he]
    dsimp only
    rw [hregister]
    exact (leaves_wakeThread? _ _).jobs .join

/-- A block is handed over as long as results are wanted. -/
theorem leavesAt_scheduleWanted (ht : m.activity? t = some a) (h : m.Wants id) (name : String)
    (work : Work α) (left : Cursor α) (next : Production α) :
    ∃ job : Job α, job.executor = id ∧ job.work = work ∧ m.LeavesAt t [job] (.producing id next)
      (after (scheduleWanted t id .join name work left next) m) := by
  obtain ⟨hok, job, hid, hwork, hscheduled⟩ := leavesAt_schedule ht h name work
  obtain ⟨e, he, hwanted⟩ := h.executor
  refine ⟨job, hid, hwork, ?_⟩
  rw [scheduleWanted, after_get_bind, h.checkActive]
  dsimp only
  rw [if_neg (by simp [he, hwanted]), after_bind, hok]
  exact hscheduled.trans (leavesAt_become hscheduled.activity (.producing id next))

section Turns

variable [BEq α] {production : Production α}

theorem stepThread_eq_stepProducing (ht : m.activity? t = some (.producing id production))
    (hkept : m.isDoomed t = false) :
    after (stepThread t) m = after (stepProducing t id production) m := by
  simp only [activity?, Option.map_eq_some_iff] at ht
  obtain ⟨⟨activity, doomed⟩, hth, rfl⟩ := ht
  obtain rfl : doomed = false := by simpa [isDoomed, hth] using hkept
  rw [stepThread, after_get_bind, hth]
  rfl

theorem asked_eq (ht : m.activity? t = some (.producing id production)) :
    m.asked t =
      production.source?.toList.map fun left => (value (pull (.thread t) left) m).1 := by
  rw [asked, ht]

theorem told_eq {left : Cursor α} (ht : m.activity? t = some (.producing id production))
    (hleft : production.source? = some left) :
    m.told t = (value (pull (.thread t) left) m).1.news := by
  rw [told, asked_eq ht, hleft]
  exact List.append_nil _

/-- A producer that does not pull is told nothing. -/
theorem told_of_source_none (ht : m.activity? t = some (.producing id production))
    (hnone : production.source? = none) : m.told t = [] := by
  rw [told, asked_eq ht, hnone]
  rfl

theorem told_of_rests (ht : m.activity? t = some a) (ha : a.Rests id) : m.told t = [] := by
  rw [told, asked, ht]
  cases ha <;> rfl

/-- **A turn of a producer of blocks pulls from its left, or it hands over a block.** -/
theorem one_le_asked_add {told : List (Pulled α)} {jobs : List (Job α)}
    (ht : m.activity? t = some (.producing id production))
    (h : BlockTurn id production told jobs a) : 1 ≤ (m.asked t).length + jobs.length := by
  have asks {left : Cursor α} (hleft : production.source? = some left) :
      1 ≤ (m.asked t).length + jobs.length := by
    rw [asked_eq ht, hleft]
    exact Nat.le_add_right 1 _
  cases h with
  | waits => exact asks rfl
  | begins => exact asks rfl
  | finds_nothing => exact asks rfl
  | fails e hleft => exact asks hleft
  | hands_over => exact Nat.le_add_left 1 _
  | idles hroom => exact asks (if_pos hroom)
  | fills hroom => exact asks (if_pos hroom)
  | ends hroom => exact asks (if_pos hroom)
  | hands_over_rest => exact Nat.le_add_left 1 _

/-- **The first turns of a producer of blocks.** -/
theorem blockTurn_first {left : Cursor α} {size : Nat} {right : α → List α → Work α}
    (ht : m.activity? t = some (.producing id (.first left size right)))
    (h : m.Unhindered t id (.first left size right)) :
    ∃ jobs a, BlockTurn id (.first left size right) (m.told t) jobs a ∧
      m.LeavesAt t jobs a (after (stepThread t) m) := by
  have hwants := h.pulled left rfl
  have hpulled := leaves_pull (.thread t) left m
  have ht₁ := (pullFrame_spares t).keeps_pull (.thread t) left m _ ht
  have hjob := hand_of_producing ht₁
  rw [told_eq ht rfl, stepThread_eq_stepProducing ht h.kept, stepProducing, after_get_bind,
    if_neg h.wants.not_cancelled]
  dsimp only
  rw [after_bind]
  generalize value (pull (.thread t) left) m = r
  generalize after (pull (.thread t) left) m = m₁ at hwants hpulled ht₁ hjob
  obtain ⟨r, left'⟩ := r
  cases r with
  | item row =>
    obtain ⟨hok, job, hid, hwork, hscheduled⟩ :=
      leavesAt_schedule ht₁ hwants "BoundJoin" (right row [row])
    refine ⟨[job], .producing id (.block left' size (right row) 1 []), .begins hid hwork,
      .of_untouched hpulled ?_⟩
    dsimp only
    rw [after_get_bind, hwants.checkActive]
    dsimp only
    rw [after_bind, hok]
    exact hscheduled.trans (leavesAt_resume hscheduled.activity _ _)
  | failure e =>
    exact ⟨[], _, .fails e rfl, .of_untouched hpulled (leavesAt_endProducer ht₁ hjob left' _)⟩
  | done =>
    exact ⟨[], _, .finds_nothing, .of_untouched hpulled (leavesAt_endProducer ht₁ hjob left' _)⟩
  | progress => exact ⟨[], _, .waits, .of_untouched hpulled (leavesAt_resume ht₁ _ _)⟩
  | wait => exact ⟨[], _, .waits, .of_untouched hpulled (leavesAt_resume ht₁ _ _)⟩

/-- **The turns of a producer of blocks that has had a row.** -/
theorem blockTurn_block {left : Cursor α} {size total : Nat} {task : List α → Work α}
    {filled : List α}
    (ht : m.activity? t = some (.producing id (.block left size task total filled)))
    (h : m.Unhindered t id (.block left size task total filled)) :
    ∃ jobs a, BlockTurn id (.block left size task total filled) (m.told t) jobs a ∧
      m.LeavesAt t jobs a (after (stepThread t) m) := by
  rw [stepThread_eq_stepProducing ht h.kept, stepProducing, after_get_bind,
    if_neg h.wants.not_cancelled]
  dsimp only
  split
  · next hfull =>
    have hnone : m.told t = [] := told_of_source_none ht (if_neg (Nat.not_lt.mpr hfull))
    obtain ⟨job, hid, hwork, hleaves⟩ := leavesAt_scheduleWanted ht h.wants "BoundJoin"
      (task filled) left (.block left size task (total + filled.length) [])
    rw [hnone]
    exact ⟨[job], _, .hands_over hfull hid hwork, hleaves⟩
  · next hroom =>
    have hroom : filled.length < BoundJoin.nextBlockSize size total := Nat.lt_of_not_ge hroom
    have hleft : (Production.block left size task total filled).source? = some left := if_pos hroom
    have hwants := h.pulled left hleft
    have hpulled := leaves_pull (.thread t) left m
    have ht₁ := (pullFrame_spares t).keeps_pull (.thread t) left m _ ht
    have hjob := hand_of_producing ht₁
    rw [told_eq ht hleft, after_bind]
    generalize value (pull (.thread t) left) m = r
    generalize after (pull (.thread t) left) m = m₁ at hwants hpulled ht₁ hjob
    obtain ⟨r, left'⟩ := r
    cases r with
    | item row => exact ⟨[], _, .fills hroom, .of_untouched hpulled (leavesAt_resume ht₁ _ _)⟩
    | failure e =>
      exact ⟨[], _, .fails e hleft, .of_untouched hpulled (leavesAt_endProducer ht₁ hjob left' _)⟩
    | done =>
      dsimp only
      split
      · next hempty =>
        obtain rfl := List.isEmpty_iff.mp hempty
        obtain ⟨limit, hleaves⟩ := leavesAt_awaitTasks ht₁ hjob left'
        exact ⟨[], _, .ends hroom, .of_untouched hpulled hleaves⟩
      · next hsome =>
        obtain ⟨job, hid, hwork, hleaves⟩ := leavesAt_scheduleWanted ht₁ hwants "BoundJoin"
          (task filled) left' (.block left' size task (total + filled.length) [])
        have hsome : filled ≠ [] := fun hempty => hsome (List.isEmpty_iff.mpr hempty)
        exact ⟨[job], _, .hands_over_rest hsome hroom hid hwork, .of_untouched hpulled hleaves⟩
    | progress => exact ⟨[], _, .idles hroom, .of_untouched hpulled (leavesAt_resume ht₁ _ _)⟩
    | wait => exact ⟨[], _, .idles hroom, .of_untouched hpulled (leavesAt_resume ht₁ _ _)⟩

/-- **As long as nothing is in its way, the turn of a producer of blocks is one of these.** -/
theorem blockTurn_stepThread (ht : m.activity? t = some (.producing id production))
    (hfills : production.fillsBlocks = true) (h : m.Unhindered t id production) :
    ∃ jobs a, BlockTurn id production (m.told t) jobs a ∧
      m.LeavesAt t jobs a (after (stepThread t) m) := by
  cases production with
  | first left size right => exact blockTurn_first ht h
  | block left size task total filled => exact blockTurn_block ht h
  | _ => simp [Production.fillsBlocks] at hfills

/-- A producer that waits for its tasks goes on to wait for them, or it is finished. -/
theorem leavesAt_stepAwaiting {left : Cursor α} {limit : Option Nat}
    (ht : m.activity? t = some (.producing id (.awaiting left limit))) :
    ∃ b : Activity α, b.Rests id ∧
      m.LeavesAt t [] b (after (stepProducing t id (.awaiting left limit)) m) := by
  rw [stepProducing, after_get_bind]
  dsimp only
  split
  · have hended := LeavesAt.of_leaves (leaves_endProduction id)
      ((turnFrame_spares_all t).keeps_endProduction id) ht
    have hbecome := hended.trans (leavesAt_become hended.activity .finished)
    have hdiscarded := LeavesAt.of_leaves (leaves_discard left)
      ((pullFrame_spares t).keeps_discard left) hbecome.activity
    exact ⟨.finished, .finished, hbecome.trans hdiscarded⟩
  · have hchecked :=
      LeavesAt.of_leaves (leaves_checkTasks id limit)
        ((turnFrame_spares_all t).keeps_checkTasks id limit) ht
    have hends (result : Except FedError Unit) : m.LeavesAt t [] .finished
        (after (endProducer t id left result) (after (checkTasks id limit) m)) :=
      hchecked.trans (leavesAt_endProducer hchecked.activity
        (hand_of_producing hchecked.activity) left result)
    rw [after_bind]
    cases value (checkTasks id limit) m with
    | finished => exact ⟨.finished, .finished, hends _⟩
    | timedOut e => exact ⟨.finished, .finished, hends _⟩
    | pending => exact ⟨_, .awaits left limit, hchecked⟩

/-- **A producer that is through with its left hands over nothing more.** -/
theorem rested_stepThread (ht : m.activity? t = some a) (ha : a.Rests id) :
    ∃ b : Activity α, b.Rests id ∧ m.LeavesAt t [] b (after (stepThread t) m) := by
  have ht' := ht
  simp only [activity?, Option.map_eq_some_iff] at ht'
  obtain ⟨⟨activity, doomed⟩, hth, rfl⟩ := ht'
  rw [stepThread, after_get_bind, hth]
  dsimp only
  split
  · exact ⟨.finished, .finished, leavesAt_stop ht ha⟩
  · cases ha with
    | finished => exact ⟨.finished, .finished, (List.append_nil _).symm, ht⟩
    | awaits left limit => exact leavesAt_stepAwaiting ht

end Turns

/-! ### Failures of the left -/

/-- What holds of an executor goes on to hold. -/
def Stays (P : Executor α → Prop) (id : Nat) (m m' : Machine α) : Prop :=
  ∀ x, m.executors[id]? = some x → P x → ∃ x', m'.executors[id]? = some x' ∧ P x'

section Failures

variable {P : Executor α → Prop}

theorem Stays.of_executors (h : m₁.executors = m.executors) : Stays P id m m₁ :=
  fun x hx hP => ⟨x, by rw [h, hx], hP⟩

theorem Stays.of_modify (m : Machine α) {i : Nat} {f : Executor α → Executor α}
    (h : ∀ x, m.executors[i]? = some x → P x → P (f x)) :
    Stays P id m { m with executors := m.executors.modify i f } := by
  intro x hx hP
  by_cases hi : i = id
  · subst hi
    exact ⟨f x, by rw [Array.getElem?_modify, if_pos rfl, hx]; rfl, h x hx hP⟩
  · exact ⟨x, by rw [Array.getElem?_modify, if_neg hi, hx], hP⟩

theorem stays_wake (w : Waker) : Keeps (Stays P id) (wake w : Action α Unit) := by
  intro m
  apply Stays.of_executors
  cases w with
  | main => rfl
  | thread t =>
    show (if m.ready.contains t then m else { m with ready := m.ready ++ [t] }).executors = _
    split <;> rfl

theorem frame_stays (hclose : ∀ x, P x → P x.close) : Frame (Stays P id) where
  refl _ x hx hP := ⟨x, hx, hP⟩
  trans h h' x hx hP := by
    obtain ⟨x', hx', hP'⟩ := h x hx hP
    exact h' x' hx' hP'
  wake := stays_wake
  doom t m := by
    intro x hx hP
    exact stays_wake (.thread t) _ x hx hP
  cancelBranch _ _ := .of_executors rfl
  close _ m := .of_modify m fun x _ hP => hclose x hP

/-- A failure may be taken by pulling, but none comes. -/
theorem pullFrame_unfailed : PullFrame (α := α) (Stays (·.error = none) id) where
  toFrame := frame_stays fun _ h => h
  wakeAt _ _ _ := .of_executors rfl
  registry _ _ := .of_executors rfl
  addExecutor firstOnly m := by
    intro x hx hP
    have hid := (Array.getElem?_eq_some_iff.mp hx).1
    refine ⟨x, ?_, hP⟩
    show (m.executors.push { branch := m.query.branches.size, firstOnly })[id]? = some x
    rw [Array.getElem?_push, if_neg (by omega), hx]
  spawn i production m := by
    intro x hx hP
    exact stays_wake (.thread m.threads.size) _ x hx hP
  update i f h m := .of_modify m fun x _ hP => (h x).2.2.elim (fun he => he.trans hP) fun he => he
  take _ _ := .of_modify _ fun _ _ hP => hP

/-- An executor has been tossed a failure: its production is over, and the failure is there unless
another one was there before. -/
structure Tossed (e : FedError) (x x' : Executor α) : Prop where
  ended : x'.producing = false
  failed : x'.error.isSome = true
  first : x.error = none → x'.error = some e

theorem frame_tossed (e : FedError) (x : Executor α) (id : Nat) : Frame (Stays (Tossed e x) id) :=
  frame_stays fun _ h => ⟨rfl, h.failed, h.first⟩

theorem tossed_toss {x : Executor α} (hx : m.executors[id]? = some x) (hopen : x.closed = false)
    (e : FedError) : ∃ x', (after (toss id e) m).executors[id]? = some x' ∧ Tossed e x x' := by
  have hF := frame_tossed e x id
  have tells : Keeps (Stays (Tossed e x) id) (do wakeConsumer id; cancel id : Action α Unit) :=
    hF.bind (hF.keeps_wakeConsumer id) fun _ => hF.keeps_cancel id
  rw [toss, after_get_bind, hx]
  dsimp only
  rw [if_neg (by simp [hopen])]
  apply tells (after (updateExecutor id (·.toss e)) m) (x.toss e)
  · show (m.executors.modify id (·.toss e))[id]? = _
    rw [Array.getElem?_modify, if_pos rfl, hx]
    rfl
  · rw [Executor.toss, if_neg (by simp [hopen])]
    exact ⟨rfl, by cases x.error <;> rfl, fun herror => by simp [herror]⟩

theorem tossed_endProducer {x : Executor α} (hx : m.executors[id]? = some x)
    (hopen : x.closed = false) (t : Nat) (left : Cursor α) (e : FedError) : ∃ x',
      (after (endProducer t id left (.error e)) m).executors[id]? = some x' ∧ Tossed e x x' := by
  have hF := frame_tossed e x id
  have ends : Keeps (Stays (Tossed e x) id) (do
      endProduction id
      become t .finished
      discard left
      return Turn.ends : Action α Turn) :=
    hF.bind (hF.bind (fun m => .of_modify m fun _ _ h => ⟨rfl, h.failed, h.first⟩) fun _ =>
      hF.keeps_wakeConsumer id) fun _ => hF.bind (fun _ => .of_executors rfl) fun _ =>
        hF.bind (hF.keeps_closeAll _) fun _ => hF.keeps_pure _
  obtain ⟨x', hx', htossed⟩ := tossed_toss hx hopen e
  rw [endProducer, after_get_bind]
  dsimp only [Except.bind]
  rw [after_bind]
  exact ends (after (toss id e) m) x' hx' htossed

variable [BEq α] {production : Production α} {left : Cursor α} {e : FedError}

/-- **A failure of the left is tossed.** -/
theorem tossed_stepThread (ht : m.activity? t = some (.producing id production))
    (h : m.Unhindered t id production) (hleft : production.source? = some left)
    (hfails : (value (pull (.thread t) left) m).1 = .failure e) : ∃ x x',
      m.executors[id]? = some x ∧ (after (stepThread t) m).executors[id]? = some x' ∧
        Tossed e x x' := by
  obtain ⟨x, hx, -⟩ := h.wants.executor
  obtain ⟨x₁, hx₁, hactive⟩ := (h.pulled left hleft).executor
  have hopen : x₁.closed = false := by
    simp only [Executor.isActive, Bool.and_eq_true, Bool.not_eq_true'] at hactive
    exact hactive.2
  -- pulling records no failure
  have hunfailed (herror : x.error = none) : x₁.error = none := by
    obtain ⟨x₂, hx₂, herror₂⟩ := pullFrame_unfailed.keeps_pull (.thread t) left m x hx herror
    obtain rfl : x₁ = x₂ := Option.some.inj (hx₁.symm.trans hx₂)
    exact herror₂
  obtain ⟨left', hpull⟩ : ∃ left', value (pull (.thread t) left) m = (.failure e, left') :=
    ⟨_, Prod.ext hfails rfl⟩
  obtain ⟨x', hx', htossed⟩ := tossed_endProducer hx₁ hopen t left' e
  refine ⟨x, x', hx, ?_, htossed.ended, htossed.failed,
    fun herror => htossed.first (hunfailed herror)⟩
  rw [stepThread_eq_stepProducing ht h.kept, stepProducing, after_get_bind,
    if_neg h.wants.not_cancelled]
  dsimp only
  cases production with
  | first left₀ size right =>
    obtain rfl : left₀ = left := Option.some.inj hleft
    dsimp only
    rw [after_bind, hpull]
    exact hx'
  | block left₀ size task total filled =>
    rw [Production.source?] at hleft
    split at hleft
    · next hroom =>
      obtain rfl : left₀ = left := Option.some.inj hleft
      dsimp only
      rw [if_neg (Nat.not_le.mpr hroom), after_bind, hpull]
      exact hx'
    · cases hleft
  | _ => cases hleft

end Failures

end Machine

end FederatedSparql
