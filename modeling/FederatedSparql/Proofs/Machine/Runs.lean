import FederatedSparql.Proofs.Machine.Stages

/-!
Runs of an executor, moment by moment.

* `Setting.Tracks.step`: a step leads from one scene of a run to another.
* `Setting.tracks`: at every moment of a run in time the machine shows a scene of the run.
-/

namespace FederatedSparql

open Machine

variable {α : Type}

/-! ### Scenes of machines -/

/-- What there is to see of a machine. -/
def Machine.scene (m : Machine α) : Scene α :=
  let executor := m.executors[0]?.getD { branch := 0 }
  { now := m.now
    answers := m.registry.answers
    deadline := m.query.deadline
    cancelled := m.query.isBranchCancelled executor.branch
    registered := m.query.tasks.size
    pool := m.union.pool.name
    accepting := m.union.pool.accepting
    jobs := m.union.jobs
    line := m.union.line
    threads := m.threads.toList
    executor }

theorem Machine.Shows.scene_eq {m : Machine α} {s : Scene α} (h : m.Shows s) : m.scene = s := by
  simp only [Machine.scene, h.getElem?_executors, Option.getD_some, h.now, h.answers, h.deadline,
    h.cancelled, h.registered, h.pool, h.accepting, h.jobs, h.line, h.threads]

/-- A thread has been started, and waits for its turn. -/
theorem Machine.after_spawn (a : Activity α) (m : Machine α) :
    ∃ ready, after (spawn a) m = { m with threads := m.threads.push { activity := a }, ready } := by
  rw [spawn, after_bind, after_bind, after_bind, after_pure, after_modify, wake, after_modify]
  split
  · exact ⟨m.ready, rfl⟩
  · exact ⟨_, rfl⟩

namespace Scene

/-- What a step can make of a scene. -/
inductive Moves [DecidableEq α] (s : Scene α) : Step → Scene α → Prop
  | turns {t : Nat} {s' : Scene α} (h : s.Turns t s') : Moves s (.thread t) s'
  | pulls {r : Pulled α} {s' : Scene α} (h : s.Pulls r s') : Moves s .consumer s'
  | outside {e : Step} {s' : Scene α} (h : s.Outside e s') : Moves s e s'

end Scene

namespace Moment

variable (y : Moment α) (r : Pulled α)

theorem machine_note : (y.note r).machine = y.machine := by cases r <;> rfl

theorem cursor_note : (y.note r).cursor = y.cursor := by cases r <;> rfl

theorem log_note : (y.note r).log = y.log := by cases r <;> rfl

theorem received_note : (y.note r).received = y.received ++ r.got := by
  cases r <;> simp [note, Pulled.got]

theorem ended_note : (y.note r).ended = (y.ended || r.isDone) := by
  cases r <;> simp [note, Pulled.isDone]

end Moment

namespace Setting

section Start

variable {x : Setting α}

/-! ### The start of a run -/

/-- What there is to see when a run starts: workers, and a producer that has all the tasks. -/
def first (x : Setting α) : Scene α where
  now := x.now
  answers := x.registry.answers
  deadline := x.timeout.map (x.now + ·)
  cancelled := false
  registered := 0
  pool := x.pool
  accepting := true
  jobs := []
  line := []
  threads := List.replicate (max x.workers 1) { activity := .idle .union } ++
    [{ activity := .producing 0 (.branches x.tasks) }]
  executor := { branch := 0, producer := some (max x.workers 1) }

/-- Some workers of a pool have been started. -/
structure Staffing (x : Setting α) (k : Nat) (m : Machine α) : Prop where
  now : m.now = x.now
  registry : m.registry = x.registry
  query : m.query = .start x.text x.form x.now x.timeout
  executors : m.executors = #[]
  pool : m.union.pool = { Pool.create x.pool x.workers with running := true }
  jobs : m.union.jobs = []
  line : m.union.line = []
  threads : m.threads.toList = List.replicate k { activity := .idle .union }

theorem Staffing.spawn {k : Nat} {m : Machine α} (h : Staffing x k m) :
    Staffing x (k + 1) (after (do
      let t ← Machine.spawn (.idle .union)
      updateCrew .union fun c => { c with threads := c.threads ++ [t] }) m) := by
  obtain ⟨ready, hspawn⟩ := after_spawn (.idle .union) m
  rw [after_bind, hspawn]
  refine { h with threads := ?_ }
  show (m.threads.push _).toList = _
  rw [Array.toList_push, h.threads, List.replicate_succ']

theorem Staffing.forIn {k : Nat} {m : Machine α} (h : Staffing x k m) (l : List Nat) :
    Staffing x (k + l.length) (after (forIn l PUnit.unit fun _ _ => do
      let t ← Machine.spawn (.idle .union)
      updateCrew .union fun c => { c with threads := c.threads ++ [t] }
      pure (ForInStep.yield PUnit.unit)) m) := by
  induction l generalizing k m with
  | nil => exact h
  | cons i l ih =>
    rw [List.forIn_cons, List.length_cons, ← Nat.add_assoc, Nat.add_right_comm]
    exact ih h.spawn

theorem staffing_startPool (x : Setting α) :
    Staffing x (max x.workers 1) (after (startPool .union) x.machine) := by
  have hstart : Staffing x 0
      (after (updatePool .union fun pool => { pool with running := true }) x.machine) :=
    ⟨rfl, rfl, rfl, rfl, rfl, rfl, rfl, rfl⟩
  have := hstart.forIn (List.range (max x.workers 1))
  rw [List.length_range, Nat.zero_add] at this
  exact this

theorem Staffing.startExecutor {m : Machine α} (h : Staffing x (max x.workers 1) m) :
    (after (startExecutor false (.branches x.tasks)) m).Shows x.first := by
  have hid : m.executors.size = 0 := by rw [h.executors]; rfl
  obtain ⟨ready, hspawn⟩ := after_spawn (.producing 0 (.branches x.tasks))
    { m with
      query := m.query.addBranch.2
      executors := m.executors.push { branch := m.query.addBranch.1 } }
  have hsize : m.threads.size = max x.workers 1 := by
    rw [← Array.length_toList, h.threads, List.length_replicate]
  have hbranch : m.query.branches = #[] := by rw [h.query]; rfl
  have hafter : after (Machine.startExecutor false (.branches x.tasks)) m =
      { m with
        query := m.query.addBranch.2
        executors := (m.executors.push { branch := m.query.addBranch.1 }).modify 0
          fun e => { e with producer := some m.threads.size }
        threads := m.threads.push { activity := .producing 0 (.branches x.tasks) }
        ready } := by
    simp only [Machine.startExecutor, after_bind, value_get, after_get, after_modify, after_pure,
      hid, hspawn, updateExecutor]
    rfl
  rw [hafter]
  exact {
    now := h.now
    answers := by simp [h.registry, first]
    deadline := by simp [h.query, QueryContext.addBranch, QueryContext.start, first]
    cancelled := by
      simp [h.query, QueryContext.addBranch, QueryContext.start, QueryContext.isBranchCancelled,
        first]
    aborted := by simp [h.query, QueryContext.addBranch, QueryContext.start]
    registered := by simp [h.query, QueryContext.addBranch, QueryContext.start, first]
    tasks := by simp [h.query, QueryContext.addBranch, QueryContext.start]
    pool := by simp [h.pool, Pool.create, first]
    accepting := by simp [h.pool, Pool.create, first]
    jobs := h.jobs
    line := h.line
    threads := by simp [h.threads, first]
    executors := by
      simp [h.executors, h.query, QueryContext.addBranch, QueryContext.start, hsize, first,
        Array.modify, Array.modifyM] }

theorem activity?_first {i : Nat} {a : Activity α} (h : x.first.activity? i = some a) :
    a = .idle .union ∨ i = max x.workers 1 ∧ a = .producing 0 (.branches x.tasks) := by
  obtain ⟨th, hth, rfl⟩ := Option.map_eq_some_iff.1 h
  simp only [first, List.getElem?_append, List.length_replicate] at hth
  split at hth
  · next hi =>
    rw [List.getElem?_replicate, if_pos hi] at hth
    exact .inl (Option.some.inj hth ▸ rfl)
  · next hi =>
    rw [List.getElem?_singleton] at hth
    split at hth
    · next hzero => exact .inr ⟨by omega, Option.some.inj hth ▸ rfl⟩
    · cases hth

theorem posts_first (x : Setting α) : x.first.Posts where
  nodup_line := .nil
  line := nofun
  nodup_waiting := .nil
  waiting i := by
    refine ⟨nofun, fun h => ?_⟩
    obtain ⟨a, ha, hsending⟩ := (Option.any_eq_true _ _).1 h
    obtain rfl | ⟨-, rfl⟩ := activity?_first ha <;> cases hsending

theorem flags_first (x : Setting α) : x.Flags False x.first :=
  ⟨rfl, rfl, rfl, fun h => absurd rfl h, nofun, nofun, nofun⟩

theorem held_first (x : Setting α) : x.first.held = [] := by
  simp [Scene.held, first, Activity.job?]

theorem staff_first (x : Setting α) : Staff False x.first where
  pending := by
    rw [held_first]
    rfl
  doomed h := by simp [first] at h
  worker := .inr ⟨0, by simp [Scene.activity?, first, Activity.isWorkers]⟩
  producer := .inr ⟨max x.workers 1, by
    simp [Scene.activity?, first, List.getElem?_append, Activity.isProducing]⟩
  unhindered th hth hdoomed := by
    simp only [first, List.mem_append, List.mem_replicate, List.mem_singleton] at hth
    obtain ⟨-, rfl⟩ | rfl := hth <;> cases hdoomed

end Start

variable [DecidableEq α] {x : Setting α} {d : Prop} {s s' : Scene α}

theorem start_shows (x : Setting α) :
    x.start.machine.Shows x.first ∧ x.start.cursor = .pipe (.executor 0) := by
  have h := staffing_startPool x
  refine ⟨h.startExecutor, ?_⟩
  show Cursor.pipe (.executor (after (startPool .union) x.machine).executors.size) = _
  rw [h.executors]
  rfl

theorem shapes_first (x : Setting α) : x.Shapes x.first where
  answers := rfl
  pool := rfl
  registered := Nat.zero_le _
  jobs := nofun
  firstOnly := rfl
  queue := nofun
  current := nofun
  cancelled := nofun
  finished := nofun
  threads i a ha := by
    obtain rfl | ⟨rfl, rfl⟩ := activity?_first ha
    · rfl
    · exact ⟨rfl, rfl, .inl rfl⟩

theorem ledger_first (x : Setting α) : x.Ledger False x.first [] [] := by
  have htally (k : Nat) : x.first.tally k = 0 := by
    rw [Scene.tally, held_first]
    rfl
  refine ⟨rfl, ⟨fun _ => rfl, fun _ => rfl⟩, fun _ hk => absurd hk List.not_mem_nil,
    fun _ hk => absurd hk List.not_mem_nil, fun hr => absurd hr List.not_mem_nil, fun k => ?_,
    fun _ => .inr ?_⟩
  · rw [htally]
    exact Nat.zero_le _
  · intro k hk hk'
    exact absurd (hk.trans hk') (by simp [first])

/-! ### Moments -/

/-- The machine of a moment shows a scene of the run. -/
structure Tracks (x : Setting α) (disturbed : Prop) (y : Moment α) (s : Scene α) : Prop where
  shows : y.machine.Shows s
  cursor : y.cursor = .pipe (.executor 0)
  shapes : x.Shapes s
  stage : x.Stage disturbed s y.received y.ended y.log

namespace Tracks

variable {y : Moment α}

theorem inTime (h : x.Tracks d y s) (ht : y.machine.query.isExpired y.machine.now = false) :
    s.InTime := by
  intro deadline hdeadline
  rw [QueryContext.isExpired, h.shows.deadline, h.shows.now, hdeadline] at ht
  simpa using ht

theorem account (h : x.Tracks d y s) : x.Account d y.log := h.stage.account h.shapes

/-- When the consumer has been told that there is no more, it has got all that is to be delivered. -/
theorem of_ended (h : x.Tracks d y s) (hended : y.ended = true) :
    x.Complete d y.log ∧ y.received = x.delivered y.log :=
  h.stage.of_closed (h.stage.closed hended)

theorem outside (h : x.Tracks d y s) {e : Step} {m : Machine α} (hm : m.Shows s')
    (he : s.Outside e s') : x.Tracks (d ∨ ¬ e.Quiet) { y with machine := m } s' :=
  ⟨hm, h.cursor, h.shapes.outside he, h.stage.outside he⟩

/-- **A step leads from one scene of a run to another.** -/
theorem step (h : x.Tracks d y s) (halone : ∀ task ∈ x.tasks, task.2.Alone)
    (ht : y.machine.query.isExpired y.machine.now = false) (e : Step) :
    ∃ s', x.Tracks (d ∨ ¬ e.Quiet) (y.step e) s' ∧ s.Moves e s' := by
  have hsound := h.shapes.sound (h.inTime ht)
  have undisturbed {e : Step} (he : e.Quiet) : (d ∨ ¬ e.Quiet) = d := by simp [he]
  cases e with
  | thread t =>
    obtain ⟨s', hs', hturns⟩ := Scene.leads_stepThread hsound t _ h.shows
    refine ⟨s', ?_, .turns hturns⟩
    have hstage := h.stage.turns h.shapes hturns
    rw [← Scene.eventsOf_shown h.shows hs'] at hstage
    rw [undisturbed (e := .thread t) trivial]
    exact ⟨hs', h.cursor, h.shapes.turns halone hturns, hstage⟩
  | consumer =>
    have hlead := Scene.leads_pull hsound _ h.shows
    rw [← h.cursor] at hlead
    obtain ⟨s', hs', hcursor, hpulls⟩ := hlead
    refine ⟨s', ?_, .pulls hpulls⟩
    rw [undisturbed (e := .consumer) trivial]
    refine ⟨?_, ?_, h.shapes.pulls hpulls, ?_⟩
    · rw [Moment.step, Moment.machine_note]
      exact hs'
    · rw [Moment.step, Moment.cursor_note]
      exact hcursor.trans h.cursor
    · rw [Moment.step, Moment.received_note, Moment.ended_note, Moment.log_note]
      exact h.stage.pulls h.shapes hpulls
  | time ms =>
    refine ⟨_, h.outside ?_ (.time ms), .outside (.time ms)⟩
    exact { h.shows with now := congrArg (· + ms) h.shows.now }
  | abort =>
    obtain ⟨_, hs', -, rfl⟩ := Scene.gives_abortQuery s _ h.shows
    exact ⟨_, h.outside hs' .abort, .outside .abort⟩
  | stopPool =>
    obtain ⟨_, hs', rfl⟩ := Scene.leads_stopIntake s _ h.shows
    exact ⟨_, h.outside hs' .stopPool, .outside .stopPool⟩
  | interrupt t =>
    rw [Moment.step, Scene.activity?_shown h.shows]
    split
    · next hworker =>
      rw [Option.any_eq_true] at hworker
      obtain ⟨a, ha, hworker⟩ := hworker
      obtain ⟨th, hth, rfl⟩ := Option.map_eq_some_iff.1 ha
      obtain ⟨_, hs', -, rfl⟩ := Scene.gives_doom s t _ h.shows
      have he := Scene.Outside.interrupt hth hworker
      exact ⟨_, h.outside hs' he, .outside he⟩
    · have he := Scene.Outside.misses (s := s) t
      exact ⟨_, h.outside h.shows he, .outside he⟩
  | discardJobs =>
    have hjobs : ∀ job ∈ s.jobs, job.executor = 0 := fun job hjob =>
      (h.shapes.jobs job hjob).executor
    obtain ⟨_, hs', -, rfl⟩ := Scene.gives_discardJobs s hjobs _ h.shows
    exact ⟨_, h.outside hs' .discardJobs, .outside .discardJobs⟩

end Tracks

/-! ### Whole runs -/

theorem tracks_start (x : Setting α) : x.Tracks False x.start x.first where
  shows := x.start_shows.1
  cursor := x.start_shows.2
  shapes := x.shapes_first
  stage := .going x.posts_first x.flags_first x.staff_first x.ledger_first rfl

/-- Something has disturbed a run before a moment. -/
def Disturbed (schedule : Nat → Step) (n : Nat) : Prop := ∃ k < n, ¬ (schedule k).Quiet

variable {schedule : Nat → Step} {n : Nat}

theorem disturbed_zero (schedule : Nat → Step) : Disturbed schedule 0 = False := by
  simp [Disturbed]

theorem disturbed_succ (schedule : Nat → Step) (n : Nat) :
    Disturbed schedule (n + 1) = (Disturbed schedule n ∨ ¬ (schedule n).Quiet) := by
  rw [eq_iff_iff]
  constructor
  · rintro ⟨k, hk, hq⟩
    obtain hk | rfl := Nat.lt_succ_iff_lt_or_eq.1 hk
    · exact .inl ⟨k, hk, hq⟩
    · exact .inr hq
  · rintro (⟨k, hk, hq⟩ | hq)
    · exact ⟨k, hk.trans (Nat.lt_succ_self n), hq⟩
    · exact ⟨n, Nat.lt_succ_self n, hq⟩

/-- What there is to see at a moment of a run. -/
def scene (x : Setting α) (schedule : Nat → Step) (n : Nat) : Scene α :=
  (x.play schedule n).machine.scene

/-- **At every moment of a run in time the machine shows a scene of the run.** -/
theorem tracks (halone : ∀ task ∈ x.tasks, task.2.Alone) (ht : x.InTime schedule) (n : Nat) :
    x.Tracks (Disturbed schedule n) (x.play schedule n) (x.scene schedule n) := by
  induction n with
  | zero =>
    rw [disturbed_zero, scene, play, x.start_shows.1.scene_eq]
    exact x.tracks_start
  | succ n ih =>
    obtain ⟨s', hs', -⟩ := ih.step halone (ht n) (schedule n)
    rw [disturbed_succ, scene, play, hs'.shows.scene_eq]
    exact hs'

/-- **From moment to moment a run moves as its schedule says.** -/
theorem moves (halone : ∀ task ∈ x.tasks, task.2.Alone) (ht : x.InTime schedule) (n : Nat) :
    (x.scene schedule n).Moves (schedule n) (x.scene schedule (n + 1)) := by
  obtain ⟨s', hs', hmoves⟩ := (x.tracks halone ht n).step halone (ht n) (schedule n)
  rw [scene, scene, play, hs'.shows.scene_eq]
  exact hmoves

end Setting

end FederatedSparql
