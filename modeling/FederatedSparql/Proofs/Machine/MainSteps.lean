import FederatedSparql.Engine.Federation
import FederatedSparql.Proofs.Machine.Collecting
import FederatedSparql.Proofs.Machine.Interleaving

/-!
Main, step by step.

What a step of main comes to decides how it goes on; while it waits, threads that can go on take
their turns, and then time passes until the next timer is due.

* `Machine.run_awaitWake_of_turn`, `Machine.run_awaitWake_of_timer`: main is woken by a thread, or
  by a timer of its own.
* `Machine.Still.exists_runMain`: a program that works alone is run to its end, as each step of it
  is the end or leaves fewer steps (`Machine.Still.goesOn`).
* `Machine.Still.value_collect`: collecting its result comes to all its items.
-/

namespace FederatedSparql

open Machine

namespace Machine

variable {α : Type}

/-- Nobody has done anything yet: no executor has been started, nobody has been woken, and all
threads are workers without a job. -/
structure Resting (m : Machine α) : Prop where
  executors : m.executors = #[]
  ready : m.ready = []
  asleep : m.mainReady = false
  idle : ∀ t a, m.activity? t = some a → ∃ p, a = .idle p

/-! ### Waiting -/

section Waiting

variable [BEq α] {m : Machine α} {t : Nat}

theorem run_stepThread_of_finished (ht : m.threads[t]? = some { activity := .finished }) :
    (stepThread t).run m = (.ends, m) := by
  rw [stepThread, run_get_bind, ht]
  rfl

theorem after_runThread_of_ends (ht : value (stepThread t) m = .ends) :
    after (runThread t stepLimit) m = after (stepThread t) m := by
  obtain ⟨n, hn⟩ : ∃ n, stepLimit = n + 1 := ⟨stepLimit - 1, rfl⟩
  rw [hn, runThread, after_bind, ht]
  rfl

/-- Threads that are at their ends take their turns, and nothing comes of it. -/
theorem after_runReady_of_finished
    (h : ∀ t ∈ m.ready, m.threads[t]? = some { activity := .finished }) (turns : Nat) :
    after (runReady turns) m = { m with ready := m.ready.drop turns } := by
  induction turns generalizing m with
  | zero => rfl
  | succ turns ih =>
    rw [runReady, after_get_bind]
    cases hready : m.ready with
    | nil =>
      obtain ⟨now, registry, query, executors, join, union, threads, ready, mainReady, timers⟩ := m
      cases hready
      rfl
    | cons t rest =>
      let next : Machine α := { m with ready := rest }
      have hturn : (stepThread t).run next = (.ends, next) :=
        run_stepThread_of_finished (h t (by rw [hready]; exact List.mem_cons_self))
      have hthread : after (runThread t stepLimit) next = next := by
        rw [after_runThread_of_ends (congrArg Prod.fst hturn)]
        exact congrArg Prod.snd hturn
      show after (do runThread t stepLimit; runReady turns) next = _
      have hrest : ∀ t' ∈ next.ready, next.threads[t']? = some { activity := .finished } :=
        fun t' ht' => h t' (by rw [hready]; exact List.mem_cons_of_mem t ht')
      rw [after_bind, hthread, ih hrest]
      rfl

/-- Main, which has been woken, goes on. -/
theorem run_awaitWake_of_awake (h : m.mainReady = true) (limit : Nat) :
    (awaitWake (limit + 1)).run m = (true, { m with mainReady := false }) := by
  rw [awaitWake, StateT.run_bind]
  show (if m.mainReady then _ else _ : Action α Bool).run m = _
  rw [if_pos h]
  rfl

/-- Main goes on when the thread that can go on wakes it and all that can go on then are at their
ends. -/
theorem run_awaitWake_of_turn {m' : Machine α} (hasleep : m.mainReady = false)
    (hready : m.ready = [t]) (hturn : value (stepThread t) { m with ready := [] } = .ends)
    (hafter : after (stepThread t) { m with ready := [] } = m') (hawake : m'.mainReady = true)
    (hends : ∀ t ∈ m'.ready, m'.threads[t]? = some { activity := .finished }) :
    ∃ ready, (awaitWake stepLimit).run m = (true, { m' with ready, mainReady := false }) := by
  obtain ⟨n, hn⟩ : ∃ n, stepLimit = n + 2 := ⟨stepLimit - 2, rfl⟩
  have hround : after (runReady turnsPerRound) m =
      { m' with ready := m'.ready.drop (turnsPerRound - 1) } := by
    rw [show turnsPerRound = (turnsPerRound - 1) + 1 from rfl, runReady, after_get_bind, hready]
    show after (do runThread t stepLimit; runReady (turnsPerRound - 1)) { m with ready := [] } = _
    rw [after_bind, after_runThread_of_ends hturn, hafter, after_runReady_of_finished hends]
    rfl
  have hfirst : (awaitWake (n + 2)).run m =
      (awaitWake (n + 1)).run (after (runReady turnsPerRound) m) := by
    rw [awaitWake, StateT.run_bind]
    show (if m.mainReady then _ else _ : Action α Bool).run m = _
    rw [if_neg (by simp [hasleep]), StateT.run_bind]
    show (if (after (runReady turnsPerRound) m).mainReady || _ then _ else _ : Action α Bool).run
      (after (runReady turnsPerRound) m) = _
    rw [if_pos (by simp [hround, hawake])]
  have hlast := run_awaitWake_of_awake
    (m := { m' with ready := m'.ready.drop (turnsPerRound - 1) }) hawake n
  exact ⟨_, by rw [hn, hfirst, hround, hlast]⟩

/-- Main goes on when the time has come at which it wanted to be woken, if nobody else can go on. -/
theorem run_awaitWake_of_timer {due : Nat} (hasleep : m.mainReady = false) (hready : m.ready = [])
    (htimers : m.timers = [(due, .main)]) : (awaitWake stepLimit).run m =
      (true, { m with now := max m.now due, timers := [] }) := by
  obtain ⟨now, registry, query, executors, join, union, threads, ready, mainReady, timers⟩ := m
  cases hasleep
  cases hready
  cases htimers
  obtain ⟨n, hn⟩ : ∃ n, stepLimit = n + 2 := ⟨stepLimit - 2, rfl⟩
  let m : Machine α := ⟨now, registry, query, executors, join, union, threads, [], false,
    [(due, .main)]⟩
  let later : Machine α := ⟨max now due, registry, query, executors, join, union, threads, [], true,
    []⟩
  have hadvance : (advance (α := α)).run m = (true, later) := by
    have hspan : [(due, Waker.main)].span (fun t => decide (t.1 ≤ max now due)) =
        ([(due, .main)], []) := by
      simp [List.span, List.span.loop]
    show (do
      for t in ([(due, Waker.main)].span (fun t => decide (t.1 ≤ max now due))).1 do wake t.2
      return true : Action α Bool).run { m with
        now := max now due
        timers := ([(due, Waker.main)].span (fun t => decide (t.1 ≤ max now due))).2 } = _
    rw [hspan]
    rfl
  have hfirst : (awaitWake (n + 2)).run m = (awaitWake (n + 1)).run later := by
    rw [awaitWake, run_get_bind, if_neg Bool.false_ne_true]
    show (advance >>= fun advanced =>
      if advanced then awaitWake (n + 1) else return false).run m = _
    rw [run_bind_of_run hadvance]
    rfl
  rw [hn, hfirst]
  exact run_awaitWake_of_awake (m := later) rfl n

/-! ### Steps of main -/

variable {σ β : Type} {step : σ → Action α (MainStep σ β)} {s s' : σ} {m' m'' : Machine α}

theorem run_runMain_of_finished {r : β} (h : (step s).run m = (.finished r, m')) (limit : Nat) :
    (runMain step (limit + 1) s).run m = (some r, m') := by
  rw [runMain, run_bind_of_run h]
  rfl

theorem run_runMain_of_goesOn (h : (step s).run m = (.goesOn s', m')) (limit : Nat) :
    (runMain step (limit + 1) s).run m = (runMain step limit s').run m' := by
  rw [runMain, run_bind_of_run h]

theorem run_runMain_of_waits (h : (step s).run m = (.waits s', m'))
    (hwoken : (awaitWake stepLimit).run m' = (true, m'')) (limit : Nat) :
    (runMain step (limit + 1) s).run m = (runMain step limit s').run m'' := by
  rw [runMain, run_bind_of_run h]
  dsimp only
  rw [run_bind_of_run hwoken]
  rfl

/-- What pulling comes to is what a step of collecting comes to. -/
theorem run_takeStep {c c' : Cursor α} {r : Pulled α} (taken : List α)
    (h : (pull .main c).run m = ((r, c'), m')) :
    (takeStep none (pull .main) (taken, c)).run m = (takeNext taken (r, c'), m') := by
  rw [takeStep_eq, run_bind_of_run h]
  rfl

end Waiting

/-! ### Programs that work alone -/

section Alone

variable {m : Machine α} {answers : Answers}

/-- Nobody but main can go on, and its query goes on without a deadline. -/
structure Still (answers : Answers) (m : Machine α) : Prop where
  ready : m.ready = []
  asleep : m.mainReady = false
  timers : m.timers = []
  answers : m.registry.answers = answers
  live : m.query.aborted = false
  untimed : m.query.deadline = none

theorem Still.checkActive (h : Still answers m) : m.query.checkActive m.now = .ok () := by
  rw [QueryContext.checkActive, QueryContext.checkAborted, h.live, QueryContext.checkTimeout,
    QueryContext.isExpired, h.untimed]
  rfl

variable [DecidableEq α]

/-- Main waits for a time to come. -/
theorem Still.run_awaitWake (h : Still answers m) (due : Nat) :
    (awaitWake stepLimit).run { m with timers := insertTimer (due, .main) m.timers } =
      (true, { m with now := max m.now due }) := by
  obtain ⟨now, registry, query, executors, join, union, threads, ready, mainReady, timers⟩ := m
  obtain ⟨rfl, rfl, rfl, -, -, -⟩ := h
  exact run_awaitWake_of_timer rfl rfl rfl

/-- What a step of a program that main runs comes to. -/
def ranNext : Ran α → MainStep (Run α) (Except FedError (Cursor α))
  | .done c => .finished (.ok c)
  | .failed e => .finished (.error e)
  | .panicked => .finished (.error (.internalScheduling (.taskPanicked "evaluation")))
  | .progress run => .goesOn run
  | .wait run => .waits run

/-- One step of a program that main runs. -/
def mainStep (run : Run α) : Action α (MainStep (Run α) (Except FedError (Cursor α))) := do
  return ranNext (← stepRun (← get).executors.size .main run)

theorem runWork_eq (w : Work α) : runWork w = runMain mainStep stepLimit (.ready w) := by
  have hstep : mainStep = fun run : Run α => (do
      match ← stepRun (← get).executors.size .main run with
      | .done c => return .finished (.ok c)
      | .failed e => return .finished (.error e)
      | .panicked => return .finished (.error (.internalScheduling (.taskPanicked "evaluation")))
      | .progress run => return .goesOn run
      | .wait run => return .waits run :
        Action α (MainStep (Run α) (Except FedError (Cursor α)))) := by
    funext run
    rw [mainStep]
    refine bind_congr fun m => bind_congr fun ran => ?_
    cases ran <;> rfl
  rw [hstep]
  rfl

theorem run_mainStep {run : Run α} {ran : Ran α} {m' : Machine α}
    (h : (stepRun m.executors.size .main run).run m = (ran, m')) :
    (mainStep run).run m = (ranNext ran, m') := by
  rw [mainStep, run_get_bind, run_bind_of_run h]
  rfl

/-- What becomes of a program with a result: it is at its end, or goes on at once or some time
later. -/
inductive GoesOn (answers : Answers) (m : Machine α) (run : Run α) (feed : Feed α) : Prop
  | ends {c : Cursor α} (stepped : (stepRun m.executors.size .main run).run m = (.done c, m))
    (opens : openFeed feed = pure c)
  | atOnce (run' : Run α) {m' : Machine α}
    (stepped : (stepRun m.executors.size .main run).run m = (.progress run', m'))
    (still : Still answers m') (alone : run'.Alone) (ending : run'.ending answers = .ok feed)
    (due : ∀ due, run'.due? = some due → due ≤ m'.now)
    (shorter : run'.size answers < run.size answers)
  | later (run' : Run α) (time : Nat) {m' : Machine α}
    (stepped : (stepRun m.executors.size .main run).run m =
      (.wait run', { m' with timers := insertTimer (time, .main) m'.timers }))
    (still : Still answers m') (alone : run'.Alone) (ending : run'.ending answers = .ok feed)
    (due : ∀ due, run'.due? = some due → due ≤ time)
    (shorter : run'.size answers < run.size answers)

omit [DecidableEq α] in
/-- A program that has work to do waits for no moment. -/
theorem due_ready {w : Work α} {now : Nat} (due : Nat) (h : (Run.ready w).due? = some due) :
    due ≤ now := by
  cases h

/-- **A step of a program that works alone** is its end or leaves fewer steps. -/
theorem Still.goesOn (h : Still answers m) {run : Run α} {feed : Feed α} (halone : run.Alone)
    (hending : run.ending answers = .ok feed) (hdue : ∀ due, run.due? = some due → due ≤ m.now) :
    GoesOn answers m run feed := by
  cases run with
  | ready w =>
    cases w with
    | done feed' =>
      obtain ⟨c, hopen, -, -⟩ := Feed.openFeed_atHand answers (f := feed') halone
      obtain rfl := Except.ok.inj hending
      refine .ends ?_ hopen
      rw [stepRun, stepWork, hopen]
      rfl
    | fail e => cases hending
    | panic => cases hending
    | sleep ms next =>
      by_cases hms : ms = 0
      · refine .atOnce (.ready next) ?_ h halone hending due_ready ?_
        · rw [stepRun, stepWork, run_get_bind, if_pos hms]
          rfl
        · simp [Run.size, Work.size]
      · refine .later (.sleeping (m.now + ms) next) (m.now + ms) ?_ h halone hending ?_ ?_
        · rw [stepRun, stepWork, run_get_bind, if_neg hms]
          rfl
        · exact fun due hdue => (Option.some.inj hdue).ge
        · simp [Run.size, Work.size]
    | request endpoint q next =>
      cases hknown : m.registry.known? endpoint with
      | none =>
        have hanswer : answers endpoint q = .error (.endpoint (.unknownEndpoint endpoint)) := by
          rw [← h.answers, Registry.answers, hknown]
        refine .atOnce (.ready (next (.error (.endpoint (.unknownEndpoint endpoint))))) ?_ h
          (halone _) ?_ due_ready ?_
        · rw [stepRun, stepWork, run_get_bind, hknown]
          rfl
        · rw [← hanswer]
          exact hending
        · simp [Run.size, Work.size, hanswer]
      | some member =>
        let m' : Machine α := { m with registry := m.registry.update endpoint (·.receive q) }
        let due := m.now + member.latency q
        let run' : Run α := .awaiting due endpoint q next
        have hstill : Still answers m' :=
          { h with answers := (m.registry.answers_receive endpoint q).trans h.answers }
        have hshorter : run'.size answers <
            (Run.ready (.request endpoint q next)).size answers := by
          simp [run', Run.size, Work.size]
        have hstep : (stepRun m.executors.size .main (.ready (.request endpoint q next))).run m =
            (if due > m.now then do
              wakeAt due .main
              return .wait run'
            else return .progress run' : Action α (Ran α)).run m' := by
          rw [stepRun, stepWork, run_get_bind, hknown]
          dsimp only
          rw [run_bind]
          rfl
        by_cases htime : due > m.now
        · rw [if_pos htime] at hstep
          exact .later run' due hstep hstill halone hending
            (fun t ht => (Option.some.inj ht).ge) hshorter
        · rw [if_neg htime] at hstep
          refine .atOnce run' hstep hstill halone hending ?_ hshorter
          intro t ht
          obtain rfl := Option.some.inj ht
          exact not_lt.mp htime
    | repair endpoint next =>
      have hstill : Still answers { m with registry := (m.registry.repair endpoint).2 } :=
        { h with answers := (m.registry.answers_repair endpoint).trans h.answers }
      refine .atOnce (.ready next) ?_ hstill halone hending due_ready ?_
      · rw [stepRun, stepWork]
        rfl
      · simp [Run.size, Work.size]
    | check next =>
      refine .atOnce (.ready next) ?_ h halone hending due_ready ?_
      · rw [stepRun, stepWork, run_get_bind, h.checkActive]
        rfl
      · simp [Run.size, Work.size]
    | gather parts next => exact halone.elim
  | sleeping due next =>
    refine .atOnce (.ready next) ?_ h halone hending due_ready ?_
    · rw [stepRun, run_get_bind, if_pos (hdue due rfl)]
      rfl
    · simp [Run.size]
  | awaiting due endpoint q next =>
    have hanswer : answers endpoint q = m.registry.answers endpoint q := by rw [h.answers]
    refine .atOnce (.ready (next (answers endpoint q))) ?_ h (halone _) hending due_ready ?_
    · rw [stepRun, run_get_bind, if_pos (hdue due rfl), hanswer, Registry.answers]
      cases m.registry.known? endpoint <;> rfl
    · simp [Run.size]
  | gathering parts next => exact halone.elim

/-- **Main runs a program that works alone to its end.** -/
theorem Still.exists_runMain (limit : Nat) {run : Run α} {feed : Feed α} (h : Still answers m)
    (halone : run.Alone) (hending : run.ending answers = .ok feed)
    (hdue : ∀ due, run.due? = some due → due ≤ m.now) (hsize : run.size answers < limit) :
    ∃ c m', (runMain mainStep limit run).run m = (some (.ok c), m') ∧ openFeed feed = pure c := by
  induction limit generalizing run m with
  | zero => exact absurd hsize (Nat.not_lt_zero _)
  | succ limit ih =>
    cases h.goesOn halone hending hdue with
    | ends stepped opens =>
      exact ⟨_, _, run_runMain_of_finished (run_mainStep stepped) limit, opens⟩
    | atOnce run' stepped still alone ending due shorter =>
      rw [run_runMain_of_goesOn (run_mainStep stepped)]
      exact ih still alone ending due (by omega)
    | @later run' time m' stepped still alone ending due shorter =>
      rw [run_runMain_of_waits (run_mainStep stepped) (still.run_awaitWake time)]
      have hstill : Still answers { m' with now := max m'.now time } := { still with }
      exact ih hstill alone ending (fun t ht => (due t ht).trans (le_max_right _ _)) (by omega)

/-- **Collecting the result of a program that works alone** comes to all its items. -/
theorem Still.value_collect (h : Still answers m) {w : Work α} {xs : List α} (halone : w.Alone)
    (hending : w.ending answers = .ok (.rows xs)) (hsize : w.size answers < stepLimit)
    (hrows : xs.length < stepLimit) : value (Federation.collect w) m = .ok xs := by
  have hready : (Run.ready w).Alone := halone
  obtain ⟨c, m', hruns, hopens⟩ := h.exists_runMain stepLimit hready hending nofun hsize
  rw [← runWork_eq] at hruns
  obtain rfl : Cursor.ofList xs = c := congrArg (value · m) hopens
  have hshort : (Cursor.ofList xs).size < stepLimit := by
    cases xs <;> exact hrows
  have htaken := (Cursor.atHand_ofList xs).result_take hshort m'
  rw [Cursor.arrivals_ofList, Arrivals.collect_ofList] at htaken
  obtain ⟨taken, hvalue, hresult⟩ := Option.map_eq_some_iff.mp htaken
  rw [Federation.collect, value, run_bind_of_run hruns, ← value]
  dsimp only
  rw [value_bind, hvalue]
  dsimp only
  rw [value_bind, ← hresult]
  cases hending : taken.ending <;> simp [Taken.result, hending] <;> rfl

end Alone

end Machine

end FederatedSparql
