import FederatedSparql.Proofs.Machine.Accounts
import FederatedSparql.Proofs.Machine.Crews
import FederatedSparql.Proofs.Machine.RunFrames

/-!
What a pool leaves behind when it is shut down.

Shutting a pool down stops its intake and lets its workers go on until they are at their ends or the
time is up, when they are interrupted.  Nobody takes what is in the queue then: only aborting the
pool empties the queue.

* `Machine.dismissed_shutDownPool`: when the program that shuts a pool down is done, the pool takes
  no more jobs, and the workers that are left are told to end.
* `Site.shutDown_releases_iff`: when the workers are gone, all that was given to the pool is
  released just when its queue was empty as the shutdown returned; what was in the queue is waited
  for as before.
* `Site.shutDown_keeps_unstarted`: a pool that was never started keeps its jobs.
-/

namespace FederatedSparql

open Machine

/-- The other pool. -/
def PoolName.other : PoolName → PoolName
  | .join => .union
  | .union => .join

namespace Machine

variable {α : Type} {m m' : Machine α} {p : PoolName}

/-- A pool takes no more jobs, and its workers, if there are any, are told to end. -/
structure Dismissed (m : Machine α) (p : PoolName) : Prop where
  stopped : (m.crew p).pool.accepting = false
  doomed : ∀ t, m.poolOf t = some p → m.isDoomed t = true

theorem Dismissed.dwindles (h : m.Dismissed p) (hdwindles : Dwindles p m m') :
    m'.Dismissed p where
  stopped := hdwindles.stopped h.stopped
  doomed t ht := hdwindles.doomed t (h.doomed t (hdwindles.nobody t ht))

theorem poolOf_of_isFinished {t : Nat} (h : m.isFinished t = true) : m.poolOf t = none := by
  rw [isFinished] at h
  rw [poolOf, activity?]
  split at h
  · next hth => rw [hth]; rfl
  · exact absurd h Bool.false_ne_true
  · next hth => rw [hth]; rfl

/-- A thread that is interrupted is told to end. -/
theorem isDoomed_doom (m : Machine α) {t : Nat} (ht : (after (doom t) m).poolOf t ≠ none) :
    (after (doom t) m).isDoomed t = true := by
  have hthreads : (after (doom t) m).threads =
      m.threads.modify t fun th => { th with doomed := true } := threads_wake t _
  rw [poolOf, activity?, hthreads, Array.getElem?_modify, if_pos rfl] at ht
  rw [isDoomed, hthreads, Array.getElem?_modify, if_pos rfl]
  cases hth : m.threads[t]? with
  | none => simp [hth] at ht
  | some th => rfl

/-! ### The program -/

theorem dwindles_doom (p : PoolName) (t : Nat) : Keeps (Dwindles (α := α) p) (doom t) :=
  fun m => .of_keepsCrews fun _ _ => turnFrame_keepsCrews.doom t m

theorem dwindles_stopIntake (p : PoolName) : Keeps (Dwindles (α := α) p) (stopIntake p) := by
  intro m
  refine ⟨staffs_stopIntake p p m, fun t ht => ?_⟩
  rwa [poolOf, activity?, threads_stopIntake] at ht

section Programs

variable [BEq α]

/-- **Nobody begins to work for a pool while main waits.** -/
theorem runFrame_dwindles (p : PoolName) : RunFrame (α := α) (Dwindles p) where
  refl := .refl
  trans := .trans
  turn t m := .of_turn (keepsCrews_stepThread m t)
  aside h := .of_keepsCrews fun _ _ => .of_parts h.threads h.join h.union

/-- Workers that are interrupted one after another are told to end. -/
theorem isDoomed_doomAll {t : Nat} {ts : List Nat} (ht : t ∈ ts)
    (hpool : (after (forIn ts PUnit.unit fun t _ => do
      doom t
      return ForInStep.yield PUnit.unit) m).poolOf t = some p) :
    (after (forIn ts PUnit.unit fun t _ => do
      doom t
      return ForInStep.yield PUnit.unit) m).isDoomed t = true := by
  induction ts generalizing m with
  | nil => simp at ht
  | cons u ts ih =>
    rw [List.forIn_cons] at hpool ⊢
    rcases List.mem_cons.mp ht with rfl | hrest
    · have hrest := (runFrame_dwindles p).keeps_forIn ts (dwindles_doom p) (after (doom t) m)
      have hbefore := hrest.nobody t hpool
      apply hrest.doomed
      exact isDoomed_doom m fun hnone => absurd (hnone.symm.trans hbefore) nofun
    · exact ih hrest hpool

/-- Whether threads are at their ends, or it is too late for that. -/
def joinStep (ts : List Nat) (due : Nat) (_ : Unit) : Action α (MainStep Unit Bool) := do
  let m ← get
  return if ts.all m.isFinished then .finished true
    else if due ≤ m.now then .finished false else .waits ()

/-- Waiting for threads is running main, after a timer has been set perhaps. -/
theorem exists_joinThreads (ts : List Nat) (timeout : Nat) (m : Machine α) :
    ∃ due m', Aside m m' ∧
      value (joinThreads ts timeout) m =
        (value (runMain (joinStep ts due) stepLimit ()) m').getD false ∧
      after (joinThreads ts timeout) m = after (runMain (joinStep ts due) stepLimit ()) m' := by
  by_cases htimeout : timeout > 0
  · have hjoin : joinThreads (α := α) ts timeout = (do
        let due := (← get).now + timeout
        wakeAt due .main
        return (← runMain (joinStep ts due) stepLimit ()).getD false) := by
      simp only [joinThreads, htimeout, if_true]
      rfl
    rw [hjoin]
    exact ⟨m.now + timeout, after (wakeAt (m.now + timeout) .main) m,
      ⟨rfl, rfl, rfl, rfl, rfl, rfl⟩, rfl, rfl⟩
  · have hjoin : joinThreads (α := α) ts timeout = (do
        let due := (← get).now + timeout
        return (← runMain (joinStep ts due) stepLimit ()).getD false) := by
      simp only [joinThreads, htimeout, if_false]
      rfl
    rw [hjoin]
    exact ⟨m.now + timeout, m, ⟨rfl, rfl, rfl, rfl, rfl, rfl⟩, rfl, rfl⟩

/-- Waiting for threads comes out true only when they are at their ends. -/
theorem isFinished_of_joined {ts : List Nat} {due limit : Nat}
    (h : value (runMain (joinStep ts due) limit ()) m = some true) :
    ts.all (after (runMain (joinStep ts due) limit ()) m).isFinished = true := by
  induction limit generalizing m with
  | zero => exact absurd h nofun
  | succ limit ih =>
    have hstep : value (joinStep ts due ()) m = if ts.all m.isFinished then .finished true
        else if due ≤ m.now then .finished false else .waits () := rfl
    have hafter : after (joinStep ts due ()) m = m := rfl
    rw [runMain, value_bind, hstep, hafter] at h
    rw [runMain, after_bind, hstep, hafter]
    by_cases hended : ts.all m.isFinished = true
    · rw [if_pos hended]
      exact hended
    · rw [if_neg hended] at h ⊢
      by_cases hdue : due ≤ m.now
      · rw [if_pos hdue] at h
        exact absurd (Option.some.inj h) nofun
      · rw [if_neg hdue] at h ⊢
        dsimp only at h ⊢
        rw [value_bind] at h
        rw [after_bind]
        cases hwoken : value (awaitWake stepLimit) m with
        | true =>
          rw [hwoken] at h
          exact ih h
        | false =>
          rw [hwoken] at h
          exact absurd h nofun

/-- **Shutting a pool down leaves a crew that takes no jobs and whose workers are told to end.** -/
theorem dismissed_shutDownPool (h : m.Crewed p (m.crew p).threads) (timeout : Nat) :
    (after (shutDownPool p timeout) m).Dismissed p := by
  have hR := runFrame_dwindles (α := α) p
  have hstopped : ((after (stopIntake p) m).crew p).pool.accepting = false := by
    rw [crew_stopIntake, if_pos rfl]
    rfl
  have hcrewed := h.dwindles (dwindles_stopIntake p m)
  obtain ⟨due, m', haside, hvalue, hafter⟩ :=
    exists_joinThreads (m.crew p).threads timeout (after (stopIntake p) m)
  have hjoined : Dwindles p (after (stopIntake p) m)
      (after (joinThreads (m.crew p).threads timeout) (after (stopIntake p) m)) := by
    have steps (u : Unit) : Keeps (Dwindles p) (joinStep (α := α) (m.crew p).threads due u) :=
      hR.refl
    rw [hafter]
    exact hR.trans (hR.aside haside) (hR.keeps_runMain steps _ _ _)
  rw [shutDownPool, after_bind, after_bind]
  show Dismissed (after (if value (joinThreads (m.crew p).threads timeout) _ then _ else _) _) p
  split
  · next htrue =>
    have hended : (m.crew p).threads.all (after (joinThreads (m.crew p).threads timeout)
        (after (stopIntake p) m)).isFinished = true := by
      rw [hafter]
      apply isFinished_of_joined
      rw [hvalue] at htrue
      exact (Option.getD_eq_iff.mp htrue).resolve_right nofun
    have hleft := hcrewed.dwindles hjoined
    refine ⟨hjoined.stopped hstopped, ?_⟩
    intro t ht
    have hgone := poolOf_of_isFinished (List.all_eq_true.mp hended t (hleft.all t ht))
    exact absurd (hgone.symm.trans ht) nofun
  · have hinterrupted := hR.keeps_forIn (m.crew p).threads (dwindles_doom p)
      (after (joinThreads (m.crew p).threads timeout) (after (stopIntake p) m))
    have hmoved := hjoined.trans hinterrupted
    refine ⟨hmoved.stopped hstopped, ?_⟩
    intro t ht
    exact isDoomed_doomAll ((hcrewed.dwindles hmoved).all t ht) ht

end Programs

end Machine

namespace Site

variable {s s' : Site} {p : PoolName} {timeout : Nat} {moves : List Move}

/-! ### The jobs of a pool -/

/-- The jobs of a pool that workers have in hand. -/
def jobsInHandOf (s : Site) (p : PoolName) : List (Job Bindings) :=
  (s.machine.hands.filter (·.pool? = some p)).filterMap Activity.job?

/-- The jobs of a pool that are neither over nor given up. -/
def jobsOf (s : Site) (p : PoolName) : List (Job Bindings) :=
  s.jobsInHandOf p ++ (s.machine.crew p).jobs

/-- Nothing is waited for because of a pool: what is counted is only the jobs of the other pool, and
tasks that have been counted by hand. -/
structure Released (s : Site) (p : PoolName) : Prop where
  pending : ∀ id, s.machine.pendingOf id =
    s.byHand id + (s.jobsOf p.other).countP (·.executor = id)
  taskCount : ∀ q, (s.context q).taskCount = ∑ id ∈ Finset.range s.machine.executors.size,
    if s.owner id = q then s.byHand id + (s.jobsOf p.other).countP (·.executor = id) else 0

/-! ### Shutting down -/

/-- What becomes of a site when a pool is shut down, whatever happens meanwhile. -/
inductive ShutDown (p : PoolName) (timeout : Nat) (s : Site) : Site → Prop where
  /-- The workers are at their ends in time. -/
  | drained {moves : List Move} (hmoves : .startPool p ∉ moves)
      (hended : ∀ t ∈ (s.machine.crew p).threads,
        ((s.step (.stopIntake p)).run moves).machine.isFinished t = true) :
      ShutDown p timeout s ((s.step (.stopIntake p)).run moves)
  /-- The time is up, and the workers are interrupted. -/
  | timedOut {moves : List Move} (hmoves : .startPool p ∉ moves)
      (hdue : s.machine.now + timeout ≤ ((s.step (.stopIntake p)).run moves).machine.now) :
      ShutDown p timeout s (((s.step (.stopIntake p)).run moves).run
        ((s.machine.crew p).threads.map .interrupt))

/-! ### Workers that are told to end -/

/-- **Nobody takes the jobs that are left**, however things go on. -/
theorem jobs_run (h : s.machine.Dismissed p) (hmoves : .startPool p ∉ moves)
    (hkept : .giveUp p ∉ moves) :
    ((s.run moves).machine.crew p).jobs = (s.machine.crew p).jobs := by
  induction moves generalizing s with
  | nil => rfl
  | cons move moves ih =>
    rw [List.mem_cons, not_or] at hmoves hkept
    have hstep := h.dwindles (dwindles_step (Ne.symm hmoves.1) s)
    exact (ih hstep hmoves.2 hkept.2).trans (jobs_step h.stopped h.doomed (Ne.symm hkept.1))

/-- Workers that are interrupted are told to end. -/
theorem isDoomed_run_interrupt {t : Nat} {ts : List Nat} (ht : t ∈ ts)
    (hpool : (s.run (ts.map .interrupt)).machine.poolOf t = some p) :
    (s.run (ts.map .interrupt)).machine.isDoomed t = true := by
  induction ts generalizing s with
  | nil => simp at ht
  | cons u ts ih =>
    rcases List.mem_cons.mp ht with rfl | hrest
    · have hrest : Dwindles p (s.step (.interrupt t)).machine
          ((s.step (.interrupt t)).run (ts.map .interrupt)).machine := dwindles_run (by simp) _
      have hbefore := hrest.nobody t hpool
      apply hrest.doomed
      exact isDoomed_doom (s.seen 0) fun hnone => absurd (hnone.symm.trans hbefore) nofun
    · exact ih hrest hpool

/-- What a shutdown leaves is a crew that takes no jobs and whose workers are told to end. -/
theorem ShutDown.dismissed (hshut : s.ShutDown p timeout s')
    (h : s.machine.Crewed p (s.machine.crew p).threads) :
    s'.machine.Dismissed p ∧ s'.machine.Crewed p (s.machine.crew p).threads := by
  have hstopped : ((s.step (.stopIntake p)).machine.crew p).pool.accepting = false := by
    rw [crew_step_stopIntake, if_pos rfl]
    rfl
  have hstop : Dwindles p s.machine (s.step (.stopIntake p)).machine :=
    dwindles_step (by simp) s
  cases hshut with
  | drained hmoves hended =>
    have hmoved := dwindles_run hmoves (s.step (.stopIntake p))
    have hcrewed := h.dwindles (hstop.trans hmoved)
    refine ⟨⟨hmoved.stopped hstopped, ?_⟩, hcrewed⟩
    intro t ht
    have hgone := poolOf_of_isFinished (hended t (hcrewed.all t ht))
    exact absurd (hgone.symm.trans ht) nofun
  | @timedOut moves hmoves hdue =>
    have hmoved := dwindles_run hmoves (s.step (.stopIntake p))
    have hinterrupted : Dwindles p ((s.step (.stopIntake p)).run moves).machine
        (((s.step (.stopIntake p)).run moves).run
          ((s.machine.crew p).threads.map .interrupt)).machine := dwindles_run (by simp) _
    have hcrewed := h.dwindles (hstop.trans (hmoved.trans hinterrupted))
    refine ⟨⟨hinterrupted.stopped (hmoved.stopped hstopped), ?_⟩, hcrewed⟩
    intro t ht
    exact isDoomed_run_interrupt (hcrewed.all t ht) ht

/-! ### What is counted -/

theorem exists_of_mem_hands {a : Activity Bindings} (h : a ∈ s.machine.hands) :
    ∃ t, s.machine.activity? t = some a := by
  rw [hands, List.reduceOption_mem_iff, List.mem_map] at h
  obtain ⟨th, hth, ha⟩ := h
  obtain ⟨t, ht, rfl⟩ := List.mem_iff_getElem.mp hth
  obtain ⟨-, ha⟩ := Option.ite_none_right_eq_some.mp ha
  refine ⟨t, ?_⟩
  rw [← ha, activity?, ← Array.getElem?_toList, List.getElem?_eq_getElem ht]
  rfl

/-- Who has a job in hand belongs to one of the pools. -/
theorem jobsInHand_perm_pools (s : Site) (p : PoolName) :
    s.jobsInHand.Perm (s.jobsInHandOf p ++ s.jobsInHandOf p.other) := by
  have hother : s.jobsInHandOf p.other =
      (s.machine.hands.filter fun a => !decide (a.pool? = some p)).filterMap Activity.job? := by
    rw [jobsInHandOf, List.filterMap_filter, List.filterMap_filter]
    congr 1
    funext a
    cases a with
    | working p' _ _ => cases p <;> cases p' <;> rfl
    | sending p' _ _ => cases p <;> cases p' <;> rfl
    | _ => simp [Activity.job?]
  rw [hother, jobsInHandOf, ← List.filterMap_append]
  exact ((List.filter_append_perm _ _).filterMap _).symm

theorem openJobs_perm_pools (s : Site) (p : PoolName) :
    s.openJobs.Perm (s.jobsOf p ++ s.jobsOf p.other) := by
  have hwaiting : s.jobsWaiting.Perm
      ((s.machine.crew p).jobs ++ (s.machine.crew p.other).jobs) := by
    cases p with
    | join => exact .refl _
    | union => exact List.perm_append_comm
  apply ((s.jobsInHand_perm_pools p).append hwaiting).trans
  simp only [jobsOf, List.append_assoc]
  exact (List.perm_append_comm_assoc _ _ _).append_left _

theorem released_iff (h : s.Counts s.openJobs) (p : PoolName) :
    s.Released p ↔ s.jobsOf p = [] := by
  have hpending (id : Nat) : s.machine.pendingOf id = s.byHand id +
      ((s.jobsOf p).countP (·.executor = id) + (s.jobsOf p.other).countP (·.executor = id)) := by
    rw [h.pending, (s.openJobs_perm_pools p).countP_eq, List.countP_append]
  constructor
  · intro hreleased
    by_contra hleft
    obtain ⟨job, hjob⟩ := List.exists_mem_of_ne_nil _ hleft
    have hcounted : 0 < (s.jobsOf p).countP (·.executor = job.executor) :=
      List.countP_pos_iff.mpr ⟨job, hjob, by simp⟩
    have := hreleased.pending job.executor
    have := hpending job.executor
    omega
  · intro hnone
    have hrest (id : Nat) : s.machine.pendingOf id =
        s.byHand id + (s.jobsOf p.other).countP (·.executor = id) := by
      rw [hpending, hnone, List.countP_nil, Nat.zero_add]
    constructor
    · exact hrest
    · intro q
      rw [h.total, total]
      simp only [hrest]

/-- Nobody has a job of a pool in hand that nobody works for. -/
theorem jobsInHandOf_eq_nil (h : ∀ t, s.machine.poolOf t ≠ some p) : s.jobsInHandOf p = [] := by
  rw [jobsInHandOf]
  suffices hnone : s.machine.hands.filter (·.pool? = some p) = [] by rw [hnone]; rfl
  rw [List.filter_eq_nil_iff]
  intro a ha hpool
  obtain ⟨t, ht⟩ := exists_of_mem_hands ha
  apply h t
  rw [poolOf, ht]
  exact of_decide_eq_true hpool

/-- Whoever waits for an open job goes on waiting. -/
theorem value_checkTasks_of_open (h : s.Counts s.openJobs) {job : Job Bindings} {q : Nat}
    (hjob : job ∈ s.openJobs) {e : Executor Bindings}
    (he : s.machine.executors[job.executor]? = some e)
    (hlive : (s.seen q).isCancelled e = false) :
    value (checkTasks job.executor none) (s.seen q) = .pending := by
  have hpending : e.pending ≠ 0 := by
    have hcounted : 0 < s.openJobs.countP (·.executor = job.executor) :=
      List.countP_pos_iff.mpr ⟨job, hjob, by simp⟩
    have hpendingOf := h.pending job.executor
    rw [pendingOf, he] at hpendingOf
    simp only [Option.map_some, Option.getD_some] at hpendingOf
    omega
  have hseen : (s.seen q).executors[job.executor]? = some e := he
  rw [checkTasks, value_bind, value_get, hseen]
  simp only [hlive, hpending, Bool.false_or, decide_false, Bool.false_eq_true, if_false,
    Option.any_none]
  rfl

theorem ShutDown.counts (hshut : s.ShutDown p timeout s') (h : s.Counts s.openJobs) :
    s'.Counts s'.openJobs := by
  cases hshut with
  | drained => exact counts_run (h.step _) _
  | timedOut => exact counts_run (counts_run (h.step _) _) _

/-- **A shutdown releases everything that was given to a pool just when it leaves no job in the
queue.**  When the workers are gone, what is open are the jobs that were in the queue as the
shutdown returned, however things go on; whoever waits for one of them goes on waiting.  There are
none if a worker came to its end without being interrupted. -/
theorem shutDown_releases_iff (x : Opening) {p : PoolName} {timeout : Nat} {before after : List Move}
    {s' : Site} (hbefore : .stopIntake p ∉ before)
    (hshut : (x.site.run before).ShutDown p timeout s')
    (hafter : .startPool p ∉ after) (hkept : .giveUp p ∉ after)
    (hgone : ∀ t ∈ ((x.site.run before).machine.crew p).threads,
      (s'.run after).machine.isFinished t = true) :
    let left := (s'.machine.crew p).jobs
    ((s'.run after).Released p ↔ left = []) ∧ (s'.run after).jobsOf p = left ∧
      (∀ job ∈ left, ∀ e, (s'.run after).machine.executors[job.executor]? = some e →
        ∀ q, ((s'.run after).seen q).isCancelled e = false →
          value (checkTasks job.executor none) ((s'.run after).seen q) = .pending) ∧
      ((∃ t ∈ ((x.site.run before).machine.crew p).threads,
        s'.machine.isFinished t = true ∧ s'.machine.isDoomed t = false) → left = []) := by
  have hcounts : (s'.run after).Counts (s'.run after).openJobs :=
    counts_run (hshut.counts (counts_run (counts_site x) before)) after
  obtain ⟨hdismissed, hcrewed⟩ := hshut.dismissed (crewed_run_threads (crewed_site x p) hbefore)
  have hnobody (t : Nat) : (s'.run after).machine.poolOf t ≠ some p := by
    intro ht
    have hended := hgone t ((hcrewed.dwindles (dwindles_run hafter s')).all t ht)
    exact absurd ((poolOf_of_isFinished hended).symm.trans ht) nofun
  have hleft : (s'.run after).jobsOf p = (s'.machine.crew p).jobs := by
    rw [jobsOf, jobsInHandOf_eq_nil hnobody, jobs_run hdismissed hafter hkept, List.nil_append]
  refine ⟨?_, hleft, ?_, ?_⟩
  · rw [released_iff hcounts, hleft]
  · intro job hjob e he q hlive
    apply value_checkTasks_of_open hcounts _ he hlive
    rw [((s'.run after).openJobs_perm_pools p).mem_iff, hleft]
    exact List.mem_append_left _ hjob
  · rintro ⟨t, ht, hended, hkept⟩
    rcases hcrewed.gone t ht with hstays | hdoomed | ⟨-, hjobs⟩
    · exact absurd ((poolOf_of_isFinished hended).symm.trans hstays) nofun
    · exact absurd (hkept.symm.trans hdoomed) nofun
    · exact hjobs

/-! ### Pools of one worker -/

/-- A query on pools of one worker each. -/
def oneWorker : Opening where
  joinWorkers := 1
  unionWorkers := 1
  cursor _ := .empty

/-- A worker has taken the first of two jobs. -/
def oneJobWaits : List Move :=
  [.startPool .join, .deed 0 (.addExecutor false),
    .schedule .join 0 "first" (.done (.rows [])), .schedule .join 0 "second" (.done (.rows [])),
    .thread 0]

/-- The worker is interrupted at its first job, and the second one stays. -/
theorem shutDown_releases_iff_busy :
    let s := oneWorker.site.run oneJobWaits
    let s' := ((s.step (.stopIntake .join)).run [.time 100]).run [.interrupt 0]
    .stopIntake .join ∉ oneJobWaits ∧ s.ShutDown .join 100 s' ∧
      (∀ t ∈ (s.machine.crew .join).threads, (s'.run [.thread 0]).machine.isFinished t = true) ∧
      (s'.machine.crew .join).jobs.length = 1 ∧ ¬ (s'.run [.thread 0]).Released .join := by
  intro s s'
  have hbefore : .stopIntake .join ∉ oneJobWaits := by simp [oneJobWaits]
  have hshut : s.ShutDown .join 100 s' := .timedOut (by simp) (by decide)
  have hgone : ∀ t ∈ (s.machine.crew .join).threads,
      (s'.run [.thread 0]).machine.isFinished t = true := by decide
  have hleft : (s'.machine.crew .join).jobs.length = 1 := by decide
  refine ⟨hbefore, hshut, hgone, hleft, ?_⟩
  rw [(shutDown_releases_iff oneWorker hbefore hshut (by simp) (by simp) hgone).1]
  exact List.ne_nil_of_length_eq_add_one hleft

/-- **A pool that was never started keeps its jobs when it is shut down.** -/
theorem shutDown_keeps_unstarted :
    let s := oneWorker.site.run [.deed 0 (.addExecutor false),
      .schedule .join 0 "only" (.done (.rows []))]
    let m := after (shutDownPool .join 100) (s.seen 0)
    s.ShutDown .join 100 (s.step (.stopIntake .join)) ∧ m.threads.size = 0 ∧
      m.pendingOf 0 = 1 ∧ m.query.taskCount = 1 := by
  intro s
  have hstarted : (s.machine.crew .join).threads = [] := by decide
  have hended : ∀ t ∈ (s.machine.crew .join).threads,
      ((s.step (.stopIntake .join)).run []).machine.isFinished t = true := by
    simp [hstarted]
  exact ⟨.drained List.not_mem_nil hended, by decide, by decide, by decide⟩

end Site

end FederatedSparql
