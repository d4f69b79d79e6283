import FederatedSparql.Proofs.Machine.Delivery
import FederatedSparql.Proofs.Machine.MainSteps

/-!
What a union of tasks comes to.

The producer of a union gives its tasks to the pool one by one.  A pool that takes jobs works
through all of them, in whatever order threads and consumer take their steps; one that has been
stopped refuses the first, the producer ends with that failure, and whoever pulls is woken and gets
it.

* `Setting.received_perm`: where no task fails, the consumer has got all items of all tasks when it
  is told that there is no more.
* `Machine.value_collect_of_stopped`: on a pool that takes no jobs, collecting a union of any tasks
  comes to the failure that says so.
-/

namespace FederatedSparql

open Machine

variable {α β : Type}

/-! ### A pool that takes jobs -/

/-- What gives nothing may be left out. -/
theorem flatMap_filter_of_nil {f : α → List β} {keep : α → Bool} {l : List α}
    (h : ∀ a ∈ l, keep a = false → f a = []) : (l.filter keep).flatMap f = l.flatMap f := by
  induction l with
  | nil => rfl
  | cons a l ih =>
    have hrest := ih fun b hb => h b (List.mem_cons_of_mem a hb)
    cases hkeep : keep a with
    | true => rw [List.filter_cons_of_pos hkeep, List.flatMap_cons, List.flatMap_cons, hrest]
    | false =>
      rw [List.filter_cons_of_neg (by simp [hkeep]), List.flatMap_cons, hrest,
        h a List.mem_cons_self hkeep, List.nil_append]

namespace Setting

variable [DecidableEq α] {x : Setting α} {schedule : Nat → Step} {n : Nat}

/-- Tasks that have come to their results give all rows there are, if the others give none. -/
theorem Order.flatMap_perm {order : List Nat} (h : x.Order order)
    (hall : ∀ k, 1 ≤ k → k ≤ x.tasks.length → k ∈ order ∨ x.result k = .ok []) :
    (order.flatMap x.rows).Perm ((List.range' 1 x.tasks.length).flatMap x.rows) := by
  have hmem (k : Nat) : k ∈ List.range' 1 x.tasks.length ↔ 1 ≤ k ∧ k ≤ x.tasks.length := by
    rw [List.mem_range'_1]
    omega
  have horder : order.Perm ((List.range' 1 x.tasks.length).filter (· ∈ order)) := by
    rw [List.perm_ext_iff_of_nodup h.nodup (List.Nodup.filter _ List.nodup_range')]
    intro k
    rw [List.mem_filter, hmem]
    simp only [decide_eq_true_eq]
    exact ⟨fun hk => ⟨(h.tasks k hk).1, hk⟩, And.right⟩
  apply (horder.flatMap_right x.rows).trans
  rw [flatMap_filter_of_nil]
  intro k hk hnot
  obtain ⟨hlow, hhigh⟩ := (hmem k).mp hk
  rcases hall k hlow hhigh with hqueued | hnothing
  · exact absurd hqueued (of_decide_eq_false hnot)
  · rw [rows, hnothing]
    rfl

section Results

variable {ι : Type} {inputs : List ι} {task : ι → String × Work α} {items : ι → List α}

/-- The rows by the numbers of the tasks are the items of the tasks in their order. -/
theorem flatMap_rows (htasks : x.tasks = inputs.map task) (hok : ∀ i ∈ inputs,
      x.outcome (task i).1 ((task i).2.ending x.registry.answers) = .ok (items i)) :
    (List.range' 1 x.tasks.length).flatMap x.rows = inputs.flatMap items := by
  have hresult (k : Nat) (hk : k < inputs.length) :
      x.result (1 + k) = .ok (items inputs[k]) := by
    rw [result, Nat.add_sub_cancel_left, htasks, List.getElem?_map, List.getElem?_eq_getElem hk]
    exact hok _ (List.getElem_mem hk)
  have hmap : (List.range' 1 x.tasks.length).map x.rows = inputs.map items := by
    rw [List.range'_eq_map_range, List.map_map]
    apply List.ext_getElem
    · simp [htasks]
    · intro k _ hk
      rw [List.length_map] at hk
      simp [rows, hresult k hk]
      rfl
  rw [List.flatMap_def, hmap, List.flatMap_def]

/-- Nothing is disturbed by quiet steps. -/
theorem not_disturbed (hquiet : ∀ n, (schedule n).Quiet) (n : Nat) : ¬ Disturbed schedule n := by
  rintro ⟨k, -, hk⟩
  exact hk (hquiet k)

/-- **Where no task fails, all items are delivered.**  When the consumer is told that there is no
more it has got the items of all tasks, in some order. -/
theorem received_perm (halone : ∀ task ∈ x.tasks, task.2.Alone) (ht : x.InTime schedule)
    (hquiet : ∀ n, (schedule n).Quiet) (htasks : x.tasks = inputs.map task)
    (hok : ∀ i ∈ inputs,
      x.outcome (task i).1 ((task i).2.ending x.registry.answers) = .ok (items i))
    (hended : (x.play schedule n).ended = true) :
    (x.play schedule n).received.Perm ((inputs.flatMap items).map .ok) := by
  have hundisturbed := not_disturbed hquiet n
  have htracks := x.tracks halone ht n
  have haccount := htracks.account
  obtain ⟨hcomplete, hreceived⟩ := htracks.of_ended hended
  obtain ⟨order, rest, hlog, hrest⟩ := exists_order (x.play schedule n).log
  rw [hlog] at haccount hcomplete hreceived
  rw [delivered_queued] at hreceived
  cases rest with
  | nil =>
    rw [List.append_nil] at hcomplete
    rw [hreceived, delivered, List.append_nil, ← flatMap_rows htasks hok]
    apply List.Perm.map
    apply haccount.order.flatMap_perm
    intro k hlow hhigh
    rcases hcomplete with htoss | hd | hall
    · rw [any_isToss_queued] at htoss
      exact absurd htoss Bool.false_ne_true
    · exact absurd hd hundisturbed
    · rcases hall k hlow hhigh with hqueued | hnothing
      · exact .inl (by simpa using hqueued)
      · exact .inr hnothing
  | cons e rest =>
    cases e with
    | queued k => exact absurd (hrest _ rfl) Bool.false_ne_true
    | failed k =>
      obtain ⟨⟨hlow, hhigh⟩, e, he⟩ := haccount.failed k (by simp)
      rw [htasks, List.length_map] at hhigh
      have hk : k - 1 < inputs.length := by omega
      rw [result, htasks, List.getElem?_map, List.getElem?_eq_getElem hk] at he
      cases he.symm.trans (hok _ (List.getElem_mem hk))
    | refused => exact absurd (haccount.refused (by simp)) hundisturbed

end Results

end Setting

/-! ### A pool that takes no jobs -/

namespace Machine

/-- Nothing has happened but that some threads were woken. -/
def Woken (may : Nat → Prop) (m m' : Machine α) : Prop :=
  ∃ ready, m' = { m with ready } ∧ ∀ t ∈ ready, t ∈ m.ready ∨ may t

theorem Woken.refl (may : Nat → Prop) (m : Machine α) : Woken may m m :=
  ⟨m.ready, rfl, fun _ => .inl⟩

theorem Woken.trans {may : Nat → Prop} {m m' m'' : Machine α} (h : Woken may m m')
    (h' : Woken may m' m'') : Woken may m m'' := by
  obtain ⟨ready, rfl, hready⟩ := h
  obtain ⟨ready', rfl, hready'⟩ := h'
  refine ⟨ready', rfl, fun t ht => ?_⟩
  rcases hready' t ht with hbefore | hmay
  · exact hready t hbefore
  · exact .inr hmay

theorem woken_wake {may : Nat → Prop} {t : Nat} (ht : may t) :
    Keeps (Woken may) (wake (.thread t) : Action α Unit) := by
  intro m
  show Woken may m (if m.ready.contains t then m else { m with ready := m.ready ++ [t] })
  split
  · exact .refl may m
  · refine ⟨_, rfl, fun t' ht' => ?_⟩
    rcases List.mem_append.mp ht' with hbefore | hwoken
    · exact .inl hbefore
    · rw [List.mem_singleton.mp hwoken]
      exact .inr ht

theorem woken_forIn {may : Nat → Prop} {ι : Type} (xs : List ι)
    {body : ι → PUnit → Action α (ForInStep PUnit)}
    (h : ∀ x, Keeps (Woken may) (body x PUnit.unit)) :
    Keeps (Woken may) (forIn xs PUnit.unit body) := by
  induction xs with
  | nil => exact Woken.refl may
  | cons x xs ih =>
    intro m
    rw [List.forIn_cons]
    apply (h x m).trans
    rw [after_bind]
    generalize value (body x PUnit.unit) m = step
    cases step with
    | done b => exact .refl may _
    | yield b => exact ih _

/-- Whether a thread works for some executors. -/
def WorksFor (m : Machine α) (wanted : Nat → Bool) (t : Nat) : Prop :=
  ∃ s, m.threads[t]? = some s ∧ (executorOf? s.activity).any wanted

/-- Who works for some executors is woken, and main is. -/
theorem after_wakeWorkingFor (wanted : Nat → Bool) (m : Machine α) :
    ∃ ready, after (wakeWorkingFor wanted) m = { m with ready, mainReady := true } ∧
      ∀ t ∈ ready, t ∈ m.ready ∨ m.WorksFor wanted t := by
  have wakesMain {m' : Machine α} (h : Woken (m.WorksFor wanted) m m') :
      ∃ ready, after (wake .main) m' = { m with ready, mainReady := true } ∧
        ∀ t ∈ ready, t ∈ m.ready ∨ m.WorksFor wanted t := by
    obtain ⟨ready, rfl, hready⟩ := h
    exact ⟨ready, rfl, hready⟩
  rw [wakeWorkingFor, after_get_bind, after_bind]
  apply wakesMain
  apply woken_forIn
  intro t
  split
  · next s hs =>
    split
    · next hworks => exact fun m' => (woken_wake ⟨s, hs, hworks⟩ m').trans (.refl _ _)
    · exact Woken.refl _
  · exact Woken.refl _

/-- The producer of a union that has been started. -/
def unionExecutor (m : Machine α) : Executor α :=
  { branch := m.query.branches.size, producer := some m.threads.size }

/-- What starting a union makes of a machine on which nothing has been done. -/
def unionOpened (m : Machine α) (tasks : List (String × Work α)) : Machine α :=
  { m with
    query := m.query.addBranch.2
    executors := #[m.unionExecutor]
    threads := m.threads.push { activity := .producing 0 (.branches tasks) }
    ready := [m.threads.size] }

section Unions

variable {m : Machine α}

/-- The machine of a union whose results somebody waits for. -/
def unionAwaited (m : Machine α) (tasks : List (String × Work α)) : Machine α :=
  { m.unionOpened tasks with executors := #[{ m.unionExecutor with consumer := some .main }] }

section Pulling

variable [BEq α]

theorem run_openFeed_union (h : m.Resting) (tasks : List (String × Work α)) :
    (openFeed (.union false tasks)).run m = (.pipe (.executor 0), m.unionOpened tasks) := by
  obtain ⟨now, registry, query, executors, join, union, threads, ready, mainReady, timers⟩ := m
  obtain ⟨rfl, rfl, rfl, -⟩ := h
  rfl

/-- Before the tasks of a union have come to anything, whoever pulls has to wait. -/
theorem run_pull_unionOpened (m : Machine α) (tasks : List (String × Work α)) :
    (pull .main (.pipe (.executor 0))).run (m.unionOpened tasks) =
      ((.wait, .pipe (.executor 0)), m.unionAwaited tasks) := by
  show (stepCursor 1 .main (.pipe (.executor 0))).run (m.unionOpened tasks) = _
  rw [stepCursor, stepPipe]
  rfl

/-- When an executor has failed, the failure is pulled. -/
theorem value_pull_of_failed {x : Executor α} {e : FedError} (hx : m.executors = #[x])
    (hopen : x.finished = false) (hnone : x.current = none) (hqueue : x.queue = [])
    (hexhausted : x.isExhausted = true) (herror : x.error = some e) :
    value (pull .main (.pipe (.executor 0))) m = (.failure e, .pipe (.executor 0)) := by
  have hget : m.executors[0]? = some x := by rw [hx]; rfl
  rw [value_pull_pipe, hx]
  show Prod.map id Cursor.pipe (value (stepPipe 1 .main (.executor 0)) m) = _
  rw [stepPipe, value_bind, value_get, after_get, hget]
  dsimp only
  rw [if_neg (by simp [hopen]), hnone]
  dsimp only
  rw [hqueue]
  dsimp only
  rw [if_pos hexhausted, herror]
  rfl

end Pulling

/-! ### The turn of the producer -/

/-- The executor of a union whose producer has ended with a failure. -/
def unionFailed (m : Machine α) (e : FedError) : Executor α :=
  { m.unionExecutor with consumer := some .main, error := some e, producing := false }

/-- The machine of a union whose producer has ended with a failure. -/
structure Refused (m : Machine α) (e : FedError) (m' : Machine α) : Prop where
  executors : m'.executors = #[m.unionFailed e]
  awake : m'.mainReady = true
  threads : m'.threads = m.threads.push { activity := .finished }
  ready : ∀ t ∈ m'.ready, t = m.threads.size

/-- A pool that takes no jobs refuses a task, and nothing else happens. -/
theorem run_schedule_of_stopped {p : PoolName} (h : (m.crew p).pool.accepting = false) (id : Nat)
    (name : String) (work : Work α) : (schedule p id name work).run m =
      (.error (.internalScheduling (.schedulerShutDown (m.crew p).pool.name)), m) := by
  have hrefuses : (m.crew p).pool.checkAccepting =
      .error (.internalScheduling (.schedulerShutDown (m.crew p).pool.name)) := by
    rw [Pool.checkAccepting, h]
    rfl
  rw [schedule, run_get_bind, hrefuses]
  rfl

/-- The producer of a union ends with a failure, of which the consumer is told. -/
theorem after_endProducer (m' : Machine α) {x : Executor α}
    (hx : m'.executors = #[{ x with consumer := some .main }]) (hopen : x.closed = false)
    (herror : x.error = none) (t : Nat) (e : FedError) : ∃ query ready,
      after (endProducer t 0 .empty (.error e)) m' = { m' with
        query, ready
        mainReady := true
        executors := #[{ x with consumer := some .main, error := some e, producing := false }]
        threads := m'.threads.modify t fun s => { s with activity := .finished } } ∧
      ∀ t' ∈ ready, t' ∈ m'.ready ∨ m'.WorksFor (· == 0) t' := by
  obtain ⟨now, registry, query, executors, join, union, threads, ready, mainReady, timers⟩ := m'
  obtain ⟨branch, firstOnly, producing, queue, error, pending, closed, receiving, waiting, consumer,
    producer, current, finished⟩ := x
  cases hx
  cases hopen
  cases herror
  let failed : Executor α := ⟨branch, firstOnly, false, queue, some e, pending, false, receiving,
    waiting, some .main, producer, current, finished⟩
  obtain ⟨ready', hwoken, hready⟩ := after_wakeWorkingFor (· == 0)
    (⟨now, registry, query.cancelBranch branch, #[failed], join, union, threads, ready, true,
      timers⟩ : Machine α)
  have htossed : after (toss 0 e) (⟨now, registry, query, #[⟨branch, firstOnly, producing, queue,
      none, pending, false, receiving, waiting, some .main, producer, current, finished⟩], join,
      union, threads, ready, mainReady, timers⟩ : Machine α) =
        after (wakeWorkingFor (· == 0)) (⟨now, registry, query.cancelBranch branch, #[failed], join,
          union, threads, ready, true, timers⟩ : Machine α) := rfl
  refine ⟨query.cancelBranch branch, ready', ?_, hready⟩
  rw [endProducer, after_get_bind]
  dsimp only [Except.bind]
  rw [after_bind, htossed, hwoken]
  rfl

/-- Of the threads of a union that has been started only the producer works for it. -/
theorem Resting.worksFor (h : m.Resting) {tasks : List (String × Work α)} {wanted : Nat → Bool}
    {t : Nat} (ht : (m.unionAwaited tasks).WorksFor wanted t) : t = m.threads.size := by
  obtain ⟨s, hs, hworks⟩ := ht
  have hpush : (m.threads.push { activity := .producing 0 (.branches tasks) })[t]? = some s := hs
  rw [Array.getElem?_push] at hpush
  split at hpush
  · assumption
  · obtain ⟨p, hidle⟩ := h.idle t s.activity (by rw [activity?, hpush]; rfl)
    rw [hidle] at hworks
    cases hworks

/-- **The turn of the producer of a union on a stopped pool** ends with the failure that the pool
takes no jobs. -/
theorem stepThread_of_stopped [BEq α] (h : m.Resting) (hstopped : m.union.pool.accepting = false)
    (haborted : m.query.aborted = false) (hlive : m.query.cancelled = false)
    (hintime : m.query.isExpired m.now = false) (name : String) (work : Work α)
    (rest : List (String × Work α)) :
    let m' : Machine α := { m.unionAwaited ((name, work) :: rest) with ready := [] }
    value (stepThread m.threads.size) m' = .ends ∧
      m.Refused (.internalScheduling (.schedulerShutDown m.union.pool.name))
        (after (stepThread m.threads.size) m') := by
  intro m'
  let refusal : FedError := .internalScheduling (.schedulerShutDown m.union.pool.name)
  let x : Executor α := { m.unionExecutor with consumer := some .main }
  have hthread : m'.threads[m.threads.size]? =
      some { activity := .producing 0 (.branches ((name, work) :: rest)) } := by
    simp [m', unionAwaited, unionOpened]
  have hx : m'.executors[0]? = some x := rfl
  have hwanted : m'.isCancelled x = false := by
    simp [isCancelled, QueryContext.isBranchCancelled, m', x, unionAwaited, unionOpened,
      unionExecutor, QueryContext.addBranch, hlive]
  have hactive : m'.query.checkActive m'.now = .ok () := by
    have hnotAborted : m'.query.aborted = false := haborted
    have hnotExpired : m'.query.isExpired m'.now = false := hintime
    rw [QueryContext.checkActive, QueryContext.checkAborted, hnotAborted, QueryContext.checkTimeout,
      hnotExpired]
    rfl
  have hrun : (stepThread m.threads.size).run m' =
      (endProducer m.threads.size 0 .empty (.error refusal)).run m' := by
    have hrefused := run_schedule_of_stopped (m := m') (p := .union) hstopped 0 name work
    have hends : (scheduleWanted m.threads.size 0 .union name work .empty (.branches rest)).run m' =
        (endProducer m.threads.size 0 .empty (.error refusal)).run m' := by
      rw [scheduleWanted, run_get_bind, hactive]
      dsimp only
      rw [hx, Option.all_some, hwanted, if_neg (by rintro ⟨⟩), StateT.run_bind, hrefused]
      rfl
    rw [stepThread, run_get_bind, hthread]
    dsimp only
    rw [if_neg Bool.false_ne_true]
    show (if (m'.executors[0]?).all m'.isCancelled then _ else
      scheduleWanted m.threads.size 0 .union name work .empty (.branches rest) :
        Action α Turn).run m' = _
    rw [hx, Option.all_some, hwanted, if_neg Bool.false_ne_true, hends]
  obtain ⟨query, ready, hends, hready⟩ := after_endProducer m' (x := m.unionExecutor) rfl rfl rfl
    m.threads.size refusal
  constructor
  · exact congrArg Prod.fst hrun
  · rw [after, hrun, ← after, hends]
    constructor
    · rfl
    · rfl
    · show (m.threads.push { activity := .producing 0 (.branches ((name, work) :: rest)) }).modify
        m.threads.size (fun s => { s with activity := .finished }) = _
      apply Array.ext_getElem?
      intro i
      rw [Array.getElem?_modify, Array.getElem?_push, Array.getElem?_push]
      by_cases hi : m.threads.size = i
      · simp [hi]
      · simp [hi, Ne.symm hi]
    · intro t ht
      rcases hready t ht with hbefore | hworks
      · exact absurd hbefore List.not_mem_nil
      · exact h.worksFor hworks

end Unions

/-- **Collecting a union on a stopped pool comes to the failure that the pool takes no jobs.** -/
theorem value_collect_of_stopped [BEq α] {m : Machine α} (h : m.Resting)
    (hstopped : m.union.pool.accepting = false) (haborted : m.query.aborted = false)
    (hlive : m.query.cancelled = false) (hintime : m.query.isExpired m.now = false) (name : String)
    (work : Work α) (rest : List (String × Work α)) :
    value (Federation.collect (.done (.union false ((name, work) :: rest)))) m =
      .error (.internalScheduling (.schedulerShutDown m.union.pool.name)) := by
  let tasks := (name, work) :: rest
  let refusal : FedError := .internalScheduling (.schedulerShutDown m.union.pool.name)
  obtain ⟨n, hn⟩ : ∃ n, stepLimit = n + 2 := ⟨stepLimit - 2, rfl⟩
  have hopens : (runWork (.done (.union false tasks))).run m =
      (some (.ok (.pipe (.executor 0))), m.unionOpened tasks) := by
    have hstep (depth : Nat) : (stepRun depth .main (.ready (.done (.union false tasks)))).run m =
        (.done (.pipe (.executor 0)), m.unionOpened tasks) := by
      rw [stepRun, stepWork, StateT.run_bind, run_openFeed_union h]
      rfl
    rw [runWork, hn]
    apply run_runMain_of_finished
    rw [run_get_bind, run_bind_of_run (hstep _)]
    rfl
  obtain ⟨hturn, hrefused⟩ := stepThread_of_stopped h hstopped haborted hlive hintime name work rest
  obtain ⟨ready, hwoken⟩ := run_awaitWake_of_turn (m := m.unionAwaited tasks) h.asleep rfl hturn rfl
    hrefused.awake fun t ht => by
      rw [hrefused.ready t ht, hrefused.threads]
      simp
  have hwaits := run_takeStep [] (run_pull_unionOpened m tasks)
  have htaken : value (take none (.pipe (.executor 0))) (m.unionOpened tasks) =
      some ⟨[], .failed refusal, .pipe (.executor 0)⟩ := by
    have hpull := value_pull_of_failed (m := { after (stepThread m.threads.size)
      { m.unionAwaited tasks with ready := [] } with ready, mainReady := false })
      hrefused.executors rfl rfl rfl rfl rfl
    rw [take, hn, value, run_runMain_of_waits hwaits hwoken, ← value, runMain, value_bind,
      value_takeStep [] hpull]
    rfl
  rw [Federation.collect, value, run_bind_of_run hopens, ← value]
  dsimp only
  rw [value_bind, htaken]
  rfl

end Machine

end FederatedSparql
