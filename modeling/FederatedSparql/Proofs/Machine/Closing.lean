import FederatedSparql.Proofs.Machine.Accounts

/-!
What comes after a query has been closed or aborted.

* `nothing_after_stop`: from then on all tasks of the query are cancelled, whenever they were
  registered; nothing is added to the results of its executors; a worker with one of its jobs gives
  the job up at its next turn without performing it; and a closed cursor has nothing to give.

The queries share the pools, so that threads of other queries go on meanwhile.
-/

namespace FederatedSparql

open Machine

variable {α β γ : Type}

/-! ### Giving up a job -/

namespace Machine

/-- Nothing has been sent to a member. -/
def NothingSent (m m' : Machine α) : Prop := m'.registry = m.registry

theorem nothingSent_updateCrew (p : PoolName) (f : Crew α → Crew α) :
    Keeps NothingSent (updateCrew p f) := by
  intro m
  cases p <;> rfl

/-- **Nothing is sent when executors are closed.** -/
theorem frame_nothingSent : Frame (α := α) NothingSent where
  refl _ := rfl
  trans h h' := h'.trans h
  wake w := by
    intro m
    cases w with
    | main => rfl
    | thread t =>
      show (if m.ready.contains t then m else { m with ready := m.ready ++ [t] }).registry = _
      split <;> rfl
  doom t := by
    intro m
    show (if m.ready.contains t then _ else _ : Machine α).registry = m.registry
    split <;> rfl
  cancelBranch _ _ := rfl
  close _ _ := rfl

theorem nothingSent_finishJob (job : Job α) : Keeps NothingSent (finishJob job) :=
  fun _ => frame_nothingSent.keeps_wakeFinished job.executor _

theorem nothingSent_become (t : Nat) (a : Activity α) :
    Keeps NothingSent (become t a : Action α Unit) := fun _ => rfl

theorem nothingSent_endJob (p : PoolName) (t : Nat) (job : Job α) :
    Keeps NothingSent (endJob p t job) :=
  frame_nothingSent.bind (nothingSent_finishJob job) fun _ =>
    frame_nothingSent.bind (nothingSent_become t (.idle p)) fun _ => frame_nothingSent.keeps_pure _

/-- **Nothing is sent for a job that is given up.** -/
theorem nothingSent_stepThread [BEq α] {m : Machine α} {t : Nat} {a : Activity α}
    (hhand : m.hand t = some a) (hcancelled : m.query.cancelled = true) :
    NothingSent m (after (stepThread t) m) := by
  have hR := frame_nothingSent (α := α)
  obtain ⟨hactivity, hjob⟩ := Option.filter_eq_some_iff.mp hhand
  rw [activity?, Option.map_eq_some_iff] at hactivity
  obtain ⟨s, hs, rfl⟩ := hactivity
  have closes (ids : List Nat) (job : Job α) :
      Keeps NothingSent (do closeAll ids; finishJob job : Action α Unit) :=
    hR.bind (hR.keeps_closeAll ids) fun _ => nothingSent_finishJob job
  rw [stepThread, after_get_bind, hs]
  dsimp only
  split
  · have abandons : Keeps NothingSent (abandon t s.activity) := by
      cases hcase : s.activity with
      | working p job run => exact closes run.held job
      | sending p job result =>
        have leaves : Keeps NothingSent (updateExecutor job.executor fun e : Executor α =>
            { e with waiting := e.waiting.filter (· != t) }) := fun _ => rfl
        exact hR.bind leaves fun _ => hR.bind (hR.keeps_wakeConsumer _) fun _ =>
          closes result.held job
      | _ => simp [hcase, Activity.job?] at hjob
    exact hR.bind (nothingSent_become t .finished) (fun _ => hR.bind abandons fun _ =>
      hR.bind (hR.wake .main) fun _ => hR.keeps_pure _) m
  · cases hcase : s.activity with
    | working p job run =>
      dsimp only
      rw [stepWorking, after_get_bind, if_pos (m.query.isTaskCancelled_of_cancelled hcancelled _)]
      exact hR.bind (nothingSent_updateCrew p _) (fun _ => hR.bind (hR.keeps_closeAll _)
        fun _ => nothingSent_endJob p t job) m
    | sending p job result =>
      dsimp only
      rw [stepSending, after_get_bind]
      split
      · exact nothingSent_endJob p t job m
      · next e _ =>
        have hdropped : e.admissionOfWaiting (m.isCancelled e) t = .dropped := by
          simp [Executor.admissionOfWaiting, isCancelled, QueryContext.isBranchCancelled,
            hcancelled]
        rw [hdropped]
        have leaves : Keeps NothingSent (updateExecutor job.executor fun e : Executor α =>
            { e with waiting := e.waiting.filter (· != t) }) := fun _ => rfl
        exact hR.bind leaves (fun _ => hR.bind (hR.keeps_wakeConsumer _) fun _ =>
          hR.bind (hR.keeps_closeAll _) fun _ => nothingSent_endJob p t job) m
    | _ => simp [hcase, Activity.job?] at hjob

end Machine

namespace Site

/-! ### What stays so -/

/-- What has happened since a moment: what is decided stays so, and of queries that were cancelled
results have at most been taken. -/
structure Onward (s s' : Site) : Prop where
  cancelled : ∀ q, (s.context q).cancelled = true → (s'.context q).cancelled = true
  /-- Queries that have been aborted are cancelled. -/
  aborted : ∀ q, ((s.context q).aborted = true → (s.context q).cancelled = true) →
    (s'.context q).aborted = true → (s'.context q).cancelled = true
  executors : s.machine.executors.size ≤ s'.machine.executors.size
  owner : ∀ id < s.machine.executors.size, s'.owner id = s.owner id
  queue : ∀ id, (s.context (s'.owner id)).cancelled = true →
    s'.machine.queueOf id <:+ s.machine.queueOf id

section Moving

variable {s s' s'' : Site} {q t id : Nat} {xs : List (Entry Bindings)}

theorem queueOf_of_size_le {m : Machine α} {id : Nat} (h : m.executors.size ≤ id) :
    m.queueOf id = [] := by
  rw [queueOf, Array.getElem?_eq_none h]
  rfl

theorem Onward.refl (s : Site) : s.Onward s where
  cancelled _ h := h
  aborted _ h := h
  executors := Nat.le_refl _
  owner _ _ := rfl
  queue _ _ := List.suffix_refl _

theorem Onward.trans (h : s.Onward s') (h' : s'.Onward s'') : s.Onward s'' where
  cancelled q hq := h'.cancelled q (h.cancelled q hq)
  aborted q hq := h'.aborted q (h.aborted q hq)
  executors := h.executors.trans h'.executors
  owner id hid := (h'.owner id (Nat.lt_of_lt_of_le hid h.executors)).trans (h.owner id hid)
  queue id hid := by
    have hlater := h'.queue id (h.cancelled _ hid)
    by_cases hold : id < s'.machine.executors.size
    · exact hlater.trans (h.queue id (h'.owner id hold ▸ hid))
    · rw [queueOf_of_size_le (Nat.le_of_not_lt hold)] at hlater
      rw [List.suffix_nil.mp hlater]
      exact List.nil_suffix

/-- Something is done for a query, and nothing is queued for one that is cancelled. -/
theorem Acts.onward (ha : s.Acts q xs s')
    (hqueue : ∀ id, (s.context (s'.owner id)).cancelled = true →
      s'.machine.queueOf id <:+ s.machine.queueOf id) : s.Onward s' where
  cancelled q' hq' := by
    by_cases h : q' = q
    · subst h
      exact ha.reaches.cancelled hq'
    · rw [ha.others q' h]
      exact hq'
  aborted q' hq' := by
    by_cases h : q' = q
    · subst h
      exact ha.reaches.aborted hq'
    · rw [ha.others q' h]
      exact hq'
  executors := ha.size_le
  owner _ := ha.owner_eq
  queue := hqueue

/-- A result is queued for an executor of a query that is not cancelled. -/
theorem Acts.queue_push (ha : s.Acts (s.owner id) xs s')
    (hlive : (s.context (s.owner id)).cancelled = false) {result : Cursor Bindings}
    (hqueue : ∀ i, s'.machine.queueOf i <:+
      Function.update s.machine.queueOf id (s.machine.queueOf id ++ [result]) i) (i : Nat)
    (hi : (s.context (s'.owner i)).cancelled = true) :
    s'.machine.queueOf i <:+ s.machine.queueOf i := by
  by_cases h : i = id
  · subst h
    have howner : s'.owner i = s.owner i := (ha.owner i).elim (fun h => h) fun h => h.2
    rw [howner, hlive] at hi
    cases hi
  · have hsuffix := hqueue i
    rwa [Function.update_of_ne h] at hsuffix

theorem onward_turn (hentered : (s.seen (s.client t)).Entered t (s'.seen (s.client t)) xs)
    (ha : s.Acts (s.client t) xs s') : s.Onward s' := by
  have hqueue := ha.reaches.queue
  refine ha.onward fun i hi => ?_
  cases hentered with
  | delivers ht hdoomed hlive =>
    have hclient := client_of_hand ht rfl
    rw [hclient] at ha hlive hqueue
    exact ha.queue_push hlive hqueue i hi
  | sends ht hlive =>
    have hclient := client_of_hand ht rfl
    rw [hclient] at ha hlive hqueue
    exact ha.queue_push hlive hqueue i hi
  | _ => exact hqueue i

theorem onward_finishJobs (s : Site) (jobs : List (Job Bindings)) :
    s.Onward (s.finishJobs jobs) := by
  induction jobs generalizing s with
  | nil => exact .refl s
  | cons job jobs ih =>
    have ha := acts_act ((s.seen (s.owner job.executor)).reaches_finishJob job)
    exact (ha.onward fun id _ => ha.reaches.queue id).trans (ih _)

theorem onward_counted (s : Site) (id branch : Nat) :
    s.Onward (s.counted id (s.context (s.owner id) |>.added branch)) where
  cancelled q hq := by
    by_cases h : q = s.owner id
    · subst h
      simpa [counted, QueryContext.added] using hq
    · simpa [counted, h] using hq
  aborted q hq := by
    by_cases h : q = s.owner id
    · subst h
      simpa [counted, QueryContext.added] using hq
    · simpa [counted, h] using hq
  executors := Array.size_modify.ge
  owner _ _ := rfl
  queue i _ := by
    show queueOf { s.machine with
      executors := s.machine.executors.modify id Executor.addTask } i <:+ _
    rw [queueOf_modify]
    split
    · exact List.suffix_refl _
    · exact List.suffix_refl _

/-- **Every move goes on.** -/
theorem onward_step (s : Site) (move : Move) : s.Onward (s.step move) := by
  generalize hs' : s.step move = s'
  have hgoes := s.goes_step move
  rw [hs'] at hgoes
  cases hgoes with
  | quietly q ha => exact ha.onward fun id _ => ha.reaches.queue id
  | turn t hentered ha => exact onward_turn hentered ha
  | schedules p name work hid ha => exact ha.onward fun id _ => ha.reaches.queue id
  | queues result hlive ha => exact ha.onward (ha.queue_push hlive ha.reaches.queue)
  | counts hid => exact onward_counted s _ _
  | givesUp p =>
    have ha := acts_act ((s.seen 0).reaches_updateCrew_jobs p [])
    have hgiven := ha.onward fun id _ => ha.reaches.queue id
    have hdone := hgiven.trans (onward_finishJobs _ (s.machine.crew p).jobs)
    exact ⟨hdone.cancelled, hdone.aborted, hdone.executors, hdone.owner, hdone.queue⟩

theorem onward_run (s : Site) (moves : List Move) : s.Onward (s.run moves) := by
  induction moves generalizing s with
  | nil => exact .refl s
  | cons move moves ih => exact (s.onward_step move).trans (ih _)

/-! ### Jobs in hand -/

theorem mem_openJobs_of_hand {a : Activity Bindings} {job : Job Bindings}
    (ht : s.machine.hand t = some a) (hjob : a.job? = some job) : job ∈ s.openJobs := by
  refine List.mem_append_left _ (List.mem_filterMap.mpr ⟨a, ?_, hjob⟩)
  rw [hand_eq] at ht
  rw [hands, List.reduceOption_mem_iff]
  exact List.mem_of_getElem? (Option.join_eq_some_iff.mp ht)

theorem hand_turn {t' : Nat} (h : s.Counts s.openJobs)
    (hentered : (s.seen (s.client t')).Entered t' (s'.seen (s.client t')) xs)
    (ha : s.Acts (s.client t') xs s') {a : Activity Bindings} {job : Job Bindings}
    (ht : s'.machine.hand t = some a) (hjob : a.job? = some job)
    (hc : (s.context (s'.owner job.executor)).cancelled = true) :
    s.machine.hand t = some a ∨ ∃ p, a = .working p job (.ready job.work) := by
  have hhand := ha.reaches.hand t
  change s'.machine.hand t = _ at hhand
  rw [hhand] at ht
  -- a thread whose job is live has none of a query that is cancelled
  have live {a' : Activity Bindings} (ht' : s.machine.hand t' = some a')
      (hjob' : a'.job? = some job) :
      (s.context (s.client t')).cancelled = true := by
    have hexists := h.exist job (mem_openJobs_of_hand ht' hjob')
    rw [client_of_hand ht' hjob', ← ha.owner_eq hexists]
    exact hc
  by_cases hsame : t = t'
  · subst hsame
    cases hentered with
    | rests => exact .inl ht
    | @takes p job' rest hidle hwaits =>
      have ha : Activity.working p job' (.ready job'.work) = a := by
        simpa [Books.enterAll, Books.enter] using ht
      subst ha
      cases hjob
      exact .inr ⟨p, rfl⟩
    | @goesOn p job' run ht' hdoomed hlive next =>
      have ha : Activity.working p job' next = a := by
        simpa [Books.enterAll, Books.enter] using ht
      subst ha
      cases hjob
      exact absurd (hlive.symm.trans (live ht' rfl)) Bool.false_ne_true
    | @waits p job' run ht' hdoomed hlive result =>
      have ha : Activity.sending p job' result = a := by
        simpa [Books.enterAll, Books.enter] using ht
      subst ha
      cases hjob
      exact absurd (hlive.symm.trans (live ht' rfl)) Bool.false_ne_true
    | schedules => exact .inl ht
    | _ => simp [Books.enterAll, Books.enter] at ht
  · cases hentered with
    | rests => exact .inl ht
    | schedules => exact .inl ht
    | _ => exact .inl (by simpa [Books.enterAll, Books.enter, hsame] using ht)

/-- Of a query that is cancelled nobody goes on with a job: who has one in hand had it before, or
has just taken it. -/
theorem hand_step (h : s.Counts s.openJobs) (move : Move) {a : Activity Bindings}
    {job : Job Bindings} (ht : (s.step move).machine.hand t = some a) (hjob : a.job? = some job)
    (hc : (s.context ((s.step move).owner job.executor)).cancelled = true) :
    s.machine.hand t = some a ∨ ∃ p, a = .working p job (.ready job.work) := by
  generalize hs' : s.step move = s' at ht hc
  have hgoes := s.goes_step move
  rw [hs'] at hgoes
  cases hgoes with
  | quietly q ha => exact .inl ((ha.reaches.hand t).symm.trans ht)
  | turn t' hentered ha => exact hand_turn h hentered ha ht hjob hc
  | schedules p name work hid ha => exact .inl ((ha.reaches.hand t).symm.trans ht)
  | queues result hlive ha => exact .inl ((ha.reaches.hand t).symm.trans ht)
  | counts hid => exact .inl ht
  | givesUp p =>
    have ha := acts_act ((s.seen 0).reaches_updateCrew_jobs p [])
    obtain ⟨hhand, -, -⟩ := finishJobs_same
      (s := s.act 0 (updateCrew p fun c => { c with jobs := [] })) (s.machine.crew p).jobs
    exact .inl (((hhand t).trans (ha.reaches.hand t)).symm.trans ht)

theorem hand_run (h : s.Counts s.openJobs) (moves : List Move) {a : Activity Bindings}
    {job : Job Bindings} (ht : (s.run moves).machine.hand t = some a) (hjob : a.job? = some job)
    (hc : (s.context ((s.run moves).owner job.executor)).cancelled = true) :
    s.machine.hand t = some a ∨ ∃ p, a = .working p job (.ready job.work) := by
  induction moves generalizing s with
  | nil => exact .inl ht
  | cons move moves ih =>
    have hstep := s.onward_step move
    have hcounts := h.step move
    refine (ih hcounts ht (hstep.cancelled _ hc)).elim (fun ht' => ?_) .inr
    have hexists := hcounts.exist job (mem_openJobs_of_hand ht' hjob)
    have howner := (onward_run (s.step move) moves).owner _ hexists
    exact hand_step h move ht' hjob (howner ▸ hc)

/-- A worker with a job of a query that is cancelled gives it up at its turn, and neither performs
it nor counts it as done. -/
theorem turn_of_cancelled {a : Activity Bindings} {job : Job Bindings}
    (ht : s.machine.hand t = some a) (hjob : a.job? = some job)
    (hc : (s.context (s.owner job.executor)).cancelled = true) :
    let s' := s.step (.thread t)
    s'.machine.hand t = none ∧ s'.machine.registry = s.machine.registry ∧
      ∀ p, (s'.machine.crew p).pool.stats.completed = (s.machine.crew p).pool.stats.completed ∧
        (s'.machine.crew p).pool.stats.failed = (s.machine.crew p).pool.stats.failed := by
  intro s'
  rw [← client_of_hand ht hjob] at hc
  obtain ⟨xs, hentered, hreaches⟩ := turned_stepThread (s.seen (s.client t)) t
  have hhand : s'.machine.hand t = _ := hreaches.hand t
  have hstats (p : PoolName) : (s'.machine.crew p).pool.stats = _ := hreaches.stats p
  have live : (s.seen (s.client t)).query.cancelled ≠ false := by
    rw [show (s.seen (s.client t)).query.cancelled = true from hc]
    exact Bool.false_ne_true.symm
  refine ⟨?_, nothingSent_stepThread (m := s.seen (s.client t)) ht hc, fun p => ?_⟩
  · rw [hhand]
    cases hentered with
    | rests hwaits => exact absurd (hwaits a ht).1 live
    | takes hidle => exact absurd (ht.symm.trans hidle) (Option.some_ne_none a)
    | goesOn _ _ hlive => exact absurd hlive live
    | waits _ _ hlive => exact absurd hlive live
    | schedules hactivity =>
      have hidle : s.machine.hand t = none := by
        rw [hand, show s.machine.activity? t = _ from hactivity]
        rfl
      exact absurd (ht.symm.trans hidle) (Option.some_ne_none a)
    | _ => simp [Books.enterAll, Books.enter]
  · rw [hstats]
    cases hentered with
    | @ends p' _ _ _ _ outcome hlive =>
      cases outcome with
      | cancelled =>
        by_cases hp : p = p'
        · subst hp
          simp [Books.enterAll, Books.enter, PoolStats.count]
        · simp [Books.enterAll, Books.enter, hp]
      | _ => exact absurd (hlive (by simp)) live
    | delivers _ _ hlive => exact absurd hlive live
    | waits _ _ hlive => exact absurd hlive live
    | @schedules id production hactivity hid p' =>
      by_cases hp : p = p'
      · subst hp
        simp [Books.enterAll, Books.enter]
      · simp [Books.enterAll, Books.enter, hp]
    | _ => simp [Books.enterAll, Books.enter]

/-! ### Cursors -/

theorem cursor_finishJobs (s : Site) (jobs : List (Job Bindings)) :
    (s.finishJobs jobs).cursor = s.cursor := by
  induction jobs generalizing s with
  | nil => rfl
  | cons job jobs ih => exact ih _

theorem cursor_count (s : Site) (id : Nat) : (s.count id).cursor = s.cursor := by
  unfold count
  split
  · rfl
  · split <;> rfl

/-- A closed cursor stays closed. -/
theorem cursor_step (h : s.cursor q = .closed) (move : Move) :
    (s.step move).cursor q = .closed := by
  cases move with
  | poll q' =>
    by_cases hq : q = q'
    · subst hq
      simp only [step, Function.update_self, h]
      rfl
    · simpa only [step, Function.update_of_ne hq] using h
  | close q' =>
    by_cases hq : q = q'
    · simp only [step, hq, Function.update_self]
    · simpa only [step, Function.update_of_ne hq] using h
  | giveUp p => exact (congrFun (cursor_finishJobs _ _) q).trans h
  | count id => exact (congrFun (cursor_count s id) q).trans h
  | _ => exact h

theorem cursor_run (h : s.cursor q = .closed) (moves : List Move) :
    (s.run moves).cursor q = .closed := by
  induction moves generalizing s with
  | nil => exact h
  | cons move moves ih => exact ih (cursor_step h move)

end Moving

/-! ### Queries that are stopped -/

/-- How a query is stopped. -/
inductive Stop where
  | close
  | abort
deriving DecidableEq, Repr

/-- The move by which a query is stopped. -/
def Stop.move : Stop → Nat → Move
  | .close, q => .close q
  | .abort, q => .abort q

/-- **A query that is stopped is cancelled.** -/
theorem cancelled_stop {s : Site} {q : Nat}
    (h : (s.context q).aborted = true → (s.context q).cancelled = true) (stop : Stop) :
    ((s.step (stop.move q)).context q).cancelled = true := by
  have hwakes (m : Machine Bindings) (hm : m.query.cancelled = true) :
      (after (wakeWorkingFor fun _ => true) m).query.cancelled = true :=
    (leaves_wakeWorkingFor (fun _ => true) m).cancelled hm
  cases stop with
  | close =>
    show ((s.act q (Federation.close (s.cursor q))).seen q).query.cancelled = true
    rw [seen_act]
    exact hwakes _ rfl
  | abort =>
    show ((s.act q abortQuery).seen q).query.cancelled = true
    rw [seen_act]
    refine hwakes _ ?_
    show (s.context q).abort.cancelled = true
    unfold QueryContext.abort
    split
    · next haborted => exact h haborted
    · rfl

end Site

/-- **Nothing is produced after a query has been stopped.**  The query is closed or aborted after
any run, and `s` and `s'` are any moments after that, `s'` the later one.  At `s` all tasks of the
query are cancelled, and those that are registered from then on; between `s` and `s'` no result is
added to those of its executors; a worker that has one of its jobs at `s'` had it at `s` just so, or
has not polled it; the turn of a worker with one of its jobs ends the job, and nothing is sent to a
member or counted as done; and when the query was closed, its cursor has nothing to give. -/
theorem nothing_after_stop (x : Site.Opening) (before meanwhile later : List Move) (q : Nat)
    (stop : Site.Stop) :
    let s := ((x.site.run before).step (stop.move q)).run meanwhile
    let s' := s.run later
    (∀ task, (s.context q).isTaskCancelled task = true) ∧
      (∀ branch, match (s.context q).register branch with
        | .error e => e = .aborted (s.context q).id
        | .ok (task, context) => context.isTaskCancelled task = true) ∧
      (∀ id, s'.owner id = q → s'.machine.queueOf id <:+ s.machine.queueOf id) ∧
      (∀ t a job, s'.machine.hand t = some a → a.job? = some job → s'.owner job.executor = q →
        s.machine.hand t = some a ∨ ∃ p, a = .working p job (.ready job.work)) ∧
      (∀ t a job, s.machine.hand t = some a → a.job? = some job → s.owner job.executor = q →
        let next := s.step (.thread t)
        next.machine.hand t = none ∧ next.machine.registry = s.machine.registry ∧
          ∀ p,
            (next.machine.crew p).pool.stats.completed = (s.machine.crew p).pool.stats.completed ∧
            (next.machine.crew p).pool.stats.failed = (s.machine.crew p).pool.stats.failed) ∧
      (stop = .close → (value (Federation.stepQuery (s.cursor q)) (s.seen q)).1 = .done) := by
  intro s s'
  have hsound : ((x.site.run before).context q).aborted = true →
      ((x.site.run before).context q).cancelled = true :=
    (Site.onward_run x.site before).aborted q nofun
  have hcancelled : (s.context q).cancelled = true :=
    (Site.onward_run _ meanwhile).cancelled q (Site.cancelled_stop hsound stop)
  have hcounts : s.Counts s.openJobs :=
    Site.counts_run ((Site.counts_run (Site.counts_site x) before).step _) meanwhile
  refine ⟨(s.context q).isTaskCancelled_of_cancelled hcancelled, fun branch => ?_, fun id hid => ?_,
    fun t a job ht hjob howner => ?_, fun t a job ht hjob howner => ?_, fun hstop => ?_⟩
  · rw [QueryContext.register_eq]
    split
    · next e he =>
      split at he
      · exact (Except.error.inj he).symm
      · cases he
    · next task context he =>
      split at he
      · cases he
      · cases he
        apply QueryContext.isTaskCancelled_of_cancelled
        exact hcancelled
  · exact (Site.onward_run s later).queue id (hid ▸ hcancelled)
  · exact Site.hand_run hcounts later ht hjob (howner ▸ hcancelled)
  · exact Site.turn_of_cancelled ht hjob (howner ▸ hcancelled)
  · have hclosed : s.cursor q = .closed := by
      refine Site.cursor_run ?_ meanwhile
      rw [hstop]
      exact Function.update_self _ _ _
    rw [hclosed]
    rfl

end FederatedSparql
