import FederatedSparql.Proofs.Machine.FloorSound

/-!
What a step of a thread can make of a floor.

* `Floor.leads_stepThread` finds every step of a thread on a sound floor among `Floor.Turns`.
-/

namespace FederatedSparql

open Machine

variable {α : Type}

namespace Floor

variable {f g : Floor α}

/-! ### Steps of programs -/

theorem gives_registry {k : Registry → Registry} (hk : ∀ r, (k r).answers = r.answers) :
    f.Gives (modify fun m : Machine α => { m with registry := k m.registry }) () f :=
  Gives.of_modify fun _ hm => { hm with answers := (hk _).trans hm.answers }

/-- **A step of a program that ends well.**  It gets on or has to wait, and changes nothing else. -/
theorem leads_stepRun [DecidableEq α] (depth : Nat) (me : Waker) {run : Run α}
    (hrun : run.EndsWell f.answers) :
    f.Leads (stepRun depth me run) fun ran f' => f' = f ∧ run.GoesOn f.answers f.now ran := by
  obtain ⟨halone, end', hend⟩ := hrun
  cases run with
  | ready w =>
    rw [stepRun]
    cases w with
    | done feed =>
      obtain ⟨c, hopen, hc, harrivals⟩ := Feed.openFeed_atHand f.answers (f := feed) halone
      obtain ⟨xs, hxs⟩ := Feed.AtHand.arrivals_eq_ofList f.answers (f := feed) halone
      rw [stepWork, hopen]
      exact Leads.of_pure ⟨rfl, xs, hc, harrivals.trans hxs⟩
    | fail e => cases hend
    | panic => cases hend
    | sleep ms next =>
      refine Leads.of_get fun m hm => ?_
      dsimp only
      split
      · exact Leads.of_pure ⟨rfl, ⟨halone, end', hend⟩, by simp [Run.size, Work.size]⟩
      · refine (gives_wakeAt f _ _).bind (Leads.of_pure ⟨rfl, ⟨halone, end', hend⟩, .inl ?_⟩)
        simp [Run.size, Work.size]
    | request endpoint q next =>
      rw [Run.ending, Work.ending] at hend
      refine Leads.of_get fun m hm => ?_
      cases hknown : m.registry.known? endpoint with
      | none =>
        have hanswer : f.answers endpoint q = .error (.endpoint (.unknownEndpoint endpoint)) := by
          rw [← hm.answers, Registry.answers, hknown]
        refine Leads.of_pure ⟨rfl, ⟨halone _, end', by simpa [Run.ending, hanswer] using hend⟩, ?_⟩
        simp [Run.size, Work.size, hanswer]
      | some member =>
        refine (gives_registry fun r => r.answers_receive endpoint q).bind ?_
        dsimp only
        split
        · refine (gives_wakeAt f _ _).bind (Leads.of_pure ⟨rfl, ⟨halone, end', hend⟩, .inl ?_⟩)
          simp [Run.size, Work.size]
        · exact Leads.of_pure ⟨rfl, ⟨halone, end', hend⟩, by simp [Run.size, Work.size]⟩
    | repair endpoint next =>
      refine (gives_registry fun r => r.answers_repair endpoint).bind
        (Leads.of_pure ⟨rfl, ⟨halone, end', hend⟩, ?_⟩)
      simp [Run.size, Work.size]
    | check next =>
      refine Leads.of_get fun m hm => ?_
      rw [hm.checkActive]
      exact Leads.of_pure ⟨rfl, ⟨halone, end', hend⟩, by simp [Run.size, Work.size]⟩
    | gather parts next => exact halone.elim
  | sleeping due next =>
    rw [stepRun]
    refine Leads.of_get fun m hm => ?_
    rw [hm.now]
    split
    · exact Leads.of_pure ⟨rfl, ⟨halone, end', hend⟩, by simp [Run.size]⟩
    · exact Leads.of_pure ⟨rfl, ⟨halone, end', hend⟩, .inr ⟨rfl, due, rfl, by omega⟩⟩
  | awaiting due endpoint q next =>
    rw [stepRun]
    refine Leads.of_get fun m hm => ?_
    rw [hm.now]
    split
    · have hanswer : f.answers endpoint q = m.registry.answers endpoint q := by rw [hm.answers]
      rw [Registry.answers] at hanswer
      rw [Run.ending] at hend
      split <;> rename_i hknown <;> rw [hknown] at hanswer <;>
        exact Leads.of_pure ⟨rfl, ⟨halone _, end', by simpa [Run.ending, hanswer] using hend⟩,
          by simp [Run.size, hanswer]⟩
    · exact Leads.of_pure ⟨rfl, ⟨halone, end', hend⟩, .inr ⟨rfl, due, rfl, by omega⟩⟩
  | gathering parts next => exact halone.elim

/-! ### What threads can do -/

/-- A job has come to a result, which is queued, waits for room or is dropped. -/
def deliver (f : Floor α) (e : Executor α) (t : Nat) (job : Job α) (c : Cursor α) : Floor α :=
  match e.admission false c with
  | .dropped => f.endJob t job
  | .queued => (f.update job.executor (·.push c)).endJob t job
  | .waits =>
    (f.update job.executor fun e => { e with waiting := e.waiting ++ [t] }).become t
      (.sending .join job c)

/-- A thread cannot go on for now, or not at all. -/
def Rests (f : Floor α) (t : Nat) : Prop :=
  match f.threads[t]? with
  | some (.idle _) => t ∈ f.line ∧ (f.line.head? ≠ some t ∨ f.jobs = [])
  | some (.working _ _ run) => ∃ due, run.due? = some due ∧ f.now < due
  | some (.sending _ job _) => ∃ e, f.executors[job.executor]? = some e ∧
      e.admissionOfWaiting false t = .waits
  | some (.producing id (.awaiting ..)) => ∃ e, f.executors[id]? = some e ∧ e.pending ≠ 0
  | some (.producing ..) => False
  | _ => True

/-- What a step of a thread can make of a floor. -/
inductive Turns [DecidableEq α] (f : Floor α) (t : Nat) : Floor α → Prop
  | rests (h : f.Rests t) : Turns f t f
  /-- A worker for which there is no job, or not yet, waits in the line. -/
  | linesUp (ht : f.threads[t]? = some (.idle .join)) (hline : t ∉ f.line)
      (hnot : f.line ≠ [] ∨ f.jobs = []) : Turns f t { f with line := f.line ++ [t] }
  | takes {job : Job α} {rest : List (Job α)} (ht : f.threads[t]? = some (.idle .join))
      (hjobs : f.jobs = job :: rest) (hline : f.line = [] ∨ f.line.head? = some t) :
      Turns f t
        ({ f.leaveLine t with jobs := rest }.become t (.working .join job (.ready job.work)))
  | runs {job : Job α} {run next : Run α} (ht : f.threads[t]? = some (.working .join job run))
      (hjob : job.executor ≠ 0) (hnext : next.EndsWell f.answers)
      (hsize : next.size f.answers < run.size f.answers) :
      Turns f t (f.become t (.working .join job next))
  /-- A task that works alone has come to a result. -/
  | delivers {job : Job α} {run : Run α} {e : Executor α} {c : Cursor α}
      (ht : f.threads[t]? = some (.working .join job run)) (hjob : job.executor ≠ 0)
      (he : f.executors[job.executor]? = some e) (hc : ∃ xs, c.Holds xs) :
      Turns f t (f.deliver e t job c)
  /-- A task comes to the results of a further executor. -/
  | nests {job : Job α} {rows : List α} {right : α → Work α} {e : Executor α}
      (ht : f.threads[t]? =
        some (.working .join job (.ready (.done (.nestedJoin (.rows rows) right)))))
      (hjob : job.executor = 0) (he : f.executors[job.executor]? = some e) :
      Turns f t
        ((f.startExecutor (.nested (.ofList rows) right)).deliver e t job
          (.pipe (.executor f.executors.length)))
  | sends {job : Job α} {e : Executor α} {c : Cursor α}
      (ht : f.threads[t]? = some (.sending .join job c))
      (he : f.executors[job.executor]? = some e)
      (hadmission : e.admissionOfWaiting false t = .queued) :
      Turns f t ((f.update job.executor fun e => (e.push c).leave t).endJob t job)
  | schedules {id : Nat} {left : Cursor α} {right : α → Work α} {e : Executor α} {row : α}
      {rest : List α} (ht : f.threads[t]? = some (.producing id (.nested left right)))
      (he : f.executors[id]? = some e) (hrows : left.rows = row :: rest) :
      Turns f t
        ((f.schedule id id "Join" (right row)).become t
          (.producing id (.nested (.buffered rest) right)))
  | awaits {id : Nat} {left : Cursor α} {right : α → Work α}
      (ht : f.threads[t]? = some (.producing id (.nested left right))) (hrows : left.rows = []) :
      Turns f t (f.become t (.producing id (.awaiting left none)))
  | completes {id : Nat} {left : Cursor α} {limit : Option Nat} {e : Executor α}
      (ht : f.threads[t]? = some (.producing id (.awaiting left limit)))
      (he : f.executors[id]? = some e) (hpending : e.pending = 0) :
      Turns f t ((f.update id Executor.endProduction).become t .finished)

/-! ### Steps of workers -/

section Steps

variable {k : Scale} {t : Nat}

/-- The line, with a thread in it. -/
def lined (f : Floor α) (t : Nat) : List Nat := if f.line.contains t then f.line else f.line ++ [t]

theorem filter_lined (f : Floor α) (t : Nat) :
    (f.lined t).filter (· != t) = f.line.filter (· != t) := by
  unfold lined
  split <;> simp

/-- A result is queued, waits for room or is dropped. -/
theorem leads_deliver {job : Job α} {e : Executor α} {c : Cursor α}
    (ht : f.threads[t]? ≠ some .finished) (he : f.executors[job.executor]? = some e)
    (hcancelled : f.branches[e.branch]?.getD true = false) (hfirst : e.firstOnly = false)
    (hheld : e.admission false c = .dropped → c.held = []) :
    f.Leads (Machine.deliver .join t job c) fun _ f' => f' = f.deliver e t job c := by
  refine (gives_updatePool f (k := Pool.countCompleted) fun _ => rfl).bind
    (Leads.of_get fun m hm => ?_)
  simp only [hm.getElem?_executors, he, hm.isCancelled, hcancelled, deliver]
  have ends (g : Floor α) (hg : g.threads = f.threads) :
      g.Leads (Machine.endJob .join t job) fun _ f' => f' = g.endJob t job :=
    (gives_endJob g (hg ▸ ht) job).leads rfl
  cases hadmission : e.admission false c with
  | dropped => exact (gives_discard (hheld hadmission)).bind (ends f rfl)
  | queued =>
    simp only [hfirst, Bool.false_eq_true, if_false]
    exact (gives_updateExecutor f job.executor (·.push c)).bind
      ((gives_wakeConsumer _ _).bind (ends _ rfl))
  | waits =>
    exact (gives_updateExecutor f job.executor fun e => { e with waiting := e.waiting ++ [t] }).bind
      ((gives_become (f := f.update job.executor fun e => { e with waiting := e.waiting ++ [t] })
        (.inr ht)).bind (Leads.of_pure rfl))

variable [DecidableEq α]

theorem turns_lined (ht : f.threads[t]? = some (.idle .join))
    (h : (f.lined t).head? ≠ some t ∨ f.jobs = []) : f.Turns t { f with line := f.lined t } := by
  by_cases hline : t ∈ f.line
  · have hsame : f.lined t = f.line := by simp [lined, hline]
    rw [hsame] at h ⊢
    exact .rests (by simpa [Rests, ht] using ⟨hline, h⟩)
  · have happend : f.lined t = f.line ++ [t] := by simp [lined, hline]
    rw [happend] at h ⊢
    refine .linesUp ht hline (h.imp_left fun hhead hnil => ?_)
    simp [hnil] at hhead

theorem leads_stepIdle (ht : f.threads[t]? = some (.idle .join)) :
    f.Leads (stepIdle .join t) fun _ f' => f.Turns t f' := by
  have hlined : f.Gives (updateCrew .join fun c =>
      if c.line.contains t then c else { c with line := c.line ++ [t] }) ()
      { f with line := f.lined t } := by
    refine Gives.of_modify fun m hm => ?_
    dsimp only [lined]
    rw [hm.line]
    split
    · exact { hm with line := hm.line }
    · exact { hm with line := by simp }
  refine hlined.bind (Leads.of_get fun m hm => ?_)
  dsimp only [crew]
  rw [hm.line, hm.jobs, hm.accepting]
  split
  · next hhead => exact Leads.of_pure (turns_lined ht (.inl hhead))
  · next hhead =>
    split
    · next job rest hjobs =>
      have hfirst : f.line = [] ∨ f.line.head? = some t := by
        rw [not_not, lined] at hhead
        split at hhead
        · exact .inr hhead
        · cases hline : f.line with
          | nil => exact .inl rfl
          | cons s line => rw [hline] at hhead; exact .inr hhead
      refine (gives_updateJobs _ fun _ => rest).bind ((gives_leaveLine _ t).bind
        ((gives_become (.inr ?_)).bind (Leads.of_pure ?_)))
      · show f.threads[t]? ≠ _
        simp [ht]
      · have := Turns.takes ht hjobs hfirst
        simpa [leaveLine, filter_lined] using this
    · next hjobs => exact Leads.of_pure (turns_lined ht (.inr hjobs))

theorem leads_stepSending (h : f.Sound k) {job : Job α} {c : Cursor α}
    (ht : f.threads[t]? = some (.sending .join job c)) :
    f.Leads (stepSending .join t job c) fun _ f' => f.Turns t f' := by
  obtain ⟨e, he, hserves, -, hopen, -⟩ := h.exists_executor ht rfl
  have hnot : f.threads[t]? ≠ some .finished := by simp [ht]
  have hcancelled : f.branches[e.branch]?.getD true = false := (h.cancelled he).trans hopen
  have hreceiving : e.receiving = true := by rw [hserves.receiving, hopen]; rfl
  refine Leads.of_get fun m hm => ?_
  simp only [hm.getElem?_executors, he, hm.isCancelled, hcancelled]
  cases hadmission : e.admissionOfWaiting false t with
  | dropped =>
    simp only [Executor.admissionOfWaiting, hreceiving] at hadmission
    split at hadmission
    · next hfalse => exact absurd hfalse (by simp)
    · split at hadmission <;> cases hadmission
  | queued =>
    have hsends := Turns.sends ht he hadmission
    simp only [hserves.firstOnly, Bool.false_eq_true, if_false]
    refine (gives_updateExecutor f job.executor fun e => (e.push c).leave t).bind
      ((gives_wakeConsumer _ _).bind ((gives_wakeThread? _ _).bind ?_))
    exact (gives_endJob (f.update job.executor fun e => (e.push c).leave t) hnot job).leads hsends
  | waits => exact Leads.of_pure (.rests (by simpa [Rests, ht] using ⟨e, he, hadmission⟩))

theorem leads_stepWorking (h : f.Sound k) {job : Job α} {run : Run α}
    (ht : f.threads[t]? = some (.working .join job run)) :
    f.Leads (stepWorking .join t job run) fun _ f' => f.Turns t f' := by
  obtain ⟨e, he, hserves, -, hopen, hproducing⟩ := h.exists_executor ht rfl
  obtain ⟨-, -, hknows, hruns⟩ := h.threads t _ ht
  have hnot : f.threads[t]? ≠ some .finished := by simp [ht]
  have hcancelled : f.branches[e.branch]?.getD true = false := (h.cancelled he).trans hopen
  have htask : f.branches[job.executor]?.getD true = false := hserves.branch ▸ hcancelled
  refine Leads.of_get fun m hm => ?_
  simp only [hm.isTaskCancelled hknows.task, htask, Bool.false_eq_true, if_false]
  by_cases hjob : job.executor = 0
  · obtain ⟨w, rfl, rows, right, rfl, -⟩ := hruns.outer hjob
    set result : Cursor α := .pipe (.executor f.executors.length) with hresult
    have hnests : f.Gives (stepRun m.executors.size (.thread t)
        (.ready (.done (.nestedJoin (.rows rows) right)))) (.done result)
        (f.startExecutor (.nested (.ofList rows) right)) := by
      rw [stepRun, stepWork, openFeed, openFeed]
      exact Gives.seq (Gives.seq (Gives.of_pure (Cursor.ofList rows))
        (Gives.seq (gives_startExecutor f _) (Gives.of_pure _))) (Gives.of_pure _)
    refine hnests.bind ?_
    have hlt : t < f.threads.length := (List.getElem?_eq_some_iff.1 ht).1
    have hlt' := hknows.executor
    have hbranch : e.branch < f.branches.length := by
      rw [hserves.branch, h.branches, List.length_map]
      exact hlt'
    have hreceiving : e.receiving = true := by rw [hserves.receiving, hopen]; rfl
    refine (leads_deliver (e := e) ?_ ?_ ?_ hserves.firstOnly ?_).imp ?_
    · simpa [startExecutor, List.getElem?_append_left hlt] using hnot
    · simpa [startExecutor, List.getElem?_append_left hlt'] using he
    · simpa [startExecutor, List.getElem?_append_left hbranch] using hcancelled
    · intro hdropped
      exfalso
      simp only [Executor.admission, hresult, Cursor.isKnownEmpty, Executor.isActive, hopen,
        hserves.error, hproducing, hreceiving] at hdropped
      split at hdropped
      · next hfalse => exact absurd hfalse (by simp)
      · split at hdropped <;> cases hdropped
    · rintro _ _ rfl
      exact .nests ht hjob he
  · refine (leads_stepRun _ (.thread t) (hruns.inner hjob)).bind ?_
    rintro ran _ ⟨rfl, hran⟩
    cases ran with
    | done c =>
      obtain ⟨xs, hc⟩ := hran
      refine (leads_deliver hnot he hcancelled hserves.firstOnly fun _ => hc.1.held_eq_nil).imp ?_
      rintro _ _ rfl
      exact .delivers ht hjob he ⟨xs, hc⟩
    | failed e => exact hran.elim
    | panicked => exact hran.elim
    | progress next =>
      exact (gives_become (.inr hnot)).bind (Leads.of_pure (.runs ht hjob hran.1 hran.2))
    | wait next =>
      refine (gives_become (.inr hnot)).bind (Leads.of_pure ?_)
      obtain ⟨hnext, hsize | ⟨rfl, hdue⟩⟩ := hran
      · exact .runs ht hjob hnext hsize
      · rw [become_eq_self ht]
        exact .rests (by simpa [Rests, ht] using hdue)

/-! ### Steps of producers -/

theorem leads_stepProducing (h : f.Sound k) {id : Nat} {production : Production α}
    (ht : f.threads[t]? = some (.producing id production)) :
    f.Leads (stepProducing t id production) fun _ f' => f.Turns t f' := by
  obtain ⟨e, he, hserves, -, -, hopen⟩ := h.exists_producing ht rfl
  have hnot : f.threads[t]? ≠ some .finished := by simp [ht]
  have hcancelled : f.branches[e.branch]?.getD true = false := (h.cancelled he).trans hopen
  have hemploys := h.threads t _ ht
  refine Leads.of_get fun m hm => ?_
  simp only [hm.getElem?_executors, he, Option.all_some, hm.isCancelled, hcancelled,
    Bool.false_eq_true, if_false]
  cases production with
  | nested left right =>
    obtain ⟨-, -, hplain, -⟩ := hemploys
    have hpull (r : Pulled α × Cursor α)
        (hr : ∀ depth, stepCursor depth (.thread t) left = (pure r : Action α _)) :
        f.Gives (pull (.thread t) left) r f := by
      refine Gives.of_get fun m _ => ?_
      rw [hr]
      exact Gives.of_pure r
    cases hrows : left.rows with
    | nil =>
      refine (hpull _ fun depth => hplain.stepCursor_nil hrows depth _).bind ?_
      refine Leads.of_get fun m hm => ?_
      simp only [QueryContext.remaining?, hm.deadline, Option.map_none]
      exact (gives_become (.inr hnot)).bind (Leads.of_pure (.awaits ht hrows))
    | cons row rest =>
      refine (hpull _ fun depth => Cursor.stepCursor_cons hrows depth _).bind ?_
      refine Leads.of_get fun m hm => ?_
      simp only [hm.checkActive, hm.getElem?_executors, he, Option.all_some, hm.isCancelled,
        hcancelled, Executor.isActive, hopen, Bool.not_false, Bool.and_self, Bool.not_true,
        Bool.false_eq_true, if_false]
      refine (gives_schedule f he "Join" (right row)).bind ?_
      rw [hserves.branch]
      exact (gives_become (f := f.schedule id id "Join" (right row)) (.inr hnot)).bind
        (Leads.of_pure (.schedules ht he hrows))
  | awaiting left limit =>
    obtain ⟨-, -, hplain, rfl⟩ := hemploys
    refine Leads.bind (P := fun b f' => f' = f ∧
      (b = .finished ∧ e.pending = 0 ∨ b = .pending ∧ e.pending ≠ 0)) ?_ ?_
    · refine Leads.of_get fun m hm => ?_
      simp only [hm.getElem?_executors, he, hm.isCancelled, hcancelled, Option.any_none]
      split
      · next hpending => exact Leads.of_pure ⟨rfl, .inl ⟨rfl, by simpa using hpending⟩⟩
      · next hpending => exact Leads.of_pure ⟨rfl, .inr ⟨rfl, by simpa using hpending⟩⟩
    · rintro b _ ⟨rfl, ⟨rfl, hpending⟩ | ⟨rfl, hpending⟩⟩
      · refine Leads.of_get fun m hm => ?_
        have htimeout : m.query.checkTimeout m.now = .ok () := by
          simp [QueryContext.checkTimeout, QueryContext.isExpired, hm.deadline]
        simp only [Except.bind, htimeout]
        exact (gives_endProduction _ id).bind ((gives_become (.inl rfl)).bind
          ((gives_discard hplain.held_eq_nil).bind (Leads.of_pure (.completes ht he hpending))))
      · exact Leads.of_pure (.rests (by simpa [Rests, ht] using ⟨e, he, hpending⟩))
  | branches rest => exact hemploys.elim
  | first left blockSize right => exact hemploys.elim
  | block left blockSize task total filled => exact hemploys.elim

/-! ### Steps of threads -/

/-- **A step of a thread is one of the turns.** -/
theorem leads_stepThread (h : f.Sound k) (t : Nat) :
    f.Leads (stepThread t) fun _ f' => f.Turns t f' := by
  refine Leads.of_get fun m hm => ?_
  cases ht : f.threads[t]? with
  | none =>
    have hnone : m.threads[t]? = none := by
      rw [← hm.activity?] at ht
      exact Option.map_eq_none_iff.1 ht
    rw [hnone]
    exact Leads.of_pure (.rests (by simp [Rests, ht]))
  | some a =>
    by_cases ha : a = .finished
    · subst ha
      have hrests : f.Turns t f := .rests (by simp [Rests, ht])
      have hactivity := hm.activity? t
      rw [ht] at hactivity
      obtain ⟨⟨activity, doomed⟩, hth, hfinished⟩ := Option.map_eq_some_iff.1 hactivity
      obtain rfl : activity = .finished := hfinished
      rw [hth]
      cases doomed with
      | false => exact Leads.of_pure hrests
      | true =>
        refine (gives_become (.inl rfl)).bind ?_
        rw [become_eq_self ht]
        exact (Gives.of_pure ()).bind ((gives_wake f .main).bind (Leads.of_pure hrests))
    · rw [hm.thread ht ha]
      simp only [Bool.false_eq_true, if_false]
      have hemploys := h.threads t _ ht
      cases a with
      | idle p =>
        obtain ⟨rfl, -⟩ := hemploys
        exact leads_stepIdle ht
      | working p job run =>
        obtain ⟨rfl, -⟩ := id hemploys
        exact leads_stepWorking h ht
      | sending p job c =>
        obtain ⟨rfl, -⟩ := id hemploys
        exact leads_stepSending h ht
      | producing id production => exact leads_stepProducing h ht
      | alarm due => exact hemploys.elim
      | finished => exact absurd rfl ha

end Steps

end Floor

end FederatedSparql
