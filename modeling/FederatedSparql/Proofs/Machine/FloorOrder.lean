import FederatedSparql.Proofs.Machine.FloorTurns

/-!
Threads, jobs and executors of a floor stay together.

* `Floor.Sound.turns`: whatever step a thread takes, a sound floor is left sound.
-/

namespace FederatedSparql

open Machine

variable {α : Type}

namespace Floor

variable {k : Scale} {f g : Floor α} {t id : Nat} {e d : Executor α} {a b : Activity α}
  {job : Job α}

/-! ### What others rely on -/

theorem getElem?_set_iff (hthreads : g.threads = f.threads.set t b)
    (ht : f.threads[t]? = some a) (i : Nat) (c : Activity α) :
    g.threads[i]? = some c ↔ if i = t then c = b else f.threads[i]? = some c := by
  have hlt := (List.getElem?_eq_some_iff.1 ht).1
  rw [hthreads, List.getElem?_set]
  by_cases hi : t = i
  · subst hi
    simp [hlt, eq_comm]
  · simp [hi, Ne.symm hi]

theorem getElem?_concat_iff {ι : Type} (l : List ι) (x : ι) (i : Nat) (c : ι) :
    (l ++ [x])[i]? = some c ↔ l[i]? = some c ∨ i = l.length ∧ c = x := by
  rw [List.getElem?_append]
  split
  · next hi => simp [Nat.ne_of_lt hi]
  · next hi =>
    rw [List.getElem?_eq_none (Nat.le_of_not_lt hi)]
    rcases Nat.eq_or_lt_of_le (Nat.le_of_not_lt hi) with heq | hlt
    · simp [← heq, eq_comm]
    · rw [List.getElem?_eq_none (by simp; omega)]
      simp [Nat.ne_of_gt hlt]

/-- What a thread counts for, after it has gone on. -/
theorem inHand_set (hthreads : g.threads = f.threads.set t b) (ht : f.threads[t]? = some a)
    (id : Nat) : g.inHand id + a.inHand id = f.inHand id + b.inHand id := by
  rw [inHand, hthreads]
  exact sum_set (·.inHand id) ht b

theorem toCome_set (hthreads : g.threads = f.threads.set t b) (ht : f.threads[t]? = some a)
    (id : Nat) : g.toCome id + a.toCome id = f.toCome id + b.toCome id := by
  rw [toCome, hthreads]
  exact sum_set (·.toCome id) ht b

theorem branches_deliver (f : Floor α) (e : Executor α) (t : Nat) (job : Job α) (c : Cursor α) :
    (f.deliver e t job c).branches = f.branches := by
  unfold Floor.deliver
  split <;> rfl

variable [DecidableEq α]

theorem Runs.congr {run : Run α} (h : f.Runs k id run) (hanswers : g.answers = f.answers) :
    g.Runs k id run where
  outer hid := by rw [hanswers]; exact h.outer hid
  inner hid := by rw [hanswers]; exact h.inner hid

theorem Results.mono {c : Cursor α} (h : f.Results id c)
    (hlength : f.executors.length ≤ g.executors.length) : g.Results id c where
  outer hid := by
    obtain ⟨j, hj, hlt, hc⟩ := h.outer hid
    exact ⟨j, hj, hlt.trans_le hlength, hc⟩
  inner := h.inner

/-- There is at least as much as before, and what has been asked is answered as before. -/
structure Extends (f g : Floor α) : Prop where
  answers : g.answers = f.answers
  tasks : ∀ i id : Nat, f.tasks[i]? = some id → g.tasks[i]? = some id
  executors : f.executors.length ≤ g.executors.length

theorem Knows.mono (h : f.Knows k job) (hfg : f.Extends g) : g.Knows k job where
  executor := h.executor.trans_le hfg.executors
  task := hfg.tasks _ _ h.task
  work := h.work.congr hfg.answers

/-- A thread goes on with what it does, whatever others do. -/
theorem Employs.mono (h : f.Employs k t a) (hfg : f.Extends g) : g.Employs k t a := by
  cases a with
  | idle p => exact h
  | working p job run => exact ⟨h.1, h.2.1, h.2.2.1.mono hfg, h.2.2.2.congr hfg.answers⟩
  | sending p job c => exact ⟨h.1, h.2.1, h.2.2.1.mono hfg, h.2.2.2.mono hfg.executors⟩
  | producing id production =>
    cases production with
    | nested left right =>
      exact ⟨h.1, h.2.1.trans_le hfg.executors, h.2.2.1, fun row hrow =>
        (h.2.2.2 row hrow).congr hfg.answers⟩
    | awaiting left limit => exact ⟨h.1, h.2.1.trans_le hfg.executors, h.2.2⟩
    | _ => exact h.elim
  | alarm due => exact h.elim
  | finished => exact h

/-! ### A thread goes on to something else -/

/-- Executors for which nobody has done anything are as they were. -/
theorem Serves.others {i : Nat} (h : f.Serves k i e) (hi : i ≠ id) (hfg : f.Extends g)
    (hthreads : g.threads = f.threads.set t b) (ht : f.threads[t]? = some a) (ha : a ≠ .finished)
    (hjobs : g.jobsOf i = f.jobsOf i) (hab : a.Concerns id ∧ b.Concerns id) : g.Serves k i e := by
  have hinHand := inHand_set hthreads ht i
  have htoCome := toCome_set hthreads ht i
  have hget := getElem?_set_iff hthreads ht
  rw [hab.1.inHand i hi, hab.2.inHand i hi] at hinHand
  rw [hab.1.toCome i hi, hab.2.toCome i hi] at htoCome
  refine { h with
    queue := fun c hc => (h.queue c hc).mono hfg.executors
    current := fun c hc => (h.current c hc).mono hfg.executors
    waiting := fun s => ?_
    producer := fun hproducing => ?_
    settled := fun hproducing => ⟨(h.settled hproducing).1, fun s hs => ?_⟩
    pending := ?_
    most := ?_ }
  · rw [h.waiting s]
    by_cases hst : s = t
    · subst hst
      simp [hget, ht, hab.1.sends i hi, hab.2.sends i hi]
    · simp [hget, hst]
  · obtain ⟨s, c, hs, hc, hproduces⟩ := h.producer hproducing
    by_cases hst : s = t
    · subst hst
      obtain rfl := Option.some.inj (ht.symm.trans hc)
      exact absurd hproduces (hab.1.produces i hi)
    · exact ⟨s, c, hs, by simp [hget, hst, hc], hproduces⟩
  · have hfinished := (h.settled hproducing).2 s hs
    have hst : s ≠ t := by
      rintro rfl
      exact ha (Option.some.inj (ht.symm.trans hfinished))
    simp [hget, hst, hfinished]
  · have := h.pending
    omega
  · have := h.most
    omega

/-- A thread has done something for an executor that is open. -/
theorem Serves.become (h : f.Serves k id e) (hopen : e.closed = false)
    (hproducing : e.producing = true) (hfg : f.Extends g)
    (hthreads : g.threads = f.threads.set t b) (ht : f.threads[t]? = some a)
    (hsame : d = { e with
      queue := d.queue, waiting := d.waiting, pending := d.pending, producing := d.producing })
    (hqueue : ∀ c ∈ d.queue, c ∈ e.queue ∨ g.Results id c)
    (hwaiting : ∀ i, i ∈ d.waiting ↔ if i = t then b.SendsFor id else i ∈ e.waiting)
    (hends : d.producing = true ∧ (b.ProducesFor id ↔ a.ProducesFor id) ∨
      d.producing = false ∧ d.pending = 0 ∧ e.producer = some t ∧ b = .finished)
    (hpending : d.pending + f.jobsOf id + a.inHand id = e.pending + g.jobsOf id + b.inHand id)
    (hmost : d.queue.length + d.pending + b.toCome id ≤
      e.queue.length + e.pending + a.toCome id) : g.Serves k id d := by
  have hinHand := inHand_set hthreads ht id
  have htoCome := toCome_set hthreads ht id
  have hget := getElem?_set_iff hthreads ht
  rw [hsame]
  refine
    { branch := h.branch, firstOnly := h.firstOnly, error := h.error, finished := h.finished
      receiving := h.receiving
      closed := fun hclosed => absurd hclosed (by simp [hopen])
      queue := fun c hc => ?_
      current := fun c hc => (h.current c hc).mono hfg.executors
      waiting := fun i => ?_
      producer := fun htrue => ?_
      settled := fun hfalse => ?_
      pending := ?_
      most := ?_ }
  · obtain hc | hc := hqueue c hc
    · exact (h.queue c hc).mono hfg.executors
    · exact hc
  · show i ∈ d.waiting ↔ _
    rw [hwaiting, h.waiting i]
    by_cases hi : i = t
    · subst hi
      simp [hget]
    · simp [hget, hi]
  · obtain ⟨i, c, hi, hc, hproduces⟩ := h.producer hproducing
    obtain ⟨-, hab⟩ | ⟨hfalse, -⟩ := hends
    · by_cases hit : i = t
      · subst hit
        obtain rfl := Option.some.inj (ht.symm.trans hc)
        exact ⟨i, b, hi, by simp [hget], hab.2 hproduces⟩
      · exact ⟨i, c, hi, by simp [hget, hit, hc], hproduces⟩
    · exact absurd (hfalse.symm.trans htrue) (by simp)
  · obtain ⟨htrue, -⟩ | ⟨-, hzero, hproducer, rfl⟩ := hends
    · exact absurd (htrue.symm.trans hfalse) (by simp)
    · refine ⟨hzero, fun i hi => ?_⟩
      obtain rfl : t = i := Option.some.inj (hproducer.symm.trans hi)
      simp [hget]
  · show d.pending = _
    have := h.pending
    omega
  · show d.queue.length + d.pending + g.toCome id + e.current.toList.length ≤ _
    have := h.most
    omega

/-- A thread has gone on, and what it has done was for one executor. -/
theorem Sound.become (h : f.Sound k) (ht : f.threads[t]? = some a) (ha : a ≠ .finished)
    (he : f.executors[id]? = some e) (hfg : f.Extends g) (hbranches : g.branches = f.branches)
    (hthreads : g.threads = f.threads.set t b) (hemploys : g.Employs k t b)
    (hline : ∀ i ∈ g.line, i ∈ f.line ∧ i ≠ t) (hjobs : ∀ job ∈ g.jobs, g.Knows k job)
    (hab : a.Concerns id ∧ b.Concerns id)
    (hrest : ∀ i, i ≠ id → g.executors[i]? = f.executors[i]? ∧ g.jobsOf i = f.jobsOf i)
    (he' : g.executors[id]? = some d) (hclosed : d.closed = e.closed)
    (hproducer : d.producer = e.producer)
    (hproducing : d.producing = e.producing ∨ e.producer = some t ∧ b = .finished)
    (hserves : g.Serves k id d)
    (hproduces : b.ProducesFor id → e.producer = some t ∧ d.producing = true) : g.Sound k := by
  have hget := getElem?_set_iff hthreads ht
  refine
    { staff := by rw [hthreads, List.length_set]; exact h.staff
      branches := ?_
      line := fun i hi => ?_
      jobs := hjobs
      threads := fun i c hi => ?_
      executors := fun i e'' hi => ?_
      producing := fun i c j hi hc => ?_ }
  · rw [hbranches, h.branches]
    refine List.ext_getElem? fun i => ?_
    rw [List.getElem?_map, List.getElem?_map]
    by_cases hi : i = id
    · subst hi
      simp [he, he', hclosed]
    · rw [(hrest i hi).1]
  · obtain ⟨hmem, hit⟩ := hline i hi
    simp [hget, hit, h.line i hmem]
  · rw [hget] at hi
    split at hi
    · next hit =>
      subst hit hi
      exact hemploys
    · exact (h.threads i c hi).mono hfg
  · by_cases hid : i = id
    · subst hid
      obtain rfl := Option.some.inj (he'.symm.trans hi)
      exact hserves
    · obtain ⟨hsame, hjobsOf⟩ := hrest i hid
      rw [hsame] at hi
      exact (h.executors i e'' hi).others hid hfg hthreads ht ha hjobsOf hab
  · rw [hget] at hi
    split at hi
    · next hit =>
      subst hit hi
      by_cases hj : j = id
      · subst hj
        exact ⟨d, he', hproducer.trans (hproduces hc).1, (hproduces hc).2⟩
      · exact absurd hc (hab.2.produces j hj)
    · next hit =>
      obtain ⟨e'', he'', hproducer'', hproducing''⟩ := h.producing i c j hi hc
      by_cases hj : j = id
      · subst hj
        obtain rfl := Option.some.inj (he.symm.trans he'')
        obtain hsame | ⟨hmine, -⟩ := hproducing
        · exact ⟨d, he', hproducer.trans hproducer'', hsame.trans hproducing''⟩
        · exact absurd (Option.some.inj (hproducer''.symm.trans hmine)) hit
      · exact ⟨e'', (hrest j hj).1.trans he'', hproducer'', hproducing''⟩

/-! ### Steps of threads -/

/-- A worker is done with a job, for whose executor it may have queued a result. -/
theorem Sound.endJob {κ : Executor α → Executor α} (h : f.Sound k) (ht : f.threads[t]? = some a)
    (hjob : a.job? = some job) (he : f.executors[job.executor]? = some e)
    (hsame : κ e = { e with queue := (κ e).queue, waiting := (κ e).waiting })
    (hqueue : ∀ c ∈ (κ e).queue, c ∈ e.queue ∨ f.Results job.executor c)
    (hlength : (κ e).queue.length ≤ e.queue.length + 1)
    (hwaiting : ∀ i, i ∈ (κ e).waiting ↔ i ≠ t ∧ i ∈ e.waiting) :
    ((f.update job.executor κ).endJob t job).Sound k := by
  obtain ⟨e₀, he₀, hserves, hpending, hopen, hproducing⟩ := h.exists_executor ht hjob
  obtain rfl := Option.some.inj (he.symm.trans he₀)
  have hworker : t < k.workers ∧ a.Concerns job.executor ∧ a.inHand job.executor = 1 ∧
      a.toCome job.executor = 0 ∧ a ≠ .finished ∧ a ≠ .idle .join ∧
      ¬ a.ProducesFor job.executor := by
    have hemploys := h.threads t a ht
    cases a with
    | working p job' run =>
      cases hjob
      exact ⟨hemploys.2.1, Activity.concerns_working _ _ _, if_pos rfl, rfl, by simp, by simp, id⟩
    | sending p job' c =>
      cases hjob
      exact ⟨hemploys.2.1, Activity.concerns_sending _ _ _, if_pos rfl, rfl, by simp, by simp, id⟩
    | _ => cases hjob
  obtain ⟨hlt, hconcerns, hone, hnone, hfinished, hidle, hnot⟩ := hworker
  have hget (i : Nat) : ((f.update job.executor κ).endJob t job).executors[i]? =
      if job.executor = i then f.executors[i]?.map fun e => (κ e).finishTask
      else f.executors[i]? := by
    show ((f.update job.executor κ).update job.executor Executor.finishTask).executors[i]? = _
    rw [getElem?_update, getElem?_update]
    split <;> simp [Function.comp_def]
  have hfg : f.Extends ((f.update job.executor κ).endJob t job) :=
    ⟨rfl, fun _ _ h => h, by simp [Floor.endJob, Floor.become, update]⟩
  have hmine : (κ e).producing = true := by rw [hsame]; exact hproducing
  have hcount : (κ e).pending = e.pending := by rw [hsame]
  refine h.become (e := e) (d := (κ e).finishTask) (b := .idle .join) ht
    hfinished he hfg rfl rfl ⟨rfl, hlt⟩ (fun i hi => ⟨hi, ?_⟩)
    (fun job' hjob' => (h.jobs job' hjob').mono hfg)
    ⟨hconcerns, Activity.concerns_idle _ _⟩ (fun i hi => ⟨by rw [hget, if_neg hi.symm], rfl⟩)
    (by rw [hget, if_pos rfl, he]; rfl) ?_ ?_ ?_ ?_ (fun hfalse => hfalse.elim)
  · rintro rfl
    exact h.not_lined ht hidle hi
  · rw [hsame]; rfl
  · rw [hsame]; rfl
  · exact .inl (hmine.trans hproducing.symm)
  · refine hserves.become hopen hproducing hfg rfl ht ?_ ?_ ?_ (.inl ⟨hmine, ?_⟩) ?_ ?_
    · rw [hsame]; rfl
    · exact fun c hc => (hqueue c hc).imp_right fun hresults => hresults.mono hfg.executors
    · intro i
      refine (hwaiting i).trans ?_
      by_cases hi : i = t
      · simp [hi, Activity.SendsFor]
      · simp [hi]
    · exact ⟨fun hfalse => hfalse.elim, fun hproduces => (hnot hproduces).elim⟩
    · have hsamejobs : ((f.update job.executor κ).endJob t job).jobsOf job.executor =
        f.jobsOf job.executor := rfl
      have hidle : (Activity.idle .join : Activity α).inHand job.executor = 0 := rfl
      simp only [Executor.finishTask]
      omega
    · have hidle : (Activity.idle .join : Activity α).toCome job.executor = 0 := rfl
      simp only [Executor.finishTask]
      omega

/-- A job has come to a result. -/
theorem Sound.deliver {run : Run α} {c : Cursor α} (h : f.Sound k)
    (ht : f.threads[t]? = some (.working .join job run))
    (he : f.executors[job.executor]? = some e) (hc : f.Results job.executor c) :
    (f.deliver e t job c).Sound k := by
  obtain ⟨e₀, he₀, hserves, hpending, hopen, hproducing⟩ := h.exists_executor ht rfl
  obtain rfl := Option.some.inj (he.symm.trans he₀)
  obtain ⟨-, hlt, hknows, -⟩ := h.threads t _ ht
  have hnot (i : Nat) (hi : i ∈ e.waiting) : i ≠ t := by
    rintro rfl
    exact hserves.not_waiting ht id hi
  unfold Floor.deliver
  cases e.admission false c with
  | dropped =>
    have hsame : f.update job.executor id = f := update_eq_self he rfl
    have := h.endJob (κ := id) ht rfl he rfl (fun c hc => .inl hc) (Nat.le_succ _)
      fun i => ⟨fun hi => ⟨hnot i hi, hi⟩, (·.2)⟩
    rwa [hsame] at this
  | queued =>
    refine h.endJob (κ := (·.push c)) ht rfl he ?_ (fun c' hc' => ?_) ?_
      fun i => ⟨fun hi => ⟨hnot i hi, hi⟩, (·.2)⟩
    · simp [Executor.push, hserves.firstOnly]
    · obtain hc' | hc' := List.mem_append.1 hc'
      · exact .inl hc'
      · exact .inr (List.mem_singleton.1 hc' ▸ hc)
    · simp [Executor.push]
  | waits =>
    set κ : Executor α → Executor α := fun e => { e with waiting := e.waiting ++ [t] } with hκ
    set g := (f.update job.executor κ).become t (.sending .join job c) with hg
    have hget (i : Nat) : g.executors[i]? =
        if job.executor = i then f.executors[i]?.map κ else f.executors[i]? :=
      getElem?_update _ _ _ _
    have hfg : f.Extends g := ⟨rfl, fun _ _ h => h, by simp [hg, Floor.become, update]⟩
    refine h.become (e := e) (d := κ e) (b := .sending .join job c) ht
      (by simp) he hfg rfl rfl ⟨rfl, hlt, hknows.mono hfg, hc.mono hfg.executors⟩
      (fun i hi => ⟨hi, ?_⟩) (fun job' hjob' => (h.jobs job' hjob').mono hfg)
      ⟨Activity.concerns_working _ _ _, Activity.concerns_sending _ _ _⟩
      (fun i hi => ⟨by rw [hget, if_neg hi.symm], rfl⟩) (by rw [hget, if_pos rfl, he]; rfl) rfl rfl
      (.inl rfl) ?_ (fun hfalse => hfalse.elim)
    · rintro rfl
      exact h.not_lined ht (by simp) hi
    · refine hserves.become hopen hproducing hfg rfl ht rfl (fun c hc => .inl hc) ?_
        (.inl ⟨hproducing, Iff.rfl⟩) rfl le_rfl
      intro i
      by_cases hi : i = t
      · simp [hκ, hi, Activity.SendsFor]
      · simp [hκ, hi]

/-- A worker takes the first job. -/
theorem Sound.takes {rest : List (Job α)} (h : f.Sound k) (ht : f.threads[t]? = some (.idle .join))
    (hjobs : f.jobs = job :: rest) :
    ({ f.leaveLine t with jobs := rest }.become t
      (.working .join job (.ready job.work))).Sound k := by
  have hknows : f.Knows k job := h.jobs job (by simp [hjobs])
  obtain ⟨e, he⟩ : ∃ e, f.executors[job.executor]? = some e :=
    ⟨_, List.getElem?_eq_getElem hknows.executor⟩
  have hserves := h.executors _ e he
  have hcount : f.jobsOf job.executor =
      rest.countP (fun j => decide (j.executor = job.executor)) + 1 := by
    simp [jobsOf, hjobs]
  have hpending : e.pending ≠ 0 := by
    have := hserves.pending
    omega
  have hproducing : e.producing = true := by
    cases hp : e.producing with
    | true => rfl
    | false => exact absurd (hserves.settled hp).1 hpending
  have hfg : f.Extends ({ f.leaveLine t with jobs := rest }.become t
      (.working .join job (.ready job.work))) := ⟨rfl, fun _ _ h => h, le_rfl⟩
  refine h.become (e := e) (d := e) ht (by simp) he hfg rfl rfl
    ⟨rfl, (h.threads t _ ht).2, hknows.mono hfg, hknows.work.congr rfl⟩ (fun i hi => ?_)
    (fun job' hjob' => (h.jobs job' (by rw [hjobs]; exact .tail _ hjob')).mono hfg)
    ⟨Activity.concerns_idle _ _, Activity.concerns_working _ _ _⟩ (fun i hi => ⟨rfl, ?_⟩) he rfl rfl
    (.inl rfl) ?_ (fun hfalse => hfalse.elim)
  · obtain ⟨hmem, hne⟩ := List.mem_filter.1 hi
    exact ⟨hmem, by simpa using hne⟩
  · simp [jobsOf, Floor.become, leaveLine, hjobs, hi.symm]
  · refine hserves.become (hserves.not_closed hpending) hproducing hfg rfl ht rfl
      (fun c hc => .inl hc) (fun i => ?_) (.inl ⟨hproducing, Iff.rfl⟩) ?_ le_rfl
    · by_cases hi : i = t
      · subst hi
        simp only [if_true, Activity.SendsFor, iff_false]
        exact hserves.not_waiting ht id
      · simp [hi]
    · have hone : (Activity.working .join job (.ready job.work)).inHand job.executor = 1 :=
        if_pos rfl
      have hidle : (Activity.idle .join : Activity α).inHand job.executor = 0 := rfl
      have hrest : ({ f.leaveLine t with jobs := rest }.become t
          (.working .join job (.ready job.work))).jobsOf job.executor =
          rest.countP (fun j => decide (j.executor = job.executor)) := rfl
      omega

/-- A worker gets on with a program. -/
theorem Sound.runs {run next : Run α} (h : f.Sound k)
    (ht : f.threads[t]? = some (.working .join job run)) (hjob : job.executor ≠ 0)
    (hnext : next.EndsWell f.answers) : (f.become t (.working .join job next)).Sound k := by
  obtain ⟨e, he, hserves, hpending, hopen, hproducing⟩ := h.exists_executor ht rfl
  obtain ⟨-, hlt, hknows, -⟩ := h.threads t _ ht
  have hfg : f.Extends (f.become t (.working .join job next)) := ⟨rfl, fun _ _ h => h, le_rfl⟩
  have hruns : f.Runs k job.executor next := ⟨fun h => absurd h hjob, fun _ => hnext⟩
  refine h.become (e := e) (d := e) ht (by simp) he hfg rfl rfl
    ⟨rfl, hlt, hknows.mono hfg, hruns.congr rfl⟩ (fun i hi => ⟨hi, ?_⟩)
    (fun job' hjob' => (h.jobs job' hjob').mono hfg)
    ⟨Activity.concerns_working _ _ _, Activity.concerns_working _ _ _⟩ (fun i hi => ⟨rfl, rfl⟩) he
    rfl rfl (.inl rfl) ?_ (fun hfalse => hfalse.elim)
  · rintro rfl
    exact h.not_lined ht (by simp) hi
  · refine hserves.become hopen hproducing hfg rfl ht rfl (fun c hc => .inl hc) (fun i => ?_)
      (.inl ⟨hproducing, Iff.rfl⟩) rfl le_rfl
    by_cases hi : i = t
    · subst hi
      simp only [if_true, Activity.SendsFor, iff_false]
      exact hserves.not_waiting ht id
    · simp [hi]

/-- A producer goes on to something else. -/
theorem Sound.produces {production : Production α} (h : f.Sound k)
    (ht : f.threads[t]? = some (.producing id production)) (he : f.executors[id]? = some e)
    (hfg : f.Extends g) (hbranches : g.branches = f.branches)
    (hthreads : g.threads = f.threads.set t b) (hemploys : g.Employs k t b)
    (hline : g.line = f.line) (hjobs : ∀ job ∈ g.jobs, g.Knows k job) (hb : b.Concerns id)
    (hrest : ∀ i, i ≠ id → g.executors[i]? = f.executors[i]? ∧ g.jobsOf i = f.jobsOf i)
    (he' : g.executors[id]? = some d)
    (hsame : d = { e with pending := d.pending, producing := d.producing })
    (hends : d.producing = true ∧ b.ProducesFor id ∨
      d.producing = false ∧ d.pending = 0 ∧ b = .finished)
    (hpending : d.pending + f.jobsOf id = e.pending + g.jobsOf id)
    (hnothing : b.inHand id = 0 ∧ ¬ b.SendsFor id)
    (hmost : d.pending + b.toCome id ≤
      e.pending + (Activity.producing id production).toCome id) : g.Sound k := by
  obtain ⟨e₀, he₀, hserves, hproducer, hproducing, hopen⟩ := h.exists_producing ht rfl
  obtain rfl := Option.some.inj (he.symm.trans he₀)
  have hnone : (Activity.producing id production).inHand id = 0 := rfl
  have hkeeps : d.closed = e.closed ∧ d.producer = e.producer ∧ d.queue = e.queue ∧
      d.waiting = e.waiting := by
    rw [hsame]
    exact ⟨rfl, rfl, rfl, rfl⟩
  refine h.become ht (by simp) he hfg hbranches hthreads hemploys (fun i hi => ?_) hjobs
    ⟨Activity.concerns_producing _ _, hb⟩ hrest he' hkeeps.1 hkeeps.2.1 ?_ ?_ ?_
  · refine ⟨hline ▸ hi, ?_⟩
    rintro rfl
    exact h.not_lined ht (by simp) (hline ▸ hi)
  · exact hends.imp (fun htrue => htrue.1.trans hproducing.symm) fun hfalse =>
      ⟨hproducer, hfalse.2.2⟩
  · refine hserves.become hopen hproducing hfg hthreads ht (by rw [hsame]) ?_ (fun i => ?_) ?_ ?_ ?_
    · rw [hkeeps.2.2.1]
      exact fun c hc => .inl hc
    · rw [hkeeps.2.2.2]
      by_cases hi : i = t
      · subst hi
        simp only [if_true, hnothing.2, iff_false]
        exact hserves.not_waiting ht fun hfalse => hfalse
      · simp [hi]
    · exact hends.imp (fun htrue => ⟨htrue.1, fun _ => rfl, fun _ => htrue.2⟩) fun hfalse =>
        ⟨hfalse.1, hfalse.2.1, hproducer, hfalse.2.2⟩
    · rw [hnothing.1, hnone]
      exact hpending
    · rw [hkeeps.2.2.1]
      omega
  · intro hproduces
    refine ⟨hproducer, ?_⟩
    obtain ⟨htrue, -⟩ | ⟨-, -, rfl⟩ := hends
    · exact htrue
    · exact hproduces.elim

/-- The next task is registered. -/
theorem Sound.schedules {left : Cursor α} {right : α → Work α} {row : α} {rest : List α}
    (h : f.Sound k) (ht : f.threads[t]? = some (.producing id (.nested left right)))
    (he : f.executors[id]? = some e) (hrows : left.rows = row :: rest) :
    ((f.schedule id id "Join" (right row)).become t
      (.producing id (.nested (.buffered rest) right))).Sound k := by
  obtain ⟨hlt, hlength, -, hright⟩ := h.threads t _ ht
  have hfg : f.Extends ((f.schedule id id "Join" (right row)).become t
      (.producing id (.nested (.buffered rest) right))) := by
    refine ⟨rfl, fun i j hi => ?_, by simp [Floor.become, schedule, update]⟩
    exact (List.getElem?_append_left (List.getElem?_eq_some_iff.1 hi).1).trans hi
  have hget (i : Nat) : ((f.schedule id id "Join" (right row)).become t
      (.producing id (.nested (.buffered rest) right))).executors[i]? =
      if id = i then f.executors[i]?.map Executor.addTask else f.executors[i]? :=
    getElem?_update _ _ _ _
  refine h.produces (d := e.addTask) ht he hfg rfl rfl
    ⟨hlt, hlength.trans_le hfg.executors, trivial, fun row hrow => ?_⟩ rfl (fun job hjob => ?_)
    (Activity.concerns_producing _ _) (fun i hi => ⟨by rw [hget, if_neg hi.symm], ?_⟩)
    (by rw [hget, if_pos rfl, he]; rfl) rfl (.inl ⟨?_, rfl⟩) ?_ ⟨rfl, fun h => h⟩ ?_
  · exact (hright row (by rw [hrows]; exact .tail _ hrow)).congr rfl
  · obtain hjob | hjob := List.mem_append.1 hjob
    · exact (h.jobs job hjob).mono hfg
    · rw [List.mem_singleton.1 hjob]
      refine ⟨hlength.trans_le hfg.executors, ?_, (hright row (by simp [hrows])).congr rfl⟩
      simp [Floor.become, schedule]
  · simp [jobsOf, Floor.become, schedule, hi.symm]
  · obtain ⟨e₀, he₀, -, -, hproducing, -⟩ := h.exists_producing ht rfl
    obtain rfl := Option.some.inj (he.symm.trans he₀)
    exact hproducing
  · simp [jobsOf, Floor.become, schedule, Executor.addTask]
    omega
  · have hone : (Cursor.buffered rest).rows.length + 1 = left.rows.length := by rw [hrows]; rfl
    simp only [Activity.toCome, if_true, Executor.addTask]
    omega

/-- All tasks are scheduled. -/
theorem Sound.awaits {left : Cursor α} {right : α → Work α} (h : f.Sound k)
    (ht : f.threads[t]? = some (.producing id (.nested left right))) :
    (f.become t (.producing id (.awaiting left none))).Sound k := by
  obtain ⟨hlt, hlength, hplain, -⟩ := h.threads t _ ht
  obtain ⟨e, he, -, -, hproducing, -⟩ := h.exists_producing ht rfl
  have hfg : f.Extends (f.become t (.producing id (.awaiting left none))) :=
    ⟨rfl, fun _ _ h => h, le_rfl⟩
  exact h.produces (d := e) ht he hfg rfl rfl ⟨hlt, hlength, hplain, rfl⟩ rfl
    (fun job hjob => (h.jobs job hjob).mono hfg) (Activity.concerns_producing _ _)
    (fun i hi => ⟨rfl, rfl⟩) he rfl (.inl ⟨hproducing, rfl⟩) rfl ⟨rfl, fun h => h⟩
    (Nat.add_le_add_left (Nat.zero_le _) _)

/-- All tasks are finished. -/
theorem Sound.completes {production : Production α} (h : f.Sound k)
    (ht : f.threads[t]? = some (.producing id production)) (he : f.executors[id]? = some e)
    (hpending : e.pending = 0) :
    ((f.update id Executor.endProduction).become t .finished).Sound k := by
  have hlt : k.workers ≤ t := by
    have := h.threads t _ ht
    cases production with
    | nested left right => exact this.1
    | awaiting left limit => exact this.1
    | _ => exact this.elim
  have hfg : f.Extends ((f.update id Executor.endProduction).become t .finished) :=
    ⟨rfl, fun _ _ h => h, by simp [Floor.become, update]⟩
  have hget (i : Nat) :
      ((f.update id Executor.endProduction).become t .finished).executors[i]? =
        if id = i then f.executors[i]?.map Executor.endProduction else f.executors[i]? :=
    getElem?_update _ _ _ _
  exact h.produces (d := e.endProduction) ht he hfg rfl rfl hlt rfl
    (fun job hjob => (h.jobs job hjob).mono hfg) (Activity.concerns_finished _)
    (fun i hi => ⟨by rw [hget, if_neg hi.symm], rfl⟩) (by rw [hget, if_pos rfl, he]; rfl) rfl
    (.inr ⟨rfl, hpending, rfl⟩) rfl ⟨rfl, fun h => h⟩ (Nat.add_le_add_left (Nat.zero_le _) _)

/-- Nobody does anything for an executor that has yet to be started. -/
theorem Sound.concerns (h : f.Sound k) (ht : f.threads[t]? = some a) :
    ∃ id, id ≠ f.executors.length ∧ a.Concerns id := by
  have hemploys := h.threads t a ht
  cases a with
  | idle p => exact ⟨_, Nat.succ_ne_self _, Activity.concerns_idle _ _⟩
  | working p job run => exact ⟨_, hemploys.2.2.1.executor.ne, Activity.concerns_working _ _ _⟩
  | sending p job c => exact ⟨_, hemploys.2.2.1.executor.ne, Activity.concerns_sending _ _ _⟩
  | producing id production =>
    refine ⟨id, ?_, Activity.concerns_producing _ _⟩
    cases production with
    | nested left right => exact hemploys.2.1.ne
    | awaiting left limit => exact hemploys.2.1.ne
    | _ => exact hemploys.elim
  | alarm due => exact hemploys.elim
  | finished => exact ⟨_, Nat.succ_ne_self _, Activity.concerns_finished _⟩

/-- There are no tasks of an executor that has yet to be started. -/
theorem Sound.counts_eq_zero (h : f.Sound k) :
    f.jobsOf f.executors.length = 0 ∧ f.inHand f.executors.length = 0 ∧
      f.toCome f.executors.length = 0 := by
  have nobody (m : Activity α → Nat)
      (hm : ∀ a i, a.Concerns i → i ≠ f.executors.length → m a = 0) :
      (f.threads.map m).sum = 0 := by
    rw [List.sum_eq_zero_iff]
    intro x hx
    obtain ⟨a, ha, rfl⟩ := List.mem_map.1 hx
    obtain ⟨t, ht⟩ := List.mem_iff_getElem?.1 ha
    obtain ⟨i, hi, hconcerns⟩ := h.concerns ht
    exact hm a i hconcerns hi
  refine ⟨List.countP_eq_zero.2 fun job hjob => ?_, ?_, ?_⟩
  · simpa using (h.jobs job hjob).executor.ne
  · exact nobody _ fun a i ha hi => ha.inHand _ hi.symm
  · exact nobody _ fun a i ha hi => ha.toCome _ hi.symm

/-- A further executor is started. -/
theorem Sound.startExecutor {rows : List α} {right : α → Work α} (h : f.Sound k)
    (hrows : rows.length ≤ k.most f.executors.length)
    (hright : ∀ row ∈ rows, f.Runs k f.executors.length (.ready (right row))) :
    (f.startExecutor (.nested (.ofList rows) right)).Sound k := by
  set production : Production α := .nested (.ofList rows) right with hproduction
  set g := f.startExecutor production with hg
  set n := f.executors.length with hn
  have hfg : f.Extends g := ⟨rfl, fun _ _ h => h, by simp [hg, Floor.startExecutor]⟩
  have hthread (i : Nat) (c : Activity α) : g.threads[i]? = some c ↔
      f.threads[i]? = some c ∨ i = f.threads.length ∧ c = .producing n production :=
    getElem?_concat_iff _ _ i c
  have hexecutor (i : Nat) (e : Executor α) : g.executors[i]? = some e ↔
      f.executors[i]? = some e ∨
        i = n ∧ e = { branch := f.branches.length, producer := some f.threads.length } :=
    getElem?_concat_iff _ _ i e
  have hnew := Activity.concerns_producing n production
  have hhand (i : Nat) : g.inHand i = f.inHand i + (Activity.producing n production).inHand i := by
    simp [inHand, hg, Floor.startExecutor, hn]
  have hcome (i : Nat) : g.toCome i = f.toCome i + (Activity.producing n production).toCome i := by
    simp [toCome, hg, Floor.startExecutor, hn]
  refine
    { staff := h.staff.trans (by simp [hg, Floor.startExecutor])
      branches := by simp [hg, Floor.startExecutor, h.branches]
      line := fun i hi => (hthread _ _).2 (.inl (h.line i hi))
      jobs := fun job hjob => (h.jobs job hjob).mono hfg
      threads := fun i c hi => ?_
      executors := fun i e hi => ?_
      producing := fun i c j hi hc => ?_ }
  · obtain hi | ⟨rfl, rfl⟩ := (hthread i c).1 hi
    · exact (h.threads i c hi).mono hfg
    · refine ⟨h.staff, by simp [hg, Floor.startExecutor, hn], Cursor.plain_ofList rows, ?_⟩
      intro row hrow
      rw [Cursor.rows_ofList] at hrow
      exact (hright row hrow).congr rfl
  · obtain hi | ⟨hin, rfl⟩ := (hexecutor i e).1 hi
    · have hserves := h.executors i e hi
      have hne : i ≠ n := (List.getElem?_eq_some_iff.1 hi).1.ne
      refine { hserves with
        queue := fun c hc => (hserves.queue c hc).mono hfg.executors
        current := fun c hc => (hserves.current c hc).mono hfg.executors
        waiting := fun s => (hserves.waiting s).trans ⟨?_, ?_⟩
        producer := fun hproducing => ?_
        settled := fun hproducing => ⟨(hserves.settled hproducing).1, fun s hs =>
          (hthread _ _).2 (.inl ((hserves.settled hproducing).2 s hs))⟩
        pending := by rw [hhand, hnew.inHand i hne]; exact hserves.pending
        most := by rw [hcome, hnew.toCome i hne]; exact hserves.most }
      · rintro ⟨c, hc, hsends⟩
        exact ⟨c, (hthread _ _).2 (.inl hc), hsends⟩
      · rintro ⟨c, hc, hsends⟩
        obtain hc | ⟨-, rfl⟩ := (hthread s c).1 hc
        · exact ⟨c, hc, hsends⟩
        · exact hsends.elim
      · obtain ⟨s, c, hs, hc, hproduces⟩ := hserves.producer hproducing
        exact ⟨s, c, hs, (hthread _ _).2 (.inl hc), hproduces⟩
    · rw [hin]
      obtain ⟨hjobs, hnohand, hnocome⟩ := h.counts_eq_zero
      refine
        { branch := by simp [h.branches, hn], firstOnly := rfl, error := rfl, finished := rfl
          receiving := rfl
          closed := fun hclosed => by cases hclosed
          queue := fun c hc => by cases hc
          current := fun c hc => by cases hc
          waiting := fun s => ⟨fun hs => (by cases hs), ?_⟩
          producer := fun _ => ⟨_, _, rfl, (hthread _ _).2 (.inr ⟨rfl, rfl⟩), rfl⟩
          settled := fun hfalse => by cases hfalse
          pending := ?_
          most := ?_ }
      · rintro ⟨c, hc, hsends⟩
        obtain hc | ⟨-, rfl⟩ := (hthread s c).1 hc
        · obtain ⟨i, hi, hconcerns⟩ := h.concerns hc
          exact absurd hsends (hconcerns.sends n hi.symm)
        · exact hsends.elim
      · rw [hhand, hnohand]
        exact hjobs.symm
      · rw [hcome, hnocome]
        simpa [Activity.toCome, hproduction, Cursor.rows_ofList] using hrows
  · obtain hi | ⟨rfl, rfl⟩ := (hthread i c).1 hi
    · obtain ⟨e, he, hrest⟩ := h.producing i c j hi hc
      exact ⟨e, (hexecutor _ _).2 (.inl he), hrest⟩
    · obtain rfl : n = j := hc
      exact ⟨_, (hexecutor _ _).2 (.inr ⟨rfl, rfl⟩), rfl, rfl⟩

/-- **Whatever step a thread takes, a sound floor is left sound.** -/
theorem Sound.turns (h : f.Sound k) (ht : f.Turns t g) : g.Sound k := by
  cases ht with
  | rests _ => exact h
  | linesUp ht _ _ =>
    refine { h with
      line := fun i hi => ?_
      jobs := fun job hjob => ⟨(h.jobs job hjob).executor, (h.jobs job hjob).task,
        (h.jobs job hjob).work.congr rfl⟩
      threads := fun i c hi => (h.threads i c hi).mono ⟨rfl, fun _ _ h => h, le_rfl⟩
      executors := fun i e hi => { h.executors i e hi with
        queue := fun c hc => ((h.executors i e hi).queue c hc).mono le_rfl
        current := fun c hc => ((h.executors i e hi).current c hc).mono le_rfl } }
    obtain hi | hi := List.mem_append.1 hi
    · exact h.line i hi
    · exact List.mem_singleton.1 hi ▸ ht
  | takes ht hjobs _ => exact h.takes ht hjobs
  | runs ht hjob hnext _ => exact h.runs ht hjob hnext
  | delivers ht hjob he hc =>
    exact h.deliver ht he ⟨fun hzero => absurd hzero hjob, fun _ => hc⟩
  | @nests job rows right e ht hjob he =>
    obtain ⟨-, -, -, hruns⟩ := h.threads t _ ht
    obtain ⟨w, hw, rows', right', rfl, -, hrows, hright⟩ := hruns.outer hjob
    obtain ⟨rfl, rfl⟩ : rows = rows' ∧ right = right' := by
      simpa using hw
    have hlt := (List.getElem?_eq_some_iff.1 he).1
    have hzero : 0 < f.executors.length := by omega
    have hne : f.executors.length ≠ 0 := hzero.ne'
    have hsound := h.startExecutor (by rwa [Scale.most, if_neg hne]) fun row hrow =>
      ⟨fun hfalse => absurd hfalse hne, fun _ => hright row hrow⟩
    have hlt' := (List.getElem?_eq_some_iff.1 ht).1
    have ht' : (f.startExecutor (.nested (.ofList rows) right)).threads[t]? =
        some (.working .join job (.ready (.done (.nestedJoin (.rows rows) right)))) :=
      (List.getElem?_append_left hlt').trans ht
    refine hsound.deliver ht' ?_ ?_
    · simpa [Floor.startExecutor, List.getElem?_append_left hlt] using he
    · refine ⟨fun _ => ⟨_, hzero, ?_, rfl⟩, fun hne => absurd hjob hne⟩
      simp [Floor.startExecutor]
  | @sends job e c ht he hadmission =>
    obtain ⟨-, -, -, hc⟩ := h.threads t _ ht
    have hfirst := (h.executors _ e he).firstOnly
    refine h.endJob (κ := fun e => (e.push c).leave t) ht rfl he ?_ (fun c' hc' => ?_) ?_
      fun i => ?_
    · simp [Executor.push, Executor.leave, hfirst]
    · obtain hc' | hc' := List.mem_append.1 hc'
      · exact .inl hc'
      · exact .inr (List.mem_singleton.1 hc' ▸ hc)
    · simp [Executor.push, Executor.leave]
    · simp [Executor.push, Executor.leave, and_comm]
  | schedules ht he hrows => exact h.schedules ht he hrows
  | awaits ht _ => exact h.awaits ht
  | completes ht he hpending => exact h.completes ht he hpending

/-- Nothing depends on the time. -/
theorem Sound.congr_now (h : f.Sound k) (now : Nat) : ({ f with now } : Floor α).Sound k := by
  have hfg : f.Extends { f with now } := ⟨rfl, fun _ _ h => h, le_rfl⟩
  exact { h with
    jobs := fun job hjob => (h.jobs job hjob).mono hfg
    threads := fun i c hi => (h.threads i c hi).mono hfg
    executors := fun i e hi => { h.executors i e hi with
      queue := fun c hc => ((h.executors i e hi).queue c hc).mono le_rfl
      current := fun c hc => ((h.executors i e hi).current c hc).mono le_rfl } }

/-- The first executor stays open. -/
theorem Turns.branches_zero (ht : f.Turns t g) (h : f.branches[0]? = some false) :
    g.branches[0]? = some false := by
  cases ht with
  | delivers _ _ _ _ => rwa [branches_deliver]
  | nests _ _ _ =>
    rw [branches_deliver]
    exact (List.getElem?_append_left (List.getElem?_eq_some_iff.1 h).1).trans h
  | _ => exact h

end Floor

end FederatedSparql
