import FederatedSparql.Proofs.Machine.Crowding

/-!
Joins of joins whose workers are crowded out.

The results of a join are those of further joins, drained one after the other.  The tasks of the
further joins stand in the line behind those of the first one; once the queue of the first one is
full, and every worker has in hand a result for which there is no room there, nobody is left for
the tasks whose results the consumer waits for.

* `Floor.Jammed`: that is so, and stays so, whatever anyone does.
* `Nesting.getsOn_iff_length_le`: a run gets on at every moment exactly if the results of all tasks
  of the first join find room in its queue and with the workers.
-/

namespace FederatedSparql

open Machine

variable {α : Type}

namespace Floor

/-! ### Results that are still to come -/

/-- An executor has no results so far, but tasks whose results are still to come. -/
def Withholds (f : Floor α) (j : Nat) : Prop :=
  ∃ e, f.executors[j]? = some e ∧ e.finished = false ∧ e.current = none ∧ e.queue = [] ∧
    e.pending + f.toCome j ≠ 0

/-- Every worker has in hand a result for a full queue, and the executor that the consumer drains
has none. -/
structure Jammed (f : Floor α) (workers : Nat) : Prop where
  sending : ∀ t < workers, ∃ job c, f.threads[t]? = some (.sending .join job c) ∧ job.executor = 0
  first : ∃ e j, f.executors[0]? = some e ∧ Executor.queueCapacity ≤ e.queue.length ∧
    e.current = some (.pipe (.executor j)) ∧ 0 < j ∧ f.Withholds j

/-- There is as much in the queues, and the same tasks are in hand. -/
structure Alike (f g : Floor α) : Prop where
  queued : ∀ id : Nat, (g.executors[id]?.map (·.queue.length)).getD 0 =
    (f.executors[id]?.map (·.queue.length)).getD 0
  inHand : ∀ t : Nat, g.threads[t]?.bind Activity.job? = f.threads[t]?.bind Activity.job?

variable {f g : Floor α} {t id j workers : Nat} {e : Executor α} {a b : Activity α} {job : Job α}
  {κ : Executor α → Executor α}

/-- What the consumer and the producers do changes nothing about a jam. -/
theorem Jammed.congr (h : f.Jammed workers)
    (hκ : ∀ e, (κ e).queue = e.queue ∧ (κ e).current = e.current ∧ (κ e).finished = e.finished)
    (hexecutors : g.executors = (f.update id κ).executors)
    (hthreads : ∀ i : Nat, g.threads[i]? = f.threads[i]? ∨
      g.threads[i]?.bind Activity.job? = none ∧ f.threads[i]?.bind Activity.job? = none)
    (htasks : ∀ (e : Executor α) j, e.pending + f.toCome j ≤
      (if id = j then κ e else e).pending + g.toCome j) : g.Jammed workers ∧ f.Alike g := by
  have hget (i : Nat) :
      g.executors[i]? = f.executors[i]?.map fun e => if id = i then κ e else e := by
    rw [hexecutors, getElem?_update]
    split <;> simp
  have hκ' (i : Nat) (e : Executor α) : (if id = i then κ e else e).queue = e.queue ∧
      (if id = i then κ e else e).current = e.current ∧
      (if id = i then κ e else e).finished = e.finished := by
    split
    · exact hκ e
    · exact ⟨rfl, rfl, rfl⟩
  refine ⟨⟨fun t ht => ?_, ?_⟩, fun i => ?_, fun t => ?_⟩
  · obtain ⟨job, c, hsending, hjob⟩ := h.sending t ht
    obtain hsame | ⟨-, hnone⟩ := hthreads t
    · exact ⟨job, c, hsame.trans hsending, hjob⟩
    · rw [hsending] at hnone
      cases hnone
  · obtain ⟨e, j, he, hfull, hcurrent, hj, e', he', hfinished', hcurrent', hqueue', htasks'⟩ :=
      h.first
    refine ⟨_, j, by rw [hget, he]; rfl, ?_, (hκ' 0 e).2.1.trans hcurrent, hj, _,
      by rw [hget, he']; rfl, (hκ' j e').2.2.trans hfinished', (hκ' j e').2.1.trans hcurrent',
      (hκ' j e').1.trans hqueue', ?_⟩
    · rwa [(hκ' 0 e).1]
    · have := htasks e' j
      omega
  · rw [hget]
    cases f.executors[i]? with
    | none => rfl
    | some e => exact congrArg List.length (hκ' i e).1
  · obtain hsame | ⟨hnone, hnone'⟩ := hthreads t
    · rw [hsame]
    · rw [hnone, hnone']

/-- A producer changes nothing about a jam. -/
theorem Jammed.produces {production : Production α} (h : f.Jammed workers)
    (ht : f.threads[t]? = some (.producing id production))
    (hthreads : g.threads = f.threads.set t b) (hb : b.Concerns id) (hjob : b.job? = none)
    (hexecutors : g.executors = (f.update id κ).executors)
    (hκ : ∀ e, (κ e).queue = e.queue ∧ (κ e).current = e.current ∧ (κ e).finished = e.finished)
    (htasks : ∀ e, e.pending + (Activity.producing id production).toCome id ≤
      (κ e).pending + b.toCome id) : g.Jammed workers ∧ f.Alike g := by
  refine h.congr hκ hexecutors (fun i => ?_) fun e j => ?_
  · by_cases hi : t = i
    · subst hi
      refine .inr ⟨?_, by rw [ht]; rfl⟩
      rw [hthreads, List.getElem?_set_self (List.getElem?_eq_some_iff.1 ht).1]
      exact hjob
    · exact .inl (by rw [hthreads, List.getElem?_set_ne hi])
  · have hset := toCome_set hthreads ht j
    by_cases hj : id = j
    · subst hj
      have := htasks e
      rw [if_pos rfl]
      omega
    · have ha := (Activity.concerns_producing id production).toCome j (Ne.symm hj)
      have hb := hb.toCome j (Ne.symm hj)
      rw [if_neg hj]
      omega

variable [DecidableEq α] {k : Scale}

/-- **Whatever step a thread takes, a jam stays a jam.** -/
theorem Jammed.turns (h : f.Jammed k.workers) (hsound : f.Sound k) (hturns : f.Turns t g) :
    g.Jammed k.workers ∧ f.Alike g := by
  have busy {a : Activity α} (ht : f.threads[t]? = some a) (hlt : t < k.workers) :
      ∃ job c, a = .sending .join job c ∧ job.executor = 0 := by
    obtain ⟨job, c, hsending, hjob⟩ := h.sending t hlt
    exact ⟨job, c, Option.some.inj (ht.symm.trans hsending), hjob⟩
  cases hturns with
  | rests _ => exact ⟨h, fun _ => rfl, fun _ => rfl⟩
  | linesUp ht _ _ | takes ht _ _ =>
    obtain ⟨job, c, heq, -⟩ := busy ht (hsound.threads t _ ht).2
    cases heq
  | runs ht _ _ _ | delivers ht _ _ _ | nests ht _ _ =>
    obtain ⟨job, c, heq, -⟩ := busy ht (hsound.threads t _ ht).2.1
    cases heq
  | @sends job e c ht he hadmission =>
    obtain ⟨job', c', heq, hjob⟩ := busy ht (hsound.threads t _ ht).2.1
    obtain ⟨rfl, rfl⟩ : job = job' ∧ c = c' := by simpa using heq
    obtain ⟨e₀, -, he₀, hfull, -⟩ := h.first
    obtain rfl := Option.some.inj (he₀.symm.trans (hjob ▸ he))
    have hnoroom : ¬ e₀.queue.length < Executor.queueCapacity := Nat.not_lt.2 hfull
    simp only [Executor.admissionOfWaiting, hnoroom, decide_false, Bool.false_and] at hadmission
    split at hadmission <;> cases hadmission
  | schedules ht _ hrows =>
    refine h.produces ht rfl (Activity.concerns_producing _ _) rfl rfl (fun e => ⟨rfl, rfl, rfl⟩)
      fun e => ?_
    rw [Activity.toCome, if_pos rfl, hrows, Activity.toCome, if_pos rfl, List.length_cons]
    simp only [Executor.addTask, Cursor.rows]
    omega
  | @awaits id left right ht hrows =>
    have hsame : (f.update id fun e => e).executors = f.executors := List.modify_id id _
    refine h.produces ht rfl (Activity.concerns_producing _ _) rfl hsame.symm
      (fun e => ⟨rfl, rfl, rfl⟩) fun e => ?_
    simp [Activity.toCome, hrows]
  | completes ht _ _ =>
    exact h.produces ht rfl (Activity.concerns_finished _) rfl rfl (fun e => ⟨rfl, rfl, rfl⟩)
      fun e => le_rfl

/-- An executor whose results are to come is not exhausted. -/
theorem Sound.not_exhausted (h : f.Sound k) (he : f.executors[j]? = some e)
    (htasks : e.pending + f.toCome j ≠ 0) : e.isExhausted = false := by
  by_contra hex
  have hproducing : e.producing = false := by
    simp only [Executor.isExhausted, Bool.not_eq_false, Bool.and_eq_true] at hex
    simpa using hex.1.2
  have hsettled := (h.executors j e he).settled hproducing
  rw [hsettled.1, Nat.zero_add] at htasks
  obtain ⟨t, a, ht, hne⟩ := exists_of_sum htasks
  obtain ⟨e', he', -, -, hproducing', -⟩ := 
    h.exists_producing ht (Activity.producesFor_of_toCome hne)
  obtain rfl := Option.some.inj (he.symm.trans he')
  exact absurd (hproducing.symm.trans hproducing') Bool.false_ne_true

/-- **In a jam the consumer can only wait.** -/
theorem Jammed.pulls {r : Pulled α} (h : f.Jammed k.workers) (hsound : f.Sound k)
    (hopen : e.finished = false) (he : f.executors[0]? = some e) (hpulls : f.Pulls e r g) :
    r = .wait ∧ g.Jammed k.workers ∧ f.Alike g := by
  obtain ⟨e₀, j, he₀, -, hcurrent, -, e', he', hfinished', hcurrent', hqueue', htasks⟩ := h.first
  obtain rfl := Option.some.inj (he.symm.trans he₀)
  have hnot := hsound.not_exhausted he' htasks
  cases hpulls with
  | isOver hfinished => simp [hopen] at hfinished
  | draws _ hcurrent₀ _ he'' hdraws _ =>
    obtain rfl : j = _ := by simpa [hcurrent] using hcurrent₀
    obtain rfl := Option.some.inj (he'.symm.trans he'')
    cases hdraws with
    | isOver hfinished => simp [hfinished'] at hfinished
    | passes _ hc _ | getsOn _ hc _ _ | empties _ hc => simp [hcurrent'] at hc
    | opens _ _ hqueue => simp [hqueue'] at hqueue
    | ends _ _ hex => simp [hnot] at hex
    | waits _ _ _ _ =>
      refine ⟨rfl, h.congr (κ := fun e => { e with consumer := some .main })
        (fun e => ⟨rfl, rfl, rfl⟩) rfl (fun _ => .inl rfl) fun e i => ?_⟩
      show e.pending + f.toCome i ≤ _ + f.toCome i
      split <;> exact le_rfl
  | empties _ hcurrent₀ _ he'' hdraws =>
    obtain rfl : j = _ := by simpa [hcurrent] using hcurrent₀
    obtain rfl := Option.some.inj (he'.symm.trans he'')
    cases hdraws with
    | isOver hfinished => simp [hfinished'] at hfinished
    | ends _ _ hex => simp [hnot] at hex
  | opens _ hnone _ | ends _ hnone _ | waits _ hnone _ _ => simp [hcurrent] at hnone

end Floor

namespace Nesting

variable [DecidableEq α] {k : Scale} {m m' : Moment α} {f g : Floor α}

namespace Tracks

theorem account_eq (h : Tracks k m f) (h' : Tracks k m' g) (halike : f.Alike g)
    (hreceived : m'.received = m.received) : m'.account = m.account := by
  apply Account.ext
  · exact hreceived
  · exact h'.goesOn.trans h.goesOn.symm
  · funext id
    rw [h.queued_eq, h'.queued_eq, halike.queued id]
  · funext t
    rw [h.inHand_eq, h'.inHand_eq, halike.inHand t]

/-- Every step leaves a jam, and what has been done as it was. -/
theorem step_of_jammed {s : Step} (h : Tracks k m f) (hjam : f.Jammed k.workers) (hs : s.Quiet) :
    ∃ g, Tracks k (m.step s) g ∧ g.Jammed k.workers ∧ (m.step s).account = m.account := by
  cases s with
  | thread t =>
    obtain ⟨g, hg, hturns⟩ := h.thread t
    obtain ⟨hjam', halike⟩ := hjam.turns h.sound hturns
    exact ⟨g, hg, hjam', h.account_eq hg halike rfl⟩
  | consumer =>
    obtain ⟨e, he, -, -, hopen⟩ := h.exists_executor
    obtain ⟨r, g, hpulls, hreceived, hg, hended⟩ := h.consumer he
    obtain ⟨rfl, hjam', halike⟩ := hjam.pulls h.sound hopen he hpulls
    rw [show (Pulled.wait : Pulled α).got = [] from rfl, List.append_nil] at hreceived
    exact ⟨g, hg hended, hjam', h.account_eq (hg hended) halike hreceived⟩
  | time ms =>
    have halike : f.Alike { f with now := f.now + ms } := ⟨fun _ => rfl, fun _ => rfl⟩
    have hjam' : ({ f with now := f.now + ms } : Floor α).Jammed k.workers :=
      ⟨hjam.sending, hjam.first⟩
    exact ⟨_, h.time ms, hjam', h.account_eq (h.time ms) halike rfl⟩
  | _ => exact hs.elim

/-- **From a jam nothing more comes.** -/
theorem not_getsOn (h : Tracks k m f) (hjam : f.Jammed k.workers) : ¬ m.GetsOn := by
  rintro ⟨m', hm', hne⟩
  obtain ⟨-, -, -, hsame⟩ := hm'.induction
    (P := fun m' => ∃ g, Tracks k m' g ∧ g.Jammed k.workers ∧ m'.account = m.account)
    ⟨f, h, hjam, rfl⟩ fun m₁ s hs ⟨f₁, h₁, hjam₁, hsame₁⟩ => by
      obtain ⟨g, hg, hjam', hsame'⟩ := h₁.step_of_jammed hjam₁ hs
      exact ⟨g, hg, hjam', hsame'.trans hsame₁⟩
  exact hne hsame

end Tracks

end Nesting

/-! ### On the way to a jam -/

namespace Floor

/-- Only tasks of the first executor have been begun.  Some workers have in hand a result for which
there was no room. -/
structure Filling (f : Floor α) (workers held queued : Nat) (draining : Bool) : Prop where
  line : f.line = []
  sending : ∀ t < held, ∃ job c, f.threads[t]? = some (.sending .join job c) ∧ job.executor = 0
  idle : ∀ t, held ≤ t → t < workers → f.threads[t]? = some (.idle .join)
  jobs : ∀ job ∈ f.jobs, job.executor = 0
  first : ∃ e, f.executors[0]? = some e ∧ e.queue.length = queued ∧ e.current.isSome = draining
  others : ∀ j, 0 < j → j < f.executors.length → f.Withholds j

/-- A worker has brought a task of the first executor to the results of a further one. -/
def bring (f : Floor α) (t : Nat) (rest : List (Job α)) (rows : List α) (right : α → Work α)
    (b : Activity α) (e : Executor α) : Floor α :=
  { f with
    jobs := rest
    branches := f.branches ++ [false]
    threads := List.set
      (f.threads ++ [.producing f.executors.length (.nested (.ofList rows) right)]) t b
    executors := List.set
      (f.executors ++ [{ branch := f.branches.length, producer := some f.threads.length }]) 0 e }

variable {f : Floor α} {workers held queued t : Nat} {draining : Bool} {e e' : Executor α}
  {b : Activity α} {rest : List (Job α)} {rows : List α} {right : α → Work α}

/-- What there is to see after a worker has taken a job, a further executor has been started and the
first one changed. -/
theorem startExecutor_eq_bring (κ : Executor α → Executor α) (a : Activity α)
    (hline : f.line = []) (ht : t < f.threads.length) (he : f.executors[0]? = some e) :
    ((({ f.leaveLine t with jobs := rest }.become t a).startExecutor
      (.nested (.ofList rows) right)).update 0 κ).become t b =
        f.bring t rest rows right b (κ e) := by
  have hthreads (c : Activity α) :
      (f.threads.set t a ++ [c]).set t b = (f.threads ++ [c]).set t b := by
    rw [← List.set_append_left t a ht, List.set_set]
  have hexecutors (e' : Executor α) :
      (f.executors ++ [e']).modify 0 κ = (f.executors ++ [e']).set 0 (κ e) := by
    have he' : (f.executors ++ [e'])[0]? = some e := by
      rw [List.getElem?_append_left (List.getElem?_eq_some_iff.1 he).1, he]
    rw [List.modify_eq_set_getElem?, he']
    rfl
  simp [Floor.become, startExecutor, update, Floor.bring, leaveLine, hline, hthreads, hexecutors]

/-- What a further executor is started with withholds its results. -/
theorem Filling.bring (h : f.Filling workers held queued draining) {held' queued' : Nat}
    (hlt : held < workers) (hrest : ∀ job ∈ rest, job ∈ f.jobs) (hrows : rows ≠ [])
    (he : f.executors[0]? = some e) (hcurrent : e'.current = e.current)
    (hqueue : e'.queue.length = queued')
    (hb : b = .idle .join ∧ held' = held ∨
      (∃ job c, b = .sending .join job c ∧ job.executor = 0) ∧ held' = held + 1) :
    (f.bring held rest rows right b e').Filling workers held' queued' draining := by
  have hidle := h.idle held le_rfl hlt
  have hbound := (List.getElem?_eq_some_iff.1 hidle).1
  have hpos := (List.getElem?_eq_some_iff.1 he).1
  have hget (i : Nat) (hi : i ≠ held) (a : Activity α) (ha : f.threads[i]? = some a) :
      (f.bring held rest rows right b e').threads[i]? = some a := by
    show (List.set (f.threads ++ _) held b)[i]? = _
    rw [List.getElem?_set_ne (Ne.symm hi),
      List.getElem?_append_left (List.getElem?_eq_some_iff.1 ha).1, ha]
  have hself : (f.bring held rest rows right b e').threads[held]? = some b := by
    show ((f.threads ++ _).set held b)[held]? = _
    rw [List.getElem?_set_self (by simp; omega)]
  have htoCome (j : Nat) : (f.bring held rest rows right b e').toCome j =
      f.toCome j + if f.executors.length = j then rows.length else 0 := by
    have hnone : b.toCome j = 0 := by
      obtain ⟨rfl, -⟩ | ⟨⟨job, c, rfl, -⟩, -⟩ := hb
      · rfl
      · rfl
    have happend : (f.threads ++
        [.producing f.executors.length (.nested (.ofList rows) right)])[held]? =
          some (.idle .join) := by
      rw [List.getElem?_append_left hbound, hidle]
    have hset := sum_set (·.toCome j) happend b
    rw [hnone, List.map_append, List.sum_append] at hset
    simpa [Floor.toCome, Floor.bring, Activity.toCome, Cursor.rows_ofList] using hset
  obtain ⟨e₀, he₀, -, hdraining⟩ := h.first
  obtain rfl := Option.some.inj (he.symm.trans he₀)
  refine
    { line := h.line
      sending := fun t ht => ?_
      idle := fun t ht hlt' => ?_
      jobs := fun job hjob => h.jobs job (hrest job hjob)
      first := ⟨e', by simp [Floor.bring], hqueue, by rw [hcurrent, hdraining]⟩
      others := fun j hj hlt' => ?_ }
  · by_cases hheld : t = held
    · subst hheld
      obtain ⟨-, rfl⟩ | ⟨⟨job, c, rfl, hjob⟩, -⟩ := hb
      · exact absurd ht (Nat.lt_irrefl _)
      · exact ⟨job, c, hself, hjob⟩
    · obtain ⟨job, c, hsending, hjob⟩ := h.sending t (by omega)
      exact ⟨job, c, hget t hheld _ hsending, hjob⟩
  · by_cases hheld : t = held
    · subst hheld
      obtain ⟨rfl, -⟩ | ⟨-, rfl⟩ := hb
      · exact hself
      · exact absurd ht (by omega)
    · exact hget t hheld _ (h.idle t (by omega) hlt')
  · have hexecutors : (f.bring held rest rows right b e').executors[j]? =
        (f.executors ++ [{ branch := f.branches.length, producer := some f.threads.length }])[j]? :=
      List.getElem?_set_ne hj.ne
    simp only [Floor.bring, List.length_set, List.length_append, List.length_singleton] at hlt'
    obtain hnew | hold := Nat.eq_or_lt_of_le (Nat.lt_succ_iff.1 hlt')
    · subst hnew
      refine ⟨_, hexecutors.trans (List.getElem?_concat_length ..), rfl, rfl, rfl, ?_⟩
      rw [htoCome, if_pos rfl]
      have := List.length_pos_of_ne_nil hrows
      omega
    · obtain ⟨e'', he'', hopen, hnone, hempty, htasks⟩ := h.others j hj hold
      refine ⟨e'', ?_, hopen, hnone, hempty, ?_⟩
      · rw [hexecutors, List.getElem?_append_left hold, he'']
      · rw [htoCome]
        omega

/-- Scheduling the tasks of the first executor does not change that. -/
theorem Filling.schedule {s : Nat} {production production' : Production α} {branch : Nat}
    {name : String} {w : Work α} (h : f.Filling workers held queued draining)
    (hs : f.threads[s]? = some (.producing 0 production)) :
    ((f.schedule 0 branch name w).become s (.producing 0 production')).Filling workers held queued
      draining := by
  set g := (f.schedule 0 branch name w).become s (.producing 0 production') with hg
  have hthreads : g.threads = f.threads.set s (.producing 0 production') := rfl
  have hget (i : Nat) (a : Activity α) (hi : f.threads[i]? = some a)
      (hne : a ≠ .producing 0 production) : g.threads[i]? = some a := by
    have his : s ≠ i := by
      rintro rfl
      exact hne (Option.some.inj (hi.symm.trans hs))
    rw [hthreads, List.getElem?_set_ne his, hi]
  have hexecutors (i : Nat) : g.executors[i]? =
      if 0 = i then f.executors[i]?.map Executor.addTask else f.executors[i]? :=
    getElem?_update f 0 _ i
  refine
    { line := h.line
      sending := fun t ht => ?_
      idle := fun t ht hlt => hget t _ (h.idle t ht hlt) (by simp)
      jobs := fun job hjob => ?_
      first := ?_
      others := fun j hj hlt => ?_ }
  · obtain ⟨job, c, hsending, hjob⟩ := h.sending t ht
    exact ⟨job, c, hget t _ hsending (by simp), hjob⟩
  · obtain hjob | hjob := List.mem_append.1 hjob
    · exact h.jobs job hjob
    · obtain rfl := List.mem_singleton.1 hjob
      rfl
  · obtain ⟨e, he, hqueue, hcurrent⟩ := h.first
    exact ⟨e.addTask, by rw [hexecutors, if_pos rfl, he]; rfl, hqueue, hcurrent⟩
  · have hlength : g.executors.length = f.executors.length := List.length_modify ..
    obtain ⟨e, he, hopen, hcurrent, hqueue, htasks⟩ := h.others j hj (hlength ▸ hlt)
    refine ⟨e, by rw [hexecutors, if_neg hj.ne, he], hopen, hcurrent, hqueue, ?_⟩
    have hset := toCome_set hthreads hs j
    rw [(Activity.concerns_producing 0 production).toCome j hj.ne',
      (Activity.concerns_producing 0 production').toCome j hj.ne'] at hset
    omega

/-- When all workers have a result in hand, there is a jam. -/
theorem Filling.jammed [DecidableEq α] {k : Scale} (h : f.Filling workers workers queued true)
    (hsound : f.Sound k) (hfull : Executor.queueCapacity ≤ queued) : f.Jammed workers where
  sending := h.sending
  first := by
    obtain ⟨e, he, rfl, hcurrent⟩ := h.first
    obtain ⟨c, hc⟩ := Option.isSome_iff_exists.1 hcurrent
    obtain ⟨j, hj, hlt, rfl⟩ := ((hsound.executors 0 e he).current c hc).outer rfl
    exact ⟨e, j, he, hfull, hc, hj, h.others j hj hlt⟩

end Floor

namespace Nesting

variable [DecidableEq α] {k : Scale} {m : Moment α} {f : Floor α} {held queued : Nat}
  {draining : Bool} {job : Job α} {rest : List (Job α)}

namespace Tracks

/-- A free worker takes a job. -/
theorem takes (h : Tracks k m f) (hfilling : f.Filling k.workers held queued draining)
    (hheld : held < k.workers) (hjobs : f.jobs = job :: rest) :
    ∃ m', m.MayBecome m' ∧ Tracks k m' ({ f.leaveLine held with jobs := rest }.become held
      (.working .join job (.ready job.work))) := by
  have hidle := hfilling.idle held le_rfl hheld
  obtain ⟨g, hg, hturns⟩ := h.thread held
  have hstep : m.MayBecome (m.step (.thread held)) := .step m trivial
  cases hturns with
  | rests hrests =>
    simp [Floor.Rests, hidle, hfilling.line] at hrests
  | linesUp _ _ hnot =>
    obtain hne | hnil := hnot
    · exact absurd hfilling.line hne
    · simp [hjobs] at hnil
  | takes _ hjobs' _ =>
    obtain ⟨rfl, rfl⟩ : job = _ ∧ rest = _ := by simpa using hjobs.symm.trans hjobs'
    exact ⟨_, hstep, hg⟩
  | runs ht _ _ _ | delivers ht _ _ _ | nests ht _ _ | sends ht _ _ | schedules ht _ _
  | awaits ht _ | completes ht _ _ => cases hidle.symm.trans ht

/-- A task of the first executor comes to the results of a further one. -/
theorem nests {t : Nat} (h : Tracks k m f)
    (ht : f.threads[t]? = some (.working .join job (.ready job.work)))
    (hjob : job.executor = 0) (hleast : 0 < k.least) :
    ∃ m' rows right e, m.MayBecome m' ∧ f.executors[0]? = some e ∧ rows ≠ [] ∧
      Tracks k m' ((f.startExecutor (.nested (.ofList rows) right)).deliver e t job
        (.pipe (.executor f.executors.length))) := by
  obtain ⟨-, -, -, hruns⟩ := h.sound.threads t _ ht
  obtain ⟨w, hw, rows, right, rfl, hrows, -⟩ := hruns.outer hjob
  obtain ⟨g, hg, hturns⟩ := h.thread t
  have hstep : m.MayBecome (m.step (.thread t)) := .step m trivial
  cases hturns with
  | rests hrests =>
    simp only [Floor.Rests, ht] at hrests
    obtain ⟨due, hdue, -⟩ := hrests
    cases hdue
  | runs ht' hjob' _ _ | delivers ht' hjob' _ _ =>
    cases ht.symm.trans ht'
    exact absurd hjob hjob'
  | nests ht' hjob' he =>
    have heq := ht.symm.trans ht'
    rw [Run.ready.inj hw] at heq
    cases heq
    exact ⟨_, rows, right, _, hstep, hjob ▸ he, List.ne_nil_of_length_pos (by omega), hg⟩
  | linesUp ht' _ _ | takes ht' _ _ | sends ht' _ _ | schedules ht' _ _ | awaits ht' _
  | completes ht' _ _ => cases ht.symm.trans ht'

/-- A free worker brings a task of the first executor to its result, which is queued if there is
room, and kept in hand if there is none. -/
theorem brings (h : Tracks k m f) (hfilling : f.Filling k.workers held queued draining)
    (hheld : held < k.workers) (hjobs : f.jobs = job :: rest) (hleast : 0 < k.least) :
    ∃ m' g held' queued', m.MayBecome m' ∧ Tracks k m' g ∧ g.jobs = rest ∧
      g.Filling k.workers held' queued' draining ∧
      (held = 0 → queued < Executor.queueCapacity → held' = 0 ∧ queued' = queued + 1) ∧
      (Executor.queueCapacity ≤ queued → held' = held + 1 ∧ queued' = queued) := by
  have hjob : job.executor = 0 := hfilling.jobs job (by simp [hjobs])
  have hidle := hfilling.idle held le_rfl hheld
  have hbound := (List.getElem?_eq_some_iff.1 hidle).1
  obtain ⟨m₁, hm₁, h₁⟩ := h.takes hfilling hheld hjobs
  have ht₁ := Floor.getElem?_become_self (f := f) (g := { f.leaveLine held with jobs := rest })
    (b := .working .join job (.ready job.work)) hidle rfl
  obtain ⟨m₂, rows, right, e, hm₂, he, hrows, h₂⟩ := h₁.nests ht₁ hjob hleast
  obtain ⟨e₀, he₀, hserves, -, hopen, hproducing⟩ := h₁.sound.exists_executor ht₁ rfl
  obtain rfl := Option.some.inj (he.symm.trans (hjob ▸ he₀))
  have he' : f.executors[0]? = some e := he
  have hlength : e.queue.length = queued := by
    obtain ⟨e₁, he₁, hlength, -⟩ := hfilling.first
    obtain rfl := Option.some.inj (he'.symm.trans he₁)
    exact hlength
  have hadmission (p : Pipe α) : e.admission false (.pipe p) =
      if queued < Executor.queueCapacity && e.waiting.isEmpty then .queued else .waits := by
    simp [Executor.admission, Executor.isActive, Cursor.isKnownEmpty, hopen, hproducing,
      hserves.error, hserves.receiving, hlength]
  -- a result that is queued sets the worker free
  have hfinish (κ : Executor α → Executor α) : Floor.endJob (Floor.update
      (({ f.leaveLine held with jobs := rest }.become held
        (.working .join job (.ready job.work))).startExecutor (.nested (.ofList rows) right))
      0 κ) held job = f.bring held rest rows right (.idle .join) (κ e).finishTask := by
    rw [← Floor.startExecutor_eq_bring (fun e => (κ e).finishTask)
      (.working .join job (.ready job.work)) hfilling.line hbound he', Floor.endJob, hjob]
    simp [Floor.update, List.modify_modify_eq, Function.comp_def]
  have hrest : ∀ job ∈ rest, job ∈ f.jobs := fun job hjob => by simp [hjobs, hjob]
  unfold Floor.deliver at h₂
  rw [hadmission, hjob] at h₂
  by_cases hroom : (queued < Executor.queueCapacity && e.waiting.isEmpty) = true
  · simp only [hroom, if_true, hfinish] at h₂
    simp only [Bool.and_eq_true, decide_eq_true_eq] at hroom
    refine ⟨m₂, _, held, queued + 1, hm₁.trans hm₂, h₂, rfl,
      hfilling.bring hheld hrest hrows he' rfl ?_ (.inl ⟨rfl, rfl⟩), fun hzero _ => ⟨hzero, rfl⟩,
      fun hfull => absurd hroom.1 (Nat.not_lt.2 hfull)⟩
    simp [Executor.finishTask, Executor.push, hlength]
  · simp only [hroom] at h₂
    rw [Floor.startExecutor_eq_bring _ _ hfilling.line hbound he'] at h₂
    refine ⟨m₂, _, held + 1, queued, hm₁.trans hm₂, h₂, rfl,
      hfilling.bring hheld hrest hrows he' rfl hlength (.inr ⟨⟨job, _, rfl, hjob⟩, rfl⟩),
      fun hzero hlt => ?_, fun _ => ⟨rfl, rfl⟩⟩
    -- nobody waits while all workers are free
    refine absurd ?_ hroom
    have hnobody : e.waiting = [] := by
      apply h.sound.waiting_eq_nil he'
      intro s job' c hsending
      have hlt := (h.sound.threads s _ hsending).2.1
      cases hsending.symm.trans (hfilling.idle s (hzero ▸ Nat.zero_le s) hlt)
    simp [hlt, hnobody]

/-- The queue fills up as long as there are jobs. -/
theorem fills (n : Nat) (h : Tracks k m f) (hfilling : f.Filling k.workers 0 queued draining)
    (hworkers : 0 < k.workers) (hleast : 0 < k.least)
    (hroom : queued + n ≤ Executor.queueCapacity) (hjobs : n ≤ f.jobs.length) :
    ∃ m' g, m.MayBecome m' ∧ Tracks k m' g ∧ g.Filling k.workers 0 (queued + n) draining ∧
      g.jobs.length + n = f.jobs.length := by
  induction n generalizing m f queued with
  | zero => exact ⟨m, f, .refl m, h, hfilling, rfl⟩
  | succ n ih =>
    obtain ⟨job, rest, hjob⟩ :=
      List.exists_cons_of_length_pos (Nat.lt_of_lt_of_le (Nat.succ_pos n) hjobs)
    obtain ⟨m₁, g₁, held', queued', hm₁, h₁, hrest, hfilling₁, hqueued, -⟩ :=
      h.brings hfilling hworkers hjob hleast
    obtain ⟨rfl, rfl⟩ := hqueued rfl (by omega)
    rw [hjob, List.length_cons] at hjobs
    obtain ⟨m₂, g₂, hm₂, h₂, hfilling₂, hlength⟩ :=
      ih h₁ hfilling₁ (by omega) (by rw [hrest]; omega)
    refine ⟨m₂, g₂, hm₁.trans hm₂, h₂, ?_, ?_⟩
    · rwa [show queued + (n + 1) = queued + 1 + n by omega]
    · rw [hjob, List.length_cons, ← hrest]
      omega

/-- Once the queue is full, one worker after the other keeps a result in hand. -/
theorem holds (n : Nat) (h : Tracks k m f) (hfilling : f.Filling k.workers held queued draining)
    (hleast : 0 < k.least) (hfull : Executor.queueCapacity ≤ queued)
    (hheld : held + n ≤ k.workers) (hjobs : n ≤ f.jobs.length) :
    ∃ m' g, m.MayBecome m' ∧ Tracks k m' g ∧ g.Filling k.workers (held + n) queued draining := by
  induction n generalizing m f held with
  | zero => exact ⟨m, f, .refl m, h, hfilling⟩
  | succ n ih =>
    obtain ⟨job, rest, hjob⟩ :=
      List.exists_cons_of_length_pos (Nat.lt_of_lt_of_le (Nat.succ_pos n) hjobs)
    obtain ⟨m₁, g₁, held', queued', hm₁, h₁, hrest, hfilling₁, -, hkept⟩ :=
      h.brings hfilling (by omega) hjob hleast
    obtain ⟨rfl, rfl⟩ := hkept hfull
    rw [hjob, List.length_cons] at hjobs
    obtain ⟨m₂, g₂, hm₂, h₂, hfilling₂⟩ := ih h₁ hfilling₁ (by omega) (by rw [hrest]; omega)
    refine ⟨m₂, g₂, hm₁.trans hm₂, h₂, ?_⟩
    rwa [show held + (n + 1) = held + 1 + n by omega]

/-- The consumer turns to the first result. -/
theorem opens (h : Tracks k m f) (hfilling : f.Filling k.workers held (queued + 1) false) :
    ∃ m' g, m.MayBecome m' ∧ Tracks k m' g ∧ g.Filling k.workers held queued true ∧
      g.jobs = f.jobs := by
  obtain ⟨e, he, -, -, hopen⟩ := h.exists_executor
  obtain ⟨e₀, he₀, hlength, hcurrent⟩ := hfilling.first
  obtain rfl := Option.some.inj (he.symm.trans he₀)
  rw [Option.isSome_eq_false_iff, Option.isNone_iff_eq_none] at hcurrent
  obtain ⟨r, g, hpulls, -, hg, hended⟩ := h.consumer he
  have hstep : m.MayBecome (m.step .consumer) := .step m trivial
  cases hpulls with
  | isOver hfinished => simp [hopen] at hfinished
  | draws _ hcurrent' _ _ _ _ | empties _ hcurrent' _ _ _ => simp [hcurrent] at hcurrent'
  | @opens c rest _ _ hqueue =>
    refine ⟨_, _, hstep, hg hended, ?_, rfl⟩
    have hothers (j : Nat) (hj : 0 < j) :
        (f.update 0 fun e => { e with current := some c, queue := rest }).executors[j]? =
          f.executors[j]? := by
      rw [Floor.getElem?_update, if_neg hj.ne]
    refine { hfilling with first := ?_, others := fun j hj hlt => ?_ }
    · rw [hqueue, List.length_cons] at hlength
      refine ⟨{ e with current := some c, queue := rest }, ?_, Nat.succ.inj hlength, rfl⟩
      rw [Floor.getElem?_update, if_pos rfl, he]
      rfl
    · rw [Floor.update, List.length_modify] at hlt
      obtain ⟨e', he', hrest⟩ := hfilling.others j hj hlt
      exact ⟨e', (hothers j hj).trans he', hrest⟩
  | ends _ _ hex =>
    simp only [Executor.isExhausted, Bool.and_eq_true, List.isEmpty_iff] at hex
    simp [hex.1.1] at hlength
  | waits _ _ hqueue _ => simp [hqueue] at hlength

/-- The producer of the first executor schedules all its tasks. -/
theorem schedules {s : Nat} {left : Cursor α} {right : α → Work α} (h : Tracks k m f)
    (hfilling : f.Filling k.workers held queued draining)
    (hs : f.threads[s]? = some (.producing 0 (.nested left right))) :
    ∃ m' g, m.MayBecome m' ∧ Tracks k m' g ∧ g.Filling k.workers held queued draining ∧
      g.jobs.length = f.jobs.length + left.rows.length := by
  induction hrows : left.rows generalizing m f left with
  | nil => exact ⟨m, f, .refl m, h, hfilling, rfl⟩
  | cons row rest ih =>
    obtain ⟨g, hg, hturns⟩ := h.thread s
    have hstep : m.MayBecome (m.step (.thread s)) := .step m trivial
    cases hturns with
    | rests hrests => simp [Floor.Rests, hs] at hrests
    | @schedules id left' right' e row' rest' hs' he hrows' =>
      cases hs.symm.trans hs'
      obtain ⟨rfl, rfl⟩ : row = row' ∧ rest = rest' := by simpa using hrows.symm.trans hrows'
      obtain ⟨m', g', hm', hg', hfilling', hlength⟩ := ih hg (hfilling.schedule hs)
        (Floor.getElem?_become_self hs rfl) rfl
      refine ⟨m', g', hstep.trans hm', hg', hfilling', ?_⟩
      have hone : ((f.schedule 0 0 "Join" (right row)).become s
          (.producing 0 (.nested (.buffered rest) right))).jobs.length = f.jobs.length + 1 :=
        List.length_append
      rw [hlength, hone, List.length_cons]
      omega
    | awaits hs' hnil =>
      cases hs.symm.trans hs'
      simp [hrows] at hnil
    | linesUp hs' _ _ | takes hs' _ _ | runs hs' _ _ _ | delivers hs' _ _ _ | nests hs' _ _
    | sends hs' _ _ | completes hs' _ _ => cases hs.symm.trans hs'

end Tracks

variable {x : Nesting α}

omit [DecidableEq α] in
theorem filling_first : x.first.Filling x.crew 0 0 false where
  line := rfl
  sending := fun t ht => absurd ht (Nat.not_lt_zero t)
  idle := fun t _ ht => by
    have hlt : t < x.staffed.threads.length := by simpa [staffed] using ht
    show (x.staffed.threads ++ _)[t]? = _
    rw [List.getElem?_append_left hlt, staffed, List.getElem?_replicate, if_pos ht]
  jobs := fun job hjob => by cases hjob
  first := ⟨_, rfl, rfl, rfl⟩
  others := fun j hj hlt => absurd hlt (by simp [first, staffed, Floor.startExecutor]; omega)

/-- **A run can come to a jam** if there are more tasks than results find room in the queue and with
the workers, and each has results. -/
theorem exists_not_getsOn (hend : x.AllEndWell) (hinner : ∀ row ∈ x.left, x.inner row ≠ [])
    (hmany : Executor.queueCapacity + x.crew < x.left.length) :
    ∃ m, x.Reaches m ∧ m.ended = false ∧ ¬ m.GetsOn := by
  obtain ⟨most, hmost⟩ : ∃ most, ∀ row ∈ x.left, (x.inner row).length ≤ most :=
    ⟨(x.left.map fun row => (x.inner row).length).sum,
      fun row hrow => List.le_sum_of_mem (List.mem_map_of_mem hrow)⟩
  have hk : x.Suits ⟨x.crew, x.left.length, 1, most⟩ :=
    ⟨rfl, le_rfl, fun row hrow => List.length_pos_of_ne_nil (hinner row hrow), hmost⟩
  have hworkers : 0 < x.crew := Nat.lt_of_lt_of_le Nat.one_pos (Nat.le_max_right _ _)
  -- all tasks are scheduled
  have hproducer : x.first.threads[x.crew]? =
      some (.producing 0 (.nested (.ofList x.left) x.outer)) := by
    show (x.staffed.threads ++ _)[x.crew]? = _
    simp [staffed]
  obtain ⟨m₁, f₁, hm₁, h₁, hfilling₁, hjobs₁⟩ :=
    (Tracks.of_first hk hend).schedules filling_first hproducer
  rw [Cursor.rows_ofList] at hjobs₁
  have hjobs₁ : f₁.jobs.length = x.left.length := by
    simpa [first, staffed, Floor.startExecutor] using hjobs₁
  -- the first one is brought to its result, to which the consumer turns
  obtain ⟨m₂, f₂, hm₂, h₂, hfilling₂, hjobs₂⟩ := h₁.fills 1 hfilling₁ hworkers Nat.one_pos
    (by simp [Executor.queueCapacity]) (by omega)
  obtain ⟨m₃, f₃, hm₃, h₃, hfilling₃, hjobs₃⟩ := h₂.opens hfilling₂
  -- the queue fills up, and then each worker has a result in hand
  obtain ⟨m₄, f₄, hm₄, h₄, hfilling₄, hjobs₄⟩ := h₃.fills Executor.queueCapacity hfilling₃ hworkers
    Nat.one_pos (by omega) (by rw [hjobs₃]; omega)
  rw [Nat.zero_add] at hfilling₄
  obtain ⟨m₅, f₅, hm₅, h₅, hfilling₅⟩ := h₄.holds x.crew hfilling₄ Nat.one_pos le_rfl
    (by simp) (by rw [hjobs₃] at hjobs₄; omega)
  rw [Nat.zero_add] at hfilling₅
  have hreaches := (((hm₁.trans hm₂).trans hm₃).trans hm₄).trans hm₅
  exact ⟨m₅, hreaches, h₅.goesOn, h₅.not_getsOn (hfilling₅.jammed h₅.sound le_rfl)⟩

/-- **When a join of joins gets on.**  Each task of the first join comes to results of a further
one, which has at least one task and no more than its queue has room for.  However the steps of
workers, producers, consumer and time are ordered, something more can be done at every moment before
the consumer is at the end, exactly if the first join has no more tasks than its queue and the
workers can keep results of. -/
theorem getsOn_iff_length_le (hend : x.AllEndWell) (hinner : ∀ row ∈ x.left,
    x.inner row ≠ [] ∧ (x.inner row).length ≤ Executor.queueCapacity) :
    (∀ m, x.Reaches m → m.ended = false → m.GetsOn) ↔
      x.left.length ≤ Executor.queueCapacity + x.crew := by
  constructor
  · intro hgets
    by_contra hmany
    obtain ⟨m, hm, hgoes, hnot⟩ :=
      exists_not_getsOn hend (fun row hrow => (hinner row hrow).1) (Nat.lt_of_not_le hmany)
    exact hnot (hgets m hm hgoes)
  · intro hfew m hm hgoes
    exact hm.getsOn hend (fun row hrow => (hinner row hrow).2) hfew hgoes

/-- A join of rows with one further join each, whose only task comes to a result at once. -/
def single (workers rows : Nat) : Nesting Nat where
  workers
  left := List.replicate rows 0
  inner _ := [0]
  leaf _ _ := .done (.rows [0])

theorem allEndWell_single (workers rows : Nat) : (single workers rows).AllEndWell :=
  fun _ _ _ _ => ⟨trivial, _, rfl⟩

/-- Two rows always get on. -/
theorem getsOn_two_rows : (single 1 2).AllEndWell ∧
    ∀ m, (single 1 2).Reaches m → m.ended = false → m.GetsOn := by
  have hone : [0].length ≤ Executor.queueCapacity := by decide
  refine ⟨allEndWell_single 1 2, ?_⟩
  exact (getsOn_iff_length_le (allEndWell_single 1 2) fun _ _ => ⟨List.cons_ne_nil _ _, hone⟩).2
    (by decide)

/-- With one worker, a run of 1026 rows can come to a moment from which nobody does anything any
more, though all tasks would come to results and the consumer is not at the end. -/
theorem stuck_behind_full_queue : (single 1 1026).AllEndWell ∧
    ∃ m, (single 1 1026).Reaches m ∧ m.ended = false ∧ ¬ m.GetsOn := by
  refine ⟨allEndWell_single 1 1026, ?_⟩
  apply exists_not_getsOn (allEndWell_single 1 1026) fun _ _ => List.cons_ne_nil _ _
  rw [single, List.length_replicate]
  decide

end Nesting

end FederatedSparql
