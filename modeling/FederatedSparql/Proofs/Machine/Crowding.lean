import FederatedSparql.Proofs.Machine.Nesting

/-!
Joins of joins get on unless their workers are crowded out.

The account of a moment notes what has been done for the query: which worker has which task in hand,
how many results are queued, and what the consumer has got.  A moment gets on if something more can
be done, whoever does it.

* `Nesting.Tracks.getsOn_or_crowded`: as long as a worker is free, or has in hand a task of an
  executor whose queue has room, a run gets on.
* `Nesting.Reaches.getsOn`: so it is at every moment if the first join has few enough tasks.
-/

namespace FederatedSparql

open Machine

variable {α : Type}

/-! ### What has been done -/

/-- What has been done for a query. -/
@[ext]
structure Account (α : Type) where
  /-- What the consumer has got. -/
  received : List (Except FedError α)
  /-- Whether the consumer is at the end. -/
  ended : Bool
  /-- How many results of an executor are queued. -/
  queued : Nat → Nat
  /-- The task that a thread has in hand. -/
  inHand : Nat → Option Nat

namespace Moment

variable [BEq α]

/-- What has been done. -/
def account (m : Moment α) : Account α where
  received := m.received
  ended := m.ended
  queued id := (m.machine.executors[id]?.map (·.queue.length)).getD 0
  inHand t := ((m.machine.activity? t).bind Activity.job?).map (·.task)

/-- Something more can be done: a worker starts or finishes a task, a result is queued, or the
consumer gets something. -/
def GetsOn (m : Moment α) : Prop := ∃ m', m.MayBecome m' ∧ m'.account ≠ m.account

variable {m m' : Moment α}

theorem GetsOn.of_mayBecome (h : m.MayBecome m') (h' : m'.GetsOn) : m.GetsOn := by
  obtain ⟨m'', hm'', hne⟩ := h'
  by_cases heq : m'.account = m.account
  · exact ⟨m'', h.trans hm'', heq ▸ hne⟩
  · exact ⟨m', h, heq⟩

end Moment

/-! ### Whom the consumer waits for -/

namespace Floor

/-- The consumer has come to an executor that has no result for it yet. -/
structure Wanted (f : Floor α) (id : Nat) (e : Executor α) : Prop where
  executor : f.executors[id]? = some e
  here : id = 0 ∨ 0 < id ∧ ∃ e₀, f.executors[0]? = some e₀ ∧
    e₀.current = some (.pipe (.executor id))
  opened : e.finished = false
  current : e.current = none
  queue : e.queue = []

theorem Wanted.congr {f g : Floor α} {id : Nat} {e : Executor α} (h : f.Wanted id e)
    (hexecutors : g.executors = f.executors) : g.Wanted id e :=
  { h with executor := hexecutors ▸ h.executor, here := hexecutors ▸ h.here }

/-- An executor for which the consumer waits is still the one, whatever is done with its tasks. -/
theorem Wanted.update {f : Floor α} {id : Nat} {e : Executor α} {κ : Executor α → Executor α}
    (h : f.Wanted id e) (hfinished : (κ e).finished = e.finished)
    (hcurrent : (κ e).current = e.current) (hqueue : (κ e).queue = e.queue) :
    (f.update id κ).Wanted id (κ e) where
  executor := by rw [getElem?_update, if_pos rfl, h.executor]; rfl
  here := h.here.imp_right fun ⟨hid, e₀, he₀, hcurrent₀⟩ =>
    ⟨hid, e₀, by rw [getElem?_update, if_neg hid.ne', he₀], hcurrent₀⟩
  opened := hfinished.trans h.opened
  current := hcurrent.trans h.current
  queue := hqueue.trans h.queue

theorem Wanted.hasRoom {f : Floor α} {id : Nat} {e : Executor α} (h : f.Wanted id e) :
    e.queue.length < Executor.queueCapacity := by
  simp [h.queue, Executor.queueCapacity]

/-- Every worker has in hand a task of an executor whose queue is full. -/
def Crowded (f : Floor α) (workers : Nat) : Prop :=
  ∀ t < workers, ∃ a job e, f.threads[t]? = some a ∧ a.job? = some job ∧
    f.executors[job.executor]? = some e ∧ Executor.queueCapacity ≤ e.queue.length

end Floor

namespace Nesting

variable [DecidableEq α] {k : Scale} {m : Moment α} {f g : Floor α} {t id : Nat}
  {e : Executor α} {job : Job α}

namespace Tracks

theorem inHand_eq (h : Tracks k m f) (t : Nat) :
    m.account.inHand t = (f.threads[t]?.bind Activity.job?).map (·.task) := by
  show ((m.machine.activity? t).bind Activity.job?).map (·.task) = _
  rw [Machine.activity?, h.stands.activity?]

theorem queued_eq (h : Tracks k m f) (id : Nat) :
    m.account.queued id = (f.executors[id]?.map (·.queue.length)).getD 0 := by
  show (m.machine.executors[id]?.map (·.queue.length)).getD 0 = _
  rw [h.stands.getElem?_executors]

/-- A run gets on if a thread takes a job or is done with one. -/
theorem getsOn_of_inHand {m' : Moment α} (h : Tracks k m f) (h' : Tracks k m' g)
    (hm' : m.MayBecome m') {a b : Activity α} (ht : f.threads[t]? = some a)
    (ht' : g.threads[t]? = some b) (hne : b.job?.map (·.task) ≠ a.job?.map (·.task)) :
    m.GetsOn := by
  refine ⟨m', hm', fun heq => hne ?_⟩
  have := congrFun (congrArg Account.inHand heq) t
  rw [h.inHand_eq, h'.inHand_eq, ht, ht'] at this
  exact this

/-- A run gets on if a result is queued, or taken from a queue. -/
theorem getsOn_of_queued {m' : Moment α} (id : Nat) (h : Tracks k m f) (h' : Tracks k m' g)
    (hm' : m.MayBecome m') (hne : (g.executors[id]?.map (·.queue.length)).getD 0 ≠
      (f.executors[id]?.map (·.queue.length)).getD 0) : m.GetsOn := by
  refine ⟨m', hm', fun heq => hne ?_⟩
  rw [← h.queued_eq, ← h'.queued_eq, heq]

/-! ### Workers -/

/-- A job is taken if there is one and a worker is free. -/
theorem getsOn_of_idle (h : Tracks k m f) (ht : f.threads[t]? = some (.idle .join))
    (hjobs : f.jobs ≠ []) : m.GetsOn := by
  -- the first in the line takes the job; if there is no line, anyone
  obtain ⟨s, hs, hfirst⟩ : ∃ s, f.threads[s]? = some (.idle .join) ∧
      (f.line = [] ∨ f.line.head? = some s) := by
    cases hline : f.line with
    | nil => exact ⟨t, ht, .inl rfl⟩
    | cons s line => exact ⟨s, h.sound.line s (by simp [hline]), .inr rfl⟩
  obtain ⟨g, hg, hturns⟩ := h.thread s
  cases hturns with
  | rests hrests =>
    simp only [Floor.Rests, hs] at hrests
    obtain ⟨hmem, hhead | hnil⟩ := hrests
    · obtain hnil | hhead' := hfirst
      · simp [hnil] at hmem
      · exact absurd hhead' hhead
    · exact absurd hnil hjobs
  | linesUp _ hmem hnot =>
    obtain hne | hnil := hnot
    · obtain hnil | hhead := hfirst
      · exact absurd hnil hne
      · exact absurd (List.mem_of_head? hhead) hmem
    · exact absurd hnil hjobs
  | takes _ _ _ =>
    exact h.getsOn_of_inHand hg (.step m trivial) hs (Floor.getElem?_become_self hs rfl)
      (by simp [Activity.job?])
  | runs hs' _ _ _ | delivers hs' _ _ _ | nests hs' _ _ | sends hs' _ _ | schedules hs' _ _
  | awaits hs' _ | completes hs' _ _ =>
    rw [hs] at hs'
    cases hs'

/-- A result is queued if there is room, and a worker waits to do so. -/
theorem getsOn_of_sending {c : Cursor α} (h : Tracks k m f)
    (ht : f.threads[t]? = some (.sending .join job c)) (he : f.executors[job.executor]? = some e)
    (hroom : e.queue.length < Executor.queueCapacity) : m.GetsOn := by
  have hserves := h.sound.executors _ e he
  -- whoever waits first is next
  obtain ⟨s, hhead⟩ : ∃ s, e.waiting.head? = some s := by
    have hmem : t ∈ e.waiting := (hserves.waiting t).2 ⟨_, ht, rfl⟩
    cases hwaiting : e.waiting with
    | nil => simp [hwaiting] at hmem
    | cons s rest => exact ⟨s, rfl⟩
  obtain ⟨job', c', hs, hjob'⟩ := h.sound.exists_sending he (List.mem_of_head? hhead)
  obtain ⟨e₀, he₀, -, -, hopen, -⟩ := h.sound.exists_executor ht rfl
  obtain rfl := Option.some.inj (he.symm.trans he₀)
  have hreceiving : e.receiving = true := by rw [hserves.receiving, hopen]; rfl
  obtain ⟨g, hg, hturns⟩ := h.thread s
  cases hturns with
  | rests hrests =>
    simp only [Floor.Rests, hs, hjob', he] at hrests
    obtain ⟨e', heq, hwaits⟩ := hrests
    obtain rfl := Option.some.inj heq
    simp [Executor.admissionOfWaiting, hreceiving, hroom, hhead] at hwaits
  | sends _ _ _ =>
    exact h.getsOn_of_inHand hg (.step m trivial) hs (Floor.getElem?_become_self hs rfl)
      (by simp [Activity.job?])
  | linesUp hs' _ _ | takes hs' _ _ | runs hs' _ _ _ | delivers hs' _ _ _ | nests hs' _ _
  | schedules hs' _ _ | awaits hs' _ | completes hs' _ _ =>
    rw [hs] at hs'
    cases hs'

/-- A worker with a task that has come to a result is done with it, or waits for room. -/
theorem getsOn_of_deliver {m' : Moment α} {run : Run α} {c : Cursor α} {u : Floor α}
    (h : Tracks k m f) (h' : Tracks k m' (u.deliver e t job c)) (hm' : m.MayBecome m')
    (ht : f.threads[t]? = some (.working .join job run))
    (hu : u.threads[t]? = some (.working .join job run))
    (he : u.executors[job.executor]? = some e) (hroom : e.queue.length < Executor.queueCapacity) :
    m.GetsOn := by
  cases hadmission : e.admission false c with
  | dropped =>
    refine h.getsOn_of_inHand h' hm' ht (b := .idle .join) ?_ (by simp [Activity.job?])
    rw [Floor.deliver, hadmission]
    exact Floor.getElem?_become_self hu rfl
  | queued =>
    refine h.getsOn_of_inHand h' hm' ht (b := .idle .join) ?_ (by simp [Activity.job?])
    rw [Floor.deliver, hadmission]
    exact Floor.getElem?_become_self hu rfl
  | waits =>
    rw [Floor.deliver, hadmission] at h'
    refine .of_mayBecome hm' (h'.getsOn_of_sending (t := t)
      (e := { e with waiting := e.waiting ++ [t] }) (Floor.getElem?_become_self hu rfl) ?_ hroom)
    show (u.update job.executor _).executors[job.executor]? = _
    rw [Floor.getElem?_update, if_pos rfl, he]
    rfl

/-- At the latest when the time has come for which it waits, a thread can go on. -/
theorem exists_awake {run : Run α} (h : Tracks k m f)
    (ht : f.threads[t]? = some (.working .join job run)) :
    ∃ now m', m.MayBecome m' ∧ Tracks k m' { f with now } ∧
      ¬ ({ f with now } : Floor α).Rests t := by
  have hstep : m.MayBecome (m.step (.time (run.due?.getD 0 - f.now))) := .step m trivial
  refine ⟨_, _, hstep, h.time _, ?_⟩
  simp only [Floor.Rests, ht]
  rintro ⟨due, hdue, hlt⟩
  simp only [hdue, Option.getD_some] at hlt
  omega

/-- A task is brought to its end if there is room for its result. -/
theorem getsOn_of_working {run : Run α} (h : Tracks k m f)
    (ht : f.threads[t]? = some (.working .join job run)) (he : f.executors[job.executor]? = some e)
    (hroom : e.queue.length < Executor.queueCapacity) : m.GetsOn := by
  -- by induction on what is left of the program
  induction hsize : run.size f.answers using Nat.strong_induction_on generalizing m f run with
  | _ n ih =>
    obtain ⟨now, m₁, hm₁, h₁, hawake⟩ := h.exists_awake ht
    refine .of_mayBecome hm₁ ?_
    obtain ⟨g, hg, hturns⟩ := h₁.thread t
    have hstep : m₁.MayBecome (m₁.step (.thread t)) := .step m₁ trivial
    cases hturns with
    | rests hrests => exact absurd hrests hawake
    | @runs job' run' next ht' hjob hnext hless =>
      obtain ⟨-, rfl, rfl⟩ : True ∧ job = job' ∧ run = run' := by simpa using ht.symm.trans ht'
      refine .of_mayBecome hstep (ih _ ?_ hg (Floor.getElem?_become_self ht rfl) he rfl)
      exact hsize ▸ hless
    | @delivers job' run' e' c ht' hjob he' hc =>
      obtain ⟨-, rfl, rfl⟩ : True ∧ job = job' ∧ run = run' := by simpa using ht.symm.trans ht'
      obtain rfl : e = e' := Option.some.inj (he.symm.trans he')
      exact h₁.getsOn_of_deliver hg hstep ht ht he hroom
    | @nests job' rows right e' ht' hjob he' =>
      obtain ⟨rfl, rfl⟩ : job = job' ∧ run = .ready (.done (.nestedJoin (.rows rows) right)) := by
        simpa using ht.symm.trans ht'
      obtain rfl : e = e' := Option.some.inj (he.symm.trans he')
      refine h₁.getsOn_of_deliver hg hstep ht ?_ ?_ hroom
      · exact (List.getElem?_append_left (List.getElem?_eq_some_iff.1 ht).1).trans ht
      · exact (List.getElem?_append_left (List.getElem?_eq_some_iff.1 he).1).trans he
    | linesUp ht' _ _ | takes ht' _ _ | sends ht' _ _ | schedules ht' _ _ | awaits ht' _
    | completes ht' _ _ =>
      rw [show ({ f with now } : Floor α).threads[t]? = _ from ht] at ht'
      cases ht'

/-! ### The consumer -/

/-- With no result in hand, the consumer takes the next one, or has to wait for it. -/
theorem getsOn_or_wanted_of_none (h : Tracks k m f) (he : f.executors[0]? = some e)
    (hcurrent : e.current = none) :
    m.GetsOn ∨ f.Wanted 0 e ∧ e.isExhausted = false := by
  have hopen := h.not_finished he
  have hstep : m.MayBecome (m.step .consumer) := .step m trivial
  obtain ⟨r, g, hpulls, -, hg, hended⟩ := h.consumer he
  cases hpulls with
  | isOver hfinished => simp [hopen] at hfinished
  | draws _ hcurrent' _ _ _ _ | empties _ hcurrent' _ _ _ => simp [hcurrent] at hcurrent'
  | @opens c rest _ _ hqueue =>
    refine .inl (getsOn_of_queued 0 h (hg hended) hstep ?_)
    simp [Floor.getElem?_update, he, hqueue]
  | ends _ _ _ =>
    refine .inl ⟨_, hstep, fun heq => ?_⟩
    have := congrArg Account.ended heq
    rw [show m.account.ended = false from h.goesOn] at this
    exact absurd (hended.symm.trans this) (by simp [Pulled.isDone])
  | waits _ _ hqueue hexhausted => exact .inr ⟨⟨he, .inl rfl, hopen, hcurrent, hqueue⟩, hexhausted⟩

/-- Once the executor that is being drained has no more results, the first one is turned to. -/
theorem getsOn_or_wanted_of_empties {j : Nat} {e' : Executor α}
    (h : Tracks k m (g.update 0 fun e => { e with current := none }))
    (he : f.executors[0]? = some e) (hj : 0 < j) (hdraws : f.Draws .main j e' .done g) :
    m.GetsOn ∨ ∃ m' g e, m.MayBecome m' ∧ Tracks k m' g ∧ g.Wanted 0 e ∧
      e.isExhausted = false := by
  have hsame : g.executors[0]? = some e := by
    cases hdraws with
    | isOver _ => exact he
    | ends _ _ _ => rw [Floor.getElem?_close, if_neg hj.ne', he]
  have hempty : (g.update 0 fun e => { e with current := none }).executors[0]? =
      some { e with current := none } := by
    simp [Floor.getElem?_update, hsame]
  exact (h.getsOn_or_wanted_of_none hempty rfl).imp_right fun hwanted =>
    ⟨m, _, _, .refl m, h, hwanted⟩

/-- The result that the consumer drains gives it something, or is empty in the end; then the next
one is turned to, if there is one already. -/
theorem getsOn_or_wanted_of_some {j : Nat} {e' : Executor α} (h : Tracks k m f) (hj : 0 < j)
    (he : f.executors[0]? = some e) (hcurrent : e.current = some (.pipe (.executor j)))
    (he' : f.executors[j]? = some e') : m.GetsOn ∨ ∃ m' g id e, m.MayBecome m' ∧
      Tracks k m' g ∧ g.Wanted id e ∧ e.isExhausted = false := by
  have hopen := h.not_finished he
  -- by induction on what is left of the result that is being consumed
  induction hsize : (e'.current.map (·.size + 1)).getD 0 using Nat.strong_induction_on
    generalizing m f e' with
  | _ n ih =>
    have hstep : m.MayBecome (m.step .consumer) := .step m trivial
    obtain ⟨r, g, hpulls, hreceived, hg, hended⟩ := h.consumer he
    have again {e'' : Executor α} (hg : Tracks k (m.step .consumer) g)
        (hg₀ : g.executors[0]? = some e) (hgj : g.executors[j]? = some e'')
        (hless : (e''.current.map (·.size + 1)).getD 0 < n) :
        m.GetsOn ∨ ∃ m' g id e, m.MayBecome m' ∧ Tracks k m' g ∧ g.Wanted id e ∧
          e.isExhausted = false := by
      obtain hgets | ⟨m', g', id, e, hm', hrest⟩ := ih _ hless hg hg₀ hgj rfl
      · exact .inl (.of_mayBecome hstep hgets)
      · exact .inr ⟨m', g', id, e, hstep.trans hm', hrest⟩
    have hother (κ : Executor α → Executor α) : (f.update j κ).executors[0]? = some e := by
      rw [Floor.getElem?_update, if_neg hj.ne', he]
    have hthis (κ : Executor α → Executor α) :
        (f.update j κ).executors[j]? = some (κ e') := by
      rw [Floor.getElem?_update, if_pos rfl, he']
      rfl
    cases hpulls with
    | isOver hfinished => simp [hopen] at hfinished
    | @draws j' e'' r g _ hcurrent' _ he'' hdraws hr =>
      obtain rfl : j = j' := by simpa [hcurrent] using hcurrent'
      obtain rfl : e' = e'' := Option.some.inj (he'.symm.trans he'')
      cases hdraws with
      | isOver _ | ends _ _ _ => exact absurd rfl hr
      | passes _ _ _ =>
        refine .inl ⟨_, hstep, fun heq => ?_⟩
        have := congrArg Account.received heq
        rw [show (m.step .consumer).account.received = _ from hreceived,
          show m.account.received = m.received from rfl] at this
        simp [Pulled.got] at this
      | getsOn _ hc _ hless =>
        refine again (hg hended) (hother _) (hthis _) ?_
        rw [hc] at hsize
        simp only [Option.map_some, Option.getD_some] at hsize ⊢
        omega
      | empties _ hc =>
        refine again (hg hended) (hother _) (hthis _) ?_
        rw [hc] at hsize
        simp only [Option.map_some, Option.getD_some] at hsize
        simp only [Option.map_none, Option.getD_none]
        omega
      | @opens c rest _ _ hqueue =>
        refine .inl (getsOn_of_queued j h (hg hended) hstep ?_)
        simp [hthis, he', hqueue]
      | waits hopen' hc hqueue hexhausted =>
        exact .inr ⟨m, f, j, e', .refl m, h,
          ⟨he', .inr ⟨hj, e, he, hcurrent⟩, hopen', hc, hqueue⟩, hexhausted⟩
    | empties _ hcurrent' _ he'' hdraws =>
      obtain rfl : j = _ := by simpa [hcurrent] using hcurrent'
      obtain hgets | ⟨m', g', e'', hm', hrest⟩ :=
        (hg hended).getsOn_or_wanted_of_empties he hj hdraws
      · exact .inl (.of_mayBecome hstep hgets)
      · exact .inr ⟨m', g', 0, e'', hstep.trans hm', hrest⟩
    | opens _ hcurrent' _ | ends _ hcurrent' _ | waits _ hcurrent' _ _ =>
      simp [hcurrent] at hcurrent'

/-- The consumer gets something, or comes to an executor for whose results it has to wait. -/
theorem getsOn_or_wanted (h : Tracks k m f) : m.GetsOn ∨ ∃ m' g id e, m.MayBecome m' ∧
    Tracks k m' g ∧ g.Wanted id e ∧ e.isExhausted = false := by
  obtain ⟨e, he, hserves, -, -⟩ := h.exists_executor
  cases hcurrent : e.current with
  | none =>
    exact (h.getsOn_or_wanted_of_none he hcurrent).imp_right fun hwanted =>
      ⟨m, f, 0, e, .refl m, h, hwanted⟩
  | some c =>
    obtain ⟨j, hj, hlt, rfl⟩ := (hserves.current c hcurrent).outer rfl
    exact h.getsOn_or_wanted_of_some hj he hcurrent (List.getElem?_eq_getElem hlt)

/-! ### Producers -/

/-- A producer that has scheduled all its tasks waits for those that are pending, or is done. -/
theorem pending_or_exhausted {left : Cursor α} {limit : Option Nat} (h : Tracks k m f)
    (hw : f.Wanted id e) (ht : f.threads[t]? = some (.producing id (.awaiting left limit))) :
    ∃ m' g e, m.MayBecome m' ∧ Tracks k m' g ∧ g.Wanted id e ∧
      (e.pending ≠ 0 ∨ e.isExhausted = true) := by
  obtain ⟨e₀, he₀, hserves, -⟩ := h.sound.exists_producing ht rfl
  obtain rfl := Option.some.inj (hw.executor.symm.trans he₀)
  obtain ⟨g, hg, hturns⟩ := h.thread t
  cases hturns with
  | rests hrests =>
    simp only [Floor.Rests, ht] at hrests
    obtain ⟨e', he', hpending⟩ := hrests
    obtain rfl := Option.some.inj (hw.executor.symm.trans he')
    exact ⟨m, f, e, .refl m, h, hw, .inl hpending⟩
  | completes ht' he' hpending =>
    obtain ⟨rfl, -⟩ : id = _ ∧ _ := by simpa using ht.symm.trans ht'
    obtain rfl := Option.some.inj (hw.executor.symm.trans he')
    have hnobody : e.waiting = [] := by
      apply h.sound.waiting_eq_nil hw.executor
      rintro s job c hsending rfl
      obtain ⟨e', he', -, hpending', -⟩ := h.sound.exists_executor hsending rfl
      obtain rfl := Option.some.inj (hw.executor.symm.trans he')
      exact hpending' hpending
    have hstep : m.MayBecome (m.step (.thread t)) := .step m trivial
    refine ⟨_, _, e.endProduction, hstep, hg, (hw.update rfl rfl rfl).congr rfl, .inr ?_⟩
    simp [Executor.isExhausted, Executor.endProduction, hw.queue, hnobody]
  | linesUp ht' _ _ | takes ht' _ _ | runs ht' _ _ _ | delivers ht' _ _ _ | nests ht' _ _
  | sends ht' _ _ | schedules ht' _ _ | awaits ht' _ =>
    cases ht.symm.trans ht'

/-- An executor whose results are wanted has tasks that are pending, or comes to its end. -/
theorem getsOn_or_pending (h : Tracks k m f) (hw : f.Wanted id e) (hex : e.isExhausted = false) :
    m.GetsOn ∨ ∃ m' g e, m.MayBecome m' ∧ Tracks k m' g ∧ g.Wanted id e ∧
      (e.pending ≠ 0 ∨ e.isExhausted = true) := by
  have hserves := h.sound.executors id e hw.executor
  by_cases hwaiting : e.waiting = []
  · have hproducing : e.producing = true := by
      cases hp : e.producing with
      | true => rfl
      | false => simp [Executor.isExhausted, hw.queue, hp, hwaiting] at hex
    obtain ⟨t, a, -, ht, ha⟩ := hserves.producer hproducing
    obtain ⟨production, rfl⟩ : ∃ production, a = .producing id production := by
      cases a with
      | producing id' production => exact ⟨production, congrArg₂ _ ha rfl⟩
      | _ => exact ha.elim
    right
    cases production with
    | awaiting left limit => exact h.pending_or_exhausted hw ht
    | nested left right =>
      obtain ⟨g, hg, hturns⟩ := h.thread t
      have hstep : m.MayBecome (m.step (.thread t)) := .step m trivial
      cases hturns with
      | rests hrests => simp [Floor.Rests, ht] at hrests
      | schedules ht' he' _ =>
        obtain ⟨rfl, -⟩ : id = _ ∧ _ := by simpa using ht.symm.trans ht'
        obtain rfl := Option.some.inj (hw.executor.symm.trans he')
        refine ⟨_, _, e.addTask, hstep, hg, (hw.update rfl rfl rfl).congr rfl, .inl ?_⟩
        simp [Executor.addTask]
      | awaits ht' _ =>
        obtain ⟨rfl, -⟩ : id = _ ∧ _ := by simpa using ht.symm.trans ht'
        obtain ⟨m', g', e', hm', hrest⟩ := hg.pending_or_exhausted (hw.congr rfl)
          (Floor.getElem?_become_self ht rfl)
        exact ⟨m', g', e', hstep.trans hm', hrest⟩
      | linesUp ht' _ _ | takes ht' _ _ | runs ht' _ _ _ | delivers ht' _ _ _ | nests ht' _ _
      | sends ht' _ _ | completes ht' _ _ =>
        cases ht.symm.trans ht'
    | branches _ | first _ _ _ | block _ _ _ _ _ => exact (h.sound.threads t _ ht).elim
  · obtain ⟨t, ht⟩ := List.exists_mem_of_ne_nil _ hwaiting
    obtain ⟨job, c, hsends, rfl⟩ := h.sound.exists_sending hw.executor ht
    exact .inl (h.getsOn_of_sending hsends hw.executor hw.hasRoom)

/-! ### Waiting -/

/-- When there is nothing more to come of the first executor, the consumer comes to the end. -/
theorem getsOn_of_exhausted (h : Tracks k m f) (hw : f.Wanted 0 e) (hex : e.isExhausted = true) :
    m.GetsOn := by
  have hcurrent := hw.current
  have hopen := hw.opened
  obtain ⟨r, g, hpulls, -, -, hended⟩ := h.consumer hw.executor
  cases hpulls with
  | ends _ _ _ =>
    refine ⟨_, .step m (s := .consumer) trivial, fun heq => ?_⟩
    have := congrArg Account.ended heq
    rw [show m.account.ended = false from h.goesOn] at this
    exact absurd (hended.symm.trans this) (by simp [Pulled.isDone])
  | isOver hfinished => simp [hopen] at hfinished
  | draws _ hcurrent' _ _ _ _ | empties _ hcurrent' _ _ _ => simp [hcurrent] at hcurrent'
  | opens _ _ hqueue => simp [hw.queue] at hqueue
  | waits _ _ _ hnot => simp [hex] at hnot

/-- When there is nothing more to come of a further executor, the first one is turned to. -/
theorem getsOn_or_wanted_of_exhausted (h : Tracks k m f) (hid : 0 < id) (hw : f.Wanted id e)
    (hex : e.isExhausted = true) :
    m.GetsOn ∨ ∃ m' g e, m.MayBecome m' ∧ Tracks k m' g ∧ g.Wanted 0 e ∧
      e.isExhausted = false := by
  obtain ⟨e₀, he₀, hcurrent₀⟩ : ∃ e₀, f.executors[0]? = some e₀ ∧
      e₀.current = some (.pipe (.executor id)) := by
    obtain rfl | ⟨-, hhere⟩ := hw.here
    · exact absurd hid (Nat.lt_irrefl 0)
    · exact hhere
  have hcurrent := hw.current
  have hopen := hw.opened
  have hstep : m.MayBecome (m.step .consumer) := .step m trivial
  obtain ⟨r, g, hpulls, -, hg, hended⟩ := h.consumer he₀
  cases hpulls with
  | isOver hfinished => simp [h.not_finished he₀] at hfinished
  | draws _ hcurrent' _ he' hdraws hr =>
    obtain rfl : id = _ := by simpa [hcurrent₀] using hcurrent'
    obtain rfl := Option.some.inj (hw.executor.symm.trans he')
    cases hdraws with
    | isOver _ | ends _ _ _ => exact absurd rfl hr
    | passes _ hc _ | getsOn _ hc _ _ | empties _ hc => simp [hcurrent] at hc
    | opens _ _ hqueue => simp [hw.queue] at hqueue
    | waits _ _ _ hnot => simp [hex] at hnot
  | empties _ _ hj _ hdraws =>
    obtain hgets | ⟨m', g', e', hm', hrest⟩ :=
      (hg hended).getsOn_or_wanted_of_empties he₀ hj hdraws
    · exact .inl (.of_mayBecome hstep hgets)
    · exact .inr ⟨m', g', e', hstep.trans hm', hrest⟩
  | opens _ hcurrent' _ | ends _ hcurrent' _ | waits _ hcurrent' _ _ =>
    simp [hcurrent₀] at hcurrent'

theorem getsOn_or_pending_first (h : Tracks k m f) (hw : f.Wanted 0 e)
    (hex : e.isExhausted = false) :
    m.GetsOn ∨ ∃ m' g e, m.MayBecome m' ∧ Tracks k m' g ∧ g.Wanted 0 e ∧ e.pending ≠ 0 := by
  obtain hgets | ⟨m', g, e', hm', hg, hw', hpending | hex'⟩ := h.getsOn_or_pending hw hex
  · exact .inl hgets
  · exact .inr ⟨m', g, e', hm', hg, hw', hpending⟩
  · exact .inl (.of_mayBecome hm' (hg.getsOn_of_exhausted hw' hex'))

/-- The consumer gets something, or has to wait for tasks that are pending. -/
theorem getsOn_or_waits (h : Tracks k m f) :
    m.GetsOn ∨ ∃ m' g id e, m.MayBecome m' ∧ Tracks k m' g ∧ g.Wanted id e ∧ e.pending ≠ 0 := by
  have first {m' : Moment α} {g : Floor α} {e : Executor α} (hm' : m.MayBecome m')
      (hg : Tracks k m' g) (hw : g.Wanted 0 e) (hex : e.isExhausted = false) :
      m.GetsOn ∨ ∃ m' g id e, m.MayBecome m' ∧ Tracks k m' g ∧ g.Wanted id e ∧
        e.pending ≠ 0 := by
    obtain hgets | ⟨m'', g', e', hm'', hrest⟩ := hg.getsOn_or_pending_first hw hex
    · exact .inl (.of_mayBecome hm' hgets)
    · exact .inr ⟨m'', g', 0, e', hm'.trans hm'', hrest⟩
  obtain hgets | ⟨m₁, g₁, id, e, hm₁, hg₁, hw, hex⟩ := h.getsOn_or_wanted
  · exact .inl hgets
  obtain rfl | hid := Nat.eq_zero_or_pos id
  · exact first hm₁ hg₁ hw hex
  obtain hgets | ⟨m₂, g₂, e₂, hm₂, hg₂, hw₂, hpending | hex₂⟩ := hg₁.getsOn_or_pending hw hex
  · exact .inl (.of_mayBecome hm₁ hgets)
  · exact .inr ⟨m₂, g₂, id, e₂, hm₁.trans hm₂, hg₂, hw₂, hpending⟩
  have hm₂' := hm₁.trans hm₂
  obtain hgets | ⟨m₃, g₃, e₃, hm₃, hg₃, hw₃, hex₃⟩ := hg₂.getsOn_or_wanted_of_exhausted hid hw₂ hex₂
  · exact .inl (.of_mayBecome hm₂' hgets)
  · exact first (hm₂'.trans hm₃) hg₃ hw₃ hex₃

/-! ### Workers that are crowded out -/

/-- If all workers are crowded out, the first executor has more tasks than its queue and the workers
can have in hand: only there can be so many results, one of which is being drained. -/
theorem lt_outer_of_crowded (h : Tracks k m f) (hw : f.Wanted id e) (hcrowded : f.Crowded k.workers)
    (hworkers : 0 < k.workers) (hinner : k.inner ≤ Executor.queueCapacity) :
    Executor.queueCapacity + k.workers < k.outer := by
  -- all have in hand a task of the first executor
  have hall (t : Nat) (ht : t < k.workers) : ∃ a e₀, f.threads[t]? = some a ∧ a.inHand 0 = 1 ∧
      f.executors[0]? = some e₀ ∧ Executor.queueCapacity ≤ e₀.queue.length := by
    obtain ⟨a, job, e', ha, hjob, he', hfull⟩ := hcrowded t ht
    obtain ⟨e'', he'', hserves, hpending, -⟩ := h.sound.exists_executor ha hjob
    obtain rfl := Option.some.inj (he'.symm.trans he'')
    have hzero : job.executor = 0 := by
      by_contra hne
      have hmost := hserves.most
      rw [Scale.most, if_neg hne] at hmost
      omega
    exact ⟨a, e', ha, by simp [Activity.inHand, hjob, hzero], hzero ▸ he', hfull⟩
  obtain ⟨-, e₀, -, -, he₀, hfull⟩ := hall 0 hworkers
  have hserves := h.sound.executors 0 e₀ he₀
  have hinHand : k.workers ≤ f.inHand 0 := by
    have hbusy : ∀ n ∈ (f.threads.take k.workers).map (·.inHand 0), 1 ≤ n := by
      intro n hn
      obtain ⟨a, ha, rfl⟩ := List.mem_map.1 hn
      obtain ⟨t, ht, rfl⟩ := List.getElem_of_mem ha
      rw [List.length_take] at ht
      obtain ⟨a, -, ha', hone, -⟩ := hall t (by omega)
      rw [List.getElem_take, (List.getElem?_eq_some_iff.1 ha').2, hone]
    calc k.workers = ((f.threads.take k.workers).map (·.inHand 0)).length := by
          rw [List.length_map, List.length_take, Nat.min_eq_left h.sound.staff]
      _ ≤ ((f.threads.take k.workers).map (·.inHand 0)).sum :=
          List.length_le_sum_of_one_le _ hbusy
      _ ≤ ((f.threads.take k.workers).map (·.inHand 0)).sum +
          ((f.threads.drop k.workers).map (·.inHand 0)).sum := Nat.le_add_right _ _
      _ = f.inHand 0 := by
          rw [← List.sum_append, ← List.map_append, List.take_append_drop, Floor.inHand]
  have hcurrent : e₀.current.toList.length = 1 := by
    obtain rfl | ⟨-, e₁, he₁, hcurrent⟩ := hw.here
    · obtain rfl := Option.some.inj (he₀.symm.trans hw.executor)
      exact absurd hw.hasRoom (Nat.not_lt.2 hfull)
    · obtain rfl := Option.some.inj (he₀.symm.trans he₁)
      simp [hcurrent]
  have hpending := hserves.pending
  have hmost := hserves.most
  rw [Scale.most, if_pos rfl] at hmost
  omega

/-- Who has a job in hand brings it on if its executor has room. -/
theorem getsOn_of_inHand_of_room {a : Activity α} (h : Tracks k m f) (ht : f.threads[t]? = some a)
    (hjob : a.job? = some job) (he : f.executors[job.executor]? = some e)
    (hroom : e.queue.length < Executor.queueCapacity) : m.GetsOn := by
  have hemploys := h.sound.threads t a ht
  cases a with
  | working p job' run =>
    obtain ⟨rfl, -⟩ := hemploys
    cases hjob
    exact h.getsOn_of_working ht he hroom
  | sending p job' c =>
    obtain ⟨rfl, -⟩ := hemploys
    cases hjob
    exact h.getsOn_of_sending ht he hroom
  | _ => cases hjob

/-- A pending task for which the consumer waits is brought on unless all workers are crowded out. -/
theorem getsOn_or_crowded_of_pending (h : Tracks k m f) (hw : f.Wanted id e)
    (hpending : e.pending ≠ 0) : m.GetsOn ∨ f.Crowded k.workers := by
  by_cases hinHand : f.inHand id = 0
  · have hjobs : f.jobs ≠ [] := by
      intro hnil
      have := (h.sound.executors id e hw.executor).pending
      rw [hinHand, Floor.jobsOf, hnil] at this
      exact hpending this
    by_cases hgets : m.GetsOn
    · exact .inl hgets
    refine .inr fun t ht => ?_
    obtain ⟨a, ha⟩ : ∃ a, f.threads[t]? = some a :=
      ⟨_, List.getElem?_eq_getElem (ht.trans_le h.sound.staff)⟩
    have hemploys := h.sound.threads t a ha
    have busy {job : Job α} (hjob : a.job? = some job) : ∃ a job e, f.threads[t]? = some a ∧
        a.job? = some job ∧ f.executors[job.executor]? = some e ∧
        Executor.queueCapacity ≤ e.queue.length := by
      obtain ⟨e', he', -⟩ := h.sound.exists_executor ha hjob
      refine ⟨a, job, e', ha, hjob, he', Nat.le_of_not_lt fun hroom => hgets ?_⟩
      exact h.getsOn_of_inHand_of_room ha hjob he' hroom
    cases a with
    | idle p =>
      obtain ⟨rfl, -⟩ := hemploys
      exact absurd (h.getsOn_of_idle ha hjobs) hgets
    | working p job run => exact busy rfl
    | sending p job c => exact busy rfl
    | finished => exact absurd ht (Nat.not_lt.2 hemploys)
    | producing id production =>
      refine absurd ht (Nat.not_lt.2 ?_)
      cases production <;> first | exact hemploys.1 | exact hemploys.elim
    | alarm due => exact hemploys.elim
  · obtain ⟨t, a, job, ht, hjob, rfl⟩ := Floor.exists_of_inHand hinHand
    exact .inl (h.getsOn_of_inHand_of_room ht hjob hw.executor hw.hasRoom)

/-- **A run gets on unless all workers are crowded out.**  At the latest it comes to a moment at
which the consumer waits, and every worker has in hand a task of an executor that has no room. -/
theorem getsOn_or_crowded (h : Tracks k m f) : m.GetsOn ∨ ∃ m' g id e, m.MayBecome m' ∧
    Tracks k m' g ∧ g.Wanted id e ∧ g.Crowded k.workers := by
  obtain hgets | ⟨m', g, id, e, hm', hg, hw, hpending⟩ := h.getsOn_or_waits
  · exact .inl hgets
  · obtain hgets | hcrowded := hg.getsOn_or_crowded_of_pending hw hpending
    · exact .inl (.of_mayBecome hm' hgets)
    · exact .inr ⟨m', g, id, e, hm', hg, hw, hcrowded⟩

end Tracks

variable {x : Nesting α}

/-- A run gets on as long as the results of the tasks find room in the queue and with the workers.
-/
theorem Reaches.getsOn (hend : x.AllEndWell)
    (hinner : ∀ row ∈ x.left, (x.inner row).length ≤ Executor.queueCapacity)
    (hfew : x.left.length ≤ Executor.queueCapacity + x.crew) (hm : x.Reaches m)
    (hgoes : m.ended = false) : m.GetsOn := by
  have hk : x.Suits ⟨x.crew, x.left.length, 0, Executor.queueCapacity⟩ :=
    ⟨rfl, le_rfl, fun _ _ => Nat.zero_le _, hinner⟩
  obtain ⟨f, hf⟩ := hm.tracks hk hend hgoes
  obtain hgets | ⟨m', g, id, e, -, hg, hw, hcrowded⟩ := hf.getsOn_or_crowded
  · exact hgets
  · have := hg.lt_outer_of_crowded hw hcrowded (Nat.le_max_right _ _) le_rfl
    exact absurd hfew (Nat.not_le.2 this)

end Nesting

end FederatedSparql
