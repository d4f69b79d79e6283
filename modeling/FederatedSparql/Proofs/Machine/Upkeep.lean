import FederatedSparql.Proofs.Machine.Dues
import FederatedSparql.Proofs.Machine.Frames

/-!
Changes that a machine makes without failing its dues.

Each lemma is about one small change: what is written down is settled otherwise
(`Honours.reckon`), threads are woken, an executor changes, a branch is cancelled, a thread is to be
ended or goes on with something else, a task is registered, and so on.  Whoever makes a change is
excepted meanwhile.
-/

namespace FederatedSparql

namespace Machine

variable {α β : Type}

/-! ### Machines that are alike -/

/-- Two machines differ at most in who has been woken, in what pools have counted and in what only
members keep. -/
structure Alike (m m' : Machine α) : Prop where
  answers : m'.registry.answers = m.registry.answers
  query : m'.query = m.query
  executors : m'.executors = m.executors
  threads : m'.threads = m.threads
  jobs : ∀ p, (m'.crew p).jobs = (m.crew p).jobs
  accepting : ∀ p, (m'.crew p).pool.accepting = (m.crew p).pool.accepting

variable {m m' m'' : Machine α}

namespace Alike

theorem refl (m : Machine α) : m.Alike m := ⟨rfl, rfl, rfl, rfl, fun _ => rfl, fun _ => rfl⟩

theorem trans (h : m.Alike m') (h' : m'.Alike m'') : m.Alike m'' where
  answers := h'.answers.trans h.answers
  query := h'.query.trans h.query
  executors := h'.executors.trans h.executors
  threads := h'.threads.trans h.threads
  jobs p := (h'.jobs p).trans (h.jobs p)
  accepting p := (h'.accepting p).trans (h.accepting p)

theorem later (h : m.Alike m') : m.Later m' :=
  .of_executors h.executors fun _ record hrecord => ⟨record, h.query ▸ hrecord, rfl⟩

theorem isCancelled (h : m.Alike m') (e : Executor α) : m'.isCancelled e = m.isCancelled e := by
  rw [Machine.isCancelled, h.query, Machine.isCancelled]

end Alike

theorem alike_wake (w : Waker) (m : Machine α) : m.Alike (after (wake w) m) := by
  cases w with
  | main => exact ⟨rfl, rfl, rfl, rfl, fun p => by cases p <;> rfl, fun p => by cases p <;> rfl⟩
  | thread t =>
    show m.Alike (if m.ready.contains t then m else { m with ready := m.ready ++ [t] })
    split
    · exact .refl m
    · exact ⟨rfl, rfl, rfl, rfl, fun p => by cases p <;> rfl, fun p => by cases p <;> rfl⟩

theorem alike_wakeAt (due : Nat) (w : Waker) (m : Machine α) :
    m.Alike (after (wakeAt due w) m) :=
  ⟨rfl, rfl, rfl, rfl, fun p => by cases p <;> rfl, fun p => by cases p <;> rfl⟩

theorem alike_wakeThread? (t : Option Nat) (m : Machine α) :
    m.Alike (after (wakeThread? t) m) := by
  cases t with
  | none => exact .refl m
  | some t => exact alike_wake _ m

theorem alike_wakeConsumer (id : Nat) (m : Machine α) : m.Alike (after (wakeConsumer id) m) := by
  rw [wakeConsumer, after_get_bind]
  split
  · split
    · exact alike_wake _ m
    · exact .refl m
  · exact .refl m

theorem alike_forIn {ι : Type} (xs : List ι) {body : ι → PUnit → Action α (ForInStep PUnit)}
    (h : ∀ x, Keeps Alike (body x PUnit.unit)) (m : Machine α) :
    m.Alike (after (forIn xs PUnit.unit body) m) := by
  induction xs generalizing m with
  | nil => exact .refl m
  | cons x xs ih =>
    rw [List.forIn_cons, after_bind]
    refine (h x m).trans ?_
    split
    · exact .refl _
    · exact ih _

/-- Threads are woken. -/
def wakeAll (ts : List Nat) : Action α Unit := do
  for t in ts do wake (.thread t)

theorem alike_wakeAll (ts : List Nat) (m : Machine α) : m.Alike (after (wakeAll ts) m) :=
  alike_forIn ts (fun t m => alike_wake (.thread t) m) m

theorem alike_wakeWorkingFor (wanted : Nat → Bool) (m : Machine α) :
    m.Alike (after (wakeWorkingFor wanted) m) := by
  rw [wakeWorkingFor, after_get_bind, after_bind]
  refine (alike_forIn _ (fun t m => ?_) m).trans (alike_wake _ _)
  split
  · split
    · exact alike_wake (.thread t) m
    · exact .refl m
  · exact .refl m

/-- A pool counts something, or its line changes. -/
theorem alike_updateCrew {p : PoolName} {f : Crew α → Crew α}
    (hf : ∀ c, (f c).jobs = c.jobs ∧ (f c).pool.accepting = c.pool.accepting) (m : Machine α) :
    m.Alike (after (updateCrew p f) m) := by
  cases p
  · refine ⟨rfl, rfl, rfl, rfl, fun q => ?_, fun q => ?_⟩
    · cases q
      · exact (hf _).1
      · rfl
    · cases q
      · exact (hf _).2
      · rfl
  · refine ⟨rfl, rfl, rfl, rfl, fun q => ?_, fun q => ?_⟩
    · cases q
      · rfl
      · exact (hf _).1
    · cases q
      · rfl
      · exact (hf _).2

section Updates

variable {id : Nat} {e : Executor α} {f : Executor α → Executor α}

theorem getElem?_updateExecutor (f : Executor α → Executor α) (he : m.executors[id]? = some e) :
    (after (updateExecutor id f) m).executors[id]? = some (f e) := by
  show (m.executors.modify id f)[id]? = _
  rw [Array.getElem?_modify, if_pos rfl, he]
  rfl

theorem getElem?_updateExecutor_of_ne {i : Nat} (hi : i ≠ id) :
    (after (updateExecutor id f) m).executors[i]? = m.executors[i]? := by
  show (m.executors.modify id f)[i]? = _
  rw [Array.getElem?_modify, if_neg (Ne.symm hi)]

/-- An executor changes, and remains what it is. -/
theorem Later.update (he : m.executors[id]? = some e) (hbranch : (f e).branch = e.branch)
    (hfirst : (f e).firstOnly = e.firstOnly) (hproducer : (f e).producer = e.producer)
    (hclosed : e.closed = true → (f e).closed = true) :
    m.Later (after (updateExecutor id f) m) where
  executors i e' he' := by
    by_cases hi : i = id
    · subst hi
      obtain rfl : e = e' := Option.some.inj (he.symm.trans he')
      exact ⟨f e, getElem?_updateExecutor f he, hbranch, hfirst, hproducer, hclosed⟩
    · exact ⟨e', (getElem?_updateExecutor_of_ne hi).trans he', rfl, rfl, rfl, fun hc => hc⟩
  tasks _ record hrecord := ⟨record, hrecord, rfl⟩

end Updates

/-! ### Jobs that others have -/

/-- A job waits in a pool or is in the hands of a thread of which something is said. -/
def AtWork (m : Machine α) (X : Set Holder) (job : Job α) : Prop :=
  (∃ p, job ∈ (m.crew p).jobs) ∨
    ∃ t th, m.threads[t]? = some th ∧ .thread t ∉ X ∧ th.activity.job? = some job

variable [DecidableEq α] {answers : Answers} {d d' : Dues α} {X Y : Set Holder}

namespace Honours

theorem jobAt (h : m.Honours answers d X) {job : Job α} (hjob : m.AtWork X job) :
    ∃ spot, m.JobAt d spot job ∧ ∀ t, spot = .thread t → .thread t ∉ X := by
  obtain ⟨p, hjob⟩ | ⟨t, th, hth, ht, hjob⟩ := hjob
  · exact ⟨.pool p, (h.jobs p job hjob).jobAt, fun t ht => by cases ht⟩
  · refine ⟨.thread t, (h.threads t th hth ht).jobAt hjob, fun u hu => ?_⟩
    obtain rfl := Spot.thread.inj hu
    exact ht

/-! ### Exceptions -/

theorem mono (h : m.Honours answers d X) (hXY : X ⊆ Y) : m.Honours answers d Y where
  calm := h.calm
  staffed := h.staffed
  known := h.known
  executors id e he hid := h.executors id e he fun hX => hid (hXY hX)
  threads t th hth ht := h.threads t th hth fun hX => ht (hXY hX)
  jobs := h.jobs
  nodup := h.nodup

/-- An executor that does its part need not be excepted. -/
theorem restore {id : Nat} {e : Executor α} (h : m.Honours answers d (insert (.executor id) X))
    (he : m.executors[id]? = some e)
    (hserves : e.Serves answers d m.executors.size id (m.isCancelled e)) :
    m.Honours answers d X where
  calm := h.calm
  staffed := h.staffed
  known := h.known
  executors i e' he' hi := by
    by_cases hid : i = id
    · subst hid
      obtain rfl : e = e' := Option.some.inj (he.symm.trans he')
      exact hserves
    · refine h.executors i e' he' ?_
      rintro (hX | hX)
      · exact hid (Holder.executor.inj hX)
      · exact hi hX
  threads t th hth ht := by
    refine h.threads t th hth ?_
    rintro (hX | hX)
    · cases hX
    · exact ht hX
  jobs := h.jobs
  nodup := h.nodup

/-- A thread that does its part need not be excepted. -/
theorem employ {t : Nat} {th : Thread α} (h : m.Honours answers d (insert (.thread t) X))
    (hth : m.threads[t]? = some th) (hemploys : m.Employs answers d t th.activity) :
    m.Honours answers d X where
  calm := h.calm
  staffed := h.staffed
  known := h.known
  executors i e' he' hi := by
    refine h.executors i e' he' ?_
    rintro (hX | hX)
    · cases hX
    · exact hi hX
  threads u th' hth' hu := by
    by_cases htu : u = t
    · subst htu
      obtain rfl : th = th' := Option.some.inj (hth.symm.trans hth')
      exact hemploys
    · refine h.threads u th' hth' ?_
      rintro (hX | hX)
      · exact htu (Holder.thread.inj hX)
      · exact hu hX
  jobs := h.jobs
  nodup := h.nodup

/-! ### Settling what is written down -/

/-- Something else may be written down for those that are excepted. -/
theorem reckon (h : m.Honours answers d X)
    (hheld : ∀ i < m.executors.size, d.holder i ∉ X →
      d'.owed i = d.owed i ∧ d'.holder i = d.holder i)
    (hown : ∀ (id : Nat) (e : Executor α), m.executors[id]? = some e → .executor id ∉ X →
      d'.tasks id = d.tasks id ∧ d'.rest id = d.rest id ∧
        (∀ k ∈ d.tasks id, d'.result k = d.result k) ∧
        (d'.owed id = d.owed id ∨ e.closed = true ∧ d'.owed id = 0))
    (hjobs : ∀ job, m.AtWork X job → d'.spot job.task = d.spot job.task ∧
      d'.result job.task = d.result job.task ∧ job.task ∈ d'.tasks job.executor)
    (hproducers : ∀ (t : Nat) (th : Thread α) (id : Nat) (production : Production α),
      m.threads[t]? = some th → .thread t ∉ X → th.activity = .producing id production →
        d'.rest id = d.rest id ∧ (d.tasks id = ∅ → d'.tasks id = ∅))
    (hknown : ∀ id, ∀ k ∈ d'.tasks id, k ≤ m.query.tasks.size) :
    m.Honours answers d' X where
  calm := h.calm
  staffed := h.staffed
  known := hknown
  executors id e he hid := by
    have hserves := h.executors id e he hid
    have hsame (i : Nat) (hi : i ∈ heldByAll e.contents) :
        d'.owed i = d.owed i ∧ d'.holder i = d.holder i := by
      refine hheld i (hserves.holds.exist i hi) ?_
      rw [hserves.holds.holder i hi]
      exact hid
    obtain ⟨htasks, hrest, hresult, howed⟩ := hown id e he hid
    refine ⟨hserves.finished, fun hclosed => ?_, fun hopen => ?_, ?_, hserves.later⟩
    · obtain howed | ⟨-, hzero⟩ := howed
      · rw [howed]
        exact hserves.settled hclosed
      · exact hzero
    · have hgoes := hserves.goesOn hopen
      obtain howed | ⟨hclosed, -⟩ := howed
      · obtain ⟨Ms, N, hcontents, hsum, hout⟩ := hgoes.content
        refine { hgoes with pending := ?_, content := ⟨Ms, N, ?_, ?_, ?_⟩, tasksOver := ?_ }
        · rw [htasks]
          exact hgoes.pending
        · exact forall₂_comes_congr hcontents fun i hi => (hsame i hi).1
        · rw [howed]
          exact hsum
        · exact hout.congr htasks hrest hresult
        · rw [htasks]
          exact hgoes.tasksOver
      · rw [hopen] at hclosed
        cases hclosed
    · exact hserves.holds.keep (Nat.le_refl _) fun i hi => (hsame i hi).2
  threads t th hth ht := by
    have hemploys := h.threads t th hth ht
    refine hemploys.later (.refl m) (fun i hi => ?_) (fun job hjob => ?_)
      fun id production hproducing => ?_
    · refine hheld i (hemploys.holds.exist i hi) ?_
      rw [hemploys.holds.holder i hi]
      exact ht
    · exact hjobs job (.inr ⟨t, th, hth, ht, hjob⟩)
    · obtain ⟨hrest, htasks⟩ := hproducers t th id production hth ht hproducing
      refine ⟨hrest, htasks, fun e e' he he' _ hgoes hclosed => ?_⟩
      obtain rfl : e = e' := Option.some.inj (he.symm.trans he')
      exact hgoes hclosed
  jobs p job hjob := by
    obtain ⟨hspot, hresult, htask⟩ := hjobs job (.inl ⟨p, hjob⟩)
    exact (h.jobs p job hjob).later (.refl m) hspot hresult htask
  nodup := h.nodup

/-- What holders that are excepted get may be paid, and they may hand on what they hold. -/
theorem pay (h : m.Honours answers d X) (hresult : d'.result = d.result)
    (htasks : d'.tasks = d.tasks) (hrest : d'.rest = d.rest) (hspot : d'.spot = d.spot)
    (hheld : ∀ i < m.executors.size, d.holder i ∉ X →
      d'.owed i = d.owed i ∧ d'.holder i = d.holder i)
    (hown : ∀ (id : Nat) (e : Executor α), m.executors[id]? = some e → .executor id ∉ X →
      d'.owed id = d.owed id ∨ e.closed = true ∧ d'.owed id = 0) :
    m.Honours answers d' X := by
  refine h.reckon hheld (fun id e he hid => ?_) (fun job hjob => ?_) (fun _ _ id _ _ _ _ => ?_) ?_
  · exact ⟨by rw [htasks], by rw [hrest], fun k _ => by rw [hresult], hown id e he hid⟩
  · obtain ⟨_, hat, -⟩ := h.jobAt hjob
    exact ⟨by rw [hspot], by rw [hresult], by rw [htasks]; exact hat.isOpen⟩
  · exact ⟨by rw [hrest], fun hempty => by rw [htasks]; exact hempty⟩
  · rw [htasks]
    exact h.known

/-! ### Changes of the machine -/

/-- Nothing that matters has changed. -/
theorem alike (h : m.Honours answers d X) (hm : m.Alike m') : m'.Honours answers d X where
  calm := {
    answers := hm.answers.trans h.calm.answers
    deadline := by rw [hm.query]; exact h.calm.deadline
    aborted := by rw [hm.query]; exact h.calm.aborted
    cancelled := by rw [hm.query]; exact h.calm.cancelled
    hanging := by rw [hm.query]; exact h.calm.hanging
    accepting := fun p => (hm.accepting p).trans (h.calm.accepting p) }
  staffed := {
    branch_lt := by rw [hm.executors, hm.query]; exact h.staffed.branch_lt
    branch_inj := by rw [hm.executors]; exact h.staffed.branch_inj
    doomed := by rw [hm.executors, hm.threads]; exact h.staffed.doomed
    producer := by rw [hm.executors, hm.threads]; exact h.staffed.producer }
  known := by rw [hm.query]; exact h.known
  executors id e he hid := by
    rw [hm.executors] at he ⊢
    rw [hm.isCancelled]
    exact h.executors id e he hid
  threads t th hth ht := by
    rw [hm.threads] at hth
    exact (h.threads t th hth ht).stays hm.later hm.executors
  jobs p job hjob := by
    rw [hm.jobs] at hjob
    exact (h.jobs p job hjob).stays hm.later
  nodup p := by rw [hm.jobs]; exact h.nodup p

/-- An executor that is excepted changes, and remains what it is. -/
theorem update (h : m.Honours answers d X) {id : Nat} {e : Executor α}
    {f : Executor α → Executor α} (he : m.executors[id]? = some e) (hid : .executor id ∈ X)
    (hbranch : (f e).branch = e.branch) (hfirst : (f e).firstOnly = e.firstOnly)
    (hproducer : (f e).producer = e.producer) (hclosed : e.closed = true → (f e).closed = true)
    (hproducing : (∀ t, e.producer = some t → .thread t ∉ X) → e.firstOnly = false →
      (f e).closed = false → e.producing = true → (f e).producing = true) :
    (after (updateExecutor id f) m).Honours answers d X := by
  set m' := after (updateExecutor id f) m
  have hthis : m'.executors[id]? = some (f e) := getElem?_updateExecutor f he
  have hother {i : Nat} (hi : i ≠ id) : m'.executors[i]? = m.executors[i]? :=
    getElem?_updateExecutor_of_ne hi
  have hback {i : Nat} {e' : Executor α} (he' : m'.executors[i]? = some e') :
      ∃ e₀, m.executors[i]? = some e₀ ∧ e'.branch = e₀.branch ∧ e'.producer = e₀.producer := by
    by_cases hi : i = id
    · subst hi
      obtain rfl : f e = e' := Option.some.inj (hthis.symm.trans he')
      exact ⟨e, he, hbranch, hproducer⟩
    · exact ⟨e', (hother hi) ▸ he', rfl, rfl⟩
  have hlater : m.Later m' := .update he hbranch hfirst hproducer hclosed
  refine ⟨⟨h.calm.answers, h.calm.deadline, h.calm.aborted, h.calm.cancelled, h.calm.hanging,
    h.calm.accepting⟩, ⟨fun i e' he' => ?_, fun i j e' e'' he' he'' hsame => ?_,
    fun t th hth hdoomed => ?_, fun i e' t he' ht => ?_⟩, h.known, fun i e' he' hi => ?_,
    fun t th hth ht => ?_, fun p job hjob => ?_, h.nodup⟩
  · obtain ⟨e₀, he₀, hb, -⟩ := hback he'
    exact hb ▸ h.staffed.branch_lt i e₀ he₀
  · obtain ⟨e₀, he₀, hb, -⟩ := hback he'
    obtain ⟨e₁, he₁, hb', -⟩ := hback he''
    exact h.staffed.branch_inj i j e₀ e₁ he₀ he₁ (hb.symm.trans (hsame.trans hb'))
  · refine (h.staffed.doomed t th hth hdoomed).imp_right ?_
    rintro ⟨i, production, e', hproduces, he', hshut⟩
    obtain ⟨e'', he'', -, -, -, hkeeps⟩ := hlater.executors i e' he'
    exact ⟨i, production, e'', hproduces, he'', hkeeps hshut⟩
  · obtain ⟨e₀, he₀, -, hp⟩ := hback he'
    exact h.staffed.producer i e₀ t he₀ (hp ▸ ht)
  · have hne : i ≠ id := fun hsame => hi (hsame ▸ hid)
    have hsize : m'.executors.size = m.executors.size := Array.size_modify
    rw [hsize]
    exact h.executors i e' (hother hne ▸ he') hi
  · have hemploys := h.threads t th hth ht
    refine hemploys.later hlater (fun _ _ => ⟨rfl, rfl⟩)
      (fun job hjob => ⟨rfl, rfl, (hemploys.jobAt hjob).isOpen⟩) fun i production hproduces => ?_
    refine ⟨rfl, fun hempty => hempty, fun e₀ e₁ he₀ he₁ hnot hgoes hopen => ?_⟩
    by_cases hi : i = id
    · subst hi
      obtain rfl : e = e₀ := Option.some.inj (he.symm.trans he₀)
      obtain rfl : f e = e₁ := Option.some.inj (hthis.symm.trans he₁)
      rw [hproduces] at hemploys
      obtain ⟨e₂, he₂, howner, -⟩ := hemploys
      obtain rfl : e = e₂ := Option.some.inj (he.symm.trans he₂)
      refine hproducing (fun u hu => ?_) hnot hopen (hgoes ?_)
      · obtain rfl : t = u := Option.some.inj (howner.symm.trans hu)
        exact ht
      · cases hc : e.closed with
        | false => rfl
        | true => exact absurd (hclosed hc) (by simp [hopen])
    · obtain rfl : e₀ = e₁ := Option.some.inj (he₀.symm.trans ((hother hi).symm.trans he₁))
      exact hgoes hopen
  · exact (h.jobs p job hjob).stays hlater

/-- The branch of an executor that is excepted is cancelled. -/
theorem cancelBranch (h : m.Honours answers d X) {id : Nat} {e : Executor α}
    (he : m.executors[id]? = some e) (hid : .executor id ∈ X) :
    (after (modify fun m : Machine α => { m with query := m.query.cancelBranch e.branch })
      m).Honours answers d X where
  calm := ⟨h.calm.answers, h.calm.deadline, h.calm.aborted, h.calm.cancelled, h.calm.hanging,
    h.calm.accepting⟩
  staffed := {
    branch_lt := fun i e' he' => by
      simpa [QueryContext.cancelBranch] using h.staffed.branch_lt i e' he'
    branch_inj := h.staffed.branch_inj
    doomed := h.staffed.doomed
    producer := h.staffed.producer }
  known := h.known
  executors i e' he' hi := by
    have hne : e.branch ≠ e'.branch := fun hsame =>
      hi (h.staffed.branch_inj id i e e' he he' hsame ▸ hid)
    have hsame : (after (modify fun m : Machine α =>
        { m with query := m.query.cancelBranch e.branch }) m).isCancelled e' = m.isCancelled e' := by
      simp [Machine.isCancelled, QueryContext.isBranchCancelled, QueryContext.cancelBranch,
        Array.getElem?_setIfInBounds_ne hne]
    rw [hsame]
    exact h.executors i e' he' hi
  threads t th hth ht := (h.threads t th hth ht).stays
    (.of_executors rfl fun _ record hrecord => ⟨record, hrecord, rfl⟩) rfl
  jobs p job hjob := (h.jobs p job hjob).stays
    (.of_executors rfl fun _ record hrecord => ⟨record, hrecord, rfl⟩)
  nodup := h.nodup

/-- An executor that is excepted is cancelled. -/
theorem cancel (h : m.Honours answers d X) {id : Nat} (hid : .executor id ∈ X) :
    (after (cancel id) m).Honours answers d X := by
  rw [Machine.cancel, after_get_bind]
  split
  · next e he => exact (h.cancelBranch he hid).alike (alike_wakeWorkingFor _ _)
  · exact h

/-- Threads change, but for those of which something is said they do what they did. -/
theorem rethread (h : m.Honours answers d X) (threads : Array (Thread α))
    (hsame : ∀ (t : Nat) (th : Thread α), threads[t]? = some th → .thread t ∉ X →
      ∃ th', m.threads[t]? = some th' ∧ th.activity = th'.activity)
    (hdoomed : ∀ (t : Nat) (th : Thread α), threads[t]? = some th → th.doomed = true →
      th.activity = .finished ∨ ∃ id production e, th.activity = .producing id production ∧
        m.executors[id]? = some e ∧ e.closed = true)
    (hproducer : ∀ (id : Nat) (e : Executor α) (t : Nat), m.executors[id]? = some e →
      e.producer = some t → ∃ th, threads[t]? = some th ∧
        (th.activity = .finished ∨ ∃ production, th.activity = .producing id production)) :
    Honours answers { m with threads := threads } d X where
  calm := ⟨h.calm.answers, h.calm.deadline, h.calm.aborted, h.calm.cancelled, h.calm.hanging,
    h.calm.accepting⟩
  staffed := ⟨h.staffed.branch_lt, h.staffed.branch_inj, hdoomed, hproducer⟩
  known := h.known
  executors := h.executors
  threads t th hth ht := by
    obtain ⟨th', hth', hactivity⟩ := hsame t th hth ht
    rw [hactivity]
    exact (h.threads t th' hth' ht).stays
      (.of_executors rfl fun _ record hrecord => ⟨record, hrecord, rfl⟩) rfl
  jobs p job hjob := (h.jobs p job hjob).stays
    (.of_executors rfl fun _ record hrecord => ⟨record, hrecord, rfl⟩)
  nodup := h.nodup

/-- The producer of an executor that has been closed is to be ended. -/
theorem doom (h : m.Honours answers d X) {id t : Nat} {e : Executor α}
    (he : m.executors[id]? = some e) (hclosed : e.closed = true) (ht : e.producer = some t) :
    (after (doom t) m).Honours answers d X := by
  have hget (u : Nat) : (m.threads.modify t fun s => { s with doomed := true })[u]? =
      m.threads[u]?.map fun s => if t = u then { s with doomed := true } else s := by
    rw [Array.getElem?_modify]
    split <;> simp
  have hthreads := h.rethread (m.threads.modify t fun s => { s with doomed := true })
    (fun u th hth _ => ?_) (fun u th hth hdoomed => ?_) fun i e' u he' hu => ?_
  · exact hthreads.alike (alike_wake (.thread t) _)
  all_goals simp only [hget] at *
  · obtain ⟨th', hth', rfl⟩ := Option.map_eq_some_iff.1 hth
    exact ⟨th', hth', by split <;> rfl⟩
  · obtain ⟨th', hth', rfl⟩ := Option.map_eq_some_iff.1 hth
    by_cases htu : t = u
    · subst htu
      obtain ⟨th₀, hth₀, hdoes⟩ := h.staffed.producer id e t he ht
      obtain rfl : th' = th₀ := Option.some.inj (hth'.symm.trans hth₀)
      simp only [if_true]
      exact hdoes.imp_right fun ⟨production, hproduces⟩ =>
        ⟨id, production, e, hproduces, he, hclosed⟩
    · rw [if_neg htu] at hdoomed ⊢
      exact h.staffed.doomed u th' hth' hdoomed
  · obtain ⟨th, hth, hdoes⟩ := h.staffed.producer i e' u he' hu
    exact ⟨_, Option.map_eq_some_iff.2 ⟨th, hth, rfl⟩, by split <;> exact hdoes⟩

/-- A thread that is excepted goes on with something else. -/
theorem become (h : m.Honours answers d X) {t : Nat} {th : Thread α} {a : Activity α}
    (hth : m.threads[t]? = some th) (ht : .thread t ∈ X)
    (hends : th.activity = .finished → a = .finished)
    (hproduces : ∀ id production, th.activity = .producing id production →
      a = .finished ∨ ∃ production', a = .producing id production') :
    (after (become t a) m).Honours answers d X := by
  have hget (u : Nat) : (m.threads.modify t fun s => { s with activity := a })[u]? =
      if t = u then some { th with activity := a } else m.threads[u]? := by
    rw [Array.getElem?_modify]
    split
    · next htu => simp [← htu, hth]
    · rfl
  refine h.rethread _ (fun u th' hth' hu => ?_) (fun u th' hth' hdoomed => ?_)
    fun i e u he hu => ?_
  all_goals simp only [hget] at *
  · have htu : t ≠ u := fun hsame => hu (hsame ▸ ht)
    rw [if_neg htu] at hth'
    exact ⟨th', hth', rfl⟩
  · by_cases htu : t = u
    · rw [if_pos htu] at hth'
      obtain rfl := Option.some.inj hth'
      obtain hfinished | ⟨id, production, e, hproducing, he, hclosed⟩ :=
        h.staffed.doomed t th hth hdoomed
      · exact .inl (hends hfinished)
      · exact (hproduces id production hproducing).imp_right fun ⟨production', ha⟩ =>
          ⟨id, production', e, ha, he, hclosed⟩
    · rw [if_neg htu] at hth'
      exact h.staffed.doomed u th' hth' hdoomed
  · obtain ⟨th', hth', hdoes⟩ := h.staffed.producer i e u he hu
    by_cases htu : t = u
    · subst htu
      obtain rfl : th = th' := Option.some.inj (hth.symm.trans hth')
      rw [if_pos rfl]
      refine ⟨_, rfl, ?_⟩
      obtain hfinished | ⟨production, hproducing⟩ := hdoes
      · exact .inl (hends hfinished)
      · exact hproduces i production hproducing
    · rw [if_neg htu]
      exact ⟨th', hth', hdoes⟩

/-- Tasks of the query are registered or are over. -/
theorem requery (h : m.Honours answers d X) {q : QueryContext}
    (hdeadline : q.deadline = m.query.deadline) (haborted : q.aborted = m.query.aborted)
    (hcancelled : q.cancelled = m.query.cancelled) (hbranches : q.branches = m.query.branches)
    (htasks : ∀ (k : Nat) (record : TaskRecord), m.query.tasks[k]? = some record →
      ∃ record', q.tasks[k]? = some record' ∧ record'.branch = record.branch)
    (hhanging : ∀ task ∈ q.tasks, task.cancelled = false)
    (hsize : m.query.tasks.size ≤ q.tasks.size) :
    Honours answers { m with query := q } d X where
  calm := ⟨h.calm.answers, hdeadline.trans h.calm.deadline, haborted.trans h.calm.aborted,
    hcancelled.trans h.calm.cancelled, hhanging, h.calm.accepting⟩
  staffed := {
    branch_lt := fun i e he => by simpa only [hbranches] using h.staffed.branch_lt i e he
    branch_inj := h.staffed.branch_inj
    doomed := h.staffed.doomed
    producer := h.staffed.producer }
  known id k hk := Nat.le_trans (h.known id k hk) hsize
  executors i e he hi := by
    have hsame : Machine.isCancelled { m with query := q } e = m.isCancelled e := by
      simp only [Machine.isCancelled, QueryContext.isBranchCancelled, hcancelled, hbranches]
    rw [hsame]
    exact h.executors i e he hi
  threads t th hth ht := (h.threads t th hth ht).stays (.of_executors rfl htasks) rfl
  jobs p job hjob := (h.jobs p job hjob).stays (.of_executors rfl htasks)
  nodup := h.nodup

/-- Jobs are given to a pool or are taken. -/
theorem recrew (h : m.Honours answers d X) {p : PoolName} {f : Crew α → Crew α}
    (hjobs : ∀ job ∈ (f (m.crew p)).jobs, m.Waits answers d p job)
    (hnodup : ((f (m.crew p)).jobs.map (·.task)).Nodup)
    (haccepting : (f (m.crew p)).pool.accepting = true) :
    (after (updateCrew p f) m).Honours answers d X := by
  set m' := after (updateCrew p f) m with hm'
  have hthis : m'.crew p = f (m.crew p) := by cases p <;> rfl
  have hother (q : PoolName) (hq : q ≠ p) : m'.crew q = m.crew q := by
    cases p <;> cases q <;> first | rfl | exact absurd rfl hq
  have hsame : m'.executors = m.executors ∧ m'.query = m.query ∧ m'.threads = m.threads ∧
      m'.registry = m.registry := by
    cases p <;> exact ⟨rfl, rfl, rfl, rfl⟩
  obtain ⟨hexecutors, hquery, hthreads, hregistry⟩ := hsame
  have hlater : m.Later m' :=
    .of_executors hexecutors fun _ record hrecord => ⟨record, hquery ▸ hrecord, rfl⟩
  have hcancelled (e : Executor α) : m'.isCancelled e = m.isCancelled e := by
    rw [Machine.isCancelled, hquery, Machine.isCancelled]
  refine ⟨⟨by rw [hregistry]; exact h.calm.answers, by rw [hquery]; exact h.calm.deadline,
      by rw [hquery]; exact h.calm.aborted, by rw [hquery]; exact h.calm.cancelled,
      by rw [hquery]; exact h.calm.hanging, fun q => ?_⟩,
    ⟨by rw [hexecutors, hquery]; exact h.staffed.branch_lt,
      by rw [hexecutors]; exact h.staffed.branch_inj,
      by rw [hexecutors, hthreads]; exact h.staffed.doomed,
      by rw [hexecutors, hthreads]; exact h.staffed.producer⟩,
    by rw [hquery]; exact h.known, fun i e he hi => ?_, fun t th hth ht => ?_, fun q => ?_,
    fun q => ?_⟩
  · by_cases hq : q = p
    · rw [hq, hthis]
      exact haccepting
    · rw [hother q hq]
      exact h.calm.accepting q
  · rw [hexecutors] at he ⊢
    rw [hcancelled]
    exact h.executors i e he hi
  · rw [hthreads] at hth
    exact (h.threads t th hth ht).stays hlater hexecutors
  · by_cases hq : q = p
    · rw [hq, hthis]
      exact fun job hjob => (hjobs job hjob).stays hlater
    · rw [hother q hq]
      exact fun job hjob => (h.jobs q job hjob).stays hlater
  · by_cases hq : q = p
    · rw [hq, hthis]
      exact hnodup
    · rw [hother q hq]
      exact h.nodup q

end Honours

end Machine

end FederatedSparql
