import FederatedSparql.Proofs.Machine.Floor
import FederatedSparql.Proofs.Machine.Interleaving
import FederatedSparql.Proofs.Machine.Turns
import Mathlib.Algebra.Order.BigOperators.Group.List
import Mathlib.Algebra.Order.Ring.Nat

/-!
Floors on which threads, jobs and executors belong together.

The executor that the consumer pulls from is the first one.  Its tasks come at once to the results
of further executors, of which each task works alone.

* `Floor.Sound` says how all belongs together then; of each executor `Floor.Serves` says what the
  threads know of it, and that it has no more results than tasks.
-/

namespace FederatedSparql

open Machine

variable {α : Type}

/-! ### Rows at hand -/

/-- The rows of a cursor that has them at hand as they are. -/
def Cursor.rows : Cursor α → List α
  | .buffered xs => xs
  | _ => []

/-- A cursor has its rows at hand as they are. -/
def Cursor.Plain : Cursor α → Prop
  | .empty => True
  | .buffered _ => True
  | _ => False

theorem Cursor.plain_ofList (xs : List α) : (Cursor.ofList xs).Plain := by cases xs <;> trivial

theorem Cursor.rows_ofList (xs : List α) : (Cursor.ofList xs).rows = xs := by cases xs <;> rfl

theorem Cursor.Plain.held_eq_nil {c : Cursor α} (h : c.Plain) : c.held = [] := by
  cases c with
  | pipe _ => exact h.elim
  | _ => rfl

theorem Cursor.Plain.stepCursor_nil [BEq α] {c : Cursor α} (h : c.Plain) (hrows : c.rows = [])
    (depth : Nat) (me : Waker) : stepCursor depth me c = (pure (.done, c) : Action α _) := by
  cases c with
  | empty => rw [stepCursor]
  | buffered xs =>
    obtain rfl : xs = [] := hrows
    rw [stepCursor]
  | _ => exact h.elim

theorem Cursor.stepCursor_cons [BEq α] {c : Cursor α} {x : α} {xs : List α}
    (hrows : c.rows = x :: xs) (depth : Nat) (me : Waker) :
    stepCursor depth me c = (pure (.item x, .buffered xs) : Action α _) := by
  cases c with
  | buffered ys =>
    obtain rfl : ys = x :: xs := hrows
    rw [stepCursor]
  | _ => cases hrows

/-! ### Programs -/

/-- A program works alone and comes to a feed. -/
structure Run.EndsWell [DecidableEq α] (answers : Answers) (run : Run α) : Prop where
  alone : run.Alone
  feed : ∃ feed, run.ending answers = .ok feed

/-- What a step of a program that ends well comes to. -/
def Run.GoesOn [DecidableEq α] (answers : Answers) (now : Nat) (run : Run α) : Ran α → Prop
  | .done c => ∃ xs, c.Holds xs
  | .failed _ => False
  | .panicked => False
  | .progress next => next.EndsWell answers ∧ next.size answers < run.size answers
  | .wait next => next.EndsWell answers ∧
      (next.size answers < run.size answers ∨ next = run ∧ ∃ due, run.due? = some due ∧ now < due)


/-! ### What threads do for executors -/

namespace Activity

/-- Whether the job in hand is one of an executor, as a number. -/
def inHand (id : Nat) (a : Activity α) : Nat :=
  match a.job? with
  | some job => if job.executor = id then 1 else 0
  | none => 0

/-- How many tasks of an executor a thread has yet to schedule. -/
def toCome (id : Nat) : Activity α → Nat
  | .producing k (.nested left _) => if k = id then left.rows.length else 0
  | _ => 0

/-- A thread has a result of an executor for which there was no room. -/
def SendsFor (id : Nat) : Activity α → Prop
  | .sending _ job _ => job.executor = id
  | _ => False

/-- A thread schedules the tasks of an executor, or waits for them. -/
def ProducesFor (id : Nat) : Activity α → Prop
  | .producing k _ => k = id
  | _ => False

/-- A thread does nothing for other executors than one. -/
structure Concerns (a : Activity α) (id : Nat) : Prop where
  inHand : ∀ i, i ≠ id → a.inHand i = 0
  toCome : ∀ i, i ≠ id → a.toCome i = 0
  sends : ∀ i, i ≠ id → ¬ a.SendsFor i
  produces : ∀ i, i ≠ id → ¬ a.ProducesFor i

theorem concerns_idle (p : PoolName) (id : Nat) : (idle p : Activity α).Concerns id where
  inHand _ _ := rfl
  toCome _ _ := rfl
  sends _ _ h := h
  produces _ _ h := h

theorem concerns_working (p : PoolName) (job : Job α) (run : Run α) :
    (working p job run).Concerns job.executor where
  inHand _ hi := if_neg hi.symm
  toCome _ _ := rfl
  sends _ _ h := h
  produces _ _ h := h

theorem concerns_sending (p : PoolName) (job : Job α) (c : Cursor α) :
    (sending p job c).Concerns job.executor where
  inHand _ hi := if_neg hi.symm
  toCome _ _ := rfl
  sends _ hi := hi.symm
  produces _ _ h := h

theorem concerns_producing (id : Nat) (production : Production α) :
    (producing id production).Concerns id where
  inHand _ _ := rfl
  toCome _ hi := by cases production <;> simp [toCome, hi.symm]
  sends _ _ h := h
  produces _ hi := hi.symm

theorem concerns_finished (id : Nat) : (finished : Activity α).Concerns id where
  inHand _ _ := rfl
  toCome _ _ := rfl
  sends _ _ h := h
  produces _ _ h := h

/-- Who has yet to schedule tasks of an executor does so. -/
theorem producesFor_of_toCome {id : Nat} {a : Activity α} (h : a.toCome id ≠ 0) :
    a.ProducesFor id := by
  unfold toCome at h
  split at h
  · exact by_contra fun hne => h (if_neg hne)
  · exact absurd rfl h

end Activity

/-- How many workers there are, how many tasks the first executor has at most, and how many each of
the others has at least and at most. -/
structure Scale where
  workers : Nat
  outer : Nat
  least : Nat
  inner : Nat

/-- How many tasks an executor has at most. -/
def Scale.most (k : Scale) (id : Nat) : Nat := if id = 0 then k.outer else k.inner

/-- A task that comes at once to the results of a join, whose own tasks end well. -/
def Work.Nests [DecidableEq α] (answers : Answers) (k : Scale) (w : Work α) : Prop :=
  ∃ rows right, w = .done (.nestedJoin (.rows rows) right) ∧
    k.least ≤ rows.length ∧ rows.length ≤ k.inner ∧
    ∀ row ∈ rows, (Run.ready (right row)).EndsWell answers

namespace Floor

variable {f g : Floor α}

/-! ### How all belongs together -/

section Belonging

variable [DecidableEq α] (k : Scale) (f : Floor α)

/-- A program is one for a task of an executor. -/
structure Runs (id : Nat) (run : Run α) : Prop where
  outer : id = 0 → ∃ w, run = .ready w ∧ w.Nests f.answers k
  inner : id ≠ 0 → run.EndsWell f.answers

/-- A result is one for an executor. -/
structure Results (id : Nat) (c : Cursor α) : Prop where
  outer : id = 0 → ∃ j, 0 < j ∧ j < f.executors.length ∧ c = .pipe (.executor j)
  inner : id ≠ 0 → ∃ xs, c.Holds xs

/-- A job is one for a task of an executor. -/
structure Knows (job : Job α) : Prop where
  executor : job.executor < f.executors.length
  task : f.tasks[job.task - 1]? = some job.executor
  work : f.Runs k job.executor (.ready job.work)

/-- A thread does what it may do. -/
def Employs (t : Nat) : Activity α → Prop
  | .idle p => p = .join ∧ t < k.workers
  | .working p job run => p = .join ∧ t < k.workers ∧ f.Knows k job ∧ f.Runs k job.executor run
  | .sending p job c => p = .join ∧ t < k.workers ∧ f.Knows k job ∧ f.Results job.executor c
  | .producing id (.nested left right) => k.workers ≤ t ∧ id < f.executors.length ∧ left.Plain ∧
      ∀ row ∈ left.rows, f.Runs k id (.ready (right row))
  | .producing id (.awaiting left limit) => k.workers ≤ t ∧ id < f.executors.length ∧
      left.Plain ∧ limit = none
  | .finished => k.workers ≤ t
  | _ => False

/-- How many jobs of an executor nobody has taken. -/
def jobsOf (id : Nat) : Nat := f.jobs.countP fun job => decide (job.executor = id)

/-- How many jobs of an executor are in hand. -/
def inHand (id : Nat) : Nat := (f.threads.map (·.inHand id)).sum

/-- How many tasks of an executor have yet to be scheduled. -/
def toCome (id : Nat) : Nat := (f.threads.map (·.toCome id)).sum

/-- An executor is as the threads know it. -/
structure Serves (id : Nat) (e : Executor α) : Prop where
  branch : e.branch = id
  firstOnly : e.firstOnly = false
  error : e.error = none
  finished : e.finished = e.closed
  receiving : e.receiving = !e.closed
  closed : e.closed = true → e.close = e
  queue : ∀ c ∈ e.queue, f.Results id c
  current : ∀ c, e.current = some c → f.Results id c
  waiting : ∀ t, t ∈ e.waiting ↔ ∃ a, f.threads[t]? = some a ∧ a.SendsFor id
  producer : e.producing = true →
    ∃ t a, e.producer = some t ∧ f.threads[t]? = some a ∧ a.ProducesFor id
  settled : e.producing = false →
    e.pending = 0 ∧ ∀ t, e.producer = some t → f.threads[t]? = some .finished
  pending : e.pending = f.jobsOf id + f.inHand id
  /-- No more results than tasks. -/
  most : e.queue.length + e.pending + f.toCome id + e.current.toList.length ≤ k.most id

/-- Threads, jobs and executors belong together. -/
structure Sound : Prop where
  staff : k.workers ≤ f.threads.length
  branches : f.branches = f.executors.map (·.closed)
  line : ∀ t ∈ f.line, f.threads[t]? = some (.idle .join)
  jobs : ∀ job ∈ f.jobs, f.Knows k job
  threads : ∀ t a, f.threads[t]? = some a → f.Employs k t a
  executors : ∀ id e, f.executors[id]? = some e → f.Serves k id e
  producing : ∀ (t : Nat) (a : Activity α) id, f.threads[t]? = some a → a.ProducesFor id →
    ∃ e : Executor α, f.executors[id]? = some e ∧ e.producer = some t ∧ e.producing = true

end Belonging

/-! ### Facts about sound floors -/

section Facts

variable {k : Scale} {id t : Nat} {e : Executor α} {job : Job α} {a b : Activity α}

theorem sum_set {ths : List (Activity α)} (m : Activity α → Nat) (ht : ths[t]? = some a)
    (b : Activity α) : ((ths.set t b).map m).sum + m a = (ths.map m).sum + m b := by
  induction ths generalizing t with
  | nil => cases ht
  | cons c ths ih =>
    cases t with
    | zero =>
      obtain rfl : c = a := Option.some.inj ht
      simp only [List.set_cons_zero, List.map_cons, List.sum_cons]
      omega
    | succ t =>
      have := ih (t := t) ht
      simp only [List.set_cons_succ, List.map_cons, List.sum_cons]
      omega

/-- What one thread counts for is not more than what all count for. -/
theorem le_sum {ths : List (Activity α)} (m : Activity α → Nat) (ht : ths[t]? = some a) :
    m a ≤ (ths.map m).sum :=
  List.le_sum_of_mem (List.mem_map_of_mem (List.mem_of_getElem? ht))

/-- If all count for something, so does someone. -/
theorem exists_of_sum {m : Activity α → Nat} (h : (f.threads.map m).sum ≠ 0) :
    ∃ (t : Nat) (a : Activity α), f.threads[t]? = some a ∧ m a ≠ 0 := by
  obtain ⟨a, ha, hone⟩ : ∃ a ∈ f.threads, m a ≠ 0 := by
    by_contra hnobody
    push Not at hnobody
    apply h
    rw [List.sum_eq_zero_iff]
    rintro n hn
    obtain ⟨a, ha, rfl⟩ := List.mem_map.1 hn
    exact hnobody a ha
  obtain ⟨t, ht⟩ := List.getElem?_of_mem ha
  exact ⟨t, a, ht, hone⟩

/-- Someone has the jobs in hand that are in hand. -/
theorem exists_of_inHand (h : f.inHand id ≠ 0) :
    ∃ (t : Nat) (a : Activity α) (job : Job α), f.threads[t]? = some a ∧ a.job? = some job ∧
      job.executor = id := by
  obtain ⟨t, a, ht, hone⟩ := exists_of_sum h
  unfold Activity.inHand at hone
  split at hone
  · next job hjob => exact ⟨t, a, job, ht, hjob, by_contra fun hne => hone (if_neg hne)⟩
  · exact absurd rfl hone

variable [DecidableEq α]

theorem Serves.not_closed (h : f.Serves k id e) (hpending : e.pending ≠ 0) : e.closed = false := by
  cases hclosed : e.closed with
  | false => rfl
  | true =>
    have hproducing : e.producing = false := by rw [← h.closed hclosed]; rfl
    exact absurd (h.settled hproducing).1 hpending

/-- Who has no result of an executor does not wait for room there. -/
theorem Serves.not_waiting (h : f.Serves k id e) (ht : f.threads[t]? = some a)
    (ha : ¬ a.SendsFor id) : t ∉ e.waiting := by
  intro hmem
  obtain ⟨a', ha', hsends⟩ := (h.waiting t).1 hmem
  obtain rfl := Option.some.inj (ht.symm.trans ha')
  exact ha hsends

namespace Sound

/-- Only workers without a job stand in the line. -/
theorem not_lined (h : f.Sound k) (ht : f.threads[t]? = some a) (ha : a ≠ .idle .join) :
    t ∉ f.line := by
  intro hmem
  exact ha (Option.some.inj (ht.symm.trans (h.line t hmem)))

theorem cancelled (h : f.Sound k) (he : f.executors[id]? = some e) :
    f.branches[e.branch]?.getD true = e.closed := by
  rw [(h.executors id e he).branch, h.branches, List.getElem?_map, he]
  rfl

/-- Who has a job in hand works for an executor that is open. -/
theorem exists_executor (h : f.Sound k) (ht : f.threads[t]? = some a) (hjob : a.job? = some job) :
    ∃ e, f.executors[job.executor]? = some e ∧ f.Serves k job.executor e ∧ e.pending ≠ 0 ∧
      e.closed = false ∧ e.producing = true := by
  have hknows : f.Knows k job := by
    have := h.threads t a ht
    cases a with
    | working p job' run => cases hjob; exact this.2.2.1
    | sending p job' c => cases hjob; exact this.2.2.1
    | _ => cases hjob
  obtain ⟨e, he⟩ : ∃ e, f.executors[job.executor]? = some e :=
    ⟨_, List.getElem?_eq_getElem hknows.executor⟩
  have hserves := h.executors _ e he
  have hone : a.inHand job.executor = 1 := by simp [Activity.inHand, hjob]
  have hpending : e.pending ≠ 0 := by
    have := le_sum (·.inHand job.executor) ht
    rw [hserves.pending, inHand]
    omega
  refine ⟨e, he, hserves, hpending, hserves.not_closed hpending, ?_⟩
  cases hproducing : e.producing with
  | true => rfl
  | false => exact absurd (hserves.settled hproducing).1 hpending

/-- Who schedules tasks does so for an executor that is open. -/
theorem exists_producing (h : f.Sound k) (ht : f.threads[t]? = some a) (ha : a.ProducesFor id) :
    ∃ e, f.executors[id]? = some e ∧ f.Serves k id e ∧ e.producer = some t ∧
      e.producing = true ∧ e.closed = false := by
  obtain ⟨e, he, hproducer, hproducing⟩ := h.producing t a id ht ha
  have hserves := h.executors id e he
  refine ⟨e, he, hserves, hproducer, hproducing, ?_⟩
  cases hclosed : e.closed with
  | false => rfl
  | true =>
    rw [← hserves.closed hclosed] at hproducing
    cases hproducing

/-- Who waits for room has a result in hand. -/
theorem exists_sending (h : f.Sound k) (he : f.executors[id]? = some e) (ht : t ∈ e.waiting) :
    ∃ job c, f.threads[t]? = some (.sending .join job c) ∧ job.executor = id := by
  obtain ⟨a, ha, hsends⟩ := ((h.executors id e he).waiting t).1 ht
  have hemploys := h.threads t a ha
  cases a with
  | sending p job c =>
    obtain ⟨rfl, -⟩ := hemploys
    exact ⟨job, c, ha, hsends⟩
  | _ => exact hsends.elim

/-- Nobody waits for room if nobody has a result of the executor. -/
theorem waiting_eq_nil (h : f.Sound k) (he : f.executors[id]? = some e)
    (hnobody : ∀ (t : Nat) job c, f.threads[t]? = some (.sending .join job c) →
      job.executor ≠ id) : e.waiting = [] := by
  by_contra hne
  obtain ⟨t, ht⟩ := List.exists_mem_of_ne_nil _ hne
  obtain ⟨job, c, hsending, hjob⟩ := h.exists_sending he ht
  exact hnobody t job c hsending hjob

end Sound

end Facts

end Floor

end FederatedSparql
