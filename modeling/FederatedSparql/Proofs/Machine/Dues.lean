import Mathlib.Algebra.BigOperators.Group.Finset.Basic
import FederatedSparql.Proofs.Machine.Interleaving
import FederatedSparql.Proofs.Machine.Owing

/-!
What is still to come on a machine on which nothing is disturbed.

`Dues` are written down for every executor: what it owes to whoever consumes its results, which tasks
it has open, what each of them comes to, and what its producer has still to schedule.  Every executor
is held by somebody, and by nobody else: by whoever consumes the results of the whole run, by a
thread, or by another executor that has the cursor over its results.

`Machine.Honours` says that a machine keeps to its dues: what an executor owes is what its results
bring, what its open tasks come to and what is still to be scheduled; tasks, results and producers
bring what is written down for them.  Holders of which nothing is said, because they are just taking
a step, are excepted.
-/

namespace FederatedSparql

variable {α : Type}

/-- Who has an executor, or a cursor over its results. -/
inductive Holder where
  | main
  | executor (id : Nat)
  | thread (t : Nat)
deriving DecidableEq

/-- Where the job of a task is. -/
inductive Spot where
  | pool (p : PoolName)
  | thread (t : Nat)
deriving DecidableEq

/-- What is still to come. -/
structure Dues (α : Type) where
  /-- The items that an executor is still to give. -/
  owed : Nat → Multiset α
  /-- The items that a task comes to. -/
  result : Nat → Multiset α
  /-- The tasks of an executor that are not finished. -/
  tasks : Nat → Finset Nat
  /-- The items of the tasks that an executor has still to schedule. -/
  rest : Nat → Multiset α
  holder : Nat → Holder
  spot : Nat → Spot

namespace Dues

/-- Somebody holds executors, each once. -/
structure Holds (d : Dues α) (size : Nat) (holder : Holder) (ids : List Nat) : Prop where
  nodup : ids.Nodup
  holder : ∀ i ∈ ids, d.holder i = holder
  exist : ∀ i ∈ ids, i < size

/-- What is to come from the tasks of an executor, scheduled or not.  Once nothing is produced
nothing comes; if the first result is the only one, all tasks that have any have the same. -/
def Outstanding (d : Dues α) (id : Nat) (firstOnly producing : Bool) (M : Multiset α) : Prop :=
  match producing, firstOnly with
  | false, _ => M = 0
  | true, false => M = ∑ k ∈ d.tasks id, d.result k + d.rest id
  | true, true => (∀ k ∈ d.tasks id, d.result k = 0 ∨ d.result k = M) ∧
      (d.rest id = 0 ∨ d.rest id = M) ∧ (M = 0 ∨ d.rest id = M ∨ ∃ k ∈ d.tasks id, d.result k = M)

end Dues

/-- The results that an executor has for its consumer, in order. -/
def Executor.contents (e : Executor α) : List (Cursor α) := e.current.toList ++ e.queue

/-- A program that has got somewhere asks members and ends in items at hand with a property. -/
def Run.Fetches (answers : Answers) : Run α → (List α → Prop) → Prop
  | .ready next, Q => next.Fetches answers Q
  | .sleeping _ next, Q => next.Fetches answers Q
  | .awaiting _ endpoint r next, Q => (next (answers endpoint r)).Fetches answers Q
  | .gathering _ _, _ => False

section Definitions

variable [DecidableEq α]

/-- What a producer has still to schedule comes to these items. -/
def Production.Promises (answers : Answers) (owed : Nat → Multiset α) (firstOnly : Bool)
    (M : Multiset α) : Production α → Prop
  | .branches rest =>
    match firstOnly with
    | false => ∃ Ms, List.Forall₂ (fun branch N => branch.2.Comes answers N) rest Ms ∧ M = Ms.sum
    | true => ∃ Ms,
        List.Forall₂ (fun branch N => branch.2.Fetches answers fun xs => (xs : Multiset α) = N)
          rest Ms ∧ (∀ N ∈ Ms, N = 0 ∨ N = M) ∧ (M = 0 ∨ M ∈ Ms)
  | .nested left right => firstOnly = false ∧ ∃ R : α → Multiset α, left.Brings answers owed fun xs =>
      (∀ x ∈ xs, (right x).Comes answers (R x)) ∧ M = (xs : Multiset α).bind R
  | .first left size right => firstOnly = false ∧ ∃ R : α → List α → Multiset α,
      left.Brings answers owed fun xs =>
        (∀ first, xs.head? = some first → R first [] = 0 ∧
          ∀ block ∈ [] :: BoundJoin.blocks size xs, (right first block).Comes answers (R first block)) ∧
        M = Feed.blockRows size R xs
  | .block left size task total filled => firstOnly = false ∧
      filled.length ≤ BoundJoin.nextBlockSize size total ∧ ∃ R : List α → Multiset α, R [] = 0 ∧
        left.Brings answers owed fun xs =>
          (∀ block ∈ [] :: BoundJoin.blocksFrom size total (filled ++ xs),
            (task block).Comes answers (R block)) ∧
          M = ((BoundJoin.blocksFrom size total (filled ++ xs)).map R).sum
  | .awaiting _ limit => limit = none ∧ M = 0

/-- An executor whose results are still wanted. -/
structure Executor.Open (answers : Answers) (d : Dues α) (id : Nat) (e : Executor α)
    (cancelled : Bool) : Prop where
  error : e.error = none
  receiving : e.receiving = true
  pending : e.pending = (d.tasks id).card
  cancelled : cancelled = true → e.firstOnly = true ∧ e.producing = false
  content : ∃ Ms N, List.Forall₂ (fun c M => Cursor.Comes answers d.owed c M) e.contents Ms ∧
    d.owed id = Ms.sum + N ∧ d.Outstanding id e.firstOnly e.producing N
  tasksOver : e.firstOnly = false → e.producing = false → d.tasks id = ∅
  single : e.firstOnly = true → e.waiting = [] ∧ (e.producing = true → e.contents = [])

/-- What an executor owes is what its results and its tasks bring. -/
structure Executor.Serves (answers : Answers) (d : Dues α) (size id : Nat) (e : Executor α)
    (cancelled : Bool) : Prop where
  finished : e.finished = e.closed
  settled : e.closed = true → d.owed id = 0
  goesOn : e.closed = false → e.Open answers d id cancelled
  holds : d.Holds size (.executor id) (heldByAll e.contents)
  later : ∀ i ∈ heldByAll e.contents, id < i

namespace Machine

/-- A job is at its place, and its task is open. -/
structure JobAt (m : Machine α) (d : Dues α) (spot : Spot) (job : Job α) : Prop where
  spot : d.spot job.task = spot
  isOpen : job.task ∈ d.tasks job.executor
  pos : 1 ≤ job.task
  hangs : ∃ e record, m.executors[job.executor]? = some e ∧
    m.query.tasks[job.task - 1]? = some record ∧ record.branch = some e.branch

/-- What is asked of the tasks of an executor that wants the first result only. -/
def OfFirst (m : Machine α) (id : Nat) (P : Prop) : Prop :=
  ∀ e, m.executors[id]? = some e → e.firstOnly = true → P

/-- What a thread does brings what is written down for it. -/
def Employs (answers : Answers) (m : Machine α) (d : Dues α) (t : Nat) : Activity α → Prop
  | .idle _ => True
  | .working _ job run => m.JobAt d (.thread t) job ∧
      run.Comes answers d.owed (d.result job.task) ∧
      m.OfFirst job.executor
        (run.Fetches answers fun xs => (xs : Multiset α) = d.result job.task) ∧
      d.Holds m.executors.size (.thread t) run.held ∧ ∀ i ∈ run.held, job.executor < i
  | .sending _ job c => m.JobAt d (.thread t) job ∧ c.Comes answers d.owed (d.result job.task) ∧
      m.OfFirst job.executor False ∧
      d.Holds m.executors.size (.thread t) c.held ∧ ∀ i ∈ c.held, job.executor < i
  | .producing id production => ∃ e, m.executors[id]? = some e ∧ e.producer = some t ∧
      production.Promises answers d.owed e.firstOnly (d.rest id) ∧
      d.Holds m.executors.size (.thread t) (leftOf production).held ∧
      (e.closed = false → e.firstOnly = false → e.producing = true) ∧
      ∀ left size right, production = .first left size right → d.tasks id = ∅
  | .alarm _ => False
  | .finished => True

/-- A job that waits in a pool brings what is written down for its task. -/
structure Waits (answers : Answers) (m : Machine α) (d : Dues α) (p : PoolName) (job : Job α) :
    Prop where
  jobAt : m.JobAt d (.pool p) job
  comes : job.work.Comes answers (d.result job.task)
  fetches : m.OfFirst job.executor
    (job.work.Fetches answers fun xs => (xs : Multiset α) = d.result job.task)

/-- Nothing disturbs the query of a machine, and its pools take jobs. -/
structure Calm (answers : Answers) (m : Machine α) : Prop where
  answers : m.registry.answers = answers
  deadline : m.query.deadline = none
  aborted : m.query.aborted = false
  cancelled : m.query.cancelled = false
  hanging : ∀ task ∈ m.query.tasks, task.cancelled = false
  accepting : ∀ p, (m.crew p).pool.accepting = true

/-- Branches and producers of executors are where they belong. -/
structure Staffed (m : Machine α) : Prop where
  branch_lt : ∀ (id : Nat) (e : Executor α), m.executors[id]? = some e → e.branch < m.query.branches.size
  branch_inj : ∀ (i j : Nat) (e e' : Executor α), m.executors[i]? = some e →
    m.executors[j]? = some e' → e.branch = e'.branch → i = j
  /-- Only producers of executors that have been closed are to be ended. -/
  doomed : ∀ (t : Nat) (th : Thread α), m.threads[t]? = some th → th.doomed = true →
    th.activity = .finished ∨ ∃ id production e, th.activity = .producing id production ∧
      m.executors[id]? = some e ∧ e.closed = true
  producer : ∀ (id : Nat) (e : Executor α) (t : Nat), m.executors[id]? = some e → e.producer = some t →
    ∃ th, m.threads[t]? = some th ∧
      (th.activity = .finished ∨ ∃ production, th.activity = .producing id production)

/-- A machine keeps to its dues, but for some holders. -/
structure Honours (answers : Answers) (m : Machine α) (d : Dues α) (X : Set Holder) : Prop where
  calm : m.Calm answers
  staffed : m.Staffed
  /-- Tasks that are open have been registered. -/
  known : ∀ id, ∀ k ∈ d.tasks id, k ≤ m.query.tasks.size
  executors : ∀ id e, m.executors[id]? = some e → .executor id ∉ X →
    e.Serves answers d m.executors.size id (m.isCancelled e)
  threads : ∀ t th, m.threads[t]? = some th → .thread t ∉ X → m.Employs answers d t th.activity
  jobs : ∀ p, ∀ job ∈ (m.crew p).jobs, m.Waits answers d p job
  nodup : ∀ p, ((m.crew p).jobs.map (·.task)).Nodup

end Machine

end Definitions

/-! ### What lasts -/

namespace Dues

variable {d d' : Dues α} {size size' : Nat} {holder : Holder} {ids ids' : List Nat}

theorem Holds.nil : d.Holds size holder [] where
  nodup := List.nodup_nil
  holder := by simp
  exist := by simp

theorem Holds.sublist (h : d.Holds size holder ids) (hsub : ids'.Sublist ids) :
    d.Holds size holder ids' where
  nodup := h.nodup.sublist hsub
  holder i hi := h.holder i (hsub.subset hi)
  exist i hi := h.exist i (hsub.subset hi)

/-- What is outstanding depends on the tasks that are open and on the rest. -/
theorem Outstanding.congr {id : Nat} {firstOnly producing : Bool} {M : Multiset α}
    (h : d.Outstanding id firstOnly producing M) (htasks : d'.tasks id = d.tasks id)
    (hrest : d'.rest id = d.rest id) (hresult : ∀ k ∈ d.tasks id, d'.result k = d.result k) :
    d'.Outstanding id firstOnly producing M := by
  cases producing with
  | false => exact h
  | true =>
    cases firstOnly with
    | false =>
      refine h.trans ?_
      rw [htasks, hrest, Finset.sum_congr rfl hresult]
    | true =>
      obtain ⟨hall, hsome, hgives⟩ := h
      unfold Outstanding
      rw [htasks, hrest]
      refine ⟨fun k hk => hresult k hk ▸ hall k hk, hsome, hgives.imp_right ?_⟩
      exact Or.imp_right fun ⟨k, hk, hM⟩ => ⟨k, hk, (hresult k hk).trans hM⟩

/-- Who holds executors goes on holding them. -/
theorem Holds.keep (h : d.Holds size holder ids) (hsize : size ≤ size')
    (hsame : ∀ i ∈ ids, d'.holder i = d.holder i) : d'.Holds size' holder ids where
  nodup := h.nodup
  holder i hi := (hsame i hi).trans (h.holder i hi)
  exist i hi := Nat.lt_of_lt_of_le (h.exist i hi) hsize

end Dues

namespace Machine

/-- What lasts of executors and tasks, whatever else becomes of a machine. -/
structure Later (m m' : Machine α) : Prop where
  executors : ∀ (id : Nat) (e : Executor α), m.executors[id]? = some e →
    ∃ e', m'.executors[id]? = some e' ∧ e'.branch = e.branch ∧ e'.firstOnly = e.firstOnly ∧
      e'.producer = e.producer ∧ (e.closed = true → e'.closed = true)
  tasks : ∀ (k : Nat) (record : TaskRecord), m.query.tasks[k]? = some record →
    ∃ record', m'.query.tasks[k]? = some record' ∧ record'.branch = record.branch

variable {m m' m'' : Machine α} {d d' : Dues α}

theorem Later.refl (m : Machine α) : m.Later m where
  executors _ e he := ⟨e, he, rfl, rfl, rfl, id⟩
  tasks _ record hrecord := ⟨record, hrecord, rfl⟩

theorem Later.trans (h : m.Later m') (h' : m'.Later m'') : m.Later m'' where
  executors id e he := by
    obtain ⟨e₁, he₁, hbranch, hfirst, hproducer, hclosed⟩ := h.executors id e he
    obtain ⟨e₂, he₂, hbranch', hfirst', hproducer', hclosed'⟩ := h'.executors id e₁ he₁
    exact ⟨e₂, he₂, hbranch'.trans hbranch, hfirst'.trans hfirst, hproducer'.trans hproducer,
      hclosed' ∘ hclosed⟩
  tasks k record hrecord := by
    obtain ⟨record₁, hrecord₁, hbranch⟩ := h.tasks k record hrecord
    obtain ⟨record₂, hrecord₂, hbranch'⟩ := h'.tasks k record₁ hrecord₁
    exact ⟨record₂, hrecord₂, hbranch'.trans hbranch⟩

/-- If no executor changes, tasks have only to hang where they hung. -/
theorem Later.of_executors (hexecutors : m'.executors = m.executors)
    (htasks : ∀ (k : Nat) (record : TaskRecord), m.query.tasks[k]? = some record →
      ∃ record', m'.query.tasks[k]? = some record' ∧ record'.branch = record.branch) :
    m.Later m' where
  executors _ e he := ⟨e, hexecutors ▸ he, rfl, rfl, rfl, id⟩
  tasks := htasks

theorem Later.size_le (h : m.Later m') : m.executors.size ≤ m'.executors.size := by
  by_contra hlt
  have hlast := Array.getElem?_eq_getElem (Nat.lt_of_not_le hlt)
  obtain ⟨e', he', -⟩ := h.executors _ _ hlast
  exact absurd (Array.getElem?_eq_some_iff.1 he').1 (Nat.lt_irrefl _)

theorem JobAt.later {spot spot' : Spot} {job : Job α} (h : m.JobAt d spot job) (hm : m.Later m')
    (hspot : d'.spot job.task = spot') (hopen : job.task ∈ d'.tasks job.executor) :
    m'.JobAt d' spot' job where
  spot := hspot
  isOpen := hopen
  pos := h.pos
  hangs := by
    obtain ⟨e, record, he, hrecord, hbranch⟩ := h.hangs
    obtain ⟨e', he', hbranch', -⟩ := hm.executors _ e he
    obtain ⟨record', hrecord', hsame⟩ := hm.tasks _ record hrecord
    exact ⟨e', record', he', hrecord', by rw [hsame, hbranch, hbranch']⟩

theorem OfFirst.later {id : Nat} {P Q : Prop} (h : m.OfFirst id P) (hm : m.Later m')
    (hid : id < m.executors.size) (hPQ : P → Q) : m'.OfFirst id Q := by
  intro e' he' hfirst
  obtain ⟨e₁, he₁, -, hsame, -⟩ := hm.executors id _ (Array.getElem?_eq_getElem hid)
  obtain rfl : e₁ = e' := Option.some.inj (he₁.symm.trans he')
  exact hPQ (h _ (Array.getElem?_eq_getElem hid) (hsame ▸ hfirst))

theorem JobAt.executor_lt {spot : Spot} {job : Job α} (h : m.JobAt d spot job) :
    job.executor < m.executors.size := by
  obtain ⟨e, -, he, -⟩ := h.hangs
  exact (Array.getElem?_eq_some_iff.1 he).1

end Machine

section Consequences

variable [DecidableEq α] {answers : Answers} {owed owed' : Nat → Multiset α} {d d' : Dues α}

/-- What a producer promises depends on the executors it pulls from alone. -/
theorem Production.Promises.congr {firstOnly : Bool} {M : Multiset α} :
    ∀ {production : Production α}, (∀ id ∈ (Machine.leftOf production).held, owed' id = owed id) →
      production.Promises answers owed firstOnly M → production.Promises answers owed' firstOnly M
  | .branches _, _, h => h
  | .nested _ _, hsame, ⟨hall, R, h⟩ => ⟨hall, R, h.congr hsame⟩
  | .first _ _ _, hsame, ⟨hall, R, h⟩ => ⟨hall, R, h.congr hsame⟩
  | .block _ _ _ _ _, hsame, ⟨hall, hfilled, R, hnone, h⟩ =>
    ⟨hall, hfilled, R, hnone, h.congr hsame⟩
  | .awaiting _ _, _, h => h

/-- What results bring depends on the executors they hold alone. -/
theorem forall₂_comes_congr {cs : List (Cursor α)} {Ms : List (Multiset α)}
    (h : List.Forall₂ (fun c M => Cursor.Comes answers owed c M) cs Ms)
    (hsame : ∀ id ∈ heldByAll cs, owed' id = owed id) :
    List.Forall₂ (fun c M => Cursor.Comes answers owed' c M) cs Ms := by
  induction h with
  | nil => exact .nil
  | cons hc _ ih =>
    refine .cons (Cursor.Brings.congr (fun i hi => hsame i (List.mem_append_left _ hi)) hc) ?_
    exact ih fun i hi => hsame i (List.mem_append_right _ hi)

/-- An executor goes on serving if it has changed in nothing that matters. -/
theorem Executor.Serves.like {e e' : Executor α} {size id : Nat} {cancelled : Bool}
    (h : e.Serves answers d size id cancelled) (hfinished : e'.finished = e.finished)
    (hclosed : e'.closed = e.closed) (herror : e'.error = e.error ∨ e'.error = none)
    (hreceiving : e'.receiving = e.receiving) (hpending : e'.pending = e.pending)
    (hfirst : e'.firstOnly = e.firstOnly) (hproducing : e'.producing = e.producing)
    (hwaiting : e.firstOnly = true → e'.waiting = e.waiting) (hcontents : e'.contents = e.contents) :
    e'.Serves answers d size id cancelled where
  finished := by rw [hfinished, hclosed, h.finished]
  settled hc := h.settled (hclosed ▸ hc)
  goesOn hc := by
    have hopen := h.goesOn (hclosed ▸ hc)
    refine ⟨?_, by rw [hreceiving, hopen.receiving], by rw [hpending, hopen.pending], fun hx => ?_,
      ?_, fun hf hp => ?_, fun hf => ?_⟩
    · obtain herror | herror := herror
      · rw [herror, hopen.error]
      · exact herror
    · rw [hfirst, hproducing]
      exact hopen.cancelled hx
    · rw [hcontents, hfirst, hproducing]
      exact hopen.content
    · exact hopen.tasksOver (hfirst ▸ hf) (hproducing ▸ hp)
    · rw [hwaiting (hfirst ▸ hf), hproducing, hcontents]
      exact hopen.single (hfirst ▸ hf)
  holds := by rw [hcontents]; exact h.holds
  later := by rw [hcontents]; exact h.later

/-- What an executor has to do does not depend on executors that are added. -/
theorem Executor.Serves.grow {e : Executor α} {size size' id : Nat}
    {cancelled : Bool} (h : e.Serves answers d size id cancelled) (hsize : size ≤ size') :
    e.Serves answers d size' id cancelled where
  finished := h.finished
  settled := h.settled
  goesOn := h.goesOn
  holds := h.holds.keep hsize fun _ _ => rfl
  later := h.later

namespace Machine

variable {m m' : Machine α} {X Y : Set Holder}

/-- The executors that a thread holds. -/
def heldIn : Activity α → List Nat
  | .working _ _ run => run.held
  | .sending _ _ c => c.held
  | .producing _ production => (leftOf production).held
  | _ => []

theorem Employs.holds {t : Nat} {a : Activity α} (h : m.Employs answers d t a) :
    d.Holds m.executors.size (.thread t) (heldIn a) := by
  cases a with
  | working p job run => exact h.2.2.2.1
  | sending p job c => exact h.2.2.2.1
  | producing id production =>
    obtain ⟨_, _, _, _, hholds, _⟩ := h
    exact hholds
  | _ => exact .nil

theorem Employs.jobAt {t : Nat} {a : Activity α} {job : Job α} (h : m.Employs answers d t a)
    (hjob : a.job? = some job) : m.JobAt d (.thread t) job := by
  cases a with
  | working p job' run =>
    obtain rfl : job' = job := Option.some.inj hjob
    exact h.1
  | sending p job' c =>
    obtain rfl : job' = job := Option.some.inj hjob
    exact h.1
  | _ => cases hjob

/-- What a thread does goes on bringing what is written down for it, if that stays the same. -/
theorem Employs.later {t : Nat} {a : Activity α} (h : m.Employs answers d t a)
    (hm : m.Later m')
    (hheld : ∀ i ∈ heldIn a, d'.owed i = d.owed i ∧ d'.holder i = d.holder i)
    (hjob : ∀ job, a.job? = some job → d'.spot job.task = d.spot job.task ∧
      d'.result job.task = d.result job.task ∧ job.task ∈ d'.tasks job.executor)
    (hproducing : ∀ id production, a = .producing id production → d'.rest id = d.rest id ∧
      (d.tasks id = ∅ → d'.tasks id = ∅) ∧ ∀ e e', m.executors[id]? = some e →
        m'.executors[id]? = some e' → e.firstOnly = false → (e.closed = false → e.producing = true) →
          e'.closed = false → e'.producing = true) :
    m'.Employs answers d' t a := by
  have hsize := hm.size_le
  cases a with
  | idle p => trivial
  | finished => trivial
  | alarm due => exact h
  | working p job run =>
    obtain ⟨hat, hcomes, hfirst, hholds, hlater⟩ := h
    obtain ⟨hspot, hresult, hopen⟩ := hjob job rfl
    refine ⟨hat.later hm (hspot.trans hat.spot) hopen, ?_, ?_,
      hholds.keep hsize fun i hi => (hheld i hi).2, hlater⟩
    · rw [hresult]
      exact Run.Brings.congr (fun i hi => (hheld i hi).1) hcomes
    · rw [hresult]
      exact hfirst.later hm hat.executor_lt id
  | sending p job c =>
    obtain ⟨hat, hcomes, hfirst, hholds, hlater⟩ := h
    obtain ⟨hspot, hresult, hopen⟩ := hjob job rfl
    refine ⟨hat.later hm (hspot.trans hat.spot) hopen, ?_, hfirst.later hm hat.executor_lt id,
      hholds.keep hsize fun i hi => (hheld i hi).2, hlater⟩
    rw [hresult]
    exact Cursor.Brings.congr (fun i hi => (hheld i hi).1) hcomes
  | producing id production =>
    obtain ⟨e, he, hproducer, hpromises, hholds, hgoes, hempty⟩ := h
    obtain ⟨e', he', -, hfirst, hproducer', -⟩ := hm.executors id e he
    obtain ⟨hrest, htasks, hgoes'⟩ := hproducing id production rfl
    refine ⟨e', he', hproducer'.trans hproducer, ?_,
      hholds.keep hsize fun i hi => (hheld i hi).2, ?_, ?_⟩
    · rw [hrest, hfirst]
      exact hpromises.congr fun i hi => (hheld i hi).1
    · intro hclosed hnot
      rw [hfirst] at hnot
      exact hgoes' e e' he he' hnot (fun hopen => hgoes hopen hnot) hclosed
    · exact fun left size right hleft => htasks (hempty left size right hleft)

/-- What a thread does goes on bringing what is written down for it if no executor changes. -/
theorem Employs.stays {t : Nat} {a : Activity α} (h : m.Employs answers d t a) (hm : m.Later m')
    (hexecutors : m'.executors = m.executors) : m'.Employs answers d t a := by
  refine h.later hm (fun _ _ => ⟨rfl, rfl⟩)
    (fun job hjob => ⟨rfl, rfl, (h.jobAt hjob).isOpen⟩) fun id _ _ => ?_
  refine ⟨rfl, fun hempty => hempty, fun e e' he he' _ hgoes hopen => ?_⟩
  rw [hexecutors] at he'
  obtain rfl : e = e' := Option.some.inj (he.symm.trans he')
  exact hgoes hopen

theorem Waits.later {p : PoolName} {job : Job α} (h : m.Waits answers d p job) (hm : m.Later m')
    (hspot : d'.spot job.task = d.spot job.task) (hresult : d'.result job.task = d.result job.task)
    (hopen : job.task ∈ d'.tasks job.executor) : m'.Waits answers d' p job where
  jobAt := h.jobAt.later hm (hspot.trans h.jobAt.spot) hopen
  comes := by
    rw [hresult]
    exact h.comes
  fetches := by
    rw [hresult]
    exact h.fetches.later hm h.jobAt.executor_lt id

/-- A job goes on waiting whatever happens to other tasks. -/
theorem Waits.stays {p : PoolName} {job : Job α} (h : m.Waits answers d p job) (hm : m.Later m') :
    m'.Waits answers d p job :=
  h.later hm rfl rfl h.jobAt.isOpen

end Machine

end Consequences

end FederatedSparql
