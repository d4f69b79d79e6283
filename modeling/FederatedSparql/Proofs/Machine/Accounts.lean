import FederatedSparql.Proofs.Machine.Site
import Mathlib.Algebra.BigOperators.Group.Finset.Basic
import Mathlib.Data.List.ReduceOption

/-!
The accounts of tasks and jobs.

A job is open from the time it is scheduled until its task is over: it waits in a pool, or a worker
has it in hand (`Site.openJobs`).  `Site.Counts` compares what is counted with the open jobs, and
`Site.Balanced` what a pool has counted with what became of its jobs.  Every move keeps both, also
when the query is aborted or the pool takes no more jobs.

* `accounts_exact`: the accounts are exact at every moment of every run.
-/

namespace FederatedSparql

open Machine

variable {α β : Type}

/-! ### Places that may be empty -/

theorem reduceOption_eq_head_append (l : List (Option β)) :
    l.reduceOption = l.head?.join.toList ++ l.tail.reduceOption := by
  cases l with
  | nil => rfl
  | cons x xs => cases x <;> rfl

/-- What there is in a row of places depends on the places only. -/
theorem reduceOption_congr {l l' : List (Option β)} (h : ∀ i : Nat, l'[i]?.join = l[i]?.join) :
    l'.reduceOption = l.reduceOption := by
  induction l generalizing l' with
  | nil =>
    induction l' with
    | nil => rfl
    | cons y ys ih =>
      have hy : y = none := h 0
      subst hy
      exact ih fun i => h (i + 1)
  | cons x xs ih =>
    rw [reduceOption_eq_head_append l', reduceOption_eq_head_append (x :: xs)]
    have hhead : l'.head?.join = x := by simpa [List.head?_eq_getElem?] using h 0
    have htail : l'.tail.reduceOption = xs.reduceOption :=
      ih fun i => by simpa using h (i + 1)
    rw [hhead, htail]
    rfl

/-- When one place changes, what was there goes and what is there comes. -/
theorem reduceOption_perm {l l' : List (Option β)} (t : Nat)
    (h : ∀ i : Nat, i ≠ t → l'[i]?.join = l[i]?.join) :
    (l[t]?.join.toList ++ l'.reduceOption).Perm (l'[t]?.join.toList ++ l.reduceOption) := by
  induction t generalizing l l' with
  | zero =>
    have htail : l'.tail.reduceOption = l.tail.reduceOption :=
      reduceOption_congr fun i => by simpa using h (i + 1) (by simp)
    rw [reduceOption_eq_head_append l', reduceOption_eq_head_append l, htail,
      List.head?_eq_getElem?, List.head?_eq_getElem?]
    exact List.perm_append_comm_assoc _ _ _
  | succ t ih =>
    have hhead : l'.head?.join = l.head?.join := by
      simpa [List.head?_eq_getElem?] using h 0 (by simp)
    have hrest (i : Nat) (hi : i ≠ t) : l'.tail[i]?.join = l.tail[i]?.join := by
      simpa using h (i + 1) (by simpa using hi)
    have htail := ih hrest
    simp only [List.getElem?_tail] at htail
    rw [reduceOption_eq_head_append l', reduceOption_eq_head_append l, hhead]
    calc l[t + 1]?.join.toList ++ (l.head?.join.toList ++ l'.tail.reduceOption)
        |>.Perm (l.head?.join.toList ++ (l[t + 1]?.join.toList ++ l'.tail.reduceOption)) :=
          List.perm_append_comm_assoc _ _ _
      _ |>.Perm (l.head?.join.toList ++ (l'[t + 1]?.join.toList ++ l.tail.reduceOption)) :=
          htail.append_left _
      _ |>.Perm (l'[t + 1]?.join.toList ++ (l.head?.join.toList ++ l.tail.reduceOption)) :=
          List.perm_append_comm_assoc _ _ _

/-! ### What is in hand -/

/-- The pool that a worker is at work for. -/
def Activity.workingIn? : Activity α → Option PoolName
  | .working p _ _ => some p
  | _ => none

namespace Machine

variable {m m' : Machine α} {t : Nat}

/-- What threads do with jobs. -/
def hands (m : Machine α) : List (Activity α) :=
  (m.threads.toList.map fun th => inHand th.activity).reduceOption

theorem hand_eq (m : Machine α) (t : Nat) :
    m.hand t = (m.threads.toList.map fun th => inHand th.activity)[t]?.join := by
  rw [hand, activity?, List.getElem?_map, Array.getElem?_toList]
  cases m.threads[t]? with
  | none => rfl
  | some th =>
    simp only [Option.map_some, Option.join_some, inHand, Option.filter_some]

/-- What one thread had in hand goes, and what it has then comes. -/
theorem hands_perm {a : Option (Activity α)} (h : ∀ u, m'.hand u = Function.update m.hand t a u) :
    ((m.hand t).toList ++ m'.hands).Perm (a.toList ++ m.hands) := by
  have ha : m'.hand t = a := by rw [h, Function.update_self]
  rw [← ha, hand_eq, hand_eq m' t]
  refine reduceOption_perm t fun u hu => ?_
  rw [← hand_eq, ← hand_eq, h, Function.update_of_ne hu]

theorem hands_congr (h : ∀ u, m'.hand u = m.hand u) : m'.hands = m.hands :=
  reduceOption_congr fun u => by rw [← hand_eq, ← hand_eq, h u]

end Machine

namespace Site

/-- The jobs that threads have in hand. -/
def jobsInHand (s : Site) : List (Job Bindings) := s.machine.hands.filterMap Activity.job?

/-- The jobs that nobody has taken. -/
def jobsWaiting (s : Site) : List (Job Bindings) := s.machine.join.jobs ++ s.machine.union.jobs

/-- The jobs that are neither over nor given up. -/
def openJobs (s : Site) : List (Job Bindings) := s.jobsInHand ++ s.jobsWaiting

/-- How many jobs of a pool are in hand without an outcome. -/
def working (s : Site) (p : PoolName) : Nat := s.machine.hands.countP (·.workingIn? = some p)

/-- Which tasks of a query are to be waited for. -/
def registered (s : Site) (q : Nat) : List Bool := (s.seen q).registrations

/-- What executors of a query have counted. -/
def total (s : Site) (q : Nat) : Nat :=
  ∑ id ∈ Finset.range s.machine.executors.size,
    if s.owner id = q then s.machine.pendingOf id else 0

/-- What is counted is what there is of jobs, and of tasks that have been counted by hand. -/
structure Counts (s : Site) (js : List (Job Bindings)) : Prop where
  exist : ∀ job ∈ js, job.executor < s.machine.executors.size
  pending : ∀ id, s.machine.pendingOf id = s.byHand id + js.countP (·.executor = id)
  registered : ∀ job ∈ js,
    1 ≤ job.task ∧ (s.registered (s.owner job.executor))[job.task - 1]? = some true
  /-- No two jobs have the same task. -/
  distinct : js.Pairwise fun a b => s.owner a.executor = s.owner b.executor → a.task ≠ b.task
  total : ∀ q, (s.context q).taskCount = s.total q

/-- What a pool has counted is what became of its jobs. -/
def Balanced (s : Site) : Prop :=
  ∀ p, let stats := (s.machine.crew p).pool.stats
    stats.scheduled = stats.completed + stats.failed + stats.cancelled +
      ((s.machine.crew p).jobs.length + s.working p) + s.lost p

theorem taskCount_eq (s : Site) (q : Nat) :
    (s.context q).taskCount = (s.registered q).count true := by
  rw [QueryContext.taskCount, registered, registrations, List.count, List.countP_map,
    ← Array.countP_toList]
  refine List.countP_congr fun t _ => ?_
  simp

/-! ### What acting makes of the counts -/

theorem pendingOf_of_size_le {m : Machine α} {id : Nat} (h : m.executors.size ≤ id) :
    m.pendingOf id = 0 := by
  rw [pendingOf, Array.getElem?_eq_none h]
  rfl

/-- A sum of counts, of which one is changed. -/
theorem sum_update {n e : Nat} (he : e < n) (owner f : Nat → Nat) (q v : Nat) :
    (∑ id ∈ Finset.range n, if owner id = q then Function.update f e v id else 0) +
        (if owner e = q then f e else 0) =
      (∑ id ∈ Finset.range n, if owner id = q then f id else 0) + if owner e = q then v else 0 := by
  have hmem : e ∈ Finset.range n := Finset.mem_range.mpr he
  rw [← Finset.add_sum_erase _ _ hmem, ← Finset.add_sum_erase _ (fun id => ite _ (f id) 0) hmem,
    Function.update_self]
  have hrest : (∑ id ∈ (Finset.range n).erase e,
        if owner id = q then Function.update f e v id else 0) =
      ∑ id ∈ (Finset.range n).erase e, if owner id = q then f id else 0 := by
    refine Finset.sum_congr rfl fun id hid => ?_
    rw [Function.update_of_ne (Finset.ne_of_mem_erase hid)]
  rw [hrest]
  omega

section Counting

variable {s s' : Site} {q : Nat} {xs : List (Entry Bindings)} {job : Job Bindings}
  {js : List (Job Bindings)}

theorem Acts.size_le (h : s.Acts q xs s') : s.machine.executors.size ≤ s'.machine.executors.size :=
  h.reaches.executors

theorem Acts.owner_eq (h : s.Acts q xs s') {id : Nat} (hid : id < s.machine.executors.size) :
    s'.owner id = s.owner id :=
  (h.owner id).resolve_right fun hnew => absurd hid (Nat.not_lt_of_le hnew.1)

theorem Acts.registered_eq (h : s.Acts q xs s') {q' : Nat} (hq' : q' ≠ q) :
    s'.registered q' = s.registered q' := by
  rw [registered, registrations, seen, h.others q' hq']
  rfl

/-- Executors that have been started since have counted nothing before. -/
theorem Acts.total_eq (h : s.Acts q xs s') (q' : Nat) :
    s.total q' = ∑ id ∈ Finset.range s'.machine.executors.size,
      if s'.owner id = q' then s.machine.pendingOf id else 0 := by
  have hsame : s.total q' = ∑ id ∈ Finset.range s.machine.executors.size,
      if s'.owner id = q' then s.machine.pendingOf id else 0 :=
    Finset.sum_congr rfl fun id hid => by rw [h.owner_eq (Finset.mem_range.mp hid)]
  rw [hsame]
  refine Finset.sum_subset (Finset.range_subset_range.mpr h.size_le) fun id _ hid => ?_
  rw [pendingOf_of_size_le (Nat.le_of_not_lt fun hlt => hid (Finset.mem_range.mpr hlt)), ite_self]

theorem Counts.perm {js' : List (Job Bindings)} (h : s.Counts js) (hperm : js.Perm js') :
    s.Counts js' where
  exist job hjob := h.exist job (hperm.mem_iff.mpr hjob)
  pending id := by rw [h.pending, hperm.countP_eq]
  registered job hjob := h.registered job (hperm.mem_iff.mpr hjob)
  distinct := h.distinct.perm hperm fun hne heq => (hne heq.symm).symm
  total := h.total

/-- Jobs stay open, and tasks registered. -/
theorem Counts.keeps (h : s.Counts js) (ha : s.Acts q xs s')
    (hpending : ∀ id, s'.machine.pendingOf id = s.machine.pendingOf id)
    (hregistered : s'.registered q = s.registered q) : s'.Counts js := by
  have hregistered (q' : Nat) : s'.registered q' = s.registered q' := by
    by_cases hq' : q' = q
    · rw [hq', hregistered]
    · exact ha.registered_eq hq'
  have howner {job : Job Bindings} (hjob : job ∈ js) :
      s'.owner job.executor = s.owner job.executor :=
    ha.owner_eq (h.exist job hjob)
  exact {
    exist := fun job hjob => Nat.lt_of_lt_of_le (h.exist job hjob) ha.size_le
    pending := fun id => by rw [hpending, ha.byHand, h.pending]
    registered := fun job hjob => by rw [howner hjob, hregistered]; exact h.registered job hjob
    distinct := h.distinct.imp_of_mem fun hx hy hne heq =>
      hne (by rw [← howner hx, ← howner hy]; exact heq)
    total := fun q' => by
      rw [taskCount_eq, hregistered, ← taskCount_eq, h.total, ha.total_eq, Site.total]
      simp only [hpending] }

/-- A task is over. -/
theorem Counts.finish (h : s.Counts (job :: js)) (ha : s.Acts (s.owner job.executor) xs s')
    (hpending : ∀ id, s'.machine.pendingOf id =
      Function.update s.machine.pendingOf job.executor (s.machine.pendingOf job.executor - 1) id)
    (hregistered : s'.registered (s.owner job.executor) =
      if job.task = 0 then s.registered (s.owner job.executor)
      else (s.registered (s.owner job.executor)).set (job.task - 1) false) : s'.Counts js := by
  have hjob : job ∈ job :: js := List.mem_cons_self
  have hrest {other : Job Bindings} (hother : other ∈ js) : other ∈ job :: js :=
    List.mem_cons_of_mem job hother
  have howner {other : Job Bindings} (hother : other ∈ job :: js) :
      s'.owner other.executor = s.owner other.executor := ha.owner_eq (h.exist other hother)
  obtain ⟨hdistinct, hjs⟩ := List.pairwise_cons.mp h.distinct
  obtain ⟨htask, hregisteredJob⟩ := h.registered job hjob
  rw [if_neg (by omega)] at hregistered
  have hpositive : 0 < s.machine.pendingOf job.executor := by
    rw [h.pending, List.countP_cons_of_pos (by simp)]
    omega
  exact {
    exist := fun other hother => Nat.lt_of_lt_of_le (h.exist other (hrest hother)) ha.size_le
    pending := fun id => by
      rw [hpending, ha.byHand]
      by_cases hid : id = job.executor
      · subst hid
        rw [Function.update_self, h.pending, List.countP_cons_of_pos (by simp)]
        omega
      · rw [Function.update_of_ne hid, h.pending,
          List.countP_cons_of_neg (by simpa using Ne.symm hid)]
    registered := fun other hother => by
      obtain ⟨hother1, hotherRegistered⟩ := h.registered other (hrest hother)
      rw [howner (hrest hother)]
      refine ⟨hother1, ?_⟩
      by_cases hsame : s.owner other.executor = s.owner job.executor
      · have hne : job.task ≠ other.task := hdistinct other hother hsame.symm
        rw [hsame, hregistered, List.getElem?_set_ne (by omega), ← hsame]
        exact hotherRegistered
      · rw [ha.registered_eq hsame]
        exact hotherRegistered
    distinct := hjs.imp_of_mem fun hx hy hne heq =>
      hne (by rw [← howner (hrest hx), ← howner (hrest hy)]; exact heq)
    total := fun q => by
      have hsum := sum_update (Nat.lt_of_lt_of_le (h.exist job hjob) ha.size_le) s'.owner
        s.machine.pendingOf q (s.machine.pendingOf job.executor - 1)
      simp only [← hpending, ← ha.total_eq, howner hjob, ← h.total] at hsum
      rw [Site.total]
      by_cases hq : s.owner job.executor = q
      · subst hq
        obtain ⟨hlt, hget⟩ := List.getElem?_eq_some_iff.mp hregisteredJob
        have hcount : (s'.context (s.owner job.executor)).taskCount + 1 =
            (s.context (s.owner job.executor)).taskCount := by
          rw [taskCount_eq, taskCount_eq, hregistered, List.count_set hlt, hget]
          have : 0 < (s.registered (s.owner job.executor)).count true :=
            List.count_pos_iff.mpr (hget ▸ List.getElem_mem hlt)
          simp
          omega
        simp only [if_true] at hsum
        omega
      · rw [taskCount_eq, ha.registered_eq (Ne.symm hq), ← taskCount_eq]
        simpa [hq] using hsum.symm }

/-- A task is registered with its query and counted by its executor. -/
theorem total_register {e : Nat} (hexecutor : e < s'.machine.executors.size)
    (hstarted : ∀ q, s.total q = ∑ id ∈ Finset.range s'.machine.executors.size,
      if s'.owner id = q then s.machine.pendingOf id else 0)
    (hpending : ∀ id, s'.machine.pendingOf id =
      Function.update s.machine.pendingOf e (s.machine.pendingOf e + 1) id)
    (hregistered : s'.registered (s'.owner e) = s.registered (s'.owner e) ++ [true])
    (hothers : ∀ q, q ≠ s'.owner e → s'.registered q = s.registered q)
    (h : ∀ q, (s.context q).taskCount = s.total q) (q : Nat) :
    (s'.context q).taskCount = s'.total q := by
  have hsum := sum_update hexecutor s'.owner s.machine.pendingOf q (s.machine.pendingOf e + 1)
  simp only [← hpending, ← hstarted, ← h] at hsum
  rw [total]
  by_cases hq : s'.owner e = q
  · subst hq
    have hcount : (s'.context (s'.owner e)).taskCount =
        (s.context (s'.owner e)).taskCount + 1 := by
      rw [taskCount_eq, taskCount_eq, hregistered, List.count_append]
      rfl
    simp only [if_true] at hsum
    omega
  · rw [taskCount_eq, hothers q (Ne.symm hq), ← taskCount_eq]
    simpa [hq] using hsum.symm

/-- A task is scheduled. -/
theorem Counts.schedule (h : s.Counts js) (ha : s.Acts (s.owner job.executor) xs s')
    (hexecutor : job.executor < s'.machine.executors.size)
    (htask : job.task = (s.registered (s.owner job.executor)).length + 1)
    (hpending : ∀ id, s'.machine.pendingOf id =
      Function.update s.machine.pendingOf job.executor (s.machine.pendingOf job.executor + 1) id)
    (hregistered : s'.registered (s.owner job.executor) =
      s.registered (s.owner job.executor) ++ [true]) : s'.Counts (job :: js) := by
  have howner {other : Job Bindings} (hother : other ∈ js) :
      s'.owner other.executor = s.owner other.executor := ha.owner_eq (h.exist other hother)
  have hownerJob : s'.owner job.executor = s.owner job.executor :=
    (ha.owner job.executor).elim id fun hnew => hnew.2
  -- the tasks that are registered already have smaller numbers
  have hsmaller {other : Job Bindings} (hother : other ∈ js)
      (hsame : s.owner other.executor = s.owner job.executor) : other.task < job.task := by
    have hlt := (List.getElem?_eq_some_iff.mp (h.registered other hother).2).1
    rw [hsame] at hlt
    omega
  exact {
    exist := fun other hother => by
      rcases List.mem_cons.mp hother with rfl | hother
      · exact hexecutor
      · exact Nat.lt_of_lt_of_le (h.exist other hother) ha.size_le
    pending := fun id => by
      rw [hpending, ha.byHand]
      by_cases hid : id = job.executor
      · subst hid
        rw [Function.update_self, h.pending, List.countP_cons_of_pos (by simp)]
        omega
      · rw [Function.update_of_ne hid, h.pending,
          List.countP_cons_of_neg (by simpa using Ne.symm hid)]
    registered := fun other hother => by
      rcases List.mem_cons.mp hother with rfl | hother
      · rw [hownerJob, hregistered, htask]
        exact ⟨by omega, by simp⟩
      · obtain ⟨hother1, hotherRegistered⟩ := h.registered other hother
        rw [howner hother]
        refine ⟨hother1, ?_⟩
        by_cases hsame : s.owner other.executor = s.owner job.executor
        · rw [hsame, hregistered, List.getElem?_append_left, ← hsame]
          · exact hotherRegistered
          · have := hsmaller hother hsame
            omega
        · rw [ha.registered_eq hsame]
          exact hotherRegistered
    distinct := by
      refine List.pairwise_cons.mpr ⟨fun other hother heq => ?_, h.distinct.imp_of_mem
        fun hx hy hne heq => hne (by rw [← howner hx, ← howner hy]; exact heq)⟩
      have := hsmaller hother (by rw [← howner hother, ← heq, hownerJob])
      omega
    total := total_register hexecutor ha.total_eq hpending (by rw [hownerJob]; exact hregistered)
      (fun q hq => ha.registered_eq (hownerJob ▸ hq)) h.total }

end Counting

/-! ### What acting makes of the open jobs -/

section Opening

variable {s s' : Site} {q t : Nat} {xs : List (Entry Bindings)} {job : Job Bindings} {p : PoolName}

/-- The job of what is in hand. -/
def jobOf (a : Option (Activity Bindings)) : List (Job Bindings) := (a.bind Activity.job?).toList

theorem jobsInHand_perm {a : Option (Activity Bindings)}
    (h : ∀ u, s'.machine.hand u = Function.update s.machine.hand t a u) :
    (jobOf (s.machine.hand t) ++ s'.jobsInHand).Perm (jobOf a ++ s.jobsInHand) := by
  have hjobs (a : Option (Activity Bindings)) : a.toList.filterMap Activity.job? = jobOf a := by
    cases a with
    | none => rfl
    | some a => cases hjob : a.job? <;> simp [jobOf, hjob]
  have hperm := (hands_perm h).filterMap Activity.job?
  rwa [List.filterMap_append, List.filterMap_append, hjobs, hjobs] at hperm

theorem jobsWaiting_perm {jobs : List (Job Bindings)}
    (h : ∀ p', (s'.machine.crew p').jobs =
      Function.update (fun p => (s.machine.crew p).jobs) p jobs p') :
    ((s.machine.crew p).jobs ++ s'.jobsWaiting).Perm (jobs ++ s.jobsWaiting) := by
  cases p with
  | join =>
    have hjoin : s'.machine.join.jobs = jobs := h .join
    have hunion : s'.machine.union.jobs = s.machine.union.jobs := h .union
    rw [jobsWaiting, jobsWaiting, hjoin, hunion]
    exact List.perm_append_comm_assoc _ _ _
  | union =>
    have hjoin : s'.machine.join.jobs = s.machine.join.jobs := h .join
    have hunion : s'.machine.union.jobs = jobs := h .union
    rw [jobsWaiting, jobsWaiting, hjoin, hunion]
    exact (List.perm_append_comm_assoc _ _ _).trans
      ((List.perm_append_comm.append_left _).trans (List.perm_append_comm_assoc _ _ _))

theorem jobsWaiting_congr (h : ∀ p, (s'.machine.crew p).jobs = (s.machine.crew p).jobs) :
    s'.jobsWaiting = s.jobsWaiting :=
  congrArg₂ (· ++ ·) (h .join) (h .union)

theorem openJobs_congr (hhand : ∀ u, s'.machine.hand u = s.machine.hand u)
    (hjobs : ∀ p, (s'.machine.crew p).jobs = (s.machine.crew p).jobs) :
    s'.openJobs = s.openJobs := by
  rw [openJobs, openJobs, jobsInHand, jobsInHand, hands_congr hhand, jobsWaiting_congr hjobs]

theorem client_of_hand {a : Activity Bindings} (hhand : s.machine.hand t = some a)
    (hjob : a.job? = some job) : s.client t = s.owner job.executor := by
  have hactivity : s.machine.activity? t = some a :=
    (Option.filter_eq_some_iff.mp hhand).1
  have hexecutor : executorOf? a = some job.executor := by
    cases a with
    | working p job' run => cases hjob; rfl
    | sending p job' result => cases hjob; rfl
    | _ => cases hjob
  rw [client, hactivity, Option.bind_some, hexecutor, Option.getD_some]

/-- Nothing is entered that has to do with open jobs. -/
theorem Counts.stay (h : s.Counts s.openJobs) (ha : s.Acts q xs s')
    (hhand : ∀ u, s'.machine.hand u = s.machine.hand u)
    (hjobs : ∀ p, (s'.machine.crew p).jobs = (s.machine.crew p).jobs)
    (hpending : ∀ id, s'.machine.pendingOf id = s.machine.pendingOf id)
    (hregistered : s'.registered q = s.registered q) : s'.Counts s'.openJobs := by
  rw [openJobs_congr hhand hjobs]
  exact h.keeps ha hpending hregistered

/-- A thread goes on with the same job. -/
theorem Counts.goesOn (h : s.Counts s.openJobs) (ha : s.Acts q xs s')
    {a a' : Activity Bindings} (ht : s.machine.hand t = some a)
    (hhand : ∀ u, s'.machine.hand u = Function.update s.machine.hand t (some a') u)
    (hjob : a'.job? = a.job?)
    (hjobs : ∀ p, (s'.machine.crew p).jobs = (s.machine.crew p).jobs)
    (hpending : ∀ id, s'.machine.pendingOf id = s.machine.pendingOf id)
    (hregistered : s'.registered q = s.registered q) : s'.Counts s'.openJobs := by
  have hinHand := jobsInHand_perm hhand
  rw [ht, jobOf, jobOf, Option.bind_some, Option.bind_some, hjob,
    List.perm_append_left_iff] at hinHand
  have hwaiting := jobsWaiting_congr hjobs
  refine (h.keeps ha hpending hregistered).perm ?_
  rw [openJobs, openJobs, hwaiting]
  exact hinHand.symm.append_right _

/-- A worker takes the first job. -/
theorem Counts.takes (h : s.Counts s.openJobs) (ha : s.Acts q xs s') {rest : List (Job Bindings)}
    {a : Activity Bindings} (ht : s.machine.hand t = none) (hjob : a.job? = some job)
    (hwaits : (s.machine.crew p).jobs = job :: rest)
    (hhand : ∀ u, s'.machine.hand u = Function.update s.machine.hand t (some a) u)
    (hjobs : ∀ p', (s'.machine.crew p').jobs =
      Function.update (fun p => (s.machine.crew p).jobs) p rest p')
    (hpending : ∀ id, s'.machine.pendingOf id = s.machine.pendingOf id)
    (hregistered : s'.registered q = s.registered q) : s'.Counts s'.openJobs := by
  have hinHand : s'.jobsInHand.Perm (job :: s.jobsInHand) := by
    simpa [ht, jobOf, hjob] using jobsInHand_perm hhand
  have hwaiting := jobsWaiting_perm hjobs
  rw [hwaits] at hwaiting
  have hwaiting : (job :: s'.jobsWaiting).Perm s.jobsWaiting :=
    (List.perm_append_left_iff rest).mp (List.perm_middle.trans hwaiting)
  refine (h.keeps ha hpending hregistered).perm ?_
  rw [openJobs, openJobs]
  calc s.jobsInHand ++ s.jobsWaiting
      |>.Perm (s.jobsInHand ++ job :: s'.jobsWaiting) := hwaiting.symm.append_left _
    _ |>.Perm (job :: s.jobsInHand ++ s'.jobsWaiting) := List.perm_middle
    _ |>.Perm (s'.jobsInHand ++ s'.jobsWaiting) := hinHand.symm.append_right _

/-- The job of a thread is over. -/
theorem Counts.over (h : s.Counts s.openJobs) (ha : s.Acts (s.client t) xs s')
    {a : Activity Bindings} (ht : s.machine.hand t = some a) (hjob : a.job? = some job)
    (hhand : ∀ u, s'.machine.hand u = Function.update s.machine.hand t none u)
    (hjobs : ∀ p, (s'.machine.crew p).jobs = (s.machine.crew p).jobs)
    (hpending : ∀ id, s'.machine.pendingOf id =
      Function.update s.machine.pendingOf job.executor (s.machine.pendingOf job.executor - 1) id)
    (hregistered : s'.registered (s.client t) =
      if job.task = 0 then s.registered (s.client t)
      else (s.registered (s.client t)).set (job.task - 1) false) : s'.Counts s'.openJobs := by
  have hinHand : (job :: s'.jobsInHand).Perm s.jobsInHand := by
    simpa [ht, jobOf, hjob] using jobsInHand_perm hhand
  have hwaiting := jobsWaiting_congr hjobs
  rw [client_of_hand ht hjob] at ha hregistered
  refine (h.perm ?_).finish ha hpending hregistered
  rw [openJobs, openJobs, hwaiting]
  exact hinHand.symm.append_right _

/-- A job is given to a pool. -/
theorem Counts.gives (h : s.Counts s.openJobs) (ha : s.Acts (s.owner job.executor) xs s')
    (hexecutor : job.executor < s'.machine.executors.size)
    (htask : job.task = (s.registered (s.owner job.executor)).length + 1)
    (hhand : ∀ u, s'.machine.hand u = s.machine.hand u)
    (hjobs : ∀ p', (s'.machine.crew p').jobs =
      Function.update (fun p => (s.machine.crew p).jobs) p ((s.machine.crew p).jobs ++ [job]) p')
    (hpending : ∀ id, s'.machine.pendingOf id =
      Function.update s.machine.pendingOf job.executor (s.machine.pendingOf job.executor + 1) id)
    (hregistered : s'.registered (s.owner job.executor) =
      s.registered (s.owner job.executor) ++ [true]) : s'.Counts s'.openJobs := by
  have hwaiting := jobsWaiting_perm hjobs
  rw [List.append_assoc, List.perm_append_left_iff] at hwaiting
  refine (h.schedule ha hexecutor htask hpending hregistered).perm ?_
  rw [openJobs, openJobs, jobsInHand, jobsInHand, hands_congr hhand]
  exact List.perm_middle.symm.trans (hwaiting.symm.append_left _)

end Opening

/-! ### What moves make of the counts -/

section Moving

variable {s s' : Site} {t : Nat} {xs : List (Entry Bindings)}

/-- **A turn of a thread keeps the counts.** -/
theorem Counts.turn (h : s.Counts s.openJobs)
    (hentered : (s.seen (s.client t)).Entered t (s'.seen (s.client t)) xs)
    (ha : s.Acts (s.client t) xs s') : s'.Counts s'.openJobs := by
  have hhand := ha.reaches.hand
  have hjobs := ha.reaches.jobs
  have hpending := ha.reaches.pending
  have hregistered := ha.reaches.registrations
  cases hentered with
  | rests => exact h.stay ha hhand hjobs hpending hregistered
  | takes ht hwaits => exact h.takes ha ht rfl hwaits hhand hjobs hpending hregistered
  | goesOn ht => exact h.goesOn ha ht hhand rfl hjobs hpending hregistered
  | waits ht => exact h.goesOn ha ht hhand rfl hjobs hpending hregistered
  | ends ht => exact h.over ha ht rfl hhand hjobs hpending hregistered
  | delivers ht => exact h.over ha ht rfl hhand hjobs hpending hregistered
  | sends ht => exact h.over ha ht rfl hhand hjobs hpending hregistered
  | drops ht => exact h.over ha ht rfl hhand hjobs hpending hregistered
  | abandons ht hjob => exact h.over ha ht hjob hhand hjobs hpending hregistered
  | @schedules id production hactivity hid p name work =>
    have hclient : s.client t = s.owner id := by
      have : s.machine.activity? t = some (.producing id production) := hactivity
      rw [client, this]
      rfl
    rw [hclient] at ha hregistered
    exact h.gives ha hid (by rw [hclient]; rfl) hhand hjobs hpending hregistered

/-- A task that is counted by hand is counted as such. -/
theorem Counts.counted {js : List (Job Bindings)} (h : s.Counts js) {id : Nat}
    (hid : id < s.machine.executors.size) (branch : Nat) :
    (s.counted id (s.context (s.owner id) |>.added branch)).Counts js := by
  set s' := s.counted id (s.context (s.owner id) |>.added branch) with hs'
  have hsize : s'.machine.executors.size = s.machine.executors.size := Array.size_modify
  have hpending := pendingOf_addTask (m := s.machine) hid
  have hregistered : s'.registered (s.owner id) = s.registered (s.owner id) ++ [true] := by
    simp [hs', Site.registered, registrations, seen, Site.counted, QueryContext.added]
  have hothers (q : Nat) (hq : q ≠ s.owner id) :
      s'.registered q = s.registered q := by
    simp [hs', Site.registered, registrations, seen, Site.counted, Function.update_of_ne hq]
  exact {
    exist := fun job hjob => hsize ▸ h.exist job hjob
    pending := fun i => by
      refine (hpending i).trans ?_
      by_cases hi : i = id
      · subst hi
        simp only [hs', Site.counted, Function.update_self, h.pending]
        omega
      · simp only [hs', Site.counted, Function.update_of_ne hi, h.pending]
    registered := fun job hjob => by
      obtain ⟨htask, hjobRegistered⟩ := h.registered job hjob
      refine ⟨htask, ?_⟩
      by_cases hsame : s.owner job.executor = s.owner id
      · have hlt := (List.getElem?_eq_some_iff.mp hjobRegistered).1
        rw [show s'.owner job.executor = s.owner id from hsame, hregistered,
          List.getElem?_append_left (hsame ▸ hlt), ← hsame]
        exact hjobRegistered
      · rw [show s'.owner job.executor = s.owner job.executor from rfl,
          hothers _ hsame]
        exact hjobRegistered
    distinct := h.distinct
    total := total_register (hsize ▸ hid) (fun q => by rw [hsize]; rfl) hpending hregistered hothers
      h.total }

/-- Jobs that were given up are over. -/
theorem Counts.finishJobs {jobs js : List (Job Bindings)} (h : s.Counts (jobs ++ js)) :
    (s.finishJobs jobs).Counts js := by
  induction jobs generalizing s with
  | nil => exact h
  | cons job jobs ih =>
    have ha := acts_act ((s.seen (s.owner job.executor)).reaches_finishJob job)
    exact ih (h.finish ha ha.reaches.pending ha.reaches.registrations)

/-- Nothing but tasks is over. -/
theorem finishJobs_same (jobs : List (Job Bindings)) :
    (∀ u, (s.finishJobs jobs).machine.hand u = s.machine.hand u) ∧
      (∀ p, ((s.finishJobs jobs).machine.crew p).jobs = (s.machine.crew p).jobs) ∧
      ∀ p, ((s.finishJobs jobs).machine.crew p).pool.stats = (s.machine.crew p).pool.stats := by
  induction jobs generalizing s with
  | nil => exact ⟨fun _ => rfl, fun _ => rfl, fun _ => rfl⟩
  | cons job jobs ih =>
    have ha := acts_act ((s.seen (s.owner job.executor)).reaches_finishJob job)
    obtain ⟨hhand, hjobs, hstats⟩ := ih (s := s.act (s.owner job.executor) (finishJob job))
    exact ⟨fun u => (hhand u).trans (ha.reaches.hand u),
      fun p => (hjobs p).trans (ha.reaches.jobs p),
      fun p => (hstats p).trans (ha.reaches.stats p)⟩

/-- **Jobs that are given up are over.** -/
theorem Counts.giveUp (h : s.Counts s.openJobs) (p : PoolName) :
    (s.step (.giveUp p)).Counts (s.step (.giveUp p)).openJobs := by
  have ha := acts_act ((s.seen 0).reaches_updateCrew_jobs p [])
  set jobs := (s.machine.crew p).jobs
  set s₁ := s.act 0 (updateCrew p fun c => { c with jobs := [] })
  have hhand : ∀ u, s₁.machine.hand u = s.machine.hand u := ha.reaches.hand
  have hjobs : ∀ p', (s₁.machine.crew p').jobs =
      Function.update (fun p => (s.machine.crew p).jobs) p [] p' := ha.reaches.jobs
  have hwaiting := jobsWaiting_perm hjobs
  rw [List.nil_append] at hwaiting
  have hopen : s.openJobs.Perm (jobs ++ s₁.openJobs) := by
    rw [openJobs, openJobs, jobsInHand, jobsInHand, hands_congr hhand]
    exact (hwaiting.symm.append_left _).trans (List.perm_append_comm_assoc _ _ _)
  have hcounts : s₁.Counts (jobs ++ s₁.openJobs) :=
    (h.keeps ha ha.reaches.pending ha.reaches.registrations).perm hopen
  have hfinished := hcounts.finishJobs
  obtain ⟨hhand', hjobs', -⟩ := finishJobs_same (s := s₁) jobs
  rw [← openJobs_congr hhand' hjobs'] at hfinished
  exact ⟨hfinished.exist, hfinished.pending, hfinished.registered, hfinished.distinct,
    hfinished.total⟩

/-- **Every move keeps the counts.** -/
theorem Counts.step (h : s.Counts s.openJobs) (move : Move) :
    (s.step move).Counts (s.step move).openJobs := by
  generalize hs' : s.step move = s'
  have hgoes := s.goes_step move
  rw [hs'] at hgoes
  cases hgoes with
  | quietly q ha =>
    exact h.stay ha ha.reaches.hand ha.reaches.jobs ha.reaches.pending ha.reaches.registrations
  | turn t hentered ha => exact h.turn hentered ha
  | schedules p name work hid ha =>
    exact h.gives ha (Nat.lt_of_lt_of_le hid ha.size_le) rfl ha.reaches.hand ha.reaches.jobs
      ha.reaches.pending ha.reaches.registrations
  | queues result hlive ha =>
    exact h.stay ha ha.reaches.hand ha.reaches.jobs ha.reaches.pending ha.reaches.registrations
  | counts hid => exact h.counted hid _
  | givesUp p => exact h.giveUp p

end Moving

/-! ### What moves make of the balance -/

section Balance

variable {s s' : Site} {t q : Nat} {xs : List (Entry Bindings)}

/-- How much a thread is at work for a pool. -/
def workOf (a : Option (Activity Bindings)) (p : PoolName) : Nat :=
  if a.bind Activity.workingIn? = some p then 1 else 0

@[simp] theorem workOf_none (p : PoolName) : workOf none p = 0 := rfl

@[simp] theorem workOf_working (p p' : PoolName) (job : Job Bindings) (run : Run Bindings) :
    workOf (some (.working p job run)) p' = if p = p' then 1 else 0 := by
  simp [workOf, Activity.workingIn?]

@[simp] theorem workOf_sending (p p' : PoolName) (job : Job Bindings) (result : Cursor Bindings) :
    workOf (some (.sending p job result)) p' = 0 := rfl

@[simp] theorem hand_seen (s : Site) (q t : Nat) :
    (s.seen q).books.hand t = s.machine.hand t := rfl

@[simp] theorem jobs_seen (s : Site) (q : Nat) (p : PoolName) :
    (s.seen q).books.jobs p = (s.machine.crew p).jobs := rfl

@[simp] theorem stats_seen (s : Site) (q : Nat) (p : PoolName) :
    (s.seen q).books.stats p = (s.machine.crew p).pool.stats := rfl

theorem working_add {a : Option (Activity Bindings)}
    (h : ∀ u, s'.machine.hand u = Function.update s.machine.hand t a u) (p : PoolName) :
    workOf (s.machine.hand t) p + s'.working p = workOf a p + s.working p := by
  have hwork (a : Option (Activity Bindings)) :
      a.toList.countP (·.workingIn? = some p) = workOf a p := by
    cases a with
    | none => rfl
    | some a => simp [workOf, List.countP_cons]
  have hcount := (hands_perm h).countP_eq fun a => decide (a.workingIn? = some p)
  rwa [List.countP_append, List.countP_append, hwork, hwork] at hcount

theorem losing?_eq (s : Site) (t : Nat) :
    s.losing? t =
      if s.machine.isDoomed t then (s.machine.hand t).bind Activity.workingIn? else none := by
  rw [losing?, isDoomed, hand, activity?]
  cases s.machine.threads[t]? with
  | none => rfl
  | some th =>
    obtain ⟨a, doomed⟩ := th
    cases doomed <;> cases a <;> rfl

/-- What a pool has counted, in all, and what it counts it by. -/
theorem Balanced.of_turn (h : s.Balanced) {b : Books Bindings} {a : Option (Activity Bindings)}
    (hhand : ∀ u, s'.machine.hand u = Function.update s.machine.hand t a u)
    (hjobs : ∀ p, (s'.machine.crew p).jobs = b.jobs p)
    (hstats : ∀ p, (s'.machine.crew p).pool.stats = b.stats p)
    (hbalance : ∀ p, have stats := (s.machine.crew p).pool.stats
      (b.stats p).scheduled + (stats.completed + stats.failed + stats.cancelled +
          (s.machine.crew p).jobs.length + workOf (s.machine.hand t) p + s.lost p) =
        stats.scheduled + ((b.stats p).completed + (b.stats p).failed + (b.stats p).cancelled +
          (b.jobs p).length + workOf a p + s'.lost p)) : s'.Balanced := by
  intro p
  have hwork := working_add hhand p
  have hp := h p
  have hbalance := hbalance p
  simp only [hjobs, hstats] at hp hbalance ⊢
  omega

/-- **A turn of a thread keeps the balance.** -/
theorem Balanced.turn (h : s.Balanced)
    (hentered : (s.seen (s.client t)).Entered t (s'.seen (s.client t)) xs)
    (ha : s.Acts (s.client t) xs s')
    (hlost : ∀ p, s'.lost p = s.lost p + if s.losing? t = some p then 1 else 0) :
    s'.Balanced := by
  have hhand := ha.reaches.hand
  have hjobs := ha.reaches.jobs
  have hstats := ha.reaches.stats
  have hsame (u : Nat) : s.machine.hand u =
      Function.update s.machine.hand t (s.machine.hand t) u := by rw [Function.update_eq_self]
  rw [losing?_eq] at hlost
  cases hentered with
  | rests hwaits =>
    have hidle : (s.machine.hand t).bind Activity.workingIn? = none := by
      cases ht : s.machine.hand t with
      | none => rfl
      | some a =>
        obtain ⟨-, p, job, result, rfl⟩ := hwaits a ht
        rfl
    refine h.of_turn (fun u => (hhand u).trans (hsame u)) hjobs hstats fun p => ?_
    simp [hlost, hidle, Books.enterAll, workOf]
  | @takes p job rest ht hwaits =>
    change s.machine.hand t = _ at ht
    change (s.machine.crew p).jobs = _ at hwaits
    refine h.of_turn hhand hjobs hstats fun p' => ?_
    by_cases hp : p' = p
    · subst hp
      simp [hlost, ht, hwaits, Books.enterAll, Books.enter]
      omega
    · simp [hlost, ht, hp, Ne.symm hp, Books.enterAll, Books.enter]
  | @goesOn p job run ht hdoomed hlive next =>
    change s.machine.hand t = _ at ht
    change s.machine.isDoomed t = false at hdoomed
    refine h.of_turn hhand hjobs hstats fun p' => ?_
    simp [hlost, hdoomed, ht, Books.enterAll, Books.enter]
  | @ends p job run ht hdoomed outcome hlive =>
    change s.machine.hand t = _ at ht
    change s.machine.isDoomed t = false at hdoomed
    refine h.of_turn hhand hjobs hstats fun p' => ?_
    by_cases hp : p' = p
    · subst hp
      cases outcome <;>
        simp [hlost, hdoomed, ht, Books.enterAll, Books.enter, PoolStats.count] <;> omega
    · simp [hlost, hdoomed, ht, hp, Ne.symm hp, Books.enterAll, Books.enter]
  | @delivers p job run ht hdoomed hlive result =>
    change s.machine.hand t = _ at ht
    change s.machine.isDoomed t = false at hdoomed
    refine h.of_turn hhand hjobs hstats fun p' => ?_
    by_cases hp : p' = p
    · subst hp
      simp [hlost, hdoomed, ht, Books.enterAll, Books.enter, PoolStats.count]
      omega
    · simp [hlost, hdoomed, ht, hp, Ne.symm hp, Books.enterAll, Books.enter]
  | @waits p job run ht hdoomed hlive result =>
    change s.machine.hand t = _ at ht
    change s.machine.isDoomed t = false at hdoomed
    refine h.of_turn hhand hjobs hstats fun p' => ?_
    by_cases hp : p' = p
    · subst hp
      simp [hlost, hdoomed, ht, Books.enterAll, Books.enter, PoolStats.count]
      omega
    · simp [hlost, hdoomed, ht, hp, Ne.symm hp, Books.enterAll, Books.enter]
  | @sends p job result ht hlive =>
    change s.machine.hand t = _ at ht
    refine h.of_turn hhand hjobs hstats fun p' => ?_
    simp [hlost, ht, Activity.workingIn?, Books.enterAll, Books.enter]
  | @drops p job result ht =>
    change s.machine.hand t = _ at ht
    refine h.of_turn hhand hjobs hstats fun p' => ?_
    simp [hlost, ht, Activity.workingIn?, Books.enterAll, Books.enter]
  | @abandons a job ht hjob hdoomed =>
    change s.machine.hand t = _ at ht
    change s.machine.isDoomed t = true at hdoomed
    refine h.of_turn hhand hjobs hstats fun p' => ?_
    simp [hlost, hdoomed, ht, workOf, Books.enterAll, Books.enter]
    omega
  | @schedules id production hactivity hid p name work =>
    change s.machine.activity? t = _ at hactivity
    have hidle : s.machine.hand t = none := by rw [hand, hactivity]; rfl
    refine h.of_turn (fun u => (hhand u).trans (hsame u)) hjobs hstats fun p' => ?_
    by_cases hp : p' = p
    · subst hp
      simp [hlost, hidle, Books.enterAll, Books.enter]
      omega
    · simp [hlost, hidle, hp, Books.enterAll, Books.enter]

/-- **Every move keeps the balance.** -/
theorem Balanced.step (h : s.Balanced) (move : Move) : (s.step move).Balanced := by
  generalize hs' : s.step move = s'
  have hgoes := s.goes_step move
  rw [hs'] at hgoes
  have hsame (u : Nat) : s.machine.hand u =
      Function.update s.machine.hand 0 (s.machine.hand 0) u := by rw [Function.update_eq_self]
  cases hgoes with
  | quietly q ha hlost =>
    refine h.of_turn (fun u => (ha.reaches.hand u).trans (hsame u)) ha.reaches.jobs ha.reaches.stats
      fun p => ?_
    simp [hlost, Books.enterAll]
  | turn t hentered ha hlost => exact h.turn hentered ha hlost
  | schedules p name work hid ha hlost =>
    refine h.of_turn (fun u => (ha.reaches.hand u).trans (hsame u)) ha.reaches.jobs ha.reaches.stats
      fun p' => ?_
    by_cases hp : p' = p
    · subst hp
      simp [hlost, Books.enterAll, Books.enter]
      omega
    · simp [hlost, hp, Books.enterAll, Books.enter]
  | queues result hlive ha hlost =>
    refine h.of_turn (fun u => (ha.reaches.hand u).trans (hsame u)) ha.reaches.jobs ha.reaches.stats
      fun p => ?_
    simp [hlost, Books.enterAll, Books.enter]
  | counts hid => exact h
  | givesUp p =>
    have ha := acts_act ((s.seen 0).reaches_updateCrew_jobs p [])
    obtain ⟨hhand, hjobs, hstats⟩ := finishJobs_same
      (s := s.act 0 (updateCrew p fun c => { c with jobs := [] })) (s.machine.crew p).jobs
    refine h.of_turn (fun u => (hhand u).trans ((ha.reaches.hand u).trans (hsame u)))
      (fun p' => (hjobs p').trans (ha.reaches.jobs p'))
      (fun p' => (hstats p').trans (ha.reaches.stats p')) fun p' => ?_
    by_cases hp : p' = p
    · subst hp
      simp [Site.step, Books.enterAll, Books.enter]
      omega
    · simp [Site.step, hp, Books.enterAll, Books.enter]

end Balance

/-! ### Runs -/

theorem counts_site (x : Opening) : x.site.Counts [] where
  exist := nofun
  pending _ := rfl
  registered := nofun
  distinct := .nil
  total _ := rfl

theorem balanced_site (x : Opening) : x.site.Balanced := by
  intro p
  cases p <;> rfl

theorem counts_run {s : Site} (h : s.Counts s.openJobs) (moves : List Move) :
    (s.run moves).Counts (s.run moves).openJobs := by
  induction moves generalizing s with
  | nil => exact h
  | cons move moves ih => exact ih (h.step move)

theorem balanced_run {s : Site} (h : s.Balanced) (moves : List Move) : (s.run moves).Balanced := by
  induction moves generalizing s with
  | nil => exact h
  | cons move moves ih => exact ih (h.step move)

end Site

/-- **The accounts are exact at every moment of every run.**  An executor counts its open jobs, and
besides them only what was counted by hand, so that no count is lost by going below zero; a query
counts what its executors count; and a pool has counted each of its jobs once, or it is at hand, or
it was given up before its outcome was counted. -/
theorem accounts_exact (x : Site.Opening) (moves : List Move) :
    let s := x.site.run moves
    (∀ id, s.machine.pendingOf id = s.byHand id + s.openJobs.countP (·.executor = id)) ∧
      (∀ job ∈ s.openJobs, 0 < s.machine.pendingOf job.executor ∧
        ((s.context (s.owner job.executor)).tasks[job.task - 1]?.map (·.registered)) = some true) ∧
      (∀ q, (s.context q).taskCount = ∑ id ∈ Finset.range s.machine.executors.size,
        if s.owner id = q then s.machine.pendingOf id else 0) ∧
      ∀ p, let stats := (s.machine.crew p).pool.stats
        stats.scheduled = stats.completed + stats.failed + stats.cancelled +
          ((s.machine.crew p).jobs.length + s.working p) + s.lost p := by
  intro s
  have hcounts : s.Counts s.openJobs := Site.counts_run (Site.counts_site x) moves
  have hbalanced : s.Balanced := Site.balanced_run (Site.balanced_site x) moves
  refine ⟨hcounts.pending, fun job hjob => ⟨?_, ?_⟩, hcounts.total, hbalanced⟩
  · have : 0 < s.openJobs.countP (·.executor = job.executor) :=
      List.countP_pos_iff.mpr ⟨job, hjob, by simp⟩
    rw [hcounts.pending]
    omega
  · obtain ⟨-, hregistered⟩ := hcounts.registered job hjob
    rw [← hregistered]
    simp [Site.registered, registrations, Site.seen]

end FederatedSparql
