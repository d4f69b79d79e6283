import FederatedSparql.Proofs.Machine.Course
import Mathlib.Algebra.Ring.Nat
import Mathlib.Data.List.Perm.Subperm
import Mathlib.Data.Prod.Lex

/-!
A run gets on: what is left to do is counted, and there is always someone who can do some of it.

* `Scene.Turns.lighter`, `Scene.Pulls.lighter`: a step leaves less to do, or leaves all as it is.
* `Setting.exists_stirs`: somebody can go on, at the latest when the time comes for which he waits.
-/

namespace FederatedSparql

open Machine

variable {α : Type}

/-! ### What is left to do -/

/-- How much of its programs a thread has yet to run. -/
def Activity.labour (answers : Answers) : Activity α → Nat
  | .working _ _ run => run.size answers + 1
  | .producing _ (.branches rest) => (rest.map fun task => task.2.size answers + 1).sum
  | _ => 0

/-- How much a thread has yet to do with tasks and results. -/
def Activity.chores : Activity α → Nat
  | .idle _ => 2
  | .sending _ _ c => c.size + 5
  | .producing _ (.branches rest) => 3 * rest.length + 2
  | .producing .. => 1
  | _ => 0

namespace Scene

/-- How much of the jobs has yet to be run. -/
def jobLabour (s : Scene α) : Nat := (s.jobs.map fun job => job.work.size s.answers + 1).sum

/-- How much of the programs has yet to be run. -/
def labour (s : Scene α) : Nat :=
  s.jobLabour + (s.threads.map (·.activity.labour s.answers)).sum

/-- How much there is to do with the jobs and results that nobody has in hand. -/
def stock (s : Scene α) : Nat :=
  2 * s.jobs.length + (s.threads.length - s.line.length) +
    (s.executor.queue.map (·.size + 2)).sum + (s.executor.current.map (·.size + 1)).getD 0

/-- How much there is to do with tasks and results. -/
def chores (s : Scene α) : Nat := s.stock + (s.threads.map (·.activity.chores)).sum

/-- What is left to do: above all programs, then the rest. -/
def load (s : Scene α) : ℕ ×ₗ ℕ := toLex (s.labour, s.chores)

variable {s s' u : Scene α} {t : Nat} {th : Thread α}

theorem load_lt_of_labour (h : s'.labour < s.labour) : s'.load < s.load :=
  Prod.Lex.toLex_lt_toLex.2 (.inl h)

theorem load_lt_of_chores (h : s'.labour ≤ s.labour) (hchores : s'.chores < s.chores) :
    s'.load < s.load :=
  Prod.Lex.toLex_lt_toLex'.2 ⟨h, fun _ => hchores⟩

theorem sum_become (f : Activity α → Nat) (ht : s.threads[t]? = some th) (a : Activity α) :
    ((s.become t a).threads.map fun th => f th.activity).sum + f th.activity =
      (s.threads.map fun th => f th.activity).sum + f a := by
  obtain ⟨l, r, heq, hmodify⟩ := exists_threads_eq ht
  rw [become, hmodify, heq]
  simp only [List.map_append, List.map_cons, List.sum_append, List.sum_cons]
  omega

theorem labour_become (hthreads : u.threads = s.threads) (hanswers : u.answers = s.answers)
    (ht : s.threads[t]? = some th) (a : Activity α) :
    (u.become t a).labour + s.jobLabour + th.activity.labour s.answers =
      s.labour + u.jobLabour + a.labour s.answers := by
  have hsum := u.sum_become (Activity.labour s.answers) (hthreads ▸ ht) a
  have hjobs : (u.become t a).jobLabour = u.jobLabour := rfl
  have hsame : (u.become t a).answers = s.answers := hanswers
  simp only [labour, hjobs, hsame]
  rw [hthreads] at hsum
  omega

theorem chores_become (hthreads : u.threads = s.threads) (ht : s.threads[t]? = some th)
    (a : Activity α) :
    (u.become t a).chores + s.stock + th.activity.chores =
      s.chores + u.stock + a.chores := by
  have hsum := u.sum_become Activity.chores (hthreads ▸ ht) a
  have hstock : (u.become t a).stock = u.stock := by simp [stock, become]
  simp only [chores, hstock]
  rw [hthreads] at hsum
  omega

/-- A thread is done with a program. -/
theorem load_lt_of_run {p : PoolName} {job : Job α} {run : Run α} {a : Activity α}
    (hthreads : u.threads = s.threads) (hanswers : u.answers = s.answers) (hjobs : u.jobs = s.jobs)
    (ht : s.threads[t]? = some th) (hth : th.activity = .working p job run)
    (ha : a.labour s.answers ≤ run.size s.answers) : (u.become t a).load < s.load := by
  have hlabour := labour_become hthreads hanswers ht a
  have hsame : u.jobLabour = s.jobLabour := by rw [jobLabour, hjobs, hanswers, jobLabour]
  rw [hth, hsame, Activity.labour] at hlabour
  have : (u.become t a).labour < s.labour := by omega
  exact load_lt_of_labour this

/-- A thread is done with something else. -/
theorem load_lt_of_chore {a : Activity α} (hthreads : u.threads = s.threads)
    (hanswers : u.answers = s.answers) (ht : s.threads[t]? = some th)
    (hlabour : u.jobLabour + a.labour s.answers ≤ s.jobLabour + th.activity.labour s.answers)
    (hchores : u.stock + a.chores < s.stock + th.activity.chores) :
    (u.become t a).load < s.load := by
  have hl := labour_become hthreads hanswers ht a
  have hc := chores_become hthreads ht a
  have hless : (u.become t a).labour ≤ s.labour := by omega
  have hfewer : (u.become t a).chores < s.chores := by omega
  exact load_lt_of_chores hless hfewer

/-- A producer is at its end. -/
theorem load_lt_of_production {id : Nat} {production : Production α}
    (hthreads : u.threads = s.threads) (hanswers : u.answers = s.answers)
    (ht : s.threads[t]? = some th) (hth : th.activity = .producing id production)
    (hjobs : u.jobLabour = s.jobLabour) (hstock : u.stock = s.stock) : (u.become t .finished).load < s.load := by
  refine load_lt_of_chore hthreads hanswers ht (by simp [hjobs, Activity.labour]) ?_
  rw [hstock, hth]
  cases production <;> simp [Activity.chores]

/-! ### Nothing but time passes -/

/-- Only time has passed, and the consumer may have asked to be told of results. -/
inductive Stays (s : Scene α) : Scene α → Prop
  | intro (now : Nat) (consumer : Option Waker) (h : s.now ≤ now) :
      Stays s { s with now, executor := { s.executor with consumer } }

theorem Stays.refl (s : Scene α) : s.Stays s := .intro s.now s.executor.consumer le_rfl

theorem Stays.trans {s'' : Scene α} (h : s.Stays s') (h' : s'.Stays s'') : s.Stays s'' := by
  cases h with
  | intro now consumer hnow =>
    cases h' with
    | intro now' consumer' hnow' => exact .intro now' consumer' (hnow.trans hnow')

theorem Stays.load_eq (h : s.Stays s') : s'.load = s.load := by
  cases h
  rfl

theorem Stays.now_le (h : s.Stays s') : s.now ≤ s'.now := by
  cases h
  assumption

/-- The consumer need not wait. -/
def Serves (s : Scene α) : Prop :=
  s.executor.current ≠ none ∨ s.executor.queue ≠ [] ∨ s.executor.isExhausted = true

theorem Stays.serves (h : s.Stays s') (hs : s.Serves) : s'.Serves := by
  cases h
  exact hs

/-- Who rests as time passes has rested before. -/
theorem Stays.rests (h : s.Stays s') (hr : s'.Rests t) : s.Rests t := by
  cases h with
  | intro now consumer hnow =>
    unfold Rests at hr ⊢
    dsimp only at hr
    split at hr <;> try exact hr
    obtain ⟨hc, due, hdue, hlt⟩ := hr
    exact ⟨hc, due, hdue, hnow.trans_lt hlt⟩

/-! ### The line -/

theorem length_le_of_nodup {l : List Nat} (h : l.Nodup) (t : Nat) :
    l.length ≤ (l.filter (· != t)).length + 1 := by
  have hcount := List.nodup_iff_count_le_one.1 h t
  have hsplit := l.length_eq_countP_add_countP (· != t)
  have hrest : l.countP (fun i => ¬ (i != t) = true) = l.count t := by
    rw [List.count]
    exact List.countP_congr fun i _ => by simp
  rw [List.countP_eq_length_filter] at hsplit
  omega

/-- Not all threads are in the line if there is one that is not. -/
theorem Posts.length_line (h : s.Posts) (ht : s.threads[t]? = some th) (hline : t ∉ s.line) :
    s.line.length < s.threads.length := by
  have hsub : t :: s.line ⊆ List.range s.threads.length := by
    intro i hi
    rw [List.mem_range]
    obtain rfl | hi := List.mem_cons.1 hi
    · exact (List.getElem?_eq_some_iff.1 ht).1
    · have := h.line i hi
      obtain ⟨_, hth, -⟩ := Option.map_eq_some_iff.1 this
      exact (List.getElem?_eq_some_iff.1 hth).1
  have hnodup : (t :: s.line).Nodup := List.nodup_cons.2 ⟨hline, h.nodup_line⟩
  have := (List.subperm_of_subset hnodup hsub).length_le
  rw [List.length_cons, List.length_range] at this
  omega

theorem Posts.stock_leaveLine (h : s.Posts) (t : Nat) : (s.leaveLine t).stock ≤ s.stock + 1 := by
  have := length_le_of_nodup h.nodup_line t
  simp only [stock, leaveLine]
  omega

/-! ### Steps leave less to do -/

section Steps

variable [DecidableEq α]

/-- **A turn leaves less to do, unless the thread rests.** -/
theorem Turns.lighter (h : s.Turns t s') (hposts : s.Posts) (hopened : s.executor.closed = false) :
    s.Rests t ∧ s' = s ∨ s'.load < s.load := by
  have hline := hposts.stock_leaveLine t
  cases h with
  | rests hrests => exact .inl ⟨hrests, rfl⟩
  | linesUp ht hnew =>
    have hlength := hposts.length_line ht hnew
    right
    refine load_lt_of_chores (s := s) (le_of_eq rfl) ?_
    simp only [chores, stock, List.length_append, List.length_singleton]
    omega
  | @takes job rest ht hjobs =>
    right
    refine load_lt_of_chore (u := { s.leaveLine t with jobs := rest }) rfl rfl ht ?_ ?_
    · simp only [jobLabour, hjobs, List.map_cons, List.sum_cons, leaveLine, Activity.labour,
        Run.size]
      omega
    · simp only [stock, leaveLine, hjobs, Activity.chores, List.length_cons] at hline ⊢
      omega
  | retires ht _ =>
    refine .inr (load_lt_of_chore rfl rfl ht le_rfl ?_)
    simp only [Activity.chores]
    omega
  | cancels ht _ | drops ht _ _ _ | queues ht _ _ _ | holds ht _ _ _ =>
    exact .inr (load_lt_of_run rfl rfl rfl ht rfl (Nat.zero_le _))
  | runs ht _ _ _ hsize => exact .inr (load_lt_of_run rfl rfl rfl ht rfl hsize)
  | fails ht _ _ =>
    rw [toss_eq hopened]
    exact .inr (load_lt_of_run rfl rfl rfl ht rfl (Nat.zero_le _))
  | givesUp ht _ =>
    refine .inr (load_lt_of_chore rfl rfl ht le_rfl ?_)
    simp only [stock, update, Executor.finishTask, Executor.leave, Activity.chores]
    omega
  | sends ht _ =>
    refine .inr (load_lt_of_chore rfl rfl ht le_rfl ?_)
    simp only [stock, update, Executor.finishTask, Executor.leave, Executor.push, Activity.chores,
      List.map_append, List.sum_append, List.map_cons, List.map_nil, List.sum_singleton]
    omega
  | halts ht _ => exact .inr (load_lt_of_production rfl rfl ht rfl rfl rfl)
  | schedules ht _ _ =>
    refine .inr (load_lt_of_chore rfl rfl ht ?_ ?_)
    · simp only [jobLabour, schedule, update, List.map_append, List.sum_append, List.map_cons,
        List.map_nil, List.sum_cons, List.sum_nil, Activity.labour]
      omega
    · simp only [stock, schedule, update, Executor.addTask, Activity.chores, List.length_append,
        List.length_cons, List.length_nil]
      omega
  | isRefused ht _ _ =>
    rw [toss_eq hopened]
    exact .inr (load_lt_of_production rfl rfl ht rfl rfl rfl)
  | awaits ht _ =>
    refine .inr (load_lt_of_chore rfl rfl ht le_rfl ?_)
    simp [Activity.chores]
  | completes ht _ _ =>
    refine .inr (load_lt_of_chore rfl rfl ht le_rfl ?_)
    simp [stock, update, Executor.endProduction, Activity.chores]
  | leavesLine ht =>
    refine .inr (load_lt_of_chore (u := s.leaveLine t) rfl rfl ht le_rfl ?_)
    simp only [Activity.chores]
    omega
  | abandons ht =>
    exact .inr
      (load_lt_of_run (u := s.update Executor.finishTask) rfl rfl rfl ht rfl (Nat.zero_le _))
  | abandonsResult ht =>
    refine .inr (load_lt_of_chore (u := (s.update (Executor.leave t)).update Executor.finishTask)
      rfl rfl ht le_rfl ?_)
    simp only [stock, update, Executor.finishTask, Executor.leave, Activity.chores]
    omega
  | stops ht => exact .inr (load_lt_of_production rfl rfl ht rfl rfl rfl)

/-- **A pull leaves less to do, unless the consumer has to wait.** -/
theorem Pulls.lighter {r : Pulled α} (h : s.Pulls r s') (hunfinished : s.executor.finished = false)
    (hopened : s'.executor.closed = false) :
    ¬ s.Serves ∧ s.Stays s' ∨ s'.load < s.load := by
  cases h with
  | isOver hfinished => exact absurd hfinished (by simp [hunfinished])
  | passes _ hcurrent _ _ hsize | getsOn _ hcurrent _ _ hsize =>
    refine .inr (load_lt_of_chores (s := s) (le_of_eq rfl) ?_)
    simp only [chores, stock, update, hcurrent, Option.map_some, Option.getD_some]
    omega
  | empties _ hcurrent _ =>
    refine .inr (load_lt_of_chores (s := s) (le_of_eq rfl) ?_)
    simp only [chores, stock, update, hcurrent, Option.map_some, Option.getD_some, Option.map_none,
      Option.getD_none]
    omega
  | opens _ hcurrent hqueue =>
    refine .inr (load_lt_of_chores (s := s) (le_of_eq rfl) ?_)
    simp only [chores, stock, update, hcurrent, hqueue, Option.map_some, Option.getD_some,
      Option.map_none, Option.getD_none, List.map_cons, List.sum_cons]
    omega
  | fails _ _ _ _ | ends _ _ _ _ => exact absurd s.closed_finish (by simp [hopened])
  | waits _ hcurrent hqueue hexhausted =>
    refine .inl ⟨?_, .intro s.now (some .main) le_rfl⟩
    simp [Serves, hcurrent, hqueue, hexhausted]

end Steps

/-! ### Somebody can go on -/

/-- A thread can go on, at the latest when the time comes for which it waits. -/
def Stirs (s : Scene α) (t : Nat) : Prop :=
  ¬ s.Rests t ∨ ∃ p job run due, s.activity? t = some (.working p job run) ∧ run.due? = some due ∧
    ∀ s', s.Stays s' → due ≤ s'.now → ¬ s'.Rests t

theorem stirs_of_working {p : PoolName} {job : Job α} {run : Run α}
    (ht : s.activity? t = some (.working p job run)) : s.Stirs t := by
  obtain ⟨⟨a, doomed⟩, hth, rfl⟩ := Option.map_eq_some_iff.1 ht
  refine or_iff_not_imp_left.2 fun hrests => ?_
  rw [not_not] at hrests
  have hrests' := hrests
  unfold Rests at hrests'
  cases doomed with
  | true => simp [hth] at hrests'
  | false =>
    simp only [hth] at hrests'
    obtain ⟨-, due, hdue, -⟩ := hrests'
    refine ⟨p, job, run, due, ht, hdue, fun s' hs' hnow hr => ?_⟩
    cases hs' with
    | intro now consumer _ =>
      unfold Rests at hr
      simp only [hth, hdue] at hr
      obtain ⟨-, due', heq, hlt⟩ := hr
      cases heq
      exact absurd hlt (not_lt.2 hnow)

/-- If results wait for room and there is room, the first of them can be queued or given up. -/
theorem Posts.exists_stirs_of_waiting (h : s.Posts) (hwaiting : s.executor.waiting ≠ [])
    (hqueue : s.executor.queue = []) : ∃ t, s.Stirs t := by
  obtain ⟨t, rest, hrest⟩ := List.exists_cons_of_ne_nil hwaiting
  have hsending := (h.waiting t).1 (hrest ▸ .head _)
  obtain ⟨a, ha, hsending⟩ := (Option.any_eq_true _ _).1 hsending
  obtain ⟨⟨a, doomed⟩, hth, rfl⟩ := Option.map_eq_some_iff.1 ha
  refine ⟨t, .inl fun hrests => ?_⟩
  unfold Rests at hrests
  cases a with
  | sending p job c =>
    cases doomed with
    | true => simp [hth] at hrests
    | false =>
      simp only [hth, Executor.admissionOfWaiting, hqueue, hrest, List.head?_cons] at hrests
      split at hrests
      · cases hrests
      · rw [if_pos (by simp [Executor.queueCapacity])] at hrests
        cases hrests
  | _ => cases hsending

/-- If there are jobs, a worker without one can take the first, or line up for one. -/
theorem Posts.exists_stirs_of_jobs (h : s.Posts) (hjobs : s.jobs ≠ [])
    (ht : s.activity? t = some (.idle .union)) : ∃ t, s.Stirs t := by
  have idle {i : Nat} (hi : s.activity? i = some (.idle .union))
      (hline : i ∈ s.line → s.line.head? = some i) : s.Stirs i := by
    obtain ⟨⟨a, doomed⟩, hth, rfl⟩ := Option.map_eq_some_iff.1 hi
    refine .inl fun hrests => ?_
    unfold Rests at hrests
    cases doomed with
    | true => simp [hth] at hrests
    | false =>
      simp only [hth] at hrests
      obtain ⟨hmem, hhead | ⟨hnone, -⟩⟩ := hrests
      · exact hhead (hline hmem)
      · exact hjobs hnone
  cases hline : s.line with
  | nil => exact ⟨t, idle ht fun hmem => by rw [hline] at hmem; cases hmem⟩
  | cons i rest =>
    have hi : i ∈ s.line := hline ▸ .head _
    exact ⟨i, idle (h.line i hi) fun _ => by rw [hline]; rfl⟩

end Scene

namespace Setting

variable [DecidableEq α] {x : Setting α} {d : Prop} {s : Scene α}

/-- A task that is pending gets on. -/
theorem Staff.exists_stirs_of_pending (h : Staff d s) (hx : x.Shapes s) (hposts : s.Posts)
    (hd : ¬ d) (hpending : s.executor.pending ≠ 0) (hqueue : s.executor.queue = []) :
    ∃ t, s.Stirs t := by
  cases hheld : s.held with
  | cons job rest =>
    have hmem : job ∈ s.held := hheld ▸ .head _
    obtain ⟨th, hth, hjob⟩ := List.mem_filterMap.1 hmem
    obtain ⟨t, ht⟩ := List.mem_iff_getElem?.1 hth
    have ha := Scene.activity?_eq ht
    cases hactivity : th.activity with
    | working p job run =>
      rw [hactivity] at ha
      exact ⟨t, Scene.stirs_of_working ha⟩
    | sending p job c =>
      refine hposts.exists_stirs_of_waiting (List.ne_nil_of_mem ((hposts.waiting t).2 ?_)) hqueue
      rw [ha, hactivity]
      rfl
    | _ =>
      rw [hactivity] at hjob
      cases hjob
  | nil =>
    have hjobs : s.jobs ≠ [] := by
      intro hjobs
      have := h.pending
      rw [hjobs, hheld] at this
      exact hpending this
    obtain ⟨i, hi⟩ := h.worker.resolve_left hd
    obtain ⟨a, ha, hworker⟩ := (Option.any_eq_true _ _).1 hi
    obtain ⟨th, hth, rfl⟩ := Option.map_eq_some_iff.1 ha
    have hnone : th.activity.job? = none := by
      have := List.filterMap_eq_nil_iff.1 hheld th (List.mem_of_getElem? hth)
      exact this
    have hemploys := hx.threads i _ ha
    cases hactivity : th.activity with
    | idle p =>
      rw [hactivity] at ha hemploys
      obtain rfl := hemploys
      exact hposts.exists_stirs_of_jobs hjobs ha
    | _ => simp_all [Activity.isWorkers, Activity.job?]

/-- A producer gets on, or a task for which it waits. -/
theorem Staff.exists_stirs_of_producing (h : Staff d s) (hx : x.Shapes s) (hposts : s.Posts)
    (hd : ¬ d ∨ s.cancelled = true) (hproducing : s.executor.producing = true)
    (hqueue : s.executor.queue = []) : ∃ t, s.Stirs t := by
  obtain ⟨i, hi⟩ := h.producer.resolve_left (by simp [hproducing])
  obtain ⟨a, ha, hproducing⟩ := (Option.any_eq_true _ _).1 hi
  obtain ⟨⟨a, doomed⟩, hth, rfl⟩ := Option.map_eq_some_iff.1 ha
  have hundoomed : doomed = false := by
    cases doomed with
    | false => rfl
    | true =>
      have := h.unhindered _ (List.mem_of_getElem? hth) rfl
      exact absurd hproducing (by simp [this])
  subst hundoomed
  by_cases hrests : s.Rests i
  · cases a with
    | producing id production =>
      unfold Scene.Rests at hrests
      simp only [hth] at hrests
      cases production with
      | awaiting left limit =>
        obtain ⟨hc, hpending⟩ := hrests
        exact h.exists_stirs_of_pending hx hposts (hd.resolve_right (by simp [hc])) hpending hqueue
      | _ => exact hrests.elim
    | _ => cases hproducing
  · exact ⟨i, .inl hrests⟩

/-- **Somebody can go on.** -/
theorem exists_stirs (hx : x.Shapes s) (hposts : s.Posts) (hstaff : Staff d s)
    (hd : ¬ d ∨ s.cancelled = true) : s.Serves ∨ ∃ t, s.Stirs t := by
  by_cases hserves : s.Serves
  · exact .inl hserves
  · right
    simp only [Scene.Serves, not_or, not_not] at hserves
    obtain ⟨-, hqueue, hexhausted⟩ := hserves
    cases hproducing : s.executor.producing with
    | true => exact hstaff.exists_stirs_of_producing hx hposts hd hproducing hqueue
    | false =>
      refine hposts.exists_stirs_of_waiting (fun hwaiting => hexhausted ?_) hqueue
      simp [Executor.isExhausted, hqueue, hproducing, hwaiting]

end Setting

end FederatedSparql
