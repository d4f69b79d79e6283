import FederatedSparql.Proofs.Machine.Posts

/-!
What the scenes of a run look like: whatever is at hand in them is a task of the setting, or has
come of one.

* `Setting.Shapes.turns`, `Setting.Shapes.pulls`, `Setting.Shapes.outside`: every step keeps that.
-/

namespace FederatedSparql

open Machine

variable {α : Type}

/-! ### Tasks -/

namespace Setting

variable [DecidableEq α] (x : Setting α) {s s' : Scene α} {t : Nat}

/-- A job is a task of the setting. -/
structure Knows (registered : Nat) (job : Job α) : Prop where
  executor : job.executor = 0
  task_pos : 1 ≤ job.task
  task_le : job.task ≤ registered
  alone : job.work.Alone
  outcome : x.outcome job.name (job.work.ending x.registry.answers) = x.result job.task

/-- What a thread does, it does for the tasks of the setting. -/
def Employs (s : Scene α) (t : Nat) : Activity α → Prop
  | .idle p => p = .union
  | .working p job run => p = .union ∧ x.Knows s.registered job ∧ run.Alone ∧
      x.outcome job.name (run.ending x.registry.answers) = x.result job.task
  | .sending p job c => p = .union ∧ x.Knows s.registered job ∧ c.Holds (x.rows job.task) ∧
      x.result job.task = .ok (x.rows job.task)
  | .producing id production => id = 0 ∧ s.executor.producer = some t ∧
      (production = .branches (x.tasks.drop s.registered) ∨
        production = .awaiting .empty s.deadline ∧ s.registered = x.tasks.length)
  | .alarm _ => False
  | .finished => True

/-- What is at hand in a scene is the setting's. -/
structure Fits (s : Scene α) : Prop where
  answers : s.answers = x.registry.answers
  pool : s.pool = x.pool
  registered : s.registered ≤ x.tasks.length
  jobs : ∀ job ∈ s.jobs, x.Knows s.registered job
  firstOnly : s.executor.firstOnly = false
  queue : ∀ c ∈ s.executor.queue, ∃ xs, c.Holds xs
  current : ∀ c, s.executor.current = some c → ∃ xs, c.Holds xs
  cancelled : s.executor.closed = true → s.cancelled = true
  finished : s.executor.closed = true → s.executor.finished = true

/-- A scene is one of a run of the setting. -/
structure Shapes (s : Scene α) : Prop extends x.Fits s where
  threads : ∀ t a, s.activity? t = some a → x.Employs s t a

variable {x} {job : Job α} {a b : Activity α}

theorem Knows.hasJob (h : x.Knows s.registered job) : s.HasJob job :=
  ⟨h.executor, h.task_pos, h.task_le⟩

theorem Shapes.sound (h : x.Shapes s) (ht : s.InTime) : s.Sound where
  employs := by
    intro t th hth
    have := h.threads t _ (Scene.activity?_eq hth)
    cases hactivity : th.activity with
    | idle p => rw [hactivity] at this; exact this
    | working p job run =>
      rw [hactivity] at this
      exact ⟨this.1, this.2.1.hasJob, this.2.2.1⟩
    | sending p job c =>
      rw [hactivity] at this
      exact ⟨this.1, this.2.1.hasJob, this.2.2.1.1⟩
    | producing id production =>
      rw [hactivity] at this
      exact ⟨this.1, this.2.2.imp (fun h => ⟨_, h⟩) (·.1)⟩
    | alarm due => rw [hactivity] at this; exact this
    | finished => trivial
  inTime := ht
  firstOnly := h.firstOnly
  queue := h.queue
  current := h.current
  cancelled := h.cancelled
  finished := h.finished

theorem Knows.mono {n n' : Nat} (h : x.Knows n job) (hn : n ≤ n') : x.Knows n' job :=
  { h with task_le := h.task_le.trans hn }

/-- A thread goes on with what it does, whatever others do. -/
theorem Employs.congr (h : x.Employs s t a) (hregistered : s'.registered = s.registered)
    (hdeadline : s'.deadline = s.deadline)
    (hproducer : s'.executor.producer = s.executor.producer) : x.Employs s' t a := by
  cases a with
  | working p job run => exact ⟨h.1, h.2.1.mono hregistered.ge, h.2.2⟩
  | sending p job c => exact ⟨h.1, h.2.1.mono hregistered.ge, h.2.2⟩
  | producing id production => simpa [Employs, hregistered, hdeadline, hproducer] using h
  | _ => exact h

/-- A result that a program comes to is the result of its task. -/
theorem result_eq_ok {run : Run α} {c : Cursor α} (h : x.Shapes s)
    (houtcome : x.outcome job.name (run.ending x.registry.answers) = x.result job.task)
    (hrun : run.Follows s (.done c)) :
    x.result job.task = .ok (x.rows job.task) ∧ c.Holds (x.rows job.task) := by
  obtain ⟨feed, hending, hfeed, hc, harrivals⟩ := hrun
  rw [h.answers] at hending harrivals
  obtain ⟨xs, hxs⟩ := hfeed.arrivals_eq_ofList x.registry.answers
  have hresult : x.result job.task = .ok xs := by
    rw [← houtcome, hending, outcome, hxs, Arrivals.items_ofList]
  have hrows : x.rows job.task = xs := by rw [rows, hresult]; rfl
  rw [hrows]
  exact ⟨hresult, hc, harrivals.trans hxs⟩

/-- A failure that a program comes to is the failure of its task. -/
theorem failure_eq {run : Run α} {e : Option FedError} (h : x.Shapes s)
    (houtcome : x.outcome job.name (run.ending x.registry.answers) = x.result job.task)
    (hrun : run.ending s.answers = .error e) :
    x.result job.task = .error (e.getD (.internalScheduling (.taskPanicked job.name))) := by
  rw [h.answers] at hrun
  rw [← houtcome, hrun, outcome]

namespace Shapes

/-- A thread goes on to something else, and no task is added. -/
theorem become (h : x.Shapes s) {u : Scene α} (hu : x.Fits u) (hthreads : u.threads = s.threads)
    (hregistered : u.registered = s.registered) (hdeadline : u.deadline = s.deadline)
    (hproducer : u.executor.producer = s.executor.producer) (ha : x.Employs u t a) :
    x.Shapes (u.become t a) := by
  refine { hu with threads := fun i b hb => ?_ }
  rw [Scene.activity?_become, Scene.activity?_congr hthreads] at hb
  suffices x.Employs u i b from this
  split at hb
  · next hit =>
    obtain ⟨_, _, rfl⟩ := Option.map_eq_some_iff.1 hb
    exact hit ▸ ha
  · exact (h.threads i b hb).congr hregistered hdeadline hproducer

/-- A failure is recorded. -/
theorem toss (h : x.Shapes s) (e : FedError) : x.Shapes (s.toss e) := by
  cases hclosed : s.executor.closed with
  | true => rwa [Scene.toss, if_pos hclosed]
  | false =>
    rw [Scene.toss_eq hclosed]
    exact { h with cancelled := fun _ => rfl, threads := h.threads }

/-- The next task is registered. -/
theorem schedule (h : x.Shapes s) (halone : ∀ task ∈ x.tasks, task.2.Alone) {name : String}
    {work : Work α} {rest : List (String × Work α)}
    (ht : s.activity? t = some (.producing 0 (.branches ((name, work) :: rest)))) :
    x.Shapes ((s.schedule name work).become t (.producing 0 (.branches rest))) := by
  obtain ⟨-, hproducer, hproduction⟩ := h.threads t _ ht
  have hdrop : x.tasks.drop s.registered = (name, work) :: rest := by
    obtain heq | ⟨heq, -⟩ := hproduction
    · exact (Production.branches.inj heq).symm
    · cases heq
  have hnext : x.tasks[s.registered]? = some (name, work) := by
    rw [← List.head?_drop, hdrop, List.head?_cons]
  obtain ⟨hlt, hget⟩ := List.getElem?_eq_some_iff.1 hnext
  refine { h with
    registered := hlt
    jobs := fun job hjob => ?_
    threads := fun i b hb => ?_ }
  · obtain hjob | hjob := List.mem_append.1 hjob
    · exact (h.jobs job hjob).mono (Nat.le_succ _)
    · rw [List.mem_singleton.1 hjob]
      exact ⟨rfl, Nat.succ_pos _, le_rfl, halone _ (hget ▸ List.getElem_mem hlt), by
        simp [result, hnext]⟩
  · have hactivity : (s.schedule name work).activity? i = s.activity? i := rfl
    rw [Scene.activity?_become, hactivity] at hb
    split at hb
    · next hit =>
      obtain ⟨_, _, rfl⟩ := Option.map_eq_some_iff.1 hb
      have hrest : x.tasks.drop (s.registered + 1) = rest := by
        rw [← List.tail_drop, hdrop, List.tail_cons]
      exact ⟨rfl, hit ▸ hproducer, .inl (congrArg _ hrest.symm)⟩
    · next hit =>
      have hold := h.threads i b hb
      cases b with
      | working p job run => exact ⟨hold.1, hold.2.1.mono (Nat.le_succ _), hold.2.2⟩
      | sending p job c => exact ⟨hold.1, hold.2.1.mono (Nat.le_succ _), hold.2.2⟩
      | producing id production =>
        exact absurd (Option.some.inj (hproducer.symm.trans hold.2.1)) hit
      | _ => exact hold

theorem doom (h : x.Shapes s) (t : Nat) : x.Shapes (s.doom t) :=
  { h with threads := fun i a ha => h.threads i a (Scene.activity?_doom s t i ▸ ha) }

theorem finish (h : x.Shapes s) : x.Shapes s.finish := by
  have hclosed :
      x.Shapes ((s.update fun e => ({ e with error := none } : Executor α).close).cancel) :=
    { h with
      queue := fun c hc => by cases hc
      current := fun c hc => by cases hc
      cancelled := fun _ => rfl
      finished := fun _ => rfl
      threads := h.threads }
  obtain heq | ⟨t, heq⟩ := s.finish_eq
  · exact heq ▸ hclosed
  · exact heq ▸ hclosed.doom t

/-- **Turns lead from one scene of a run to another.** -/
theorem turns (h : x.Shapes s) (halone : ∀ task ∈ x.tasks, task.2.Alone) (ht : s.Turns t s') :
    x.Shapes s' := by
  cases ht with
  | rests _ => exact h
  | linesUp ht _ => exact { h with threads := h.threads }
  | takes ht hjobs =>
    refine h.become { h.toFits with jobs := fun job hjob => ?_ } rfl rfl rfl rfl ?_
    · exact h.jobs job (by rw [hjobs]; exact .tail _ hjob)
    · have := h.jobs _ (by rw [hjobs]; exact .head _)
      exact ⟨rfl, this, this.alone, this.outcome⟩
  | retires ht _ => exact h.become { h.toFits with } rfl rfl rfl rfl trivial
  | cancels ht _ => exact h.become { h.toFits with } rfl rfl rfl rfl rfl
  | runs ht _ halone hending _ =>
    obtain ⟨-, hknows, -, houtcome⟩ := h.threads t _ (Scene.activity?_eq ht)
    rw [h.answers] at hending
    exact h.become h.toFits rfl rfl rfl rfl ⟨rfl, hknows, halone, by rw [hending, houtcome]⟩
  | drops ht _ _ _ => exact h.become { h.toFits with } rfl rfl rfl rfl rfl
  | queues ht _ hrun _ =>
    obtain ⟨-, -, -, houtcome⟩ := h.threads t _ (Scene.activity?_eq ht)
    refine h.become { h.toFits with queue := fun c hc => ?_ } rfl rfl rfl rfl rfl
    obtain hc | hc := List.mem_append.1 hc
    · exact h.queue c hc
    · rw [List.mem_singleton.1 hc]
      exact ⟨_, (result_eq_ok h houtcome hrun).2⟩
  | holds ht _ hrun _ =>
    obtain ⟨-, hknows, -, houtcome⟩ := h.threads t _ (Scene.activity?_eq ht)
    obtain ⟨hresult, hc⟩ := result_eq_ok h houtcome hrun
    exact h.become { h.toFits with } rfl rfl rfl rfl ⟨rfl, hknows, hc, hresult⟩
  | fails ht _ _ =>
    exact (h.toss _).become { (h.toss _).toFits with } rfl rfl rfl rfl rfl
  | givesUp ht _ => exact h.become { h.toFits with } rfl rfl rfl rfl rfl
  | sends ht _ =>
    obtain ⟨-, -, hc', -⟩ := h.threads t _ (Scene.activity?_eq ht)
    refine h.become { h.toFits with queue := fun c hc => ?_ } rfl rfl rfl rfl rfl
    obtain hc | hc := List.mem_append.1 hc
    · exact h.queue c hc
    · rw [List.mem_singleton.1 hc]
      exact ⟨_, hc'⟩
  | halts ht _ => exact h.become { h.toFits with } rfl rfl rfl rfl trivial
  | schedules ht _ _ => exact h.schedule halone (Scene.activity?_eq ht)
  | isRefused ht _ _ => exact (h.toss _).become { (h.toss _).toFits with } rfl rfl rfl rfl trivial
  | awaits ht _ =>
    obtain ⟨-, hproducer, hproduction⟩ := h.threads t _ (Scene.activity?_eq ht)
    refine h.become h.toFits rfl rfl rfl rfl ⟨rfl, hproducer, .inr ⟨rfl, ?_⟩⟩
    have hdrop : x.tasks.drop s.registered = [] := by
      obtain heq | ⟨heq, -⟩ := hproduction
      · exact (Production.branches.inj heq).symm
      · cases heq
    exact h.registered.antisymm (List.drop_eq_nil_iff.1 hdrop)
  | completes ht _ _ => exact h.become { h.toFits with } rfl rfl rfl rfl trivial
  | leavesLine ht =>
    exact h.become (u := s.leaveLine t) { h.toFits with } rfl rfl rfl rfl trivial
  | abandons ht =>
    exact h.become (u := s.update Executor.finishTask) { h.toFits with } rfl rfl rfl rfl trivial
  | abandonsResult ht =>
    exact h.become (u := (s.update (Executor.leave t)).update Executor.finishTask)
      { h.toFits with } rfl rfl rfl rfl trivial
  | stops ht => exact h.become h.toFits rfl rfl rfl rfl trivial

/-- **Pulls lead from one scene of a run to another.** -/
theorem pulls {r : Pulled α} (h : x.Shapes s) (hr : s.Pulls r s') : x.Shapes s' := by
  cases hr with
  | isOver _ => exact h
  | passes _ hcurrent hc harrivals _ =>
    obtain ⟨xs, -, hxs⟩ := h.current _ hcurrent
    refine { h with current := fun c heq => ?_, threads := h.threads }
    cases heq
    rw [harrivals] at hxs
    cases xs with
    | nil => cases hxs
    | cons y ys => exact ⟨ys, hc, (List.cons.inj hxs).2⟩
  | getsOn _ hcurrent hc harrivals _ =>
    obtain ⟨xs, -, hxs⟩ := h.current _ hcurrent
    refine { h with current := fun c heq => ?_, threads := h.threads }
    cases heq
    exact ⟨xs, hc, harrivals ▸ hxs⟩
  | empties _ _ _ => exact { h with current := fun c heq => (by cases heq), threads := h.threads }
  | opens _ _ hqueue =>
    refine { h with
      queue := fun c hc => h.queue c (hqueue ▸ .tail _ hc)
      current := fun c heq => ?_
      threads := h.threads }
    cases heq
    exact h.queue _ (hqueue ▸ .head _)
  | fails _ _ _ _ => exact h.finish
  | ends _ _ _ _ => exact h.finish
  | waits _ _ _ _ => exact { h with threads := h.threads }

/-- **Steps from outside lead from one scene of a run to another.** -/
theorem outside {e : Step} (h : x.Shapes s) (he : s.Outside e s') : x.Shapes s' := by
  cases he with
  | time ms => exact { h with threads := h.threads }
  | abort => exact { h with cancelled := fun _ => rfl, threads := h.threads }
  | stopPool => exact { h with threads := h.threads }
  | interrupt _ _ => exact h.doom _
  | misses _ => exact h
  | discardJobs => exact { h with jobs := fun _ hjob => (by cases hjob), threads := h.threads }

end Shapes

end Setting

end FederatedSparql
