import FederatedSparql.Proofs.Machine.TurnFrames

/-!
Who works for a pool.

A worker belongs to its pool from the time the pool is started until the worker ends, and it ends
only when it is interrupted or nothing is left to do (`Machine.MayEnd`).  Nobody else begins to work
for a pool, and only starting and stopping a pool change what it is set to.

* `Machine.KeepsCrews`: what the turn of a thread keeps of all this (`keepsCrews_stepThread`).
* `Site.keepsCrews_step`: everything else but starting, stopping and giving up keeps it as well.
* `Site.accepting_run`: whether a pool takes jobs is the same for as long as nobody stops it.
* `Machine.Crewed`: the workers of a pool are among the threads that it has started, and those that
  are gone were interrupted or have left nothing to do (`Site.crewed_run_threads`).
-/

namespace FederatedSparql

variable {α β : Type}

namespace Machine

/-! ### What turns keep -/

/-- What the turn of a thread keeps of the crews, when the thread goes on with what `may` admits. -/
structure KeepsCrews (u : Nat) (may : Option PoolName → Prop) (m m' : Machine α) : Prop where
  threads : ∀ p, (m'.crew p).threads = (m.crew p).threads
  accepting : ∀ p, (m'.crew p).pool.accepting = (m.crew p).pool.accepting
  running : ∀ p, (m'.crew p).pool.running = (m.crew p).pool.running
  doomed : ∀ t, m.isDoomed t = true → m'.isDoomed t = true
  others : ∀ t ≠ u, m'.poolOf t = m.poolOf t
  own : m'.poolOf u = m.poolOf u ∨ may (m'.poolOf u)
  /-- A pool that takes no jobs keeps those it has, unless they are taken. -/
  jobs : ∀ p, (m.crew p).pool.accepting = false → ¬ may (some p) ∨ (m.crew p).jobs = [] →
    (m'.crew p).jobs = (m.crew p).jobs

namespace KeepsCrews

variable {u : Nat} {may : Option PoolName → Prop} {m m' m'' : Machine α}

/-- What changes neither crews nor threads. -/
theorem of_parts (hthreads : m'.threads = m.threads) (hjoin : m'.join = m.join)
    (hunion : m'.union = m.union) : KeepsCrews u may m m' := by
  have hcrew : m'.crew = m.crew := by
    funext p
    cases p
    exacts [hjoin, hunion]
  have hpool (t : Nat) : m'.poolOf t = m.poolOf t := by rw [poolOf, activity?, hthreads]; rfl
  constructor
  · intro p; rw [hcrew]
  · intro p; rw [hcrew]
  · intro p; rw [hcrew]
  · intro t ht; rwa [isDoomed, hthreads]
  · intro t _; exact hpool t
  · exact .inl (hpool u)
  · intro p _ _; rw [hcrew]

theorem refl (m : Machine α) : KeepsCrews u may m m := of_parts rfl rfl rfl

theorem trans (h : KeepsCrews u may m m') (h' : KeepsCrews u may m' m'') :
    KeepsCrews u may m m'' where
  threads p := (h'.threads p).trans (h.threads p)
  accepting p := (h'.accepting p).trans (h.accepting p)
  running p := (h'.running p).trans (h.running p)
  doomed t ht := h'.doomed t (h.doomed t ht)
  others t ht := (h'.others t ht).trans (h.others t ht)
  own := by
    rcases h'.own with hsame | hmay
    · rw [hsame]; exact h.own
    · exact .inr hmay
  jobs p haccepting hfree := by
    have hjobs := h.jobs p haccepting hfree
    rw [← hjobs] at hfree ⊢
    exact h'.jobs p ((h.accepting p).trans haccepting) hfree

/-- A thread changes, and nothing else. -/
theorem of_modify (m : Machine α) (t : Nat) {f : Thread α → Thread α}
    (hdoomed : ∀ th, th.doomed = true → (f th).doomed = true)
    (hpool : ∀ th, (f th).activity.pool? = th.activity.pool? ∨ t = u ∧ may (f th).activity.pool?) :
    KeepsCrews u may m { m with threads := m.threads.modify t f } := by
  have hpoolOf (i : Nat) : poolOf { m with threads := m.threads.modify t f } i =
      if i = t then (m.threads[i]?.map f).bind (·.activity.pool?) else m.poolOf i := by
    simp only [poolOf, activity?, Array.getElem?_modify, eq_comm (a := t)]
    split <;> cases m.threads[i]? <;> rfl
  have hsame (i : Nat) (hi : i ≠ u) :
      poolOf { m with threads := m.threads.modify t f } i = m.poolOf i := by
    rw [hpoolOf]
    split
    · next hit =>
      subst hit
      rw [poolOf, activity?]
      cases m.threads[i]? with
      | none => rfl
      | some th => exact (hpool th).resolve_right fun hown => hi hown.1
    · rfl
  constructor
  · intro p; rfl
  · intro p; rfl
  · intro p; rfl
  · intro i hi
    simp only [isDoomed, Array.getElem?_modify] at hi ⊢
    split
    · cases hth : m.threads[i]? with
      | none => simp [hth] at hi
      | some th => simpa using hdoomed th (by simpa [hth] using hi)
    · exact hi
  · exact hsame
  · rw [hpoolOf]
    split
    · next hut =>
      rw [poolOf, activity?]
      cases m.threads[u]? with
      | none => exact .inl rfl
      | some th => exact (hpool th).imp id And.right
    · exact .inl rfl
  · intro p _ _; rfl

end KeepsCrews

section Frame

variable {u : Nat} {may : Option PoolName → Prop}

theorem keepsCrews_wake (w : Waker) : Keeps (KeepsCrews u may) (wake w : Action α Unit) := by
  intro m
  cases w with
  | main => exact .of_parts rfl rfl rfl
  | thread t =>
    show KeepsCrews u may m (if m.ready.contains t then m else { m with ready := m.ready ++ [t] })
    split
    · exact .refl m
    · exact .of_parts rfl rfl rfl

theorem crew_updateCrew (p : PoolName) (f : Crew α → Crew α) (m : Machine α) (p' : PoolName) :
    (after (updateCrew p f) m).crew p' = if p' = p then f (m.crew p) else m.crew p' := by
  cases p <;> cases p' <;> rfl

theorem poolOf_updateCrew (p : PoolName) (f : Crew α → Crew α) (m : Machine α) (t : Nat) :
    (after (updateCrew p f) m).poolOf t = m.poolOf t := by
  cases p <;> rfl

theorem isDoomed_updateCrew (p : PoolName) (f : Crew α → Crew α) (m : Machine α) (t : Nat) :
    (after (updateCrew p f) m).isDoomed t = m.isDoomed t := by
  cases p <;> rfl

/-- One crew changes. -/
theorem KeepsCrews.of_updateCrew {m : Machine α} {p : PoolName} {f : Crew α → Crew α}
    (hthreads : (f (m.crew p)).threads = (m.crew p).threads)
    (haccepting : (f (m.crew p)).pool.accepting = (m.crew p).pool.accepting)
    (hrunning : (f (m.crew p)).pool.running = (m.crew p).pool.running)
    (hjobs : (m.crew p).pool.accepting = false → ¬ may (some p) ∨ (m.crew p).jobs = [] →
      (f (m.crew p)).jobs = (m.crew p).jobs) :
    KeepsCrews u may m (after (updateCrew p f) m) where
  threads p' := by
    rw [crew_updateCrew]
    split
    · next h => rw [hthreads, h]
    · rfl
  accepting p' := by
    rw [crew_updateCrew]
    split
    · next h => rw [haccepting, h]
    · rfl
  running p' := by
    rw [crew_updateCrew]
    split
    · next h => rw [hrunning, h]
    · rfl
  doomed t ht := by rwa [isDoomed_updateCrew]
  others t _ := poolOf_updateCrew p f m t
  own := .inl (poolOf_updateCrew p f m u)
  jobs p' hstopped hfree := by
    rw [crew_updateCrew]
    split
    · next h =>
      subst h
      exact hjobs hstopped hfree
    · rfl

theorem keepsCrews_spawn {a : Activity α} (ha : a.pool? = none) :
    Keeps (KeepsCrews u may) (spawn a) := by
  intro m
  have hpool (t : Nat) : poolOf { m with threads := m.threads.push { activity := a } } t =
      m.poolOf t := by
    simp only [poolOf, activity?, Array.getElem?_push]
    split
    · next ht => simp [ht, ha]
    · rfl
  have pushed : KeepsCrews u may m { m with threads := m.threads.push { activity := a } } :=
    { threads := fun _ => rfl
      accepting := fun _ => rfl
      running := fun _ => rfl
      doomed := fun t ht => by
        simp only [isDoomed, Array.getElem?_push] at ht ⊢
        split
        · next htm => simp [htm] at ht
        · exact ht
      others := fun t _ => hpool t
      own := .inl (hpool u)
      jobs := fun _ _ _ => rfl }
  exact pushed.trans (keepsCrews_wake (.thread m.threads.size) _)

theorem keepsCrews_wakeThread? (t : Option Nat) :
    Keeps (KeepsCrews u may) (wakeThread? t : Action α Unit) := by
  cases t with
  | none => exact .refl
  | some t => exact keepsCrews_wake (.thread t)

/-- A pool that takes no jobs is given none. -/
theorem keepsCrews_schedule (p : PoolName) (id : Nat) (name : String) (work : Work α) :
    Keeps (KeepsCrews u may) (schedule p id name work) := by
  intro m
  rw [schedule, after_get_bind]
  split
  · exact .refl m
  · exact .refl m
  · next e haccepting he =>
    split
    · exact .refl m
    · next task query hregister =>
      have htakes : (m.crew p).pool.accepting = true := by
        by_contra hstopped
        simp [Pool.checkAccepting, hstopped] at haccepting
      have hadded : KeepsCrews u may m
          (after (updateExecutor id Executor.addTask) { m with query }) := .of_parts rfl rfl rfl
      have hgiven : KeepsCrews u may (after (updateExecutor id Executor.addTask) { m with query })
          (after (updateCrew p fun c => { c with
            pool := c.pool.countScheduled
            jobs := c.jobs ++ [{ executor := id, task, name, work }] }) _) :=
        .of_updateCrew rfl rfl rfl fun hstopped =>
          absurd (hstopped.symm.trans htakes) Bool.false_ne_true
      exact (hadded.trans hgiven).trans (keepsCrews_wakeThread? _ _)

/-- **The turn of a thread keeps the crews**, as what it is made of does. -/
theorem turnFrame_keepsCrews : TurnFrame (α := α) (KeepsCrews u may) u may where
  refl := .refl
  trans := .trans
  wake := keepsCrews_wake
  doom t m := by
    have hdoomed : KeepsCrews u may m
        { m with threads := m.threads.modify t fun th => { th with doomed := true } } :=
      .of_modify m t (fun _ _ => rfl) fun _ => .inl rfl
    exact hdoomed.trans (keepsCrews_wake (.thread t) _)
  cancelBranch _ _ := .of_parts rfl rfl rfl
  close _ _ := .of_parts rfl rfl rfl
  wakeAt _ _ _ := .of_parts rfl rfl rfl
  registry _ _ := .of_parts rfl rfl rfl
  addExecutor _ _ := .of_parts rfl rfl rfl
  spawn _ _ := keepsCrews_spawn rfl
  update _ _ _ _ := .of_parts rfl rfl rfl
  take _ _ := .of_parts rfl rfl rfl
  query _ _ _ := .of_parts rfl rfl rfl
  updateExecutor _ _ _ := .of_parts rfl rfl rfl
  updateCrew p f h m := .of_updateCrew (h _).threads (h _).accepting (h _).running
    fun _ _ => (h _).jobs
  schedule := keepsCrews_schedule
  become a ha m := .of_modify m u (fun _ h => h) fun _ => .inr ⟨rfl, ha⟩
  takeJob hp hjobs := .of_updateCrew rfl rfl rfl fun _ hfree =>
    hfree.elim (absurd hp) fun hnone => absurd (hjobs.symm.trans hnone) nofun

end Frame

/-- The pools that a thread may belong to after its next turn. -/
def Admits (m : Machine α) (t : Nat) (pool? : Option PoolName) : Prop :=
  m.isDoomed t = false ∧ pool? = m.poolOf t ∨ pool? = none ∧ m.MayEnd t

theorem keepsCrews_stepThread [BEq α] (m : Machine α) (t : Nat) :
    KeepsCrews t (m.Admits t) m (after (stepThread t) m) := by
  apply turnFrame_keepsCrews.keeps_stepThread
  · intro hkept
    exact .inl ⟨hkept, rfl⟩
  · intro hends
    exact .inr ⟨rfl, hends⟩

/-! ### Starting a pool -/

/-- What starting a pool makes of the crews: workers are hired for the pool, and nobody leaves. -/
structure Hires (p : PoolName) (m m' : Machine α) : Prop where
  kept : ∀ t p', m.poolOf t = some p' → m'.poolOf t = some p'
  hired : ∀ t p', m'.poolOf t = some p' → m.poolOf t = some p' ∨ p' = p ∧ t ∈ (m'.crew p).threads
  threads : ∀ p', (m.crew p').threads ⊆ (m'.crew p').threads
  started : ∀ t p', t ∈ (m'.crew p').threads → t ∈ (m.crew p').threads ∨ m'.poolOf t = some p'
  doomed : ∀ t, m.isDoomed t = true → m'.isDoomed t = true
  accepting : ∀ p', (m'.crew p').pool.accepting = (m.crew p').pool.accepting
  jobs : ∀ p', (m'.crew p').jobs = (m.crew p').jobs

namespace Hires

variable {p : PoolName} {m m' m'' : Machine α}

theorem of_parts (hthreads : m'.threads = m.threads) (hjoin : m'.join = m.join)
    (hunion : m'.union = m.union) : Hires p m m' := by
  have hcrew : m'.crew = m.crew := by
    funext p
    cases p
    exacts [hjoin, hunion]
  have hpool (t : Nat) : m'.poolOf t = m.poolOf t := by rw [poolOf, activity?, hthreads]; rfl
  constructor
  · intro t p' ht; rwa [hpool]
  · intro t p' ht; rw [hpool] at ht; exact .inl ht
  · intro p'; rw [hcrew]; exact List.Subset.refl _
  · intro t p' ht; rw [hcrew] at ht; exact .inl ht
  · intro t ht; rwa [isDoomed, hthreads]
  · intro p'; rw [hcrew]
  · intro p'; rw [hcrew]

theorem refl (m : Machine α) : Hires p m m := of_parts rfl rfl rfl

theorem trans (h : Hires p m m') (h' : Hires p m' m'') : Hires p m m'' where
  kept t p' ht := h'.kept t p' (h.kept t p' ht)
  hired t p' ht := by
    rcases h'.hired t p' ht with hbefore | hnew
    · exact (h.hired t p' hbefore).imp id (And.imp id (h'.threads p ·))
    · exact .inr hnew
  threads p' := List.Subset.trans (h.threads p') (h'.threads p')
  started t p' ht := by
    rcases h'.started t p' ht with hbefore | hnew
    · exact (h.started t p' hbefore).imp id (h'.kept t p')
    · exact .inr hnew
  doomed t ht := h'.doomed t (h.doomed t ht)
  accepting p' := (h'.accepting p').trans (h.accepting p')
  jobs p' := (h'.jobs p').trans (h.jobs p')

end Hires

theorem threads_wake (t : Nat) (m : Machine α) :
    (after (wake (.thread t)) m).threads = m.threads := by
  show (if m.ready.contains t then m else { m with ready := m.ready ++ [t] }).threads = m.threads
  split <;> rfl

theorem crew_wake (t : Nat) (m : Machine α) : (after (wake (.thread t)) m).crew = m.crew := by
  show (if m.ready.contains t then m else { m with ready := m.ready ++ [t] }).crew = m.crew
  split <;> rfl

/-- A worker is hired. -/
theorem hires_worker (p : PoolName) : Keeps (Hires (α := α) p) (do
    let t ← spawn (.idle p)
    updateCrew p fun c => { c with threads := c.threads ++ [t] }) := by
  intro m
  let pushed : Machine α := { m with threads := m.threads.push { activity := .idle p } }
  let m' := after (wake (.thread m.threads.size)) pushed
  show Hires p m
    (after (updateCrew p fun c => { c with threads := c.threads ++ [m.threads.size] }) m')
  have hthreads : m'.threads = m.threads.push { activity := .idle p } := threads_wake _ pushed
  have hcrew (p' : PoolName) : m'.crew p' = m.crew p' := congrFun (crew_wake _ pushed) p'
  have hpool (t : Nat) : m'.poolOf t = if t = m.threads.size then some p else m.poolOf t := by
    simp only [poolOf, activity?, hthreads, Array.getElem?_push]
    split <;> rfl
  have hnew : m.poolOf m.threads.size = none := by simp [poolOf, activity?]
  constructor
  · intro t p' ht
    rw [poolOf_updateCrew, hpool, if_neg]
    · exact ht
    · rintro rfl
      simp [hnew] at ht
  · intro t p' ht
    rw [poolOf_updateCrew, hpool] at ht
    split at ht
    · next hsize =>
      right
      rw [crew_updateCrew, if_pos rfl]
      exact ⟨(Option.some.inj ht).symm, by simp [hsize]⟩
    · exact .inl ht
  · intro p'
    rw [crew_updateCrew, ← hcrew]
    split
    · next h => rw [h]; exact List.subset_append_left _ _
    · exact List.Subset.refl _
  · intro t p' ht
    rw [crew_updateCrew] at ht
    rw [← hcrew]
    split at ht
    · next h =>
      rcases List.mem_append.mp ht with hold | hlast
      · exact .inl (h ▸ hold)
      · right
        rw [poolOf_updateCrew, hpool, if_pos (List.mem_singleton.mp hlast), h]
    · exact .inl ht
  · intro t ht
    rw [isDoomed_updateCrew]
    simp only [isDoomed, hthreads, Array.getElem?_push] at ht ⊢
    split
    · next hsize => simp [hsize] at ht
    · exact ht
  · intro p'
    rw [crew_updateCrew, ← hcrew]
    split
    · next h => rw [h]
    · rfl
  · intro p'
    rw [crew_updateCrew, ← hcrew]
    split
    · next h => rw [h]
    · rfl

/-- A pool is set to run. -/
theorem hires_setRunning (p : PoolName) :
    Keeps (Hires (α := α) p) (updatePool p fun pool => { pool with running := true }) := by
  intro m
  have hcrew (p' : PoolName) :
      let c := (after (updatePool p fun pool => { pool with running := true }) m).crew p'
      c.threads = (m.crew p').threads ∧ c.pool.accepting = (m.crew p').pool.accepting ∧
        c.jobs = (m.crew p').jobs := by
    rw [updatePool, crew_updateCrew]
    split
    · next h => rw [h]; exact ⟨rfl, rfl, rfl⟩
    · exact ⟨rfl, rfl, rfl⟩
  constructor
  · intro t p' ht; rwa [updatePool, poolOf_updateCrew]
  · intro t p' ht; rw [updatePool, poolOf_updateCrew] at ht; exact .inl ht
  · intro p'; rw [(hcrew p').1]; exact List.Subset.refl _
  · intro t p' ht; rw [(hcrew p').1] at ht; exact .inl ht
  · intro t ht; rwa [updatePool, isDoomed_updateCrew]
  · intro p'; exact (hcrew p').2.1
  · intro p'; exact (hcrew p').2.2

theorem hires_startPool (p : PoolName) : Keeps (Hires (α := α) p) (startPool p) := by
  intro m
  rw [startPool, after_get_bind]
  dsimp only
  split
  · exact .refl m
  · apply (hires_setRunning p m).trans
    rw [after_bind]
    generalize after (updatePool p _) m = m, List.range _ = ids
    induction ids generalizing m with
    | nil => exact .refl m
    | cons id ids ih =>
      rw [List.forIn_cons]
      exact (hires_worker p m).trans (ih _)

/-! ### Stopping a pool -/

theorem threads_stopIntake (p : PoolName) (m : Machine α) :
    (after (stopIntake p) m).threads = m.threads := by
  show (after (wakeThread? (m.crew p).line.head?)
    (after (updateCrew p fun c => { c with pool := c.pool.stop, threads := [] }) m)).threads = _
  cases (m.crew p).line.head? with
  | none => cases p <;> rfl
  | some t =>
    rw [wakeThread?, threads_wake]
    cases p <;> rfl

theorem crew_stopIntake (p p' : PoolName) (m : Machine α) :
    (after (stopIntake p) m).crew p' =
      if p' = p then { m.crew p with pool := (m.crew p).pool.stop, threads := [] }
      else m.crew p' := by
  rw [← crew_updateCrew p fun c => { c with pool := c.pool.stop, threads := [] }]
  show (after (wakeThread? (m.crew p).line.head?)
    (after (updateCrew p fun c => { c with pool := c.pool.stop, threads := [] }) m)).crew p' = _
  cases (m.crew p).line.head? with
  | none => rfl
  | some t => rw [wakeThread?, crew_wake]

/-! ### What nothing changes -/

/-- What is kept of the workers of a pool, whatever happens. -/
structure Staffs (p : PoolName) (m m' : Machine α) : Prop where
  doomed : ∀ t, m.isDoomed t = true → m'.isDoomed t = true
  stopped : (m.crew p).pool.accepting = false → (m'.crew p).pool.accepting = false
  drained : (m.crew p).pool.accepting = false → (m.crew p).jobs = [] → (m'.crew p).jobs = []
  /-- A worker leaves its pool only when it is interrupted, or when nothing is left to do. -/
  leaves : ∀ t, m.poolOf t = some p → m'.poolOf t = some p ∨ m'.isDoomed t = true ∨
    (m'.crew p).pool.accepting = false ∧ (m'.crew p).jobs = []

namespace Staffs

variable {p : PoolName} {u : Nat} {m m' m'' : Machine α}

/-- The turn of a thread that may come to its end. -/
theorem of_turn (h : KeepsCrews u (m.Admits u) m m') : Staffs p m m' where
  doomed := h.doomed
  stopped hstopped := (h.accepting p).trans hstopped
  drained hstopped hjobs := (h.jobs p hstopped (.inr hjobs)).trans hjobs
  leaves t ht := by
    by_cases htu : t = u
    · subst htu
      rcases h.own with hsame | ⟨-, hsame⟩ | ⟨-, hends⟩
      · exact .inl (hsame.trans ht)
      · exact .inl (hsame.trans ht)
      · rcases hends p ht with hdoomed | ⟨hjobs, hstopped⟩
        · exact .inr (.inl (h.doomed t hdoomed))
        · have hjobs' := (h.jobs p hstopped (.inr hjobs)).trans hjobs
          exact .inr (.inr ⟨(h.accepting p).trans hstopped, hjobs'⟩)
    · exact .inl ((h.others t htu).trans ht)

theorem trans (h : Staffs p m m') (h' : Staffs p m' m'') : Staffs p m m'' where
  doomed t ht := h'.doomed t (h.doomed t ht)
  stopped hstopped := h'.stopped (h.stopped hstopped)
  drained hstopped hjobs := h'.drained (h.stopped hstopped) (h.drained hstopped hjobs)
  leaves t ht := by
    rcases h.leaves t ht with hstays | hdoomed | ⟨hstopped, hjobs⟩
    · exact h'.leaves t hstays
    · exact .inr (.inl (h'.doomed t hdoomed))
    · exact .inr (.inr ⟨h'.stopped hstopped, h'.drained hstopped hjobs⟩)

theorem of_keepsCrews (h : ∀ u may, KeepsCrews u may m m') : Staffs p m m' := of_turn (h 0 _)

theorem of_hires {p' : PoolName} (h : Hires p' m m') : Staffs p m m' where
  doomed := h.doomed
  stopped hstopped := (h.accepting p).trans hstopped
  drained _ hjobs := (h.jobs p).trans hjobs
  leaves t ht := .inl (h.kept t p ht)

end Staffs

theorem staffs_stopIntake (p p' : PoolName) : Keeps (Staffs (α := α) p) (stopIntake p') := by
  intro m
  have hcrew := crew_stopIntake p' p m
  constructor
  · intro t ht
    rwa [isDoomed, threads_stopIntake]
  · intro hstopped
    rw [hcrew]
    split
    · rfl
    · exact hstopped
  · intro _ hjobs
    rw [hcrew]
    split
    · next h => rw [← h]; exact hjobs
    · exact hjobs
  · intro t ht
    left
    rwa [poolOf, activity?, threads_stopIntake]

theorem staffs_giveUp (p p' : PoolName) :
    Keeps (Staffs (α := α) p) (updateCrew p' fun c => { c with jobs := [] }) := by
  intro m
  have hcrew := crew_updateCrew p' (fun c => { c with jobs := [] }) m p
  constructor
  · intro t ht
    rwa [isDoomed_updateCrew]
  · intro hstopped
    rw [hcrew]
    split
    · next h => rw [← h]; exact hstopped
    · exact hstopped
  · intro _ hjobs
    rw [hcrew]
    split
    · rfl
    · exact hjobs
  · intro t ht
    left
    rwa [poolOf_updateCrew]

/-- What is kept of the workers of a pool unless it is started: nobody begins to work for it. -/
structure Dwindles (p : PoolName) (m m' : Machine α) : Prop extends Staffs p m m' where
  nobody : ∀ t, m'.poolOf t = some p → m.poolOf t = some p

namespace Dwindles

variable {p : PoolName} {u : Nat} {m m' m'' : Machine α}

theorem of_turn (h : KeepsCrews u (m.Admits u) m m') : Dwindles p m m' where
  toStaffs := .of_turn h
  nobody t ht := by
    by_cases htu : t = u
    · subst htu
      rcases h.own with hsame | ⟨-, hsame⟩ | ⟨hnone, -⟩
      · exact hsame.symm.trans ht
      · exact hsame.symm.trans ht
      · exact absurd (hnone.symm.trans ht) nofun
    · exact (h.others t htu).symm.trans ht

theorem of_keepsCrews (h : ∀ u may, KeepsCrews u may m m') : Dwindles p m m' := of_turn (h 0 _)

theorem refl (m : Machine α) : Dwindles p m m := of_keepsCrews fun _ _ => .refl m

theorem trans (h : Dwindles p m m') (h' : Dwindles p m' m'') : Dwindles p m m'' where
  toStaffs := h.toStaffs.trans h'.toStaffs
  nobody t ht := h.nobody t (h'.nobody t ht)

end Dwindles

/-! ### Crews -/

/-- The workers of a pool are among some threads, and those that are gone were interrupted or have
left nothing to do. -/
structure Crewed (m : Machine α) (p : PoolName) (workers : List Nat) : Prop where
  all : ∀ t, m.poolOf t = some p → t ∈ workers
  gone : ∀ t ∈ workers, m.poolOf t = some p ∨ m.isDoomed t = true ∨
    (m.crew p).pool.accepting = false ∧ (m.crew p).jobs = []

/-- Those who have left nothing to do leave it so. -/
theorem Crewed.gone_staffs {p : PoolName} {workers : List Nat} {m m' : Machine α}
    (h : m.Crewed p workers) (hstaffs : Staffs p m m') {t : Nat} (ht : t ∈ workers) :
    m'.poolOf t = some p ∨ m'.isDoomed t = true ∨
      (m'.crew p).pool.accepting = false ∧ (m'.crew p).jobs = [] := by
  rcases h.gone t ht with hstays | hdoomed | ⟨hstopped, hjobs⟩
  · exact hstaffs.leaves t hstays
  · exact .inr (.inl (hstaffs.doomed t hdoomed))
  · exact .inr (.inr ⟨hstaffs.stopped hstopped, hstaffs.drained hstopped hjobs⟩)

theorem Crewed.dwindles {p : PoolName} {workers : List Nat} {m m' : Machine α}
    (h : m.Crewed p workers) (hdwindles : Dwindles p m m') : m'.Crewed p workers where
  all t ht := h.all t (hdwindles.nobody t ht)
  gone _ ht := h.gone_staffs hdwindles.toStaffs ht

end Machine

open Machine

/-! ### Moves -/

/-- Whether a move is none of a thread, and starts, stops or empties no pool. -/
def Move.isPlain : Move → Bool
  | .thread _ | .startPool _ | .stopIntake _ | .giveUp _ => false
  | _ => true

namespace Site

section Moves

variable {s : Site} {p : PoolName} {t : Nat} {move : Move}

/-- **What is not done by threads keeps the crews**, unless it is starting, stopping or giving up. -/
theorem keepsCrews_step (h : move.isPlain = true) (s : Site) (u : Nat)
    (may : Option PoolName → Prop) : KeepsCrews u may s.machine (s.step move).machine := by
  have hR : TurnFrame (α := Bindings) (KeepsCrews u may) u may := turnFrame_keepsCrews
  have acts {q : Nat} {β : Type} {a : Machine.Action Bindings β}
      (ha : Keeps (KeepsCrews u may) a) : KeepsCrews u may s.machine (s.act q a).machine := by
    have hseen : KeepsCrews u may s.machine (s.seen q) := .of_parts rfl rfl rfl
    exact hseen.trans (ha (s.seen q))
  cases move with
  | thread t => simp [Move.isPlain] at h
  | poll q => exact acts (hR.keeps_stepQuery _)
  | close q => exact acts (hR.keeps_close _)
  | abort q => exact acts hR.keeps_abortQuery
  | deed q d => exact acts (d.keeps hR)
  | schedule p id name work => exact acts (hR.schedule p id name work)
  | addResult id result => exact acts (hR.keeps_addResult id result)
  | count id =>
    show KeepsCrews u may s.machine (s.count id).machine
    unfold count
    split
    · exact .refl _
    · split
      · exact .refl _
      · exact hR.updateExecutor id _ s.machine
  | startPool p => simp [Move.isPlain] at h
  | stopIntake p => simp [Move.isPlain] at h
  | interrupt t => exact acts (hR.doom t)
  | giveUp p => simp [Move.isPlain] at h
  | time ms => exact .of_parts rfl rfl rfl

theorem keepsCrews_turn (s : Site) (t : Nat) :
    KeepsCrews t (s.machine.Admits t) s.machine (s.step (.thread t)).machine := by
  have hseen : KeepsCrews t (s.machine.Admits t) s.machine (s.seen (s.client t)) :=
    .of_parts rfl rfl rfl
  exact hseen.trans (keepsCrews_stepThread (s.seen (s.client t)) t)

/-- Jobs that are given up leave the crews alone but for themselves. -/
theorem keepsCrews_finishJobs (jobs : List (Job Bindings)) (s : Site) (u : Nat)
    (may : Option PoolName → Prop) : KeepsCrews u may s.machine (s.finishJobs jobs).machine := by
  induction jobs generalizing s with
  | nil => exact .refl _
  | cons job jobs ih =>
    have hseen : KeepsCrews u may s.machine (s.seen (s.owner job.executor)) :=
      .of_parts rfl rfl rfl
    have hfinished : Keeps (KeepsCrews u may) (finishJob job) :=
      turnFrame_keepsCrews.keeps_finishJob job
    exact (hseen.trans (hfinished _)).trans (ih (s.act (s.owner job.executor) (finishJob job)))

theorem keepsCrews_giveUp (s : Site) (p : PoolName) (u : Nat) (may : Option PoolName → Prop) :
    KeepsCrews u may (after (updateCrew p fun c => { c with jobs := [] }) s.machine)
      (s.step (.giveUp p)).machine := by
  have hseen : KeepsCrews u may (after (updateCrew p fun c => { c with jobs := [] }) s.machine)
      (s.act 0 (updateCrew p fun c => { c with jobs := [] })).machine := by
    cases p <;> exact .of_parts rfl rfl rfl
  exact hseen.trans (keepsCrews_finishJobs _ _ u may)

theorem hires_step (s : Site) (p : PoolName) :
    Hires p s.machine (s.step (.startPool p)).machine := by
  have hseen : Hires p s.machine (s.seen 0) := .of_parts rfl rfl rfl
  exact hseen.trans (hires_startPool p (s.seen 0))

theorem threads_step_stopIntake (s : Site) (p : PoolName) :
    (s.step (.stopIntake p)).machine.threads = s.machine.threads :=
  threads_stopIntake p (s.seen 0)

theorem crew_step_stopIntake (s : Site) (p p' : PoolName) :
    (s.step (.stopIntake p)).machine.crew p' =
      if p' = p then
        { s.machine.crew p with pool := (s.machine.crew p).pool.stop, threads := [] }
      else s.machine.crew p' := by
  have h := crew_stopIntake p p' (s.seen 0)
  cases p <;> cases p' <;> exact h

/-- **Whatever happens, workers leave a pool only when they are interrupted or nothing is left to
do.** -/
theorem staffs_step (s : Site) (p : PoolName) (move : Move) :
    Staffs p s.machine (s.step move).machine := by
  cases move with
  | thread t => exact .of_turn (keepsCrews_turn s t)
  | startPool p' => exact .of_hires (hires_step s p')
  | stopIntake p' =>
    have hseen : Staffs p s.machine (s.seen 0) := .of_keepsCrews fun _ _ => .of_parts rfl rfl rfl
    exact hseen.trans (staffs_stopIntake p p' (s.seen 0))
  | giveUp p' =>
    exact (staffs_giveUp p p' s.machine).trans (.of_keepsCrews (keepsCrews_giveUp s p'))
  | _ => exact .of_keepsCrews (keepsCrews_step rfl s)

/-- **Nobody begins to work for a pool unless the pool is started.** -/
theorem dwindles_step (hmove : move ≠ .startPool p) (s : Site) :
    Dwindles p s.machine (s.step move).machine where
  toStaffs := staffs_step s p move
  nobody t ht := by
    cases move with
    | thread u => exact (Dwindles.of_turn (keepsCrews_turn s u)).nobody t ht
    | startPool p' =>
      rcases (hires_step s p').hired t p ht with hbefore | ⟨rfl, -⟩
      · exact hbefore
      · exact absurd rfl hmove
    | stopIntake p' => rwa [poolOf, activity?, threads_step_stopIntake] at ht
    | giveUp p' =>
      have h := (keepsCrews_giveUp s p' (t + 1) fun _ => True).others t (Nat.succ_ne_self t).symm
      rwa [h, poolOf_updateCrew] at ht
    | _ => exact (Dwindles.of_keepsCrews (keepsCrews_step rfl s)).nobody t ht

/-- Whether a pool takes jobs changes only when it is stopped. -/
theorem accepting_step (hmove : move ≠ .stopIntake p) :
    ((s.step move).machine.crew p).pool.accepting = (s.machine.crew p).pool.accepting := by
  cases move with
  | thread u => exact (keepsCrews_turn s u).accepting p
  | startPool p' => exact (hires_step s p').accepting p
  | stopIntake p' =>
    rw [crew_step_stopIntake, if_neg]
    rintro rfl
    exact hmove rfl
  | giveUp p' =>
    rw [(keepsCrews_giveUp s p' 0 fun _ => True).accepting p, crew_updateCrew]
    split
    · next h => rw [h]
    · rfl
  | _ => exact (keepsCrews_step rfl s 0 fun _ => True).accepting p

/-- The threads that a pool has started change only when pools are started or stopped. -/
theorem threads_step (hstart : ∀ p', move ≠ .startPool p') (hstop : move ≠ .stopIntake p) :
    ((s.step move).machine.crew p).threads = (s.machine.crew p).threads := by
  cases move with
  | thread u => exact (keepsCrews_turn s u).threads p
  | startPool p' => exact absurd rfl (hstart p')
  | stopIntake p' =>
    rw [crew_step_stopIntake, if_neg]
    rintro rfl
    exact hstop rfl
  | giveUp p' =>
    rw [(keepsCrews_giveUp s p' 0 fun _ => True).threads p, crew_updateCrew]
    split
    · next h => rw [h]
    · rfl
  | _ => exact (keepsCrews_step rfl s 0 fun _ => True).threads p

/-- **A pool that takes no jobs keeps those it has when all its workers are interrupted**, unless
they are given up. -/
theorem jobs_step (hstopped : (s.machine.crew p).pool.accepting = false)
    (hdoomed : ∀ t, s.machine.poolOf t = some p → s.machine.isDoomed t = true)
    (hmove : move ≠ .giveUp p) :
    ((s.step move).machine.crew p).jobs = (s.machine.crew p).jobs := by
  cases move with
  | thread u =>
    apply (keepsCrews_turn s u).jobs p hstopped
    left
    rintro (⟨hkept, hpool⟩ | ⟨hnone, -⟩)
    · exact absurd (hdoomed u hpool.symm) (by simp [hkept])
    · exact absurd hnone nofun
  | startPool p' => exact (hires_step s p').jobs p
  | stopIntake p' =>
    rw [crew_step_stopIntake]
    split
    · next h => rw [h]
    · rfl
  | giveUp p' =>
    have hne : p ≠ p' := by
      rintro rfl
      exact hmove rfl
    have hcrew := crew_updateCrew p' (fun c => { c with jobs := [] }) s.machine p
    rw [if_neg hne] at hcrew
    rw [(keepsCrews_giveUp s p' 0 fun _ => False).jobs p, hcrew]
    · rw [hcrew]; exact hstopped
    · exact .inl id
  | _ => exact (keepsCrews_step rfl s 0 fun _ => False).jobs p hstopped (.inl id)

end Moves

/-! ### Runs -/

/-- **Whether a pool takes jobs is the same for as long as nobody stops it.** -/
theorem accepting_run {p : PoolName} {moves : List Move} (hmoves : .stopIntake p ∉ moves)
    (s : Site) :
    ((s.run moves).machine.crew p).pool.accepting = (s.machine.crew p).pool.accepting := by
  induction moves generalizing s with
  | nil => rfl
  | cons move moves ih =>
    rw [List.mem_cons, not_or] at hmoves
    exact (ih hmoves.2 (s.step move)).trans (accepting_step (Ne.symm hmoves.1))

section Crewing

variable {s : Site} {p : PoolName} {workers : List Nat} {move : Move} {moves : List Move}

/-- **The workers of a pool are the threads that it has started**, before it is stopped. -/
theorem crewed_step_threads (h : s.machine.Crewed p (s.machine.crew p).threads)
    (hmove : move ≠ .stopIntake p) :
    (s.step move).machine.Crewed p ((s.step move).machine.crew p).threads := by
  by_cases hstart : ∃ p', move = .startPool p'
  · obtain ⟨p', rfl⟩ := hstart
    have hhires := hires_step s p'
    constructor
    · intro t ht
      rcases hhires.hired t p ht with hbefore | ⟨rfl, hnew⟩
      · exact hhires.threads p (h.all t hbefore)
      · exact hnew
    · intro t ht
      rcases hhires.started t p ht with hbefore | hnew
      · exact h.gone_staffs (staffs_step s p _) hbefore
      · exact .inl hnew
  · rw [not_exists] at hstart
    rw [threads_step hstart hmove]
    exact h.dwindles (dwindles_step (hstart p) s)

theorem dwindles_run (hmoves : .startPool p ∉ moves) (s : Site) :
    Dwindles p s.machine (s.run moves).machine := by
  induction moves generalizing s with
  | nil => exact .refl _
  | cons move moves ih =>
    rw [List.mem_cons, not_or] at hmoves
    exact (dwindles_step (Ne.symm hmoves.1) s).trans (ih hmoves.2 (s.step move))

theorem crewed_run_threads (h : s.machine.Crewed p (s.machine.crew p).threads)
    (hmoves : .stopIntake p ∉ moves) :
    (s.run moves).machine.Crewed p ((s.run moves).machine.crew p).threads := by
  induction moves generalizing s with
  | nil => exact h
  | cons move moves ih =>
    rw [List.mem_cons, not_or] at hmoves
    exact ih (crewed_step_threads h (Ne.symm hmoves.1)) hmoves.2

theorem crewed_site (x : Opening) (p : PoolName) :
    x.site.machine.Crewed p (x.site.machine.crew p).threads := by
  constructor
  · intro t ht
    simp [Opening.site, poolOf, activity?] at ht
  · intro t ht
    cases p <;> simp [Opening.site, crew] at ht

end Crewing

end Site

end FederatedSparql
