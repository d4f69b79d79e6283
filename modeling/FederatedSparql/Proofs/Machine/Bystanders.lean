import FederatedSparql.Proofs.Machine.TurnFrames

/-!
What others do leaves a thread alone.

A thread says itself what it does next: pulling, closing, scheduling and the turns of other threads
do not say it for it.

* `Machine.Spares t`: what thread `t` does is the same in two machines.
* `Machine.turnFrame_spares`: this is kept by whatever the turns of other threads are made of.
* `Site.activity?_step`: every move but its own turn leaves a thread alone.
-/

namespace FederatedSparql

namespace Machine

variable {α β γ : Type} {t u : Nat}

/-- What a thread does is left as it is. -/
def Spares (t : Nat) (m m' : Machine α) : Prop :=
  ∀ a, m.activity? t = some a → m'.activity? t = some a

/-! ### Parts of the machine -/

theorem Spares.of_threads {m m' : Machine α} (h : m'.threads = m.threads) : Spares t m m' := by
  intro a ha
  rwa [activity?, h]

theorem spares_modify {f : Machine α → Machine α} (h : ∀ m, (f m).threads = m.threads) :
    Keeps (Spares t) (modify f : Action α Unit) := fun m => .of_threads (h m)

theorem spares_updateExecutor (id : Nat) (f : Executor α → Executor α) :
    Keeps (Spares t) (updateExecutor id f) := spares_modify fun _ => rfl

theorem spares_updateCrew (p : PoolName) (f : Crew α → Crew α) :
    Keeps (Spares t) (updateCrew p f) :=
  spares_modify fun _ => by cases p <;> rfl

theorem spares_updatePool (p : PoolName) (f : Pool → Pool) :
    Keeps (Spares t) (updatePool p f : Action α Unit) := spares_updateCrew p _

/-- Threads change that go on with what they do. -/
theorem Spares.of_modify (m : Machine α) (u : Nat) {f : Thread α → Thread α}
    (h : t = u → ∀ th, (f th).activity = th.activity) :
    Spares t m { m with threads := m.threads.modify u f } := by
  intro a ha
  simp only [activity?, Option.map_eq_some_iff] at ha ⊢
  obtain ⟨th, hth, rfl⟩ := ha
  by_cases htu : u = t
  · exact ⟨f th, by rw [Array.getElem?_modify, if_pos htu, hth]; rfl, h htu.symm th⟩
  · exact ⟨th, by rw [Array.getElem?_modify, if_neg htu, hth], rfl⟩

theorem spares_become (h : t ≠ u) (a : Activity α) : Keeps (Spares t) (become u a) :=
  fun m => .of_modify m u fun htu => absurd htu h

theorem spares_wake (w : Waker) : Keeps (Spares t) (wake w : Action α Unit) := by
  cases w with
  | main => exact spares_modify fun _ => rfl
  | thread u => exact spares_modify fun m => by split <;> rfl

theorem spares_spawn (a : Activity α) : Keeps (Spares t) (spawn a) := by
  intro m
  have pushed : Spares t m { m with threads := m.threads.push { activity := a } } := by
    intro b hb
    simp only [activity?, Option.map_eq_some_iff] at hb ⊢
    obtain ⟨th, hth, rfl⟩ := hb
    have ht := (Array.getElem?_eq_some_iff.mp hth).1
    exact ⟨th, by rw [Array.getElem?_push, if_neg (by omega), hth], rfl⟩
  intro b hb
  exact spares_wake (.thread m.threads.size) _ b (pushed b hb)

theorem activity?_spawn (a : Activity α) (m : Machine α) :
    (after (spawn a) m).activity? m.threads.size = some a := by
  have pushed : activity? { m with threads := m.threads.push { activity := a } } m.threads.size =
      some a := by simp [activity?]
  exact spares_wake (.thread m.threads.size) _ a pushed

/-- An executor is started with a producer of its own. -/
theorem activity?_startExecutor (m : Machine α) (firstOnly : Bool)
    (production : Production α) :
    (after (startExecutor firstOnly production) m).activity? m.threads.size =
      some (.producing m.executors.size production) := by
  have spawned := activity?_spawn (.producing m.executors.size production)
    { m with
      query := m.query.addBranch.2
      executors := m.executors.push { branch := m.query.branches.size, firstOnly } }
  exact spares_updateExecutor m.executors.size _ _ _ spawned

/-- **Pulling leaves what threads do alone**, as each of its parts does. -/
theorem pullFrame_spares (t : Nat) : PullFrame (α := α) (Spares t) where
  refl _ _ h := h
  trans h h' a ha := h' a (h a ha)
  wake := spares_wake
  doom u m := by
    intro a ha
    have doomed : Spares t m
        { m with threads := m.threads.modify u fun th => { th with doomed := true } } :=
      .of_modify m u fun _ _ => rfl
    exact spares_wake (.thread u) _ a (doomed a ha)
  cancelBranch _ := spares_modify fun _ => rfl
  close id := spares_updateExecutor id Executor.close
  wakeAt _ _ := spares_modify fun _ => rfl
  registry _ := spares_modify fun _ => rfl
  addExecutor _ _ := .of_threads rfl
  spawn _ _ := spares_spawn _
  update id f _ := spares_updateExecutor id f
  take _ _ := .of_threads rfl

/-- **The turns of other threads leave what a thread does alone**, and so does what nobody does on
a thread, which is why `u` may be any other number there. -/
theorem turnFrame_spares (h : t ≠ u) : TurnFrame (α := α) (Spares t) u fun _ => True where
  toPullFrame := pullFrame_spares t
  query _ _ := spares_modify fun _ => rfl
  updateExecutor id f := spares_updateExecutor id f
  updateCrew p f _ := spares_updateCrew p f
  schedule p id name work := by
    have hR := pullFrame_spares (α := α) t
    apply Frame.keeps_get
    intro m
    split
    · exact hR.keeps_pure _
    · exact hR.keeps_pure _
    · split
      · exact hR.keeps_pure _
      · exact hR.bind (spares_modify fun _ => rfl) fun _ =>
          hR.bind (spares_updateExecutor id _) fun _ => hR.bind (spares_updateCrew p _) fun _ =>
            hR.bind (hR.keeps_wakeThread? _) fun _ => hR.keeps_pure _
  become a _ := spares_become h a
  takeJob _ _ := spares_updateCrew _ _ _

/-- What nobody does on a thread leaves all threads alone. -/
theorem turnFrame_spares_all (t : Nat) : TurnFrame (α := α) (Spares t) (t + 1) fun _ => True :=
  turnFrame_spares (Nat.succ_ne_self t).symm

/-! ### Pools -/

theorem spares_startPool (t : Nat) (p : PoolName) :
    Keeps (Spares t) (startPool p : Action α Unit) := by
  have hR := pullFrame_spares (α := α) t
  apply Frame.keeps_get
  intro m
  dsimp only
  split
  · exact hR.keeps_pure _
  · exact hR.bind (spares_updatePool p _) fun _ => hR.bind (hR.keeps_forIn _ fun _ =>
      hR.bind (spares_spawn _) fun _ => hR.bind (spares_updateCrew p _) fun _ =>
        hR.keeps_pure _) fun _ => hR.keeps_pure _

theorem spares_stopIntake (t : Nat) (p : PoolName) :
    Keeps (Spares t) (stopIntake p : Action α _) := by
  have hR := pullFrame_spares (α := α) t
  exact Frame.keeps_get fun _ => hR.bind (spares_updateCrew p _) fun _ =>
    hR.bind (hR.keeps_wakeThread? _) fun _ => hR.keeps_pure _

end Machine

open Machine

/-! ### Moves -/

section Moves

variable {t : Nat}

namespace Site

theorem activity?_act {β : Type} {a : Machine.Action Bindings β} (h : Keeps (Spares t) a)
    {s : Site} {q : Nat} {b : Activity Bindings} (ht : s.machine.activity? t = some b) :
    (s.act q a).machine.activity? t = some b := h (s.seen q) b ht

theorem activity?_finishJobs {s : Site} {b : Activity Bindings} (jobs : List (Job Bindings))
    (ht : s.machine.activity? t = some b) :
    (s.finishJobs jobs).machine.activity? t = some b := by
  induction jobs generalizing s with
  | nil => exact ht
  | cons job jobs ih =>
    apply ih
    exact activity?_act ((turnFrame_spares_all t).keeps_finishJob job) ht

/-- **Every move but its own turn leaves what a thread does alone.** -/
theorem activity?_step {s : Site} {b : Activity Bindings} (ht : s.machine.activity? t = some b)
    {move : Move} (hmove : ∀ u, move = .thread u → t ≠ u) :
    (s.step move).machine.activity? t = some b := by
  have hR := turnFrame_spares_all (α := Bindings) t
  cases move with
  | thread u =>
    have hturn : Spares t (s.seen (s.client u)) (after (stepThread u) (s.seen (s.client u))) :=
      (turnFrame_spares (hmove u rfl)).keeps_stepThread (fun _ => trivial) fun _ => trivial
    exact hturn b ht
  | poll q => exact activity?_act (hR.keeps_stepQuery _) ht
  | close q => exact activity?_act (hR.keeps_close _) ht
  | abort q => exact activity?_act hR.keeps_abortQuery ht
  | deed q d => exact activity?_act (d.keeps hR) ht
  | schedule p id name work => exact activity?_act (hR.schedule p id name work) ht
  | addResult id result => exact activity?_act (hR.keeps_addResult id result) ht
  | count id =>
    show (s.count id).machine.activity? t = some b
    unfold count
    split
    · exact ht
    · split
      · exact ht
      · exact spares_updateExecutor id _ s.machine b ht
  | startPool p => exact activity?_act (spares_startPool t p) ht
  | stopIntake p => exact activity?_act (spares_stopIntake t p) ht
  | interrupt u => exact activity?_act (hR.doom u) ht
  | giveUp p =>
    exact activity?_finishJobs _ (activity?_act (spares_updateCrew p _) ht)
  | time ms => exact ht

end Site

end Moves

end FederatedSparql
