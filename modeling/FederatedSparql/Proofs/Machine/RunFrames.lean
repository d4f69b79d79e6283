import FederatedSparql.Proofs.Machine.Frames

/-!
Relations that are kept while main waits.

Main is run step by step; while it waits, threads take their turns and time passes.  A `RunFrame` is
a relation that is kept by the turn of every thread and by the passing of time; then it is kept by
the whole run of main, as long as the steps of main keep it (`RunFrame.keeps_runMain`).
-/

namespace FederatedSparql.Machine

variable {α β σ : Type}

/-- Nothing differs but whose turn it is, and when. -/
structure Aside (m m' : Machine α) : Prop where
  registry : m'.registry = m.registry
  query : m'.query = m.query
  executors : m'.executors = m.executors
  join : m'.join = m.join
  union : m'.union = m.union
  threads : m'.threads = m.threads

/-- A relation that is kept while threads take their turns and time passes. -/
structure RunFrame [BEq α] (R : Machine α → Machine α → Prop) : Prop where
  refl : ∀ m, R m m
  trans : ∀ {m m' m''}, R m m' → R m' m'' → R m m''
  turn : ∀ t, Keeps R (stepThread t)
  aside : ∀ {m m'}, Aside m m' → R m m'

namespace RunFrame

variable [BEq α] {R : Machine α → Machine α → Prop}

theorem bind (hR : RunFrame R) {a : Action α β} {f : β → Action α σ} (h : Keeps R a)
    (hf : ∀ b, Keeps R (f b)) : Keeps R (a >>= f) :=
  fun m => hR.trans (h m) (hf _ _)

theorem keeps_pure (hR : RunFrame R) (b : β) : Keeps R (pure b) := hR.refl

theorem keeps_wake (hR : RunFrame R) (w : Waker) : Keeps R (wake w) := by
  intro m
  cases w with
  | main => exact hR.aside ⟨rfl, rfl, rfl, rfl, rfl, rfl⟩
  | thread t =>
    apply hR.aside
    show Aside m (if m.ready.contains t then m else { m with ready := m.ready ++ [t] })
    split <;> exact ⟨rfl, rfl, rfl, rfl, rfl, rfl⟩

theorem keeps_wakeAt (hR : RunFrame R) (due : Nat) (w : Waker) : Keeps R (wakeAt due w) :=
  fun _ => hR.aside ⟨rfl, rfl, rfl, rfl, rfl, rfl⟩

theorem keeps_runThread (hR : RunFrame R) (t limit : Nat) : Keeps R (runThread t limit) := by
  induction limit with
  | zero => exact hR.refl
  | succ limit ih =>
    apply hR.bind (hR.turn t)
    intro turn
    cases turn with
    | goesOn => exact ih
    | ends => exact hR.refl

theorem keeps_runReady (hR : RunFrame R) (turns : Nat) : Keeps R (runReady turns) := by
  induction turns with
  | zero => exact hR.refl
  | succ turns ih =>
    intro m
    rw [runReady, after_get_bind]
    split
    · exact hR.refl m
    · next t rest _ =>
      have hnext : R m { m with ready := rest } := hR.aside ⟨rfl, rfl, rfl, rfl, rfl, rfl⟩
      exact hR.trans hnext (hR.bind (hR.keeps_runThread t stepLimit) (fun _ => ih) _)

theorem keeps_forIn (hR : RunFrame R) {ι : Type} (xs : List ι) {body : ι → Action α Unit}
    (h : ∀ x, Keeps R (body x)) :
    Keeps R (forIn xs PUnit.unit fun x _ => do
      body x
      return ForInStep.yield PUnit.unit) := by
  induction xs with
  | nil => exact hR.refl
  | cons x xs ih =>
    rw [List.forIn_cons]
    intro m
    exact hR.trans (h x m) (ih _)

theorem keeps_advance (hR : RunFrame R) : Keeps R advance := by
  intro m
  rw [advance, after_get_bind]
  split
  · exact hR.refl m
  · next due w rest _ =>
    have hlater : R m { m with
        now := max m.now due, timers := (m.timers.span fun t => t.1 ≤ max m.now due).2 } :=
      hR.aside ⟨rfl, rfl, rfl, rfl, rfl, rfl⟩
    have wakes (due : List (Nat × Waker)) : Keeps R (do
        for t in due do wake t.2
        return true) :=
      hR.bind (hR.keeps_forIn due fun t => hR.keeps_wake t.2) fun _ => hR.refl
    exact hR.trans hlater (wakes _ _)

theorem keeps_awaitWake (hR : RunFrame R) (limit : Nat) : Keeps R (awaitWake limit) := by
  induction limit with
  | zero => exact hR.refl
  | succ limit ih =>
    intro m
    rw [awaitWake, after_get_bind]
    split
    · exact hR.aside ⟨rfl, rfl, rfl, rfl, rfl, rfl⟩
    · apply hR.bind (hR.keeps_runReady turnsPerRound)
      intro _ m
      rw [after_get_bind]
      split
      · exact ih m
      · apply hR.bind hR.keeps_advance
        intro advanced
        cases advanced with
        | true => exact ih
        | false => exact hR.refl

/-- **Running main keeps the relation, as its steps do.** -/
theorem keeps_runMain (hR : RunFrame R) {step : σ → Action α (MainStep σ β)}
    (hstep : ∀ s, Keeps R (step s)) (limit : Nat) (s : σ) : Keeps R (runMain step limit s) := by
  induction limit generalizing s with
  | zero => exact hR.refl
  | succ limit ih =>
    apply hR.bind (hstep s)
    intro stepped
    cases stepped with
    | finished result => exact hR.refl
    | goesOn s => exact ih s
    | waits s =>
      apply hR.bind (hR.keeps_awaitWake stepLimit)
      intro woken
      cases woken with
      | true => exact ih s
      | false => exact hR.refl

/-! ### What main wants -/

theorem keeps_sleepUntil (hR : RunFrame R) (due : Nat) : Keeps R (sleepUntil due) := by
  have waits : Keeps R (do
      let _ ← runMain (fun (_ : Unit) => do
        return if due ≤ (← get).now then MainStep.finished () else .waits ()) stepLimit ()) := by
    refine hR.bind (hR.keeps_runMain (fun _ => ?_) _ _) fun _ => hR.keeps_pure _
    exact Frame.keeps_get fun m => hR.keeps_pure _
  intro m
  rw [sleepUntil, after_get_bind]
  dsimp only
  split
  · exact hR.bind (hR.keeps_wakeAt due .main) (fun _ => waits) m
  · exact waits m

theorem keeps_sleep (hR : RunFrame R) (ms : Nat) : Keeps R (sleep ms) :=
  Frame.keeps_get fun _ => hR.keeps_sleepUntil _

theorem keeps_takeStep (hR : RunFrame R) {next : Cursor α → Action α (Pulled α × Cursor α)}
    (hnext : ∀ c, Keeps R (next c)) (wanted : Option Nat) (s : List α × Cursor α) :
    Keeps R (takeStep wanted next s) := by
  rw [takeStep]
  split
  · exact hR.keeps_pure _
  · refine hR.bind (hnext s.2) fun r => ?_
    split <;> exact hR.keeps_pure _

theorem keeps_take (hR : RunFrame R) (hpull : ∀ c, Keeps R (pull .main c)) (wanted : Option Nat)
    (c : Cursor α) : Keeps R (take wanted c) :=
  hR.keeps_runMain (hR.keeps_takeStep hpull wanted) _ _

theorem keeps_runWork (hR : RunFrame R)
    (hrun : ∀ depth run, Keeps R (stepRun depth .main run)) (w : Work α) :
    Keeps R (runWork w) := by
  apply hR.keeps_runMain
  intro run
  apply Frame.keeps_get
  intro m
  refine hR.bind (hrun _ run) fun r => ?_
  cases r <;> exact hR.keeps_pure _

end RunFrame

end FederatedSparql.Machine
