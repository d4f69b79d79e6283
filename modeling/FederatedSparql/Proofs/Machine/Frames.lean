import FederatedSparql.Proofs.Machine.Scene

/-!
Relations between a machine and what comes of it.

`Machine.Keeps R` says that an action keeps a relation `R`: every machine is related to what the
action makes of it.  A `Frame` is a relation that is kept across the steps by which threads are
woken and executors closed; it is then kept by closing, however deep executors hold one another's
results (`Frame.keeps_closeAll`).
-/

namespace FederatedSparql.Machine

variable {α β γ : Type}

/-- An action keeps a relation between machines. -/
def Keeps (R : Machine α → Machine α → Prop) (a : Action α β) : Prop := ∀ m, R m (after a m)

/-- What is done with the machine as it is. -/
theorem after_get_bind (f : Machine α → Action α β) (m : Machine α) :
    after (get >>= f) m = after (f m) m := rfl

theorem value_bind (a : Action α β) (f : β → Action α γ) (m : Machine α) :
    value (a >>= f) m = value (f (value a m)) (after a m) := rfl

theorem run_get_bind (f : Machine α → Action α β) (m : Machine α) :
    (get >>= f).run m = (f m).run m := rfl

theorem run_bind (a : Action α β) (f : β → Action α γ) (m : Machine α) :
    (a >>= f).run m = (f (value a m)).run (after a m) := rfl

/-- What follows goes on from where an action has come to. -/
theorem run_bind_of_run {a : Action α β} {f : β → Action α γ} {m m' : Machine α} {b : β}
    (h : a.run m = (b, m')) : (a >>= f).run m = (f b).run m' := by
  rw [run_bind, value, after, h]

/-- A relation that is kept when threads are woken and executors are closed. -/
structure Frame (R : Machine α → Machine α → Prop) : Prop where
  refl : ∀ m, R m m
  trans : ∀ {m m' m''}, R m m' → R m' m'' → R m m''
  wake : ∀ w, Keeps R (wake w)
  doom : ∀ t, Keeps R (doom t)
  cancelBranch : ∀ branch,
    Keeps R (modify fun m : Machine α => { m with query := m.query.cancelBranch branch })
  close : ∀ id, Keeps R (updateExecutor id Executor.close)

namespace Frame

variable {R : Machine α → Machine α → Prop} {a : Action α β} {f : β → Action α γ}

theorem keeps_pure (hR : Frame R) (b : β) : Keeps R (pure b) := hR.refl

theorem bind (hR : Frame R) (h : Keeps R a) (hf : ∀ b, Keeps R (f b)) : Keeps R (a >>= f) :=
  fun m => hR.trans (h m) (hf _ _)

theorem keeps_get {f : Machine α → Action α β} (h : ∀ m, Keeps R (f m)) : Keeps R (get >>= f) :=
  fun m => h m m

theorem keeps_forIn (hR : Frame R) {ι : Type} (xs : List ι)
    {body : ι → PUnit → Action α (ForInStep PUnit)} (h : ∀ x, Keeps R (body x PUnit.unit)) :
    Keeps R (forIn xs PUnit.unit body) := by
  induction xs with
  | nil => exact hR.keeps_pure _
  | cons x xs ih =>
    rw [List.forIn_cons]
    refine hR.bind (h x) fun step => ?_
    cases step with
    | done b => exact hR.keeps_pure b
    | yield b => exact ih

theorem keeps_wakeThread? (hR : Frame R) (t : Option Nat) : Keeps R (wakeThread? t) := by
  cases t with
  | none => exact hR.keeps_pure ()
  | some t => exact hR.wake (.thread t)

theorem keeps_wakeConsumer (hR : Frame R) (id : Nat) : Keeps R (wakeConsumer id) := by
  refine keeps_get fun m => ?_
  split
  · split
    · exact hR.wake _
    · exact hR.keeps_pure ()
  · exact hR.keeps_pure ()

theorem keeps_wakeWorkingFor (hR : Frame R) (wanted : Nat → Bool) :
    Keeps R (wakeWorkingFor wanted) := by
  refine keeps_get fun m => hR.bind (hR.keeps_forIn _ fun t => ?_) fun _ => hR.wake .main
  split
  · split
    · exact hR.bind (hR.wake _) fun _ => hR.keeps_pure _
    · exact hR.keeps_pure _
  · exact hR.keeps_pure _

/-- Who waits for the tasks of an executor is told that they are over. -/
theorem keeps_wakeFinished (hR : Frame R) (id : Nat) :
    Keeps R (do
      match (← get).executors[id]? with
      | some e =>
        if e.pending = 0 then
          wakeThread? e.producer
          Machine.wake .main
      | none => pure () : Action α Unit) := by
  refine keeps_get fun m => ?_
  split
  · split
    · exact hR.bind (hR.keeps_wakeThread? _) fun _ => hR.wake .main
    · exact hR.keeps_pure ()
  · exact hR.keeps_pure ()

theorem keeps_cancel (hR : Frame R) (id : Nat) : Keeps R (cancel id) := by
  refine keeps_get fun m => ?_
  split
  · next e _ => exact hR.bind (hR.cancelBranch e.branch) fun _ => hR.keeps_wakeWorkingFor _
  · exact hR.keeps_pure ()

theorem keeps_closeExecutor (hR : Frame R) (depth id : Nat) : Keeps R (closeExecutor depth id) := by
  induction depth generalizing id with
  | zero => exact hR.keeps_pure ()
  | succ depth ih =>
    refine keeps_get fun m => ?_
    split
    · exact hR.keeps_pure ()
    · next e _ =>
      have rest : Keeps R (do
          for t in e.waiting do Machine.wake (.thread t)
          let holds := (e.current.map (·.held)).getD [] ++ heldByAll e.queue
          for inner in holds do closeExecutor depth inner : Action α Unit) :=
        hR.bind (hR.keeps_forIn _ fun t => hR.bind (hR.wake _) fun _ => hR.keeps_pure _) fun _ =>
          hR.bind (hR.keeps_forIn _ fun inner => hR.bind (ih inner) fun _ => hR.keeps_pure _)
            fun _ => hR.keeps_pure _
      have cancels {a : Action α Unit} (ha : Keeps R a) :
          Keeps R (if e.closed then a else do Machine.cancel id; wakeConsumer id; a) := by
        split
        · exact ha
        · exact hR.bind (hR.keeps_cancel id) fun _ => hR.bind (hR.keeps_wakeConsumer id) fun _ => ha
      refine hR.bind (hR.close id) fun _ => ?_
      cases e.producer with
      | none => exact cancels rest
      | some t =>
        refine cancels ?_
        dsimp only
        split
        · exact rest
        · exact hR.bind (hR.doom t) fun _ => rest

/-- **Closing keeps the relation, however deep executors hold one another's results.** -/
theorem keeps_closeAll (hR : Frame R) (ids : List Nat) : Keeps R (closeAll ids) :=
  keeps_get fun _ => hR.bind (hR.keeps_forIn _ fun id =>
    hR.bind (hR.keeps_closeExecutor _ id) fun _ => hR.keeps_pure _) fun _ => hR.keeps_pure _

end Frame

end FederatedSparql.Machine
