import FederatedSparql.Engine.Machine.Clock
import FederatedSparql.Proofs.Machine.Giving

/-!
What comes of collecting a cursor.

Collecting is a loop that pulls until there is a failure or nothing more.  Between its steps the
surroundings do what they like, so what is said of a loop is said of all that may happen (`Ends`).

* `Gives.collects`: what a cursor gives is collected, up to the first failure.
* `Collects.result_take`: main, which lets threads run and time pass while it waits, collects that.
* `Cursor.AtHand.result_take`: it comes to an end with what is at hand.
-/

namespace FederatedSparql

open Machine

variable {α : Type}

/-! ### Collecting -/

/-- What comes of pulling all items. -/
def Machine.Taken.result (taken : Taken α) : Except FedError (List α) :=
  match taken.ending with
  | .failed e => .error e
  | _ => .ok taken.items

/-- A loop ends with a result as `Q` says, whatever happens between its steps. -/
inductive Ends {σ β : Type} (around : Surroundings α) (step : σ → Action α (MainStep σ β))
    (Q : β → Prop) : Machine α → σ → Prop
  | finished {m : Machine α} {s : σ} {r : β} (stepped : value (step s) m = .finished r)
    (result : Q r) : Ends around step Q m s
  | goesOn {m : Machine α} {s s' : σ} (stepped : value (step s) m = .goesOn s')
    (later : ∀ m', around.meanwhile (after (step s) m) m' → Ends around step Q m' s') :
    Ends around step Q m s
  | waits {m : Machine α} {s s' : σ} (stepped : value (step s) m = .waits s')
    (later : ∀ m', around.waking (after (step s) m) m' → Ends around step Q m' s') :
    Ends around step Q m s

section Looping

variable {σ β : Type} {around : Surroundings α} {step : σ → Action α (MainStep σ β)}
  {Q Q' : β → Prop} {m : Machine α} {s : σ}

theorem Ends.imp (h : Ends around step Q m s) (hQ : ∀ r, Q r → Q' r) : Ends around step Q' m s := by
  induction h with
  | finished stepped result => exact .finished stepped (hQ _ result)
  | goesOn stepped _ ih => exact .goesOn stepped ih
  | waits stepped _ ih => exact .waits stepped ih

/-- All that is said of the results is said of one of them. -/
theorem Ends.exists_result (h : Ends around step Q m s) (h' : Ends around step Q' m s) :
    ∃ r, Q r ∧ Q' r := by
  induction h with
  | finished stepped result =>
    cases h' with
    | finished stepped' result' =>
      rw [stepped] at stepped'
      cases stepped'
      exact ⟨_, result, result'⟩
    | goesOn stepped' _ =>
      rw [stepped] at stepped'
      cases stepped'
    | waits stepped' _ =>
      rw [stepped] at stepped'
      cases stepped'
  | goesOn stepped _ ih =>
    cases h' with
    | finished stepped' _ =>
      rw [stepped] at stepped'
      cases stepped'
    | goesOn stepped' later' =>
      rw [stepped] at stepped'
      cases stepped'
      exact ih _ (around.meanwhile_refl _) (later' _ (around.meanwhile_refl _))
    | waits stepped' _ =>
      rw [stepped] at stepped'
      cases stepped'
  | waits stepped _ ih =>
    cases h' with
    | finished stepped' _ =>
      rw [stepped] at stepped'
      cases stepped'
    | goesOn stepped' _ =>
      rw [stepped] at stepped'
      cases stepped'
    | waits stepped' later' =>
      rw [stepped] at stepped'
      cases stepped'
      obtain ⟨m', hm'⟩ := around.waking_total _
      exact ih m' hm' (later' m' hm')

/-- What may happen while main is running: threads take turns and time passes when main waits. -/
def Machine.aroundMain [BEq α] : Surroundings α where
  meanwhile m m' := m' = m
  waking m m' := m' = after (awaitWake stepLimit) m
  meanwhile_refl _ := rfl
  waking_total _ := ⟨_, rfl⟩

/-- What main comes to is what is said of it. -/
theorem Ends.of_runMain [BEq α] (h : Ends aroundMain step Q m s) (limit : Nat) {r : β}
    (hr : value (runMain step limit s) m = some r) : Q r := by
  induction h generalizing limit with
  | finished stepped result =>
    cases limit with
    | zero => cases hr
    | succ limit =>
      rw [runMain, value_bind, stepped] at hr
      cases hr
      exact result
  | goesOn stepped _ ih =>
    cases limit with
    | zero => cases hr
    | succ limit =>
      rw [runMain, value_bind, stepped] at hr
      exact ih _ rfl limit hr
  | @waits m s s' stepped _ ih =>
    cases limit with
    | zero => cases hr
    | succ limit =>
      rw [runMain, value_bind, stepped] at hr
      dsimp only at hr
      rw [value_bind] at hr
      split at hr
      · exact ih _ rfl limit hr
      · cases hr

end Looping

/-- Collecting a cursor comes to a result, whatever happens in between. -/
def Collects [BEq α] (around : Surroundings α) (me : Waker) (m : Machine α) (c : Cursor α)
    (result : Except FedError (List α)) : Prop :=
  Ends around (takeStep none (pull me)) (fun taken => taken.result = result) m ([], c)

theorem Arrivals.collect_ok_cons (x : α) (as : Arrivals α) :
    Arrivals.collect (.ok x :: as) = as.collect.map (x :: ·) := by
  simp only [Arrivals.collect, Arrivals.failure?, Arrivals.items]
  cases as.failure? <;> rfl

section Collecting

variable [BEq α] {around : Surroundings α} {me : Waker} {Q : Machine α → Cursor α → Prop}
  {m : Machine α} {c : Cursor α} {as : Arrivals α} {result result' : Except FedError (List α)}

/-- Main collects what is collected. -/
theorem Collects.result_take (h : Collects aroundMain .main m c result) {taken : Taken α}
    (htaken : value (take none c) m = some taken) : taken.result = result :=
  Ends.of_runMain h stepLimit htaken

theorem Collects.unique (h : Collects around me m c result) (h' : Collects around me m c result') :
    result = result' := by
  obtain ⟨taken, hresult, hresult'⟩ := Ends.exists_result h h'
  exact hresult.symm.trans hresult'

/-- What collecting does with a step of the cursor. -/
def takeNext (taken : List α) : Pulled α × Cursor α → MainStep (List α × Cursor α) (Taken α)
  | (.item x, c) => .goesOn (x :: taken, c)
  | (.failure e, c) => .finished ⟨taken.reverse, .failed e, c⟩
  | (.done, c) => .finished ⟨taken.reverse, .exhausted, c⟩
  | (.progress, c) => .goesOn (taken, c)
  | (.wait, c) => .waits (taken, c)

theorem takeStep_eq (me : Waker) (taken : List α) (c : Cursor α) :
    takeStep none (pull me) (taken, c) = do return takeNext taken (← pull me c) := by
  rw [takeStep]
  refine bind_congr fun p => ?_
  obtain ⟨r, c'⟩ := p
  cases r <;> rfl

theorem value_takeStep (taken : List α) {r : Pulled α} {c' : Cursor α}
    (pulled : value (pull me c) m = (r, c')) :
    value (takeStep none (pull me) (taken, c)) m = takeNext taken (r, c') := by
  rw [takeStep_eq, value_bind, pulled]
  rfl

theorem after_takeStep (taken : List α) :
    after (takeStep none (pull me) (taken, c)) m = after (pull me c) m := by
  rw [takeStep_eq]
  rfl

/-- What is given is collected behind what has been taken. -/
theorem Gives.collects_behind (h : Gives around me Q m c as) (taken : List α) :
    Ends around (takeStep none (pull me))
      (fun t => t.result = as.collect.map (taken.reverse ++ ·)) m (taken, c) := by
  induction h generalizing taken with
  | done pulled _ =>
    refine .finished (value_takeStep taken pulled) (congrArg Except.ok ?_)
    exact (List.append_nil _).symm
  | item pulled _ ih =>
    refine .goesOn (value_takeStep taken pulled) ?_
    rw [after_takeStep]
    intro m' hm'
    refine (ih m' hm' _).imp fun t ht => ?_
    rw [ht, Arrivals.collect_ok_cons]
    cases Arrivals.collect _ <;> simp [Except.map]
  | failure pulled _ _ => exact .finished (value_takeStep taken pulled) rfl
  | progress pulled _ ih =>
    refine .goesOn (value_takeStep taken pulled) ?_
    rw [after_takeStep]
    exact fun m' hm' => ih m' hm' taken
  | wait pulled _ ih =>
    refine .waits (value_takeStep taken pulled) ?_
    rw [after_takeStep]
    exact fun m' hm' => ih m' hm' taken

/-- **What is given is collected.** -/
theorem Gives.collects (h : Gives around me Q m c as) : Collects around me m c as.collect := by
  refine (h.collects_behind []).imp fun t ht => ?_
  rw [ht]
  cases as.collect <;> rfl

/-- Of what is at hand main takes all within as many steps as it takes, and one more. -/
theorem Cursor.AtHand.exists_runMain (limit : Nat) (hc : c.AtHand) (hsize : c.size < limit)
    (m : Machine α) (taken : List α) :
    ∃ t, value (runMain (takeStep none (pull .main)) limit (taken, c)) m = some t := by
  induction limit generalizing c m taken with
  | zero => exact absurd hsize (Nat.not_lt_zero _)
  | succ limit ih =>
    obtain ⟨r, c', hstep, hc', follows⟩ := Cursor.stepCursor_atHand m.executors.size .main hc
    have pulled : value (pull .main c) m = (r, c') := by
      rw [value_pull, hstep]
      rfl
    rw [runMain, value_bind, value_takeStep taken pulled]
    cases r with
    | item x => exact ih hc' (by have := follows.2; omega) _ _
    | failure e => exact ⟨_, rfl⟩
    | done => exact ⟨_, rfl⟩
    | progress => exact ih hc' (by have := follows.2; omega) _ _
    | wait => exact follows.elim

/-- **Main collects what is at hand.** -/
theorem Cursor.AtHand.result_take (hc : c.AtHand) (hsize : c.size < stepLimit) (m : Machine α) :
    (value (take none c) m).map Taken.result = some c.arrivals.collect := by
  obtain ⟨taken, htaken⟩ := hc.exists_runMain stepLimit hsize m []
  have given : Gives aroundMain .main (fun _ _ => True) m c c.arrivals :=
    hc.gives (fun _ _ _ => trivial) m
  rw [take, htaken, Option.map_some, given.collects.result_take htaken]

end Collecting

end FederatedSparql
