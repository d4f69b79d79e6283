import FederatedSparql.Proofs.Machine.Ending
import Mathlib.Data.Nat.Pairing

/-!
Runs in time, and fair ones.

* `Setting.inTime_of_timeout_eq_none`: a query without a timeout is always in time.
* `Setting.fair_of_inTurn`: there is a fair schedule for every setting.
-/

namespace FederatedSparql

open Machine

variable {α : Type}

namespace Scene

variable {s s' : Scene α} {e : Step} {t : Nat}

theorem now_toss (s : Scene α) (e : FedError) : (s.toss e).now = s.now := by
  unfold toss
  split <;> rfl

theorem deadline_toss (s : Scene α) (e : FedError) : (s.toss e).deadline = s.deadline := by
  unfold toss
  split <;> rfl

theorem now_finish (s : Scene α) : s.finish.now = s.now := by
  obtain heq | ⟨t, heq⟩ := s.finish_eq <;> rw [heq] <;> rfl

theorem deadline_finish (s : Scene α) : s.finish.deadline = s.deadline := by
  obtain heq | ⟨t, heq⟩ := s.finish_eq <;> rw [heq] <;> rfl

variable [DecidableEq α]

/-- Time does not go backwards. -/
theorem Moves.now_le (h : s.Moves e s') : s.now ≤ s'.now := by
  cases h with
  | turns h =>
    cases h with
    | fails _ _ _ | isRefused _ _ _ => exact (s.now_toss _).ge
    | _ => exact le_rfl
  | pulls h =>
    cases h with
    | fails _ _ _ _ | ends _ _ _ _ => exact s.now_finish.ge
    | _ => exact le_rfl
  | outside h =>
    cases h with
    | time ms => exact Nat.le_add_right _ _
    | _ => exact le_rfl

theorem Moves.deadline_eq (h : s.Moves e s') : s'.deadline = s.deadline := by
  cases h with
  | turns h =>
    cases h with
    | fails _ _ _ | isRefused _ _ _ => exact s.deadline_toss _
    | _ => rfl
  | pulls h =>
    cases h with
    | fails _ _ _ _ | ends _ _ _ _ => exact s.deadline_finish
    | _ => rfl
  | outside h => cases h <;> rfl

theorem Moves.now_eq_of_time {ms : Nat} (h : s.Moves (.time ms) s') : s'.now = s.now + ms := by
  cases h with
  | outside h => cases h with
    | time _ => rfl

end Scene

namespace Setting

/-! ### Turns that come again and again -/

/-- The consumer has the first turn, then a millisecond passes, then the threads follow. -/
def turn : Nat → Step
  | 0 => .consumer
  | 1 => .time 1
  | t + 2 => .thread t

/-- A schedule in which every turn comes again and again. -/
def inTurn (n : Nat) : Step := turn (Nat.unpair n).1

theorem quiet_inTurn (n : Nat) : (inTurn n).Quiet := by
  unfold inTurn turn
  split <;> trivial

theorem exists_inTurn (i n : Nat) : ∃ k, n ≤ k ∧ inTurn k = turn i :=
  ⟨Nat.pair i n, Nat.right_le_pair i n, by rw [inTurn, Nat.unpair_pair]⟩

variable [DecidableEq α] {x : Setting α} {schedule : Nat → Step} {n : Nat}

/-- A query without a timeout is always in time. -/
theorem inTime_of_timeout_eq_none (halone : ∀ task ∈ x.tasks, task.2.Alone) (h : x.timeout = none)
    (schedule : Nat → Step) : x.InTime schedule := by
  have inTime {y : Moment α} {s : Scene α} {d : Prop} (htracks : x.Tracks d y s)
      (hdeadline : s.deadline = none) : y.machine.query.isExpired y.machine.now = false := by
    rw [QueryContext.isExpired, htracks.shows.deadline, hdeadline]
    rfl
  have untimed (n : Nat) : ∃ s, x.Tracks (Disturbed schedule n) (x.play schedule n) s ∧
      s.deadline = none := by
    induction n with
    | zero =>
      refine ⟨x.first, ?_, by simp [first, h]⟩
      rw [disturbed_zero]
      exact x.tracks_start
    | succ n ih =>
      obtain ⟨s, htracks, hdeadline⟩ := ih
      obtain ⟨s', hs', hmoves⟩ := htracks.step halone (inTime htracks hdeadline) (schedule n)
      rw [disturbed_succ]
      exact ⟨s', hs', hmoves.deadline_eq.trans hdeadline⟩
  intro n
  obtain ⟨s, htracks, hdeadline⟩ := untimed n
  exact inTime htracks hdeadline

theorem now_mono (halone : ∀ task ∈ x.tasks, task.2.Alone) (ht : x.InTime schedule) {k : Nat}
    (hk : n ≤ k) : (x.scene schedule n).now ≤ (x.scene schedule k).now := by
  induction k, hk using Nat.le_induction with
  | base => exact le_rfl
  | succ k _ ih => exact ih.trans (x.moves halone ht k).now_le

/-- **There is a fair schedule for every setting.** -/
theorem fair_of_inTurn (halone : ∀ task ∈ x.tasks, task.2.Alone) (ht : x.InTime schedule)
    (h : ∀ k, n ≤ k → schedule k = inTurn k) : x.Fair schedule := by
  have comes (i m : Nat) : ∃ k, m ≤ k ∧ schedule k = turn i := by
    obtain ⟨k, hk, hstep⟩ := exists_inTurn i (max n m)
    exact ⟨k, by omega, (h k (by omega)).trans hstep⟩
  have later (m due : Nat) : ∃ k, m ≤ k ∧ due ≤ (x.scene schedule k).now := by
    induction due with
    | zero => exact ⟨m, le_rfl, Nat.zero_le _⟩
    | succ due ih =>
      obtain ⟨k, hk, hnow⟩ := ih
      obtain ⟨i, hi, hstep⟩ := comes 1 k
      have hmoves := x.moves halone ht i
      rw [hstep] at hmoves
      have := now_mono halone ht hi
      have hnext := hmoves.now_eq_of_time
      exact ⟨i + 1, by omega, by omega⟩
  exact ⟨fun t => comes (t + 2), comes 0, fun _ m _ _ due _ _ _ => later m due⟩

end Setting

end FederatedSparql
