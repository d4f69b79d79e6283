import Mathlib.Data.List.Nodup

/-!
Lists without the repetitions of earlier items.

* `nodup_eraseDups`, `eraseDups_of_nodup`: nothing is left twice, and what occurs once is left.
* `filter_eraseDups`, `eraseDups_map_eraseDups`: repetitions may be left out before items are chosen
  or mapped, or afterwards.
-/

namespace FederatedSparql

variable {α β : Type} [DecidableEq α] [DecidableEq β]

theorem nodup_eraseDups (xs : List α) : xs.eraseDups.Nodup := by
  induction hn : xs.length using Nat.strongRecOn generalizing xs with
  | ind n ih =>
    cases xs with
    | nil => exact List.nodup_nil
    | cons x xs =>
      rw [List.eraseDups_cons, List.nodup_cons]
      constructor
      · simp
      · apply ih _ _ _ rfl
        rw [← hn]
        exact Nat.lt_succ_of_le (List.length_filter_le _ _)

theorem eraseDups_sublist (xs : List α) : xs.eraseDups.Sublist xs := by
  induction hn : xs.length using Nat.strongRecOn generalizing xs with
  | ind n ih =>
    cases xs with
    | nil => exact .slnil
    | cons x xs =>
      have shorter : (xs.filter fun y => !y == x).length < n := by
        rw [← hn]
        exact Nat.lt_succ_of_le (List.length_filter_le _ _)
      rw [List.eraseDups_cons]
      exact ((ih _ shorter _ rfl).trans List.filter_sublist).cons_cons x

theorem eraseDups_of_nodup {xs : List α} (h : xs.Nodup) : xs.eraseDups = xs := by
  induction xs with
  | nil => rfl
  | cons x xs ih =>
    obtain ⟨hx, hxs⟩ := List.nodup_cons.1 h
    have kept : xs.filter (fun y => !y == x) = xs := by
      apply List.filter_eq_self.2
      intro y hy
      have hne : y ≠ x := fun heq => hx (heq ▸ hy)
      simp [hne]
    rw [List.eraseDups_cons, kept, ih hxs]

theorem head?_eraseDups (xs : List α) : xs.eraseDups.head? = xs.head? := by
  cases xs with
  | nil => rfl
  | cons x xs => rw [List.eraseDups_cons]; rfl

theorem filter_eraseDups (keep : α → Bool) (xs : List α) :
    xs.eraseDups.filter keep = (xs.filter keep).eraseDups := by
  induction hn : xs.length using Nat.strongRecOn generalizing xs with
  | ind n ih =>
    cases xs with
    | nil => rfl
    | cons x xs =>
      have shorter : (xs.filter fun y => !y == x).length < n := by
        rw [← hn]
        exact Nat.lt_succ_of_le (List.length_filter_le _ _)
      have rest := ih _ shorter _ rfl
      rw [List.eraseDups_cons, List.filter_cons, List.filter_cons, rest, List.filter_filter]
      split
      · rw [List.eraseDups_cons, List.filter_filter]
        simp only [Bool.and_comm]
      · next hx =>
        -- what is left out because of `x` is left out anyway
        congr 1
        apply List.filter_congr
        intro y _
        by_cases heq : y = x
        · simp [heq, hx]
        · simp [heq]

/-- It does not matter whether repeated items are left out before they are mapped as well. -/
theorem eraseDups_map_eraseDups (f : α → β) (xs : List α) :
    (xs.eraseDups.map f).eraseDups = (xs.map f).eraseDups := by
  induction hn : xs.length using Nat.strongRecOn generalizing xs with
  | ind n ih =>
    cases xs with
    | nil => rfl
    | cons x xs =>
      let others := fun y => !f y == f x
      have shorter : (xs.filter others).length < n := by
        rw [← hn]
        exact Nat.lt_succ_of_le (List.length_filter_le _ _)
      have rest := ih _ shorter _ rfl
      have kept : (xs.filter fun y => !y == x).filter others = xs.filter others := by
        rw [List.filter_filter]
        apply List.filter_congr
        intro y _
        by_cases heq : y = x
        · simp [heq, others]
        · simp [heq]
      rw [List.eraseDups_cons, List.map_cons, List.eraseDups_cons, List.map_cons,
        List.eraseDups_cons, List.filter_map, List.filter_map]
      show f x :: (((xs.filter fun y => !y == x).eraseDups.filter others).map f).eraseDups =
        f x :: ((xs.filter others).map f).eraseDups
      rw [filter_eraseDups, kept, rest]

end FederatedSparql
