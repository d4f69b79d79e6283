import Mathlib.Data.Set.Function
import FederatedSparql.Proofs.Plan.Scoping

/-!
Rows that agree on some variables.

Two evaluations of the same plan may start from different rows, as long as these agree on what the plan
looks at.  The rows that come out agree on it as well, and whatever else they bind was there before.

* `Bindings.EqOn.merge`: merging keeps agreement, unless only one of the merges meets a conflict.
* `Bindings.Alike.merge`: there is none between rows that add different variables to the same row.
-/

namespace FederatedSparql

variable {D E : Set String} {us vs : List String} {a b b' c x x' y y' z : Bindings} {v : String}

namespace Bindings

/-- Both rows bind the same terms to some variables, or leave them free. -/
abbrev EqOn (D : Set String) (a b : Bindings) : Prop := Set.EqOn a.get? b.get? D

theorem EqOn.contains_eq (h : EqOn D x y) (hv : v ∈ D) : x.contains v = y.contains v := by
  rw [contains, contains, h hv]

theorem EqOn.restrict (h : EqOn D x y) (keep : String → Bool) :
    EqOn D (x.restrict keep) (y.restrict keep) := by
  intro v hv
  rw [get?_restrict, get?_restrict, h hv]

theorem EqOn.agrees_of_agrees (hx : EqOn D x x') (hy : EqOn D y y')
    (apart : ∀ v ∉ D, ∀ s t, x'.get? v = some s → y'.get? v = some t → s = t) (h : x.Agrees y) :
    x'.Agrees y' := by
  intro v s t hs ht
  by_cases hv : v ∈ D
  · exact h v s t ((hx hv).trans hs) ((hy hv).trans ht)
  · exact apart v hv s t hs ht

/-- **Merging keeps agreement**, if other variables do not decide whether rows merge. -/
theorem EqOn.merge (hx : EqOn D x x') (hy : EqOn D y y')
    (apart : ∀ v ∉ D, ∀ s t, x.get? v = some s → y.get? v = some t → s = t)
    (apart' : ∀ v ∉ D, ∀ s t, x'.get? v = some s → y'.get? v = some t → s = t) :
    Option.Rel (EqOn D) (x.merge? y) (x'.merge? y') := by
  cases hz : x.merge? y with
  | none =>
    have conflict : x'.merge? y' = none := merge?_eq_none_iff.2 fun h =>
      merge?_eq_none_iff.1 hz (EqOn.agrees_of_agrees (Set.EqOn.symm hx) (Set.EqOn.symm hy) apart h)
    rw [conflict]
    exact .none
  | some z =>
    obtain ⟨z', hz'⟩ := (hx.agrees_of_agrees hy apart' (agrees_of_merge hz)).exists_merge
    rw [hz']
    refine .some fun v hv => ?_
    rw [get?_of_merge hz, get?_of_merge hz', hx hv, hy hv]

/-- A row of nothing but the variables agreed on decides nothing else. -/
theorem EqOn.merge_right (hx : EqOn D x x') (hc : ∀ v, c.contains v = true → v ∈ D) :
    Option.Rel (EqOn D) (x.merge? c) (x'.merge? c) := by
  have bound : ∀ v ∉ D, ∀ t, c.get? v = some t → False := fun v hv t ht =>
    hv (hc v (contains_iff.2 ⟨t, ht⟩))
  exact hx.merge (Set.eqOn_refl _ _) (fun v hv _ t _ ht => (bound v hv t ht).elim)
    fun v hv _ t _ ht => (bound v hv t ht).elim

/-! ### Rows added to rows -/

theorem Adds.restrict (h : b.Adds vs y) (keep : String → Bool) : b.Adds vs (y.restrict keep) := by
  intro v t ht
  rw [get?_restrict] at ht
  split at ht
  · exact h v t ht
  · simp at ht

theorem Adds.agrees (h : b.Adds vs y) : b.Agrees y := by
  intro v s t hs ht
  rcases h v t ht with hb | ⟨hb, -⟩
  · exact Option.some.inj (hs.symm.trans hb)
  · rw [hs] at hb
    cases hb

/-- Rows that agree on some variables, each with what it adds to a row of its own. -/
structure Alike (D : Set String) (vs : List String) (b b' x x' : Bindings) : Prop where
  eqOn : EqOn D x x'
  left : b.Adds vs x
  right : b'.Adds vs x'

theorem Alike.refl (h : EqOn D b b') (vs : List String) : Alike D vs b b' b b' :=
  ⟨h, (Grows.refl vs b).adds, (Grows.refl vs b').adds⟩

theorem Alike.restrict (h : Alike D vs b b' x x') (keep : String → Bool) :
    Alike D vs b b' (x.restrict keep) (x'.restrict keep) :=
  ⟨h.eqOn.restrict keep, h.left.restrict keep, h.right.restrict keep⟩

/-- **Rows that add different variables to the same rows merge alike**: what both add is agreed on. -/
theorem Alike.merge (hx : Alike D us b b' x x') (hy : Alike D vs b b' y y')
    (shared : ∀ v ∈ us, v ∈ vs → v ∈ D) :
    Option.Rel (Alike D (us ++ vs) b b') (x.merge? y) (x'.merge? y') := by
  have rel := hx.eqOn.merge hy.eqOn
    (fun v hv _ _ hs ht => hx.left.eq_of_not_mem hy.left (fun hu hw => hv (shared v hu hw)) hs ht)
    fun v hv _ _ hs ht => hx.right.eq_of_not_mem hy.right (fun hu hw => hv (shared v hu hw)) hs ht
  cases hz : x.merge? y with
  | none =>
    rw [hz] at rel
    cases hz' : x'.merge? y' with
    | none => exact .none
    | some z' =>
      rw [hz'] at rel
      cases rel
  | some z =>
    rw [hz] at rel
    cases hz' : x'.merge? y' with
    | none =>
      rw [hz'] at rel
      cases rel
    | some z' =>
      rw [hz'] at rel
      cases rel with
      | some h => exact .some ⟨h, hx.left.merge hy.left hz, hx.right.merge hy.right hz'⟩

/-- A row and what is added to it merge. -/
theorem Alike.merge_self (hb : EqOn D b b') (hy : Alike D vs b b' y y') :
    Option.Rel (EqOn D) (b.merge? y) (b'.merge? y') :=
  hb.merge hy.eqOn (fun v _ => hy.left.agrees v) fun v _ => hy.right.agrees v

end Bindings

end FederatedSparql
