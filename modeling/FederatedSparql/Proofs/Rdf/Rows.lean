import Mathlib.Algebra.BigOperators.Group.Multiset.Basic
import Mathlib.Algebra.Ring.Defs
import Mathlib.Data.Multiset.Bind
import FederatedSparql.Proofs.Rdf.Merge

/-!
Multisets of solutions as a commutative semiring.

The sum of two multisets has the rows of both, and the product joins them: it has one row for every
pair of rows that agree.  The order in which joins are made, and whether parts are joined before or
after they are brought together, is of no importance by the laws of a semiring alone.

* `Rows.mem_mul`: the rows of a product are the merges of rows that agree.
* `Rows.filter_mul_right`: a condition may be moved into the factor that binds its variables.
* `Rows.restrict_mul`: variables may be left out of the factors instead of the product, if all rows
  agree on them.
-/

namespace FederatedSparql

/-- Solutions without an order, each as often as it occurs. -/
abbrev Rows : Type := Multiset Bindings

namespace Rows

/-! ### Joins -/

/-- The rows that pairs of rows merge to. -/
def join (X Y : Rows) : Rows := X.bind fun a => Y.filterMap a.merge?

/-- A row if there is one. -/
def ofOption (o : Option Bindings) : Rows := (o.map singleton).getD 0

@[simp] theorem ofOption_none : ofOption none = 0 := rfl

@[simp] theorem ofOption_some (a : Bindings) : ofOption (some a) = {a} := rfl

theorem ofOption_bind (o : Option Bindings) (f : Bindings → Option Bindings) :
    ((ofOption o).bind fun a => ofOption (f a)) = ofOption (o.bind f) := by
  cases o <;> simp

theorem join_eq_bind (X Y : Rows) :
    join X Y = X.bind fun a => Y.bind fun b => ofOption (a.merge? b) := by
  simp only [join, Multiset.filterMap_eq_bind, ofOption]

theorem join_comm (X Y : Rows) : join X Y = join Y X := by
  rw [join_eq_bind, join_eq_bind, Multiset.bind_bind]
  simp only [Bindings.merge?_comm]

theorem join_assoc (X Y Z : Rows) : join (join X Y) Z = join X (join Y Z) := by
  have left : join (join X Y) Z = X.bind fun a => Y.bind fun b => Z.bind fun c =>
      ofOption ((a.merge? b).bind (·.merge? c)) := by
    simp only [join_eq_bind, Multiset.bind_assoc, ← ofOption_bind]
    refine Multiset.bind_congr fun a _ => Multiset.bind_congr fun b _ => ?_
    rw [Multiset.bind_bind]
  have right : join X (join Y Z) = X.bind fun a => Y.bind fun b => Z.bind fun c =>
      ofOption ((b.merge? c).bind a.merge?) := by
    simp only [join_eq_bind, Multiset.bind_assoc, ← ofOption_bind]
  simp only [left, right, Bindings.merge?_assoc]

theorem one_join (X : Rows) : join {∅} X = X := by
  have same : Bindings.merge? ∅ = some := funext Bindings.empty_merge?
  rw [join, Multiset.singleton_bind, same, Multiset.filterMap_some]

theorem zero_join (X : Rows) : join 0 X = 0 := Multiset.zero_bind _

instance : CommSemiring Rows :=
  { (inferInstance : AddCommMonoid (Multiset Bindings)) with
    mul := join
    one := {∅}
    mul_assoc := join_assoc
    mul_comm := join_comm
    one_mul := one_join
    mul_one := fun X => (join_comm X {∅}).trans (one_join X)
    zero_mul := zero_join
    mul_zero := fun X => (join_comm X 0).trans (zero_join X)
    left_distrib := fun X Y Z => by
      show join X (Y + Z) = join X Y + join X Z
      simp only [join, Multiset.filterMap_add, Multiset.bind_add]
    right_distrib := fun X Y Z => Multiset.add_bind _ _ _ }

theorem one_def : (1 : Rows) = {∅} := rfl

theorem mul_def (X Y : Rows) : X * Y = X.bind fun a => Y.filterMap a.merge? := rfl

theorem singleton_mul (a : Bindings) (Y : Rows) : {a} * Y = Y.filterMap a.merge? := by
  rw [mul_def, Multiset.singleton_bind]

theorem singleton_mul_singleton (a b : Bindings) : ({a} : Rows) * {b} = ofOption (a.merge? b) := by
  rw [singleton_mul]
  rw [← Multiset.cons_zero, Multiset.filterMap_cons, Multiset.filterMap_zero, add_zero, ofOption]

theorem singleton_mul_of_extends {a b : Bindings} (h : a.Extends b) :
    ({a} : Rows) * {b} = {b} := by
  rw [singleton_mul_singleton, Bindings.merge?_comm, Bindings.merge?_of_extends h]; rfl

@[simp] theorem singleton_mul_self (a : Bindings) : ({a} : Rows) * {a} = {a} :=
  singleton_mul_of_extends (.refl a)

@[simp] theorem singleton_mul_mul_self (a : Bindings) (X : Rows) :
    {a} * ({a} * X) = {a} * X := by
  rw [← mul_assoc, singleton_mul_self]

/-- A mapping that extends another one stands for both. -/
theorem singleton_mul_singleton_mul_of_extends {a b : Bindings} (h : b.Extends a) (X : Rows) :
    {a} * ({b} * X) = {a} * X := by
  rw [← mul_assoc, mul_comm ({a} : Rows), singleton_mul_of_extends h]

/-- **The rows of a product are the merges of rows that agree.** -/
theorem mem_mul {X Y : Rows} {c : Bindings} :
    c ∈ X * Y ↔ ∃ a ∈ X, ∃ b ∈ Y, a.merge? b = some c := by
  simp [mul_def, Multiset.mem_bind, Multiset.mem_filterMap]

theorem bind_singleton_mul (X Y : Rows) : (X.bind fun a => {a} * Y) = X * Y := by
  simp only [singleton_mul]
  rfl

theorem bind_mul {α : Type} (X : Multiset α) (f : α → Rows) (Y : Rows) :
    X.bind f * Y = X.bind fun x => f x * Y := by
  simp only [mul_def, Multiset.bind_assoc]

theorem mul_bind {α : Type} (X : Rows) (Y : Multiset α) (f : α → Rows) :
    X * Y.bind f = Y.bind fun y => X * f y := by
  rw [mul_comm, bind_mul]
  simp only [mul_comm]

theorem filterMap_congr {α β : Type} {f g : α → Option β} {X : Multiset α}
    (h : ∀ a ∈ X, f a = g a) : X.filterMap f = X.filterMap g := by
  induction X using Multiset.induction with
  | empty => rfl
  | cons a X ih =>
    rw [Multiset.filterMap_cons, Multiset.filterMap_cons, h a (Multiset.mem_cons_self a X),
      ih fun b hb => h b (Multiset.mem_cons_of_mem hb)]

/-- A row that all rows of a multiset extend is no restriction. -/
theorem singleton_mul_eq_self {b : Bindings} {X : Rows} (h : ∀ a ∈ X, b.Extends a) :
    {b} * X = X := by
  rw [singleton_mul, filterMap_congr (g := some), Multiset.filterMap_some]
  intro a ha
  rw [Bindings.merge?_comm, Bindings.merge?_of_extends (h a ha)]

theorem mem_singleton_mul {b c : Bindings} {X : Rows} :
    c ∈ ({b} : Rows) * X ↔ ∃ a ∈ X, b.merge? a = some c := by
  simp [mem_mul]

theorem extends_of_mem_singleton_mul {b c : Bindings} {X : Rows} (h : c ∈ ({b} : Rows) * X) :
    b.Extends c := by
  obtain ⟨a, -, hc⟩ := mem_singleton_mul.1 h
  exact Bindings.extends_left_of_merge hc

/-! ### Conditions -/

theorem coe_filter {α : Type} (keep : α → Bool) (xs : List α) :
    (↑(xs.filter keep) : Multiset α) = (↑xs : Multiset α).filter fun x => keep x = true := by
  simp [Multiset.filter_coe]

/-- What holds of a row and of all that is made of it may be asked first. -/
theorem filter_bind_left {X : Rows} {f : Bindings → Rows} {p : Bindings → Prop} [DecidablePred p]
    (h : ∀ a ∈ X, ∀ c ∈ f a, (p c ↔ p a)) : (X.bind f).filter p = (X.filter p).bind f := by
  rw [Multiset.filter_bind, Multiset.bind_filter]
  refine Multiset.bind_congr fun a ha => ?_
  split
  · next hpa => exact Multiset.filter_eq_self.2 fun c hc => (h a ha c hc).2 hpa
  · next hpa => exact Multiset.filter_eq_nil.2 fun c hc hpc => hpa ((h a ha c hc).1 hpc)

/-- What holds of a row and of all rows that extend it may be asked before a join. -/
theorem filter_mul_left {X Y : Rows} {p : Bindings → Prop} [DecidablePred p]
    (h : ∀ a ∈ X, ∀ b ∈ Y, ∀ c, a.merge? b = some c → (p c ↔ p a)) :
    (X * Y).filter p = X.filter p * Y := by
  rw [mul_def, mul_def]
  refine filter_bind_left fun a ha c hc => ?_
  obtain ⟨b, hb, hc⟩ := (Multiset.mem_filterMap ..).1 hc
  exact h a ha b hb c hc

/-- **A condition may be moved into the factor that decides it.** -/
theorem filter_mul_right {X Y : Rows} {p : Bindings → Prop} [DecidablePred p]
    (h : ∀ a ∈ X, ∀ b ∈ Y, ∀ c, a.merge? b = some c → (p c ↔ p b)) :
    (X * Y).filter p = X * Y.filter p := by
  rw [mul_comm, mul_comm X]
  exact filter_mul_left fun b hb a ha c hc => h a ha b hb c (by rwa [Bindings.merge?_comm])

/-! ### Leaving out variables -/

/-- Keeps the variables that a test accepts in every row. -/
def restrict (keep : String → Bool) (X : Rows) : Rows := X.map (·.restrict keep)

@[simp] theorem restrict_add (keep : String → Bool) (X Y : Rows) :
    restrict keep (X + Y) = restrict keep X + restrict keep Y :=
  Multiset.map_add ..

@[simp] theorem restrict_singleton (keep : String → Bool) (a : Bindings) :
    restrict keep {a} = {a.restrict keep} :=
  Multiset.map_singleton ..

theorem restrict_bind {α : Type} (keep : String → Bool) (X : Multiset α) (f : α → Rows) :
    restrict keep (X.bind f) = X.bind fun x => restrict keep (f x) :=
  Multiset.map_bind ..

/-- Rows from which variables are left out still merge alike, if they agree on those variables. -/
theorem merge?_restrict {keep : String → Bool} {a b : Bindings}
    (h : ∀ v, keep v = false → ∀ s t, a.get? v = some s → b.get? v = some t → s = t) :
    (a.restrict keep).merge? (b.restrict keep) = (a.merge? b).map (·.restrict keep) := by
  cases hc : a.merge? b with
  | some c => exact Bindings.restrict_merge keep hc
  | none =>
    refine Bindings.merge?_eq_none_iff.2 fun hag => Bindings.merge?_eq_none_iff.1 hc ?_
    intro v s t hs ht
    cases hk : keep v with
    | false => exact h v hk s t hs ht
    | true =>
      exact hag v s t (by simpa [Bindings.get?_restrict, hk] using hs)
        (by simpa [Bindings.get?_restrict, hk] using ht)

/-- **Variables may be left out of the factors instead of the product**, if all rows agree on them.
-/
theorem restrict_mul {keep : String → Bool} {X Y : Rows}
    (h : ∀ a ∈ X, ∀ b ∈ Y, ∀ v, keep v = false →
      ∀ s t, a.get? v = some s → b.get? v = some t → s = t) :
    restrict keep (X * Y) = restrict keep X * restrict keep Y := by
  have inner : ∀ a ∈ X, restrict keep (Y.filterMap a.merge?) =
      (restrict keep Y).filterMap (a.restrict keep).merge? := by
    intro a ha
    rw [restrict, restrict, Multiset.map_filterMap, Multiset.filterMap_map]
    exact filterMap_congr fun b hb => (merge?_restrict (h a ha b hb)).symm
  rw [mul_def, mul_def, restrict_bind, Multiset.bind_congr inner]
  exact (Multiset.bind_map X (fun a : Bindings => (restrict keep Y).filterMap a.merge?) _).symm

end Rows

end FederatedSparql
