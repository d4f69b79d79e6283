import Mathlib.Data.List.Perm.Basic
import FederatedSparql.Proofs.Algebra.Locality

/-!
Conjunctions taken apart and put together.

Conjunction with errors is commutative and associative, so what a condition comes to is determined
by what its conjuncts come to, in whatever order and grouping.

* `Expr.truthWith_eq_allTruth`: a condition comes to the conjunction of what its conjuncts come to.
* `Expr.exists_andAll`: conjuncts that are joined are found again.
* `Expr.conjuncts_exact`: conjuncts may be put in any order and dealt out.
-/

namespace FederatedSparql

/-! ### Three-valued conjunction -/

@[simp] theorem andTruth_true (x : Option Bool) : andTruth x (some true) = x := by
  rcases x with _ | _ | _ <;> rfl

@[simp] theorem true_andTruth (x : Option Bool) : andTruth (some true) x = x := by
  rcases x with _ | _ | _ <;> rfl

theorem andTruth_comm (x y : Option Bool) : andTruth x y = andTruth y x := by
  rcases x with _ | _ | _ <;> rcases y with _ | _ | _ <;> rfl

/-- An error outweighs what is true but not what is false, so a false operand further on still
decides what has been an error so far. -/
theorem andTruth_assoc (x y z : Option Bool) :
    andTruth (andTruth x y) z = andTruth x (andTruth y z) := by
  rcases x with _ | _ | _ <;> rcases y with _ | _ | _ <;> rcases z with _ | _ | _ <;> rfl

instance : LeftCommutative andTruth where
  left_comm x y z := by rw [← andTruth_assoc, andTruth_comm x y, andTruth_assoc]

/-- The three-valued conjunction of any number of operands. -/
def allTruth (xs : List (Option Bool)) : Option Bool := xs.foldr andTruth (some true)

@[simp] theorem allTruth_nil : allTruth [] = some true := rfl

@[simp] theorem allTruth_cons (x : Option Bool) (xs : List (Option Bool)) :
    allTruth (x :: xs) = andTruth x (allTruth xs) := rfl

theorem allTruth_append (xs ys : List (Option Bool)) :
    allTruth (xs ++ ys) = andTruth (allTruth xs) (allTruth ys) := by
  induction xs with
  | nil => simp
  | cons x xs ih => rw [List.cons_append, allTruth_cons, ih, allTruth_cons, andTruth_assoc]

/-- Operands may come in any order. -/
theorem allTruth_perm {xs ys : List (Option Bool)} (h : xs.Perm ys) : allTruth xs = allTruth ys :=
  h.foldr_eq (some true)

namespace Expr

variable {e : Expr} {es : List Expr} {b : Bindings}

/-! ### Conjuncts -/

/-- An expression that is no conjunction itself. -/
def IsConjunct (e : Expr) : Prop := ∀ l r, e ≠ and l r

theorem IsConjunct.conjuncts_eq (h : e.IsConjunct) : e.conjuncts = [e] := by
  cases e with
  | and l r => exact absurd rfl (h l r)
  | _ => rfl

theorem conjuncts_ne_nil (e : Expr) : e.conjuncts ≠ [] := by
  induction e with
  | and l r ihl ihr =>
    intro h
    exact ihl (List.append_eq_nil_iff.1 h).1
  | _ => exact List.cons_ne_nil _ _

theorem isConjunct_of_mem_conjuncts {c : Expr} (hc : c ∈ e.conjuncts) : c.IsConjunct := by
  induction e with
  | and l r ihl ihr => exact (List.mem_append.1 hc).elim ihl ihr
  | _ =>
    obtain rfl := List.mem_singleton.1 hc
    intro l r h
    cases h

/-- **A condition comes to the conjunction of what its conjuncts come to**, errors included. -/
theorem truthWith_eq_allTruth (search : RegexSearch) (e : Expr) (b : Bindings) :
    e.truthWith search b = allTruth (e.conjuncts.map (·.truthWith search b)) := by
  induction e with
  | and l r ihl ihr => rw [truthWith, ihl, ihr, conjuncts, List.map_append, allTruth_append]
  | _ => simp [conjuncts]

/-! ### Conjunctions of lists -/

theorem conjuncts_foldl_and (e : Expr) (es : List Expr) :
    (es.foldl and e).conjuncts = e.conjuncts ++ es.flatMap conjuncts := by
  induction es generalizing e with
  | nil => simp
  | cons x xs ih => rw [List.foldl_cons, ih, conjuncts, List.append_assoc, List.flatMap_cons]

/-- **Conjuncts that are joined are found again.** -/
theorem exists_andAll (some_es : es ≠ []) (hes : ∀ c ∈ es, c.IsConjunct) :
    ∃ joined, andAll es = some joined ∧ joined.conjuncts = es := by
  cases es with
  | nil => exact absurd rfl some_es
  | cons e rest =>
    refine ⟨rest.foldl and e, rfl, ?_⟩
    calc (rest.foldl and e).conjuncts
        = (e :: rest).flatMap conjuncts := conjuncts_foldl_and e rest
      _ = (e :: rest).flatMap fun c => [c] :=
          List.flatMap_congr fun c hc => (hes c hc).conjuncts_eq
      _ = e :: rest := List.flatMap_singleton' _

/-- A list is accepted as a whole if its conjunction, unless there is nothing to join, is. -/
theorem all_accepts_iff_andAll :
    es.all (·.accepts b) = true ↔
      (es ≠ [] → ∃ joined, andAll es = some joined ∧ joined.accepts b = true) := by
  rw [← acceptsAll_andAll]
  cases es with
  | nil => simp [andAll, acceptsAll]
  | cons e es => simp [andAll, acceptsAll]

/-- **Taking a condition apart and putting it together again.**  Its conjuncts, joined in any order,
come to what it comes to, be that true, false or an error.  It accepts a solution if all conjuncts
do, however they are dealt out to two conjunctions.  There is a conjunct at least, none of them is a
conjunction, and from any list of such expressions they are the conjuncts of what joins them. -/
theorem conjuncts_exact (search : RegexSearch) (e : Expr) (b : Bindings)
    {order left right : List Expr} (ordered : order.Perm e.conjuncts)
    (dealt : (left ++ right).Perm e.conjuncts) :
    (∃ joined, andAll order = some joined ∧
        joined.truthWith search b = e.truthWith search b) ∧
      (e.accepts b = true ↔ ∀ c ∈ e.conjuncts, c.accepts b = true) ∧
      (e.accepts b = true ↔ ∀ part ∈ [left, right], part ≠ [] →
        ∃ joined, andAll part = some joined ∧ joined.accepts b = true) ∧
      e.conjuncts ≠ [] ∧ (∀ c ∈ e.conjuncts, c.IsConjunct) ∧
      ∀ es : List Expr, es ≠ [] → (∀ c ∈ es, c.IsConjunct) →
        ∃ joined, andAll es = some joined ∧ joined.conjuncts = es := by
  have each : e.accepts b = true ↔ ∀ c ∈ e.conjuncts, c.accepts b = true := by
    rw [accepts_eq_all_conjuncts, List.all_eq_true]
  refine ⟨?_, each, ?_, conjuncts_ne_nil e, fun c => isConjunct_of_mem_conjuncts,
    fun es => exists_andAll⟩
  · have some_order : order ≠ [] := fun h => conjuncts_ne_nil e (h ▸ ordered).nil_eq.symm
    obtain ⟨joined, hj, found⟩ := exists_andAll some_order fun c hc =>
      isConjunct_of_mem_conjuncts (ordered.mem_iff.1 hc)
    refine ⟨joined, hj, ?_⟩
    rw [truthWith_eq_allTruth search joined, found, truthWith_eq_allTruth search e]
    exact allTruth_perm (ordered.map _)
  · have parts : (∀ c ∈ e.conjuncts, c.accepts b = true) ↔
        left.all (·.accepts b) = true ∧ right.all (·.accepts b) = true := by
      rw [List.all_eq_true, List.all_eq_true, ← List.forall_mem_append]
      exact ⟨fun h c hc => h c (dealt.mem_iff.1 hc), fun h c hc => h c (dealt.mem_iff.2 hc)⟩
    rw [each, parts, all_accepts_iff_andAll, all_accepts_iff_andAll]
    simp only [List.forall_mem_cons, List.not_mem_nil, false_implies, implies_true, and_true]

/-- An error for somebody who has no age. -/
def minor : Expr := .not (.var "age")

/-- False for somebody who has no name. -/
def named : Expr := .bound "name"

/-- True for everybody. -/
def anybody : Expr := .const (.ofBool true)

/-- Whether the error comes first or last, and whatever it is joined with, the false conjunct
decides. -/
theorem conjuncts_exact_unnamed :
    [named, anybody, minor].Perm (minor.and (named.and anybody)).conjuncts ∧
      ([minor, anybody] ++ [named]).Perm (minor.and (named.and anybody)).conjuncts ∧
      (∃ joined, andAll [named, anybody, minor] = some joined ∧
        joined.truth? ∅ = (minor.and (named.and anybody)).truth? ∅) ∧
      ((minor.and (named.and anybody)).accepts ∅ = true ↔
        ∀ part ∈ [[minor, anybody], [named]], part ≠ [] →
          ∃ joined, andAll part = some joined ∧ joined.accepts ∅ = true) ∧
      minor.truth? ∅ = none ∧ (minor.and (named.and anybody)).truth? ∅ = some false := by
  have ordered : [named, anybody, minor].Perm (minor.and (named.and anybody)).conjuncts := by
    decide
  have dealt : ([minor, anybody] ++ [named]).Perm (minor.and (named.and anybody)).conjuncts := by
    decide
  obtain ⟨same, -, either, -⟩ := conjuncts_exact Text.Regex.search? _ ∅ ordered dealt
  exact ⟨ordered, dealt, same, either, by decide, by decide⟩

end Expr

end FederatedSparql
