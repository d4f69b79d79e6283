import Mathlib.Data.Fintype.Pi
import Mathlib.Data.Fintype.Prod
import FederatedSparql.Proofs.Endpoint.Store

/-!
The answer to a basic graph pattern, without an order of evaluation.

For each pattern one of the stored triples is chosen.  A choice fits if every triple matches its
pattern and if the solutions agree with the binding set and with each other; it then gives one row,
the union of all of them (`Choice.Fits`, `Bindings.IsUnion`).

* `Store.evaluateBgp_exact`: nested loops over the stored triples find one row for every choice that
  fits, in whatever order the patterns come and however they are divided.
-/

namespace FederatedSparql

/-! ### Unions of binding sets -/

namespace Bindings

variable {a b c d : Bindings} {S : Set Bindings}

/-- A mapping binds what some member of a set binds, to the same terms. -/
def IsUnion (S : Set Bindings) (c : Bindings) : Prop :=
  ∀ v t, c.get? v = some t ↔ ∃ a ∈ S, a.get? v = some t

theorem IsUnion.unique (hc : IsUnion S c) (hd : IsUnion S d) : c = d := by
  refine ext_get? fun v => Option.ext fun t => ?_
  rw [hc v t, hd v t]

theorem isUnion_empty : IsUnion ∅ ∅ := fun v t => by simp

/-- A mapping agrees with a union if it agrees with each member. -/
theorem IsUnion.agrees_iff (hd : IsUnion S d) : Agrees a d ↔ ∀ b ∈ S, Agrees a b := by
  constructor
  · intro hag b hb v s t hs ht
    exact hag v s t hs ((hd v t).2 ⟨b, hb, ht⟩)
  · intro each v s t hs ht
    obtain ⟨b, hb, hbt⟩ := (hd v t).1 ht
    exact each b hb v s t hs hbt

/-- Merging a mapping with a union gives the union with the mapping. -/
theorem IsUnion.merge (hd : IsUnion S d) (h : a.merge? d = some c) : IsUnion (Insert.insert a S) c := by
  intro v t
  simp only [Set.mem_insert_iff, exists_eq_or_imp]
  rw [get?_of_merge h, ← hd v t]
  constructor
  · intro ht
    exact (Option.or_eq_some_iff.1 ht).imp id And.right
  · rintro (ht | ht)
    · simp [ht]
    · rw [← get?_of_merge h, get?_of_merge' h, ht, Option.some_or]

/-- Members of a set agree with a further mapping and with each other exactly if all of them agree
with each other. -/
theorem pairwise_insert_agrees :
    (Insert.insert a S).Pairwise Agrees ↔ S.Pairwise Agrees ∧ ∀ b ∈ S, Agrees a b := by
  rw [Set.pairwise_insert]
  refine and_congr_right fun _ => ⟨fun each b hb => ?_, fun each b hb _ => ?_⟩
  · by_cases hab : a = b
    · exact hab ▸ .refl a
    · exact (each b hb hab).1
  · exact ⟨each b hb, (each b hb).symm⟩

end Bindings

/-! ### Choices of stored triples -/

variable {triples : List Triple} {ps : List TriplePattern} {b c : Bindings}

/-- A stored triple, by its position, for each pattern. -/
abbrev Choice (triples : List Triple) (ps : List TriplePattern) : Type :=
  Fin ps.length → Fin triples.length

namespace Choice

/-- The solution that the triple chosen for a pattern yields. -/
def solution? (choice : Choice triples ps) (i : Fin ps.length) : Option Bindings :=
  ps[i].match? triples[choice i]

/-- The solutions that the chosen triples yield. -/
def solutions (choice : Choice triples ps) : Set Bindings :=
  {x | ∃ i, choice.solution? i = some x}

/-- Every triple matches its pattern, and the solutions agree with a binding set and with each other
on all variables they share. -/
structure Fits (b : Bindings) (choice : Choice triples ps) : Prop where
  matching : ∀ i, (choice.solution? i).isSome
  agreeing : (insert b choice.solutions).Pairwise Bindings.Agrees

/-- The chosen triples beside their patterns. -/
def picks (choice : Choice triples ps) : List (TriplePattern × Triple) :=
  List.ofFn fun i => (ps[i], triples[choice i])

/-- The row of a choice, if it fits. -/
def row? (b : Bindings) (choice : Choice triples ps) : Option Bindings :=
  (Store.choiceRow? choice.picks).bind b.merge?

end Choice

namespace Store

/-! ### Rows of choices -/

/-- The solutions of triples that are chosen for patterns. -/
def solutionsOf (picks : List (TriplePattern × Triple)) : Set Bindings :=
  {x | ∃ pick ∈ picks, pick.1.match? pick.2 = some x}

theorem solutionsOf_cons {pick : TriplePattern × Triple} {rest : List (TriplePattern × Triple)}
    {x : Bindings} (h : pick.1.match? pick.2 = some x) :
    solutionsOf (pick :: rest) = insert x (solutionsOf rest) := by
  ext y
  simp [solutionsOf, h, eq_comm]

/-- The row of chosen triples is the union of solutions that agree. -/
theorem of_choiceRow? {picks : List (TriplePattern × Triple)} (h : choiceRow? picks = some c) :
    (∀ pick ∈ picks, (pick.1.match? pick.2).isSome) ∧
      (solutionsOf picks).Pairwise Bindings.Agrees ∧ Bindings.IsUnion (solutionsOf picks) c := by
  induction picks generalizing c with
  | nil =>
    obtain rfl : ∅ = c := Option.some.inj h
    exact ⟨by simp, by simp [solutionsOf], by simpa [solutionsOf] using Bindings.isUnion_empty⟩
  | cons pick rest ih =>
    obtain ⟨x, hx, h⟩ := Option.bind_eq_some_iff.1 h
    obtain ⟨d, hd, h⟩ := Option.bind_eq_some_iff.1 h
    obtain ⟨matching, agreeing, union⟩ := ih hd
    rw [solutionsOf_cons hx]
    refine ⟨?_, ?_, union.merge h⟩
    · exact List.forall_mem_cons.2 ⟨Option.isSome_of_eq_some hx, matching⟩
    · exact Bindings.pairwise_insert_agrees.2
        ⟨agreeing, union.agrees_iff.1 (Bindings.agrees_of_merge h)⟩

/-- Triples that match, with solutions that agree, have a row. -/
theorem exists_choiceRow? {picks : List (TriplePattern × Triple)}
    (matching : ∀ pick ∈ picks, (pick.1.match? pick.2).isSome)
    (agreeing : (solutionsOf picks).Pairwise Bindings.Agrees) : ∃ c, choiceRow? picks = some c := by
  induction picks with
  | nil => exact ⟨∅, rfl⟩
  | cons pick rest ih =>
    obtain ⟨first, matching⟩ := List.forall_mem_cons.1 matching
    obtain ⟨x, hx⟩ := Option.isSome_iff_exists.1 first
    rw [solutionsOf_cons hx] at agreeing
    obtain ⟨agreeing, each⟩ := Bindings.pairwise_insert_agrees.1 agreeing
    obtain ⟨d, hd⟩ := ih matching agreeing
    obtain ⟨c, hc⟩ := ((of_choiceRow? hd).2.2.agrees_iff.2 each).exists_merge
    exact ⟨c, by simp [choiceRow?, hx, hd, hc]⟩

end Store

namespace Choice

theorem forall_mem_picks {choice : Choice triples ps} {P : TriplePattern × Triple → Prop} :
    (∀ pick ∈ choice.picks, P pick) ↔ ∀ i, P (ps[i], triples[choice i]) := by
  simp [picks, List.mem_ofFn]

theorem solutionsOf_picks (choice : Choice triples ps) :
    Store.solutionsOf choice.picks = choice.solutions := by
  ext x
  simp [Store.solutionsOf, solutions, solution?, picks, List.mem_ofFn]

/-- A choice has a row exactly if it fits. -/
theorem isSome_row?_iff {choice : Choice triples ps} : (choice.row? b).isSome ↔ choice.Fits b := by
  rw [Option.isSome_iff_exists]
  constructor
  · rintro ⟨c, hc⟩
    obtain ⟨d, hd, hc⟩ := Option.bind_eq_some_iff.1 hc
    obtain ⟨matching, agreeing, union⟩ := Store.of_choiceRow? hd
    rw [solutionsOf_picks] at agreeing union
    refine ⟨forall_mem_picks.1 matching, Bindings.pairwise_insert_agrees.2 ⟨agreeing, ?_⟩⟩
    exact union.agrees_iff.1 (Bindings.agrees_of_merge hc)
  · rintro ⟨matching, agreeing⟩
    obtain ⟨agreeing, each⟩ := Bindings.pairwise_insert_agrees.1 agreeing
    rw [← solutionsOf_picks] at agreeing each
    obtain ⟨d, hd⟩ := Store.exists_choiceRow? (forall_mem_picks.2 matching) agreeing
    obtain ⟨c, hc⟩ := ((Store.of_choiceRow? hd).2.2.agrees_iff.2 each).exists_merge
    exact ⟨c, Option.bind_eq_some_iff.2 ⟨d, hd, hc⟩⟩

instance (choice : Choice triples ps) : Decidable (choice.Fits b) :=
  decidable_of_iff _ isSome_row?_iff

/-- The row of a choice is the union of the binding set and the solutions. -/
theorem isUnion_of_row? {choice : Choice triples ps} (h : choice.row? b = some c) :
    Bindings.IsUnion (insert b choice.solutions) c := by
  obtain ⟨d, hd, h⟩ := Option.bind_eq_some_iff.1 h
  rw [← solutionsOf_picks]
  exact (Store.of_choiceRow? hd).2.2.merge h

end Choice

namespace Store

/-! ### All choices -/

/-- The stored triples at all positions are the stored triples. -/
theorem map_univ_getElem (triples : List Triple) :
    (Finset.univ : Finset (Fin triples.length)).val.map (fun i => triples[i]) = ↑triples := by
  rw [Fin.univ_val_map]
  exact congrArg _ List.ofFn_getElem

/-- A choice for a pattern and for more patterns. -/
def choiceCons (triples : List Triple) (p : TriplePattern) (ps : List TriplePattern) :
    Fin triples.length × Choice triples ps ≃ Choice triples (p :: ps) :=
  Fin.consEquiv fun _ => Fin triples.length

theorem picks_choiceCons (p : TriplePattern) (i : Fin triples.length) (choice : Choice triples ps) :
    (choiceCons triples p ps (i, choice)).picks = (p, triples[i]) :: choice.picks :=
  List.ofFn_succ

/-- The choices for a pattern and for more patterns. -/
theorem univ_choice_cons (triples : List Triple) (p : TriplePattern) (ps : List TriplePattern) :
    (Finset.univ : Finset (Choice triples (p :: ps))).val =
      (Finset.univ : Finset (Fin triples.length)).val.bind fun i =>
        (Finset.univ : Finset (Choice triples ps)).val.map fun choice =>
          choiceCons triples p ps (i, choice) := by
  rw [← Multiset.map_univ_val_equiv (choiceCons triples p ps), ← Finset.univ_product_univ,
    Finset.product_val]
  simp only [SProd.sprod, Multiset.product, Multiset.map_bind, Multiset.map_map,
    Function.comp_def]

/-- The picks that are enumerated are those of all choices. -/
theorem coe_choices (triples : List Triple) (ps : List TriplePattern) :
    (↑(choices triples ps) : Multiset (List (TriplePattern × Triple))) =
      (Finset.univ : Finset (Choice triples ps)).val.map Choice.picks := by
  induction ps with
  | nil => rfl
  | cons p ps ih =>
    rw [univ_choice_cons, Multiset.map_bind, choices, ← Multiset.coe_bind, ← map_univ_getElem,
      Multiset.bind_map]
    refine Multiset.bind_congr fun i _ => ?_
    rw [← Multiset.map_coe, ih, Multiset.map_map, Multiset.map_map]
    exact Multiset.map_congr rfl fun choice _ => (picks_choiceCons p i choice).symm

/-- The rows of a basic graph pattern are those of all choices that have one. -/
theorem coe_evaluateBgp_choices (triples : List Triple) (ps : List TriplePattern) (b : Bindings) :
    (evaluateBgp triples ps b : Rows) =
      (Finset.univ : Finset (Choice triples ps)).val.filterMap (Choice.row? b) := by
  rw [coe_evaluateBgp, bgpRows, bgpSolutions_eq_choices, ← Multiset.filterMap_coe, coe_choices,
    Multiset.filterMap_map, Rows.singleton_mul, Multiset.filterMap_filterMap]
  rfl

/-- Rows are extended one by one. -/
theorem foldl_extend (triples : List Triple) (ps : List TriplePattern) (rows : List Bindings) :
    ps.foldl (fun rows p => rows.flatMap (extend triples p)) rows =
      rows.flatMap (evaluateBgp triples ps) := by
  induction ps generalizing rows with
  | nil => exact (List.flatMap_singleton' rows).symm
  | cons p ps ih =>
    have first : ∀ b, evaluateBgp triples (p :: ps) b =
        (extend triples p b).flatMap (evaluateBgp triples ps) := by
      intro b
      rw [evaluateBgp, List.foldl_cons, ih, List.flatMap_singleton]
    rw [List.foldl_cons, ih, List.flatMap_assoc]
    exact congrArg (List.flatMap · rows) (funext fun b => (first b).symm)

/-- Patterns behind others are evaluated once for each row of those. -/
theorem evaluateBgp_append (triples : List Triple) (ps qs : List TriplePattern) (b : Bindings) :
    evaluateBgp triples (ps ++ qs) b =
      (evaluateBgp triples ps b).flatMap (evaluateBgp triples qs) := by
  rw [evaluateBgp, List.foldl_append]
  exact foldl_extend triples qs _

/-- The order of patterns is of no importance. -/
theorem evaluateBgp_perm {qs : List TriplePattern} (h : ps.Perm qs) (b : Bindings) :
    (evaluateBgp triples ps b).Perm (evaluateBgp triples qs b) := by
  apply Multiset.coe_eq_coe.1
  rw [coe_evaluateBgp, coe_evaluateBgp, bgpRows, bgpRows, bgpSolutions, bgpSolutions,
    (h.map _).prod_eq]

/-- **Nested loops find the join of the stored triples.**  The rows are those of all choices of one
stored triple for each pattern that fit, each the union of the binding set and the solutions of its
triples.  So patterns may come in any order, further patterns are evaluated once for each row, and
rows bind what the binding set and the patterns name. -/
theorem evaluateBgp_exact (triples : List Triple) (ps : List TriplePattern) (b : Bindings) :
    (∃ row : Choice triples ps → Bindings,
        (∀ choice, choice.Fits b → Bindings.IsUnion (insert b choice.solutions) (row choice)) ∧
        (evaluateBgp triples ps b : Rows) =
          (Finset.univ.filter fun choice : Choice triples ps => choice.Fits b).val.map row) ∧
      (∀ qs, ps.Perm qs → (evaluateBgp triples ps b).Perm (evaluateBgp triples qs b)) ∧
      (∀ qs, evaluateBgp triples (ps ++ qs) b =
        (evaluateBgp triples ps b).flatMap (evaluateBgp triples qs)) ∧
      ∀ c ∈ evaluateBgp triples ps b, ∀ v,
        c.contains v = true ↔ b.contains v = true ∨ ∃ p ∈ ps, v ∈ p.vars := by
  refine ⟨⟨fun choice => (choice.row? b).getD ∅, fun choice fits => ?_, ?_⟩,
    fun qs h => evaluateBgp_perm h b, fun qs => evaluateBgp_append triples ps qs b,
    fun c hc v => ?_⟩
  · obtain ⟨c, hc⟩ := Option.isSome_iff_exists.1 (Choice.isSome_row?_iff.2 fits)
    simpa only [hc, Option.getD_some] using Choice.isUnion_of_row? hc
  · rw [coe_evaluateBgp_choices, Finset.filter_val, Multiset.map_filter_eq_filterMap]
    refine congrArg (Multiset.filterMap · _) (funext fun choice => ?_)
    by_cases fits : choice.Fits b
    · obtain ⟨c, hc⟩ := Option.isSome_iff_exists.1 (Choice.isSome_row?_iff.2 fits)
      rw [if_pos fits, hc, Option.getD_some]
    · rw [if_neg fits]
      exact Option.not_isSome_iff_eq_none.1 (mt Choice.isSome_row?_iff.1 fits)
  · rw [← Multiset.mem_coe, coe_evaluateBgp] at hc
    exact contains_of_mem_bgpRows hc v

end Store

end FederatedSparql
