import FederatedSparql.Endpoint.Member
import FederatedSparql.Proofs.Algebra.Locality
import FederatedSparql.Proofs.Algebra.Matching
import FederatedSparql.Proofs.Endpoint.Tag

/-!
What stored triples answer, as products of solutions.

* `Store.coe_evaluateBgp`: nested loops over the triples give the product of the solutions of all
  patterns.
* `Store.bgpRows_of_bound`: patterns without free variables give back the binding set once if all of
  them have a match.
* `Store.coe_boundSolutions`: the answer to a block has the answers to all its rows.
-/

namespace FederatedSparql.Store

variable {triples : List Triple} {p : TriplePattern} {ps : List TriplePattern} {b c : Bindings}
  {v : String}

/-! ### Basic graph patterns -/

/-- The solutions of all patterns together. -/
def bgpSolutions (triples : List Triple) (ps : List TriplePattern) : Rows :=
  (ps.map (·.solutions triples)).prod

/-- The solutions of all patterns that extend a binding set. -/
def bgpRows (triples : List Triple) (ps : List TriplePattern) (b : Bindings) : Rows :=
  {b} * bgpSolutions triples ps

@[simp] theorem bgpSolutions_nil : bgpSolutions triples [] = 1 := rfl

@[simp] theorem bgpSolutions_cons :
    bgpSolutions triples (p :: ps) = p.solutions triples * bgpSolutions triples ps := by
  simp [bgpSolutions]

theorem coe_extend (triples : List Triple) (p : TriplePattern) (b : Bindings) :
    (extend triples p b : Rows) = {b} * p.solutions triples := by
  simp only [extend, TriplePattern.match?_bind, Rows.singleton_mul, TriplePattern.solutions,
    Multiset.filterMap_coe, List.filterMap_filterMap]

theorem coe_foldl_extend (triples : List Triple) (ps : List TriplePattern) (xs : List Bindings) :
    (↑(ps.foldl (fun xs p => xs.flatMap (extend triples p)) xs) : Rows) =
      ↑xs * bgpSolutions triples ps := by
  induction ps generalizing xs with
  | nil => simp
  | cons p ps ih =>
    have step : (↑(xs.flatMap (extend triples p)) : Rows) = ↑xs * p.solutions triples := by
      rw [← Multiset.coe_bind]
      simp only [coe_extend]
      exact Rows.bind_singleton_mul ..
    rw [List.foldl_cons, ih, step, bgpSolutions_cons, mul_assoc]

/-- **Nested loops over the triples give the product of the solutions of all patterns.** -/
theorem coe_evaluateBgp (triples : List Triple) (ps : List TriplePattern) (b : Bindings) :
    (evaluateBgp triples ps b : Rows) = bgpRows triples ps b :=
  coe_foldl_extend triples ps [b]

/-- Every choice of one triple for each pattern. -/
def choices (triples : List Triple) : List TriplePattern → List (List (TriplePattern × Triple))
  | [] => [[]]
  | p :: ps => triples.flatMap fun t => (choices triples ps).map ((p, t) :: ·)

/-- The row of a choice, if the triples match and agree on all variables that patterns share. -/
def choiceRow? : List (TriplePattern × Triple) → Option Bindings
  | [] => some ∅
  | (p, t) :: rest => (p.match? t).bind fun x => (choiceRow? rest).bind x.merge?

/-- The rows of all choices that begin with a given triple. -/
theorem filterMap_choiceRow?_cons (p : TriplePattern) (t : Triple)
    (rest : List (List (TriplePattern × Triple))) :
    (rest.map ((p, t) :: ·)).filterMap choiceRow? =
      ((p.match? t).map fun x => (rest.filterMap choiceRow?).filterMap x.merge?).getD [] := by
  rw [List.filterMap_map]
  cases ht : p.match? t with
  | none => simp [Function.comp_def, choiceRow?, ht]
  | some x => simp [Function.comp_def, choiceRow?, ht, List.filterMap_filterMap]

/-- **The solutions of patterns are one row for every choice** of one triple for each pattern. -/
theorem bgpSolutions_eq_choices (triples : List Triple) (ps : List TriplePattern) :
    bgpSolutions triples ps = (choices triples ps).filterMap choiceRow? := by
  induction ps with
  | nil => rfl
  | cons p ps ih =>
    have byTriple : ∀ (ts : List Triple) (f : Bindings → List Bindings),
        (ts.filterMap p.match?).flatMap f = ts.flatMap fun t => ((p.match? t).map f).getD [] := by
      intro ts f
      induction ts with
      | nil => rfl
      | cons t ts ih => cases ht : p.match? t <;> simp [ht, ih]
    rw [bgpSolutions_cons, ih, choices, List.filterMap_flatMap]
    simp only [filterMap_choiceRow?_cons]
    rw [← byTriple, ← Multiset.coe_bind, Rows.mul_def, TriplePattern.solutions]
    rfl

/-- A solution of patterns binds exactly their variables. -/
theorem contains_of_mem_bgpSolutions (h : c ∈ bgpSolutions triples ps) (v : String) :
    c.contains v = true ↔ ∃ p ∈ ps, v ∈ p.vars := by
  induction ps generalizing c with
  | nil =>
    rw [bgpSolutions_nil, Rows.one_def, Multiset.mem_singleton] at h
    simp [h, Bindings.contains]
  | cons p ps ih =>
    rw [bgpSolutions_cons, Rows.mem_mul] at h
    obtain ⟨a, ha, d, hd, hc⟩ := h
    rw [Bindings.contains_of_merge hc, Bool.or_eq_true, ih hd,
      TriplePattern.contains_of_mem_solutions ha]
    simp

theorem contains_of_mem_bgpRows (h : c ∈ bgpRows triples ps b) (v : String) :
    c.contains v = true ↔ b.contains v = true ∨ ∃ p ∈ ps, v ∈ p.vars := by
  obtain ⟨a, ha, hc⟩ := Rows.mem_singleton_mul.1 h
  rw [Bindings.contains_of_merge hc, Bool.or_eq_true, contains_of_mem_bgpSolutions ha]

theorem extends_of_mem_bgpRows (h : c ∈ bgpRows triples ps b) : b.Extends c :=
  Rows.extends_of_mem_singleton_mul h

/-! ### Patterns without free variables -/

theorem singleton_mul_solutions_of_bound (hd : triples.Nodup) (hp : p.hasFreeVars b = false) :
    {b} * p.solutions triples = if hasMatch triples p b then {b} else 0 := by
  have ground : (p.bind b).vars = [] := by
    refine List.eq_nil_iff_forall_not_mem.2 fun v hv => ?_
    rw [TriplePattern.mem_vars_bind] at hv
    have := TriplePattern.hasFreeVars_eq_false_iff.1 hp v hv.1
    simp [Bindings.contains, hv.2] at this
  rw [← TriplePattern.singleton_mul_solutions_bind,
    TriplePattern.solutions_of_vars_eq_nil ground hd]
  change _ = if (triples.any fun t => ((p.bind b).match? t).isSome) = true then _ else _
  split <;> simp

/-- **Patterns without free variables give back the binding set once** if all of them have a match,
if no triple occurs twice. -/
theorem bgpRows_of_bound (hd : triples.Nodup) (hps : ∀ p ∈ ps, p.hasFreeVars b = false) :
    bgpRows triples ps b = if ps.all fun p => hasMatch triples p b then {b} else 0 := by
  induction ps with
  | nil => simp [bgpRows]
  | cons p ps ih =>
    have rest := ih fun q hq => hps q (List.mem_cons_of_mem p hq)
    rw [bgpRows] at rest ⊢
    rw [bgpSolutions_cons, ← mul_assoc,
      singleton_mul_solutions_of_bound hd (hps p List.mem_cons_self)]
    by_cases hm : hasMatch triples p b = true
    · simp only [hm, ↓reduceIte, rest, List.all_cons, Bool.true_and]
    · simp [hm]

/-! ### Answers -/

/-- The solutions of patterns that extend a binding set and meet a condition. -/
def filteredRows (triples : List Triple) (ps : List TriplePattern) (f : Option Expr)
    (b : Bindings) : Rows :=
  (bgpRows triples ps b).filter (Expr.acceptsAll f ·)

theorem coe_solutions (triples : List Triple) (ps : List TriplePattern) (b : Bindings)
    (f : Option Expr) (projection : Option (List String)) :
    (solutions triples ps b f projection : Rows) =
      (filteredRows triples ps f b).map (projectRow projection b) := by
  rw [solutions, ← Multiset.map_coe, filteredRows, ← coe_evaluateBgp, Multiset.filter_coe]
  simp

theorem extends_of_mem_filteredRows {f : Option Expr} (h : c ∈ filteredRows triples ps f b) :
    b.Extends c :=
  extends_of_mem_bgpRows (Multiset.mem_of_mem_filter h)

theorem contains_of_mem_filteredRows {f : Option Expr} (h : c ∈ filteredRows triples ps f b)
    (v : String) : c.contains v = true ↔ b.contains v = true ∨ ∃ p ∈ ps, v ∈ p.vars :=
  contains_of_mem_bgpRows (Multiset.mem_of_mem_filter h) v

theorem filteredRows_of_bound {f : Option Expr} (hd : triples.Nodup)
    (hps : ∀ p ∈ ps, p.hasFreeVars b = false) :
    filteredRows triples ps f b =
      if Expr.acceptsAll f b && ps.all fun p => hasMatch triples p b then {b} else 0 := by
  rw [filteredRows, bgpRows_of_bound hd hps]
  split
  · next hm =>
    by_cases hf : Expr.acceptsAll f b = true
    · rw [Multiset.filter_eq_self.2 (by simpa using hf)]
      simp [hm, hf]
    · rw [Multiset.filter_eq_nil.2 (by simpa using hf)]
      simp [hf]
  · next hm => simp [hm]

theorem filteredRows_append (xs ys : List Triple) (p : TriplePattern) (f : Option Expr)
    (b : Bindings) :
    filteredRows (xs ++ ys) [p] f b = filteredRows xs [p] f b + filteredRows ys [p] f b := by
  simp [filteredRows, bgpRows, bgpSolutions, TriplePattern.solutions_append, mul_add,
    Multiset.filter_add]

theorem filteredRows_nil (p : TriplePattern) (f : Option Expr) (b : Bindings) :
    filteredRows [] [p] f b = 0 := by
  simp [filteredRows, bgpRows, bgpSolutions, TriplePattern.solutions]

/-- The rows that answer a block, each with the number of the row that it belongs to. -/
def numberedRows (block : List Bindings) (rows : Bindings → Rows) : Multiset (Nat × Bindings) :=
  (block.zipIdx : Multiset (Bindings × Nat)).bind fun x => (rows x.1).map (Prod.mk x.2)

theorem coe_boundSolutions (triples : List Triple) (ps : List TriplePattern)
    (block : List Bindings) (f : Option Expr) :
    (boundSolutions triples ps block f : Rows) =
      (block.zipIdx : Multiset (Bindings × Nat)).bind fun x =>
        (filteredRows triples ps f x.1).map (Tag.tagRow · x.2) := by
  rw [boundSolutions, ← Multiset.coe_bind]
  refine Multiset.bind_congr fun x _ => ?_
  rw [filteredRows, ← coe_evaluateBgp, ← Rows.coe_filter, Multiset.map_coe]

theorem coe_boundSolutions_append (xs ys : List Triple) (p : TriplePattern)
    (block : List Bindings) (f : Option Expr) :
    (boundSolutions (xs ++ ys) [p] block f : Rows) =
      ↑(boundSolutions xs [p] block f) + ↑(boundSolutions ys [p] block f) := by
  simp only [coe_boundSolutions, filteredRows_append, Multiset.map_add, Multiset.bind_add]

/-- **The answer to a block has the answers to all its rows**, under their numbers. -/
theorem filterMap_untagRow?_boundSolutions {block : List Bindings} {f : Option Expr}
    (hlen : block.length ≤ Tag.numberLimit)
    (hblock : ∀ b ∈ block, b.contains Tag.indexVar = false)
    (hps : ∀ p ∈ ps, Tag.indexVar ∉ p.vars) :
    (boundSolutions triples ps block f : Rows).filterMap Tag.untagRow? =
      numberedRows block (filteredRows triples ps f) := by
  rw [coe_boundSolutions, Multiset.filterMap_bind, numberedRows]
  refine Multiset.bind_congr fun x hx => ?_
  obtain ⟨hi, hb⟩ := List.getElem?_eq_some_iff.1
    (List.mk_mem_zipIdx_iff_getElem?.1 (Multiset.mem_coe.1 hx))
  rw [Multiset.filterMap_map, ← Multiset.filterMap_eq_map]
  refine Rows.filterMap_congr fun row hrow => ?_
  refine Tag.untagRow?_tagRow ?_ (Nat.lt_of_lt_of_le hi hlen)
  rw [Bool.eq_false_iff]
  intro htag
  rcases (contains_of_mem_filteredRows hrow _).1 htag with hxb | ⟨p, hp, hv⟩
  · rw [hblock x.1 (hb ▸ List.getElem_mem hi)] at hxb
    exact absurd hxb (by simp)
  · exact hps p hp hv

end FederatedSparql.Store
