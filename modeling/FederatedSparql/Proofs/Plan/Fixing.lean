import FederatedSparql.Proofs.Plan.Moving

/-!
Rows, statements and groups with fixed variables.

Fixing variables takes, from rows, those that agree with the fixed terms, without the variables that
are fixed (`Rows.fix`).  It is a homomorphism of the semiring of rows (`Rows.fix_mul`), so it passes
through joins to the patterns, where it is binding them (`Store.fix_bgpSolutions`).

* `Plan.fixStatement_eq`, `Plan.fixGroup_eq`: a statement or group has its variables fixed one after
  another as it would have them all at once.
-/

namespace FederatedSparql

variable {r : Registry} {b c x β : Bindings} {v : String} {e : Expr}

/-! ### Rows with fixed variables -/

namespace Rows

/-- The rows that agree with fixed terms, without the variables that are fixed. -/
def fix (β : Bindings) (X : Rows) : Rows := restrict (fun v => !β.contains v) ({β} * X)

theorem fix_mul (β : Bindings) (X Y : Rows) : fix β (X * Y) = fix β X * fix β Y := by
  rw [fix, fix, fix, ← restrict_mul, mul_mul_mul_comm, singleton_mul_self]
  -- All rows extend the fixed terms, so they agree on them.
  intro a ha b hb v hv s t hs ht
  obtain ⟨u, hu⟩ := Bindings.contains_iff.1 (by simpa using hv : β.contains v = true)
  have ha := extends_of_mem_singleton_mul ha v u hu
  have hb := extends_of_mem_singleton_mul hb v u hu
  rw [hs] at ha
  rw [ht] at hb
  exact (Option.some.inj ha).trans (Option.some.inj hb).symm

theorem fix_bind (β : Bindings) (X : Rows) (f : Bindings → Rows) :
    fix β (X.bind f) = X.bind fun x => fix β (f x) := by
  rw [fix, mul_bind, restrict_bind]
  rfl

theorem fix_eq_bind (β : Bindings) (X : Rows) : fix β X = X.bind fun x => fix β {x} := by
  rw [← fix_bind, Multiset.bind_singleton, Multiset.map_id']

theorem restrict_self (β : Bindings) : β.restrict (fun v => !β.contains v) = ∅ := by
  refine Bindings.ext_get? fun v => ?_
  rw [Bindings.get?_restrict, Bindings.get?_empty]
  cases hv : β.contains v with
  | true => rfl
  | false => simpa using Bindings.contains_eq_false_iff.1 hv

theorem fix_one (β : Bindings) : fix β 1 = 1 := by
  rw [fix, mul_one, restrict_singleton, restrict_self, one_def]

/-- A binding set that agrees with the fixed terms loses them, and any other has no rows. -/
theorem fix_singleton (β b : Bindings) :
    (β.Agrees b ∧ fix β {b} = {b.restrict fun v => !β.contains v}) ∨
      (¬ β.Agrees b ∧ fix β {b} = 0) := by
  rw [fix, singleton_mul_singleton]
  by_cases h : β.Agrees b
  · obtain ⟨c, hc⟩ := h.exists_merge
    refine .inl ⟨h, ?_⟩
    rw [hc, ofOption_some, restrict_singleton]
    refine congrArg _ (Bindings.ext_get? fun v => ?_)
    rw [Bindings.get?_restrict, Bindings.get?_restrict, Bindings.get?_of_merge hc]
    split
    · next hv =>
      have none_fixed := Bindings.contains_eq_false_iff.1 (by simpa using hv : β.contains v = false)
      rw [none_fixed, Option.none_or]
    · rfl
  · refine .inr ⟨h, ?_⟩
    rw [Bindings.merge?_eq_none_iff.2 h]
    rfl

/-- Rows that extend a binding set are fixed with it. -/
theorem fix_singleton_mul {X : Rows} (h : ∀ c ∈ X, b.Extends c) :
    fix β {b} * fix β X = fix β X := by
  rw [← fix_mul, singleton_mul_eq_self h]

/-- Rows without fixed variables stay as they are. -/
theorem fix_of_free {X : Rows} (h : ∀ c ∈ X, ∀ v, β.contains v = true → c.contains v = false) :
    fix β X = X := by
  have free : ∀ c ∈ X, ∀ v, (!β.contains v) = false → c.get? v = none := fun c hc v hv =>
    Bindings.contains_eq_false_iff.1 (h c hc v (by simpa using hv))
  rw [fix, restrict_mul, restrict_singleton, restrict_self, ← one_def, one_mul, restrict]
  · conv_rhs => rw [← Multiset.map_id X]
    refine Multiset.map_congr rfl fun c hc => Bindings.ext_get? fun v => ?_
    rw [Bindings.get?_restrict]
    split
    · rfl
    · next hv => exact (free c hc v (by simpa using hv)).symm
  · intro a _ c hc v hv s t _ ht
    rw [free c hc v hv] at ht
    simp at ht

/-- Rows that agree with the fixed terms are not lost. -/
theorem fix_eq_zero_iff {X : Rows} (h : ∀ c ∈ X, β.Agrees c) : fix β X = 0 ↔ X = 0 := by
  constructor
  · intro h0
    refine Multiset.eq_zero_of_forall_notMem fun c hc => ?_
    obtain ⟨d, hd⟩ := (h c hc).exists_merge
    have mem : d.restrict (fun v => !β.contains v) ∈ fix β X :=
      Multiset.mem_map_of_mem _ (mem_singleton_mul.2 ⟨c, hc, hd⟩)
    rw [h0] at mem
    exact Multiset.notMem_zero _ mem
  · rintro rfl
    rw [fix, mul_zero]
    rfl

/-- A condition that mentions no fixed variable may be asked before or after. -/
theorem fix_filter {f : Option Expr} (h : ∀ v ∈ Expr.varsOf f, β.contains v = false) (X : Rows) :
    fix β (X.filter (Expr.acceptsAll f · = true)) =
      (fix β X).filter (Expr.acceptsAll f · = true) := by
  have unfixed : ∀ {x c : Bindings}, β.merge? x = some c →
      Expr.acceptsAll f c = Expr.acceptsAll f x := by
    intro x c hc
    refine Expr.acceptsAll_congr fun v hv => ?_
    rw [Bindings.get?_of_merge hc, Bindings.contains_eq_false_iff.1 (h v hv), Option.none_or]
  rw [fix, fix, restrict, restrict, Multiset.filter_map, ← filter_mul_right]
  · refine congrArg _ (Multiset.filter_congr fun c _ => ?_)
    rw [Function.comp_apply, Expr.acceptsAll_congr fun v hv => ?_]
    rw [Bindings.get?_restrict, h v hv]
    rfl
  · intro a ha x _ c hc
    obtain rfl := Multiset.mem_singleton.1 ha
    rw [unfixed hc]

end Rows

/-- Fixing variables of the solutions of a pattern is binding the pattern. -/
theorem TriplePattern.fix_solutions (β : Bindings) (triples : List Triple) (p : TriplePattern) :
    Rows.fix β (p.solutions triples) = (p.bind β).solutions triples := by
  have bound : Rows.fix β (p.solutions triples) = Rows.fix β ((p.bind β).solutions triples) := by
    rw [Rows.fix, ← singleton_mul_solutions_bind, ← Rows.fix]
  rw [bound, Rows.fix_of_free]
  intro c hc v hv
  rw [Bool.eq_false_iff]
  intro hcv
  have hm := (mem_vars_bind.1 ((contains_of_mem_solutions hc v).1 hcv)).2
  rw [← Bindings.contains_eq_false_iff, hv] at hm
  exact absurd hm (by simp)

theorem Store.fix_bgpSolutions (β : Bindings) (triples : List Triple) (ps : List TriplePattern) :
    Rows.fix β (bgpSolutions triples ps) = bgpSolutions triples (ps.map (·.bind β)) := by
  induction ps with
  | nil => exact Rows.fix_one β
  | cons p ps ih =>
    rw [bgpSolutions_cons, Rows.fix_mul, TriplePattern.fix_solutions, ih, List.map_cons,
      bgpSolutions_cons]

/-! ### Fixing statements and groups -/

theorem Bindings.project_append_singleton (β : Bindings) (us : List String) (v : String) :
    β.project (us ++ [v]) =
      match β.get? v with
      | some t => (β.project us).insert v t
      | none => β.project us := by
  refine Bindings.ext_get? fun w => ?_
  cases hv : β.get? v with
  | none =>
    simp only [get?_project, List.mem_append, List.mem_singleton]
    by_cases hw : w = v
    · subst hw
      simp [hv]
    · simp [hw]
  | some t =>
    simp only [get?_project, get?_insert, List.mem_append, List.mem_singleton]
    by_cases hw : w = v
    · subst hw
      simp [hv]
    · simp [hw]

namespace Plan

/-- Fixed terms and the condition into which they are put. -/
def fixOne (β : Bindings) (state : Bindings × Option Expr) (v : String) :
    Bindings × Option Expr :=
  match β.get? v with
  | some t => (state.1.insert v t, state.2.map (·.substitute (state.1.insert v t)))
  | none => state

/-- Fixing variables one after another is fixing them at once. -/
theorem foldl_fixOne (β : Bindings) (f : Option Expr) (us vs : List String) :
    vs.foldl (fixOne β) (β.project us, f.map (·.substitute (β.project us))) =
      (β.project (us ++ vs), f.map (·.substitute (β.project (us ++ vs)))) := by
  induction vs generalizing us with
  | nil => rw [List.append_nil]; rfl
  | cons v vs ih =>
    have step : fixOne β (β.project us, f.map (·.substitute (β.project us))) v =
        (β.project (us ++ [v]), f.map (·.substitute (β.project (us ++ [v])))) := by
      rw [fixOne, Bindings.project_append_singleton]
      cases hv : β.get? v with
      | none => rfl
      | some t =>
        have grows : (β.project us).Extends ((β.project us).insert v t) := by
          intro w u hw
          rw [Bindings.get?_project] at hw
          rw [Bindings.get?_insert, Bindings.get?_project]
          split
          · next heq => simp_all
          · exact hw
        simp only [Option.map_map, Function.comp_def, Expr.substitute_substitute grows]
    rw [List.foldl_cons, step, ih, List.append_assoc, List.singleton_append]

theorem foldl_fixOne_empty (β : Bindings) (f : Option Expr) (vs : List String) :
    vs.foldl (fixOne β) (∅, f) = (β.project vs, f.map (·.substitute (β.project vs))) := by
  have start := foldl_fixOne β f [] vs
  have none_yet : β.project [] = ∅ := Bindings.ext_get? fun v => by simp
  simpa only [none_yet, Expr.substitute_empty, Option.map_id', List.nil_append] using start

/-- Fixing variables of a statement, none of which is fixed before. -/
theorem fixStatement_eq (β : Bindings) {s : Statement} (h : s.boundFilters = ∅) :
    fixStatement β s = { s with
      boundFilters := β.project s.pattern.vars
      filter := s.filter.map (·.substitute (β.project s.pattern.vars)) } := by
  have each : ∀ (vs : List String) (state : Bindings × Option Expr),
      vs.foldl (fun s v =>
        match β.get? v with
        | some t => s.fix v t
        | none => s) { s with boundFilters := state.1, filter := state.2 } =
      { s with
        boundFilters := (vs.foldl (fixOne β) state).1
        filter := (vs.foldl (fixOne β) state).2 } := by
    intro vs
    induction vs with
    | nil => exact fun state => rfl
    | cons v vs ih =>
      intro state
      rw [List.foldl_cons, List.foldl_cons, ← ih, fixOne]
      cases β.get? v <;> rfl
  have all := each s.pattern.vars (∅, s.filter)
  rw [foldl_fixOne_empty, ← h] at all
  exact all

/-- Fixing variables of a group, none of which is fixed before. -/
theorem fixGroup_eq (β : Bindings) {g : ExclusiveGroup} (h : g.boundFilters = ∅) :
    fixGroup β g = { g with
      boundFilters := β.project g.freeVars
      filter := g.filter.map (·.substitute (β.project g.freeVars)) } := by
  have each : ∀ (vs : List String) (state : Bindings × Option Expr),
      vs.foldl (fun g v =>
        match β.get? v with
        | some t => g.fix v t
        | none => g) { g with boundFilters := state.1, filter := state.2 } =
      { g with
        boundFilters := (vs.foldl (fixOne β) state).1
        filter := (vs.foldl (fixOne β) state).2 } := by
    intro vs
    induction vs with
    | nil => exact fun state => rfl
    | cons v vs ih =>
      intro state
      rw [List.foldl_cons, List.foldl_cons, ← ih, fixOne]
      cases β.get? v <;> rfl
  have all := each g.freeVars (∅, g.filter)
  rw [foldl_fixOne_empty, ← h] at all
  exact all

end Plan

end FederatedSparql
