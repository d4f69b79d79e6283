import FederatedSparql.Proofs.Plan.Fixing

/-!
Plans with fixed variables.

* `Plan.fix_rows`: fixing variables takes the rows that agree with the fixed terms, without the fixed
  variables, if the terms are also put into the conditions of all filters (`Plan.substituteFilters`).
* `Plan.Moved.fixVars`: fixing variables of a plan with filters moved is moving filters of the plan
  with its variables fixed.
-/

namespace FederatedSparql

variable {r : Registry} {b c x β : Bindings} {v : String} {e : Expr}

theorem TriplePattern.bind_congr {p : TriplePattern} {a b : Bindings}
    (h : ∀ v ∈ p.vars, a.get? v = b.get? v) : p.bind a = p.bind b := by
  have each : ∀ q : PatternTerm, (∀ v, q = .var v → v ∈ p.vars) → q.bind a = q.bind b := by
    intro q hq
    cases q with
    | const t => rfl
    | var v => rw [PatternTerm.bind, PatternTerm.bind, h v (hq v rfl)]
  rw [bind, bind, each _ fun v hv => mem_vars.2 (.inl hv),
    each _ fun v hv => mem_vars.2 (.inr (.inl hv)), each _ fun v hv => mem_vars.2 (.inr (.inr hv))]

/-! ### Plans without fixed variables -/

namespace Plan

mutual

/-- No filter has fixed a variable of any statement or group that could have one fixed. -/
def Unfixed : Plan → Prop
  | statement s => s.boundFilters = ∅
  | group g => g.boundFilters = ∅ ∧ ∀ s ∈ g.statements, s.boundFilters = ∅
  | independent members => ∀ s ∈ members, s.boundFilters = ∅
  | join args _ => UnfixedAll args
  | filter _ a => a.Unfixed
  | leftJoin left _ _ => left.Unfixed
  | _ => True

/-- The same for all plans. -/
def UnfixedAll : List Plan → Prop
  | [] => True
  | a :: rest => a.Unfixed ∧ UnfixedAll rest

end

mutual

/-- Statements and groups have neither conditions nor fixed variables; filters may stand above them
as far as the Boolean says, but not in optional parts. -/
def Bare (filters : Bool) : Plan → Prop
  | statement s => s.filter = none ∧ s.boundFilters = ∅
  | group g => g.filter = none ∧ g.boundFilters = ∅ ∧
    ∀ s ∈ g.statements, s.filter = none ∧ s.boundFilters = ∅
  | independent members => ∀ s ∈ members, s.filter = none ∧ s.boundFilters = ∅
  | join args _ => BareAll filters args
  | filter _ a => filters = true ∧ a.Bare filters
  | leftJoin left right _ => left.Bare filters ∧ right.Bare false
  | _ => False

/-- The same for all plans. -/
def BareAll (filters : Bool) : List Plan → Prop
  | [] => True
  | a :: rest => a.Bare filters ∧ BareAll filters rest

end

mutual

theorem Bare.unfixed {filters : Bool} : ∀ {p : Plan}, p.Bare filters → p.Unfixed
  | statement _, h => h.2
  | group _, h => ⟨h.2.1, fun s hs => (h.2.2 s hs).2⟩
  | independent _, h => fun s hs => (h s hs).2
  | join args _, h => BareAll.unfixed (l := args) h
  | filter _ _, h => h.2.unfixed
  | leftJoin .., h => h.1.unfixed

theorem BareAll.unfixed {filters : Bool} :
    ∀ {l : List Plan}, BareAll filters l → UnfixedAll l
  | [], _ => trivial
  | _ :: _, h => ⟨h.1.unfixed, h.2.unfixed⟩

end

theorem unfixedAll_append {xs ys : List Plan} :
    UnfixedAll (xs ++ ys) ↔ UnfixedAll xs ∧ UnfixedAll ys := by
  induction xs with
  | nil => simp [UnfixedAll]
  | cons a xs ih => simp only [List.cons_append, UnfixedAll, ih, and_assoc]

theorem fixVarsAll_append (β : Bindings) (xs ys : List Plan) :
    fixVarsAll β (xs ++ ys) = fixVarsAll β xs ++ fixVarsAll β ys := by
  induction xs with
  | nil => rfl
  | cons a xs ih => rw [List.cons_append, fixVarsAll, ih]; rfl

/-! ### Statements and groups -/

section Leaves

variable {s : Statement} {g : ExclusiveGroup}

theorem effectivePattern_fixStatement (h : s.boundFilters = ∅) :
    (fixStatement β s).effectivePattern = s.effectivePattern.bind β := by
  rw [fixStatement_eq β h, Statement.effectivePattern, Statement.effectivePattern, h,
    TriplePattern.bind_empty]
  refine TriplePattern.bind_congr fun v hv => ?_
  rw [Bindings.get?_project, if_pos hv]

theorem mem_freeVars_fixStatement (h : s.boundFilters = ∅) :
    v ∈ (fixStatement β s).freeVars ↔ v ∈ s.freeVars ∧ β.get? v = none := by
  rw [Statement.mem_freeVars, effectivePattern_fixStatement h, TriplePattern.mem_vars_bind,
    Statement.mem_freeVars]

theorem patterns_fixGroup (h : g.boundFilters = ∅) (hs : ∀ s ∈ g.statements, s.boundFilters = ∅) :
    (fixGroup β g).patterns = g.patterns.map (·.bind β) := by
  rw [fixGroup_eq β h, ExclusiveGroup.patterns, ExclusiveGroup.patterns, List.map_map]
  refine List.map_congr_left fun s hmem => ?_
  have plain : g.memberPattern s = s.pattern := by
    rw [ExclusiveGroup.memberPattern, h, hs s hmem, TriplePattern.bind_empty,
      TriplePattern.bind_empty]
  rw [Function.comp_apply, plain, ExclusiveGroup.memberPattern, hs s hmem, TriplePattern.bind_empty]
  refine TriplePattern.bind_congr fun v hv => ?_
  rw [Bindings.get?_project, if_pos]
  exact ExclusiveGroup.mem_freeVars.2 ⟨s.pattern, List.mem_map.2 ⟨s, hmem, plain⟩, hv⟩

theorem mem_freeVars_fixGroup (h : g.boundFilters = ∅)
    (hs : ∀ s ∈ g.statements, s.boundFilters = ∅) :
    v ∈ (fixGroup β g).freeVars ↔ v ∈ g.freeVars ∧ β.get? v = none := by
  simp only [ExclusiveGroup.mem_freeVars, patterns_fixGroup h hs, List.mem_map,
    exists_exists_and_eq_and, TriplePattern.mem_vars_bind]
  constructor
  · rintro ⟨p, hp, hv, hb⟩
    exact ⟨⟨p, hp, hv⟩, hb⟩
  · rintro ⟨⟨p, hp, hv⟩, hb⟩
    exact ⟨p, hp, hv, hb⟩

theorem fixStatement_conjunctive (h : s.boundFilters = ∅)
    (hs : s.WellSourced r ∧ s.localVars = []) :
    (fixStatement β s).WellSourced r ∧ (fixStatement β s).localVars = [] := by
  refine ⟨⟨?_, fun hv => hs.1.index ((mem_freeVars_fixStatement h).1 hv).1⟩, ?_⟩
  · rw [fixStatement_eq β h]
    exact hs.1.registers
  · rw [fixStatement_eq β h]
    exact hs.2

theorem width_fixStatement (h : s.boundFilters = ∅) : (fixStatement β s).width r = s.width r := by
  rw [fixStatement_eq β h]
  rfl

/-- A condition of a statement keeps its place when variables are fixed. -/
theorem fixStatement_addFilter (h : s.boundFilters = ∅) (he : ∀ v ∈ e.vars, v ∈ s.freeVars) :
    fixStatement β (s.addFilter e) = (fixStatement β s).addFilter (e.substitute β) := by
  have same : e.substitute (β.project s.pattern.vars) = e.substitute β := by
    refine Expr.substitute_congr fun v hv => ?_
    have mem := (TriplePattern.mem_freeVars.1 (he v (Expr.mem_vars.2 hv))).1
    rw [Bindings.get?_project, if_pos mem]
  rw [fixStatement_eq β h, fixStatement_eq β (s := s.addFilter e) h]
  simp only [Statement.addFilter, Expr.conjoin_substitute, same]

theorem fixGroup_addFilter (h : g.boundFilters = ∅) (he : ∀ v ∈ e.vars, v ∈ g.freeVars) :
    fixGroup β (g.addFilter e) = (fixGroup β g).addFilter (e.substitute β) := by
  have same : e.substitute (β.project g.freeVars) = e.substitute β := by
    refine Expr.substitute_congr fun v hv => ?_
    rw [Bindings.get?_project, if_pos (he v (Expr.mem_vars.2 hv))]
  have free : (g.addFilter e).freeVars = g.freeVars := rfl
  rw [fixGroup_eq β h, fixGroup_eq β (g := g.addFilter e) h, free]
  simp only [ExclusiveGroup.addFilter, Expr.conjoin_substitute, same]

end Leaves

/-! ### Shape and size -/

mutual

theorem Conjunctive.fixVars : ∀ {p : Plan}, p.Conjunctive r → p.Unfixed →
    (p.fixVars β).Conjunctive r
  | statement _, h, hu => fixStatement_conjunctive hu h
  | group g, h, hu => by
    refine ⟨?_, fun hv => h.2.1 ((mem_freeVars_fixGroup hu.1 hu.2).1 hv).1, ?_⟩
    · rw [fixGroup_eq β hu.1]
      exact h.1
    · rw [fixGroup_eq β hu.1]
      exact h.2.2
  | independent members, h, hu => by
    intro s hs
    obtain ⟨t, ht, rfl⟩ := List.mem_map.1 hs
    exact fixStatement_conjunctive (hu t ht) (h t ht)
  | join args _, h, hu => ConjunctiveAll.fixVarsAll (l := args) h hu
  | filter _ a, h, hu => Conjunctive.fixVars (p := a) h hu

theorem ConjunctiveAll.fixVarsAll : ∀ {l : List Plan}, ConjunctiveAll r l → UnfixedAll l →
    ConjunctiveAll r (fixVarsAll β l)
  | [], _, _ => trivial
  | _ :: _, h, hu => ⟨h.1.fixVars hu.1, h.2.fixVarsAll hu.2⟩

end

theorem Pushable.fixVars {p : Plan} (h : p.Pushable r) (hu : p.Unfixed) :
    (p.fixVars β).Pushable r := by
  induction h with
  | conjunctive hp => exact .conjunctive (hp.fixVars hu)
  | leftJoin _ hr ih => exact .leftJoin (ih hu) hr

mutual

theorem width_fixVars : ∀ (p : Plan), p.Unfixed → (p.fixVars β).width r = p.width r
  | statement _, hu => width_fixStatement hu
  | group g, hu => by
    have patterns : (fixGroup β g).patterns = _ := patterns_fixGroup hu.1 hu.2
    have length := congrArg List.length patterns
    rw [List.length_map] at length
    rw [Plan.fixVars, width, width, ExclusiveGroup.width, ExclusiveGroup.width, length,
      fixGroup_eq β hu.1]
  | independent members, hu => by
    rw [Plan.fixVars, width, width, List.map_map]
    exact congrArg List.prod (List.map_congr_left fun s hs => width_fixStatement (hu s hs))
  | join args _, hu => joinWidth_fixVarsAll args hu
  | filter _ a, hu => width_fixVars a hu
  | leftJoin left right _, hu => by
    rw [Plan.fixVars, width, width, width_fixVars left hu]
  | union _, _ => rfl
  | service _, _ => rfl
  | passThrough .., _ => rfl
  | empty, _ => rfl
  | project .., _ => rfl
  | slice .., _ => rfl
  | distinct _, _ => rfl

theorem joinWidth_fixVarsAll :
    ∀ (args : List Plan), UnfixedAll args → joinWidth r (fixVarsAll β args) = joinWidth r args
  | [], _ => rfl
  | a :: rest, hu => by
    rw [fixVarsAll, joinWidth, joinWidth, width_fixVars a hu.1, joinWidth_fixVarsAll rest hu.2]

end

/-! ### Moving filters before variables are fixed -/

theorem Added.unfixed {p q : Plan} (h : Added e p q) : p.Unfixed → q.Unfixed := by
  induction h with
  | statement _ => exact id
  | group _ => exact id
  | @independent pre post s _ =>
    intro hm t ht
    rcases List.mem_append.1 ht with ht | ht
    · exact hm t (List.mem_append_left _ ht)
    · rcases List.mem_cons.1 ht with rfl | ht
      · exact hm s (List.mem_append_right _ List.mem_cons_self)
      · exact hm t (List.mem_append_right _ (List.mem_cons_of_mem s ht))
  | join _ ih =>
    intro hargs
    obtain ⟨hpre, ha, hpost⟩ := unfixedAll_append.1 hargs
    exact unfixedAll_append.2 ⟨hpre, ih ha, hpost⟩
  | filter _ ih => exact ih
  | leftJoin _ ih => exact ih

/-- A placed condition keeps its place when variables are fixed. -/
theorem Added.fixVars {p q : Plan} (h : Added e p q) :
    p.Unfixed → Added (e.substitute β) (p.fixVars β) (q.fixVars β) := by
  have remains : ∀ {v : String}, v ∈ (e.substitute β).vars → v ∈ e.vars ∧ β.get? v = none :=
    Expr.mem_vars_substitute.1
  induction h with
  | @statement s he =>
    intro hu
    rw [Plan.fixVars, Plan.fixVars, fixStatement_addFilter hu he]
    refine .statement fun v hv => ?_
    obtain ⟨hv, hb⟩ := remains hv
    exact (mem_freeVars_fixStatement hu).2 ⟨he v hv, hb⟩
  | @group g he =>
    intro hu
    rw [Plan.fixVars, Plan.fixVars, fixGroup_addFilter hu.1 he]
    refine .group fun v hv => ?_
    obtain ⟨hv, hb⟩ := remains hv
    exact (mem_freeVars_fixGroup hu.1 hu.2).2 ⟨he v hv, hb⟩
  | @independent pre post s he =>
    intro hu
    have hs := hu s (List.mem_append_right _ List.mem_cons_self)
    rw [Plan.fixVars, Plan.fixVars, List.map_append, List.map_append, List.map_cons, List.map_cons,
      fixStatement_addFilter hs he]
    refine .independent fun v hv => ?_
    obtain ⟨hv, hb⟩ := remains hv
    exact (mem_freeVars_fixStatement hs).2 ⟨he v hv, hb⟩
  | join _ ih =>
    intro hu
    rw [Plan.fixVars, Plan.fixVars, fixVarsAll_append, fixVarsAll_append]
    exact .join (ih (unfixedAll_append.1 hu).2.1)
  | filter _ ih => exact fun hu => .filter (ih hu)
  | leftJoin _ ih => exact fun hu => .leftJoin (ih hu)

theorem AddedAll.unfixed {p q : Plan} {es : List Expr} (h : AddedAll es p q) (hu : p.Unfixed) :
    q.Unfixed := by
  induction h with
  | nil => exact hu
  | cons h _ ih => exact ih (h.unfixed hu)

theorem AddedAll.fixVars {p q : Plan} {es : List Expr} (h : AddedAll es p q) (hu : p.Unfixed) :
    AddedAll (es.map (·.substitute β)) (p.fixVars β) (q.fixVars β) := by
  induction h with
  | nil => exact .nil _
  | cons h _ ih => exact .cons (h.fixVars hu) (ih (h.unfixed hu))

theorem fixVars_under (residual : List Expr) (a : Plan) :
    (under residual a).fixVars β = under (residual.map (·.substitute β)) (a.fixVars β) := by
  unfold under
  rw [Expr.andAll_map_substitute]
  cases Expr.andAll residual <;> rfl

theorem Moved.unfixed {p q : Plan} (h : Moved p q) : p.Unfixed → q.Unfixed := by
  induction h with
  | refl _ => exact id
  | trans _ _ ih ih' => exact ih' ∘ ih
  | place h _ =>
    intro hu
    unfold under
    split
    · exact h.unfixed hu
    · exact h.unfixed hu
  | join _ ih =>
    intro hargs
    obtain ⟨hpre, ha, hpost⟩ := unfixedAll_append.1 hargs
    exact unfixedAll_append.2 ⟨hpre, ih ha, hpost⟩
  | filter _ ih => exact ih
  | leftJoin _ _ ih _ => exact ih

/-- **Fixing variables of a plan with filters moved is moving filters of the plan with its variables
fixed.** -/
theorem Moved.fixVars {p q : Plan} (h : Moved p q) :
    p.Unfixed → Moved (p.fixVars β) (q.fixVars β) := by
  induction h with
  | refl _ => exact fun _ => .refl _
  | trans h _ ih ih' => exact fun hu => .trans (ih hu) (ih' (h.unfixed hu))
  | place h hc =>
    intro hu
    rw [fixVars_under]
    refine .place (h.fixVars hu) ?_
    rw [Expr.conjuncts_substitute, ← List.map_append]
    exact hc.map _
  | join _ ih =>
    intro hu
    rw [Plan.fixVars, Plan.fixVars, fixVarsAll_append, fixVarsAll_append]
    exact .join (ih (unfixedAll_append.1 hu).2.1)
  | filter _ ih => exact fun hu => .filter (ih hu)
  | leftJoin _ hr ih _ => exact fun hu => .leftJoin (ih hu) hr

end Plan

end FederatedSparql
