import FederatedSparql.Proofs.Plan.Patterns

/-!
A federation answers basic graph patterns as one store would.

* `sourcedPlan_comes`: the plan of a basic graph pattern with truthful sources brings one row for
  each choice of triples of all members.
* `planned_yields_patternRows`: so does the plan that a federation makes for it, once it has been
  built and started.
-/

namespace FederatedSparql

variable {r : Registry} {env : Environment} {ms : List Member} {a : Algebra}
  {projection : Option (List String)}

namespace Plan

/-- Only a projection that stands on top is scoped. -/
theorem Flat.scopeVars_eq {p : Plan} (h : p.Flat r) : p.scopeVars = p := by
  have unprojected : p.topProjection? = none := by
    cases p with
    | project => exact h.1.elim
    | slice => exact h.1.elim
    | distinct => exact h.1.elim
    | _ => rfl
  unfold scopeVars
  rw [unprojected]

theorem Flat.evaluate_comes {p : Plan} (hr : env.registry.Sound)
    (h : p.Flat env.registry) (hf : p.Fits env.registry env.config.boundJoinBlockSize) :
    (env.evaluate p ∅).Comes env.registry.answers (p.rows env.registry ∅) :=
  Pushable.evaluate_comes hr (.conjunctive h.1) hf

theorem evaluate_empty_comes (hr : env.registry.Sound) :
    (env.evaluate empty ∅).Comes env.registry.answers 0 :=
  Environment.evaluate_comes hr empty trivial rfl trivial

theorem projectOnto_empty (vars : List String) :
    Environment.projectOnto vars ∅ ∅ = Store.projectRow (some vars) ∅ := by
  funext x
  show ((∅ : Bindings).merge? (x.project vars)).getD _ = x.project (vars ++ [])
  rw [Bindings.empty_merge?, List.append_nil]
  rfl

/-- **Scoping keeps what a projection of statements and groups brings.** -/
theorem Flat.evaluate_scopeVars_comes {p : Plan} (hr : env.registry.Sound)
    (h : p.Flat env.registry) (hf : p.Fits env.registry env.config.boundJoinBlockSize)
    (projection : Option (List String)) :
    (env.evaluate (projected projection p).scopeVars ∅).Comes env.registry.answers
      ((p.rows env.registry ∅).map (Store.projectRow projection ∅)) := by
  cases projection with
  | none =>
    rw [projected, h.scopeVars_eq]
    have whole : (p.rows env.registry ∅).map (Store.projectRow none ∅) = p.rows env.registry ∅ :=
      Multiset.map_id' _
    rw [whole]
    exact h.evaluate_comes hr hf
  | some vars =>
    obtain ⟨isLocal, p', heq, marks, apart, dropped⟩ := scopeVars_project vars ∅ p
    have inner : (env.evaluate p' ∅).Comes env.registry.answers (p'.rows env.registry ∅) := by
      refine Environment.evaluate_comes hr p' (marks.wellSourced h.1.wellSourced) rfl ?_
      refine takesBlocks_of_uniform p' (marks.uniform h.1.uniform) (hf.mono ?_) ∅
      rw [marks.width_eq]
    have same := shared_rows_of_marks h.1 h.2 apart marks ∅
    rw [projected, heq, ← projectOnto_empty, ← map_projectOnto_of_shared same dropped]
    exact Environment.evaluate_project_comes vars ∅ inner

end Plan

namespace Federation

open Plan

/-- The rows of patterns over the triples of all members: one for each choice of one triple for each
pattern that agrees on all variables, with the variables that are asked for. -/
def patternRows (ms : List Member) (ps : List TriplePattern) (projection : Option (List String)) :
    List Bindings :=
  ((Store.choices (ms.flatMap (·.triples)) ps).filterMap Store.choiceRow?).map
    (Store.projectRow projection ∅)

/-- **The plan of a basic graph pattern with truthful sources brings one row for each choice** of
triples of all members. -/
theorem sourcedPlan_comes {q : Query} (hr : env.registry.Sound) (h : env.registry.Holds ms)
    (ha : a.Basic) (hq : q.algebra = a.projected projection)
    (hi : ∀ p ∈ a.patterns, Tag.indexVar ∉ p.vars)
    (hf : env.config.boundJoinBlockSize ≤ Tag.numberLimit ∨
      max 1 (ms.flatMap (·.triples)).length ^ a.patterns.length ≤ Tag.numberLimit)
    {selected : List (List Source)}
    (ht : List.Forall₂ (fun p found => found.Perm (Selection.matchingSources ms p))
      ((builtPlan q).statements.map (·.pattern)) selected) :
    (env.evaluate (sourcedPlan q selected) ∅).Comes env.registry.answers
      (patternRows ms a.patterns projection) := by
  obtain ⟨built, unfiltered⟩ := build_projected ha projection
  rw [← hq] at built unfiltered
  have statements : (builtPlan q).statements = numbered 0 a.patterns := by
    rw [builtPlan, built, statements_projected, statements_ofStatements]
  rw [statements] at ht
  have ids : ((numbered 0 a.patterns).map (·.id)).Nodup := by
    rw [map_id_numbered]
    exact List.nodup_range'
  let sources := sourcesBy (numbered 0 a.patterns) selected
  let plan := attached sources (Plan.build q.algebra).2.2 (ofStatements (numbered 0 a.patterns))
  have sourced : TruthfullySourced ms a.patterns sources := ⟨hi, sourcesBy_of_forall₂ ids ht⟩
  obtain ⟨rows, width⟩ : plan.rows env.registry ∅ = _ ∧ plan.width env.registry ≤ _ :=
    restructured_patterns h ha.patterns_ne_nil sourced _
  have flat : plan = .empty ∨ plan.Flat env.registry := attached_flat (flat_of_mem_inPlace h sourced) _
  have whole : sourcedPlan q selected = (plan.orEmpty (projected projection)).scopeVars := by
    rw [sourcedPlan, unfiltered, statements, builtPlan, built, attached_projected]
    rfl
  rw [whole, patternRows, ← Multiset.map_coe, ← Store.bgpSolutions_eq_choices, ← rows]
  rcases flat with hempty | hflat
  · rw [hempty]
    cases projection <;> exact evaluate_empty_comes hr
  · rw [orEmpty_of_not_isEmpty _ hflat.1.isEmpty_eq]
    exact hflat.evaluate_scopeVars_comes hr (hf.imp_right width.trans) projection

section Planned

variable {config : Config} (hv : config.validate = .ok ()) (htime : config.queryTimeoutMs = 0)
  (hd : (ms.map (·.id)).Nodup) (hm : ∀ m ∈ ms, m.Reliable) (honce : (ms.flatMap (·.triples)).Nodup)
  {q : Query} (ha : a.Basic) (hq : q.algebra = a.projected projection)
  (hi : ∀ p ∈ a.patterns, Tag.indexVar ∉ p.vars)
  (hf : config.boundJoinBlockSize ≤ Tag.numberLimit ∨
    max 1 (ms.flatMap (·.triples)).length ^ a.patterns.length ≤ Tag.numberLimit)

include hv htime hd hm honce ha hq hi hf

/-- A federation can be built and started, and it plans a basic graph pattern so that evaluation
comes to one row for each choice of one triple for each pattern. -/
theorem exists_planned :
    ∃ f f' f'' p, build config ms = .ok f ∧
      initializeMembers.Gives f () f' ∧ f'.initialized = true ∧
      (startQuery q.text q.form).Gives f' (.start q.text q.form f'.now none) f' ∧
      (plan (.start q.text q.form f'.now none) q).Gives f' p f'' ∧
      ((⟨f''.registry, f''.config⟩ : Environment).evaluate p ∅).Comes f''.registry.answers
        (patternRows ms a.patterns projection) := by
  obtain ⟨f, built, cold⟩ := build_gives hv hd
  obtain ⟨f', started, initialized, fresh⟩ := initializeMembers_gives hm cold
  have statements : (builtPlan q).statements ≠ [] := by
    rw [builtPlan, hq, (build_projected ha projection).1, statements_projected,
      statements_ofStatements]
    exact numbered_ne_nil 0 ha.patterns_ne_nil
  let query := QueryContext.start q.text q.form f'.now none
  have active : query.aborted = false := rfl
  obtain ⟨selected, f'', planned, hconfig, holds, truthful⟩ :=
    plan_gives hm fresh active rfl q statements
  refine ⟨f, f', f'', _, built, started, initialized, startQuery_gives htime fresh q.text q.form,
    planned, ?_⟩
  let env : Environment := ⟨f''.registry, f''.config⟩
  have sound : env.registry.Sound := holds.sound hm honce
  rw [← hconfig] at hf
  exact sourcedPlan_comes sound holds ha hq hi hf truthful

end Planned

/-- One member knows who works where, the other one where places are. -/
def peopleAndPlaces : List Member :=
  [{ id := "people", name := "people", triples :=
      [⟨.iri "ann", .iri "worksAt", .iri "lab"⟩, ⟨.iri "bob", .iri "worksAt", .iri "shop"⟩] },
    { id := "places", name := "places", triples := [⟨.iri "lab", .iri "in", .iri "town"⟩] }]

/-- Who works in which town. -/
def whoWorksIn : Algebra :=
  .join (.pattern ⟨.var "who", .const (.iri "worksAt"), .var "place"⟩)
    (.pattern ⟨.var "place", .const (.iri "in"), .var "town"⟩)

/-- The query for it. -/
def whoWorksInQuery : Query := ⟨"", .select, .project ["who", "town"] whoWorksIn⟩

end Federation

end FederatedSparql
