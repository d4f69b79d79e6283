import FederatedSparql.Proofs.Endpoint.AlikeAnswers
import FederatedSparql.Proofs.Engine.KeptBindings

/-!
Evaluations of a plan under rows that agree on what it looks at.

* `Plan.reads`: the variables that the evaluation of a plan looks at, those of conditions included.
* `Environment.evaluate_related`: under rows that agree on them, as many rows and failures arrive in the
  same order, and rows that agree on them arrive in the same places.
* `Environment.statement_related`, `Environment.independent_related`: statements that leave out
  different variables give rows that agree on all others.

Nothing is asked of the members: they may fail, hold a triple twice or not be there at all.
-/

namespace FederatedSparql

variable {env : Environment} {D E : Set String} {us vs : List String} {b b' x x' : Bindings}
  {p : TriplePattern} {ps : List TriplePattern}

/-! ### Requests -/

namespace Environment

section Requests

variable {answers : Answers} {endpoint : String} {R S : Bindings → Bindings → Prop}

theorem askRows_related {q q' : Request} {k k' : List Bindings → Work Bindings}
    (h : SameOutcome (fun a a' : Answer => List.Forall₂ S a.toRows a'.toRows) (answers endpoint q)
      (answers endpoint q'))
    (hk : ∀ rows rows', List.Forall₂ S rows rows' → (k rows).Related answers R (k' rows')) :
    (askRows endpoint q k).Related answers R (askRows endpoint q' k') :=
  Work.Related.ofExcept h fun _ _ hs => hk _ _ hs

theorem fetch_related {q q' : Request}
    (h : SameOutcome (fun a a' : Answer => List.Forall₂ R a.toRows a'.toRows) (answers endpoint q)
      (answers endpoint q')) :
    (fetch endpoint q).Related answers R (fetch endpoint q') :=
  askRows_related h fun _ _ hs => .rows hs

theorem confirm_related
    (h : answers endpoint (.has p b) = answers endpoint (.has p b')) (hb : R b b') :
    (confirm endpoint p b).Related answers R (confirm endpoint p b') := by
  show Work.Related answers R (.ofExcept (answers endpoint (.has p b)) _)
    (.ofExcept (answers endpoint (.has p b')) _)
  rw [h]
  refine .ofExcept_same fun a => .rows ?_
  split
  · exact .cons hb .nil
  · exact .nil

theorem confirmAll_related {under under' : Bindings} {onFailure : FedError → Work Bindings}
    (hfail : ∀ e, (onFailure e).Related answers R (onFailure e))
    (h : ∀ p ∈ ps, answers endpoint (.has p under) = answers endpoint (.has p under'))
    (hb : R b b') :
    (confirmAll endpoint onFailure under b ps).Related answers R
      (confirmAll endpoint onFailure under' b' ps) := by
  induction ps with
  | nil => exact .rows (.cons hb .nil)
  | cons p rest ih =>
    rw [List.forall_mem_cons] at h
    rw [confirmAll, confirmAll]
    unfold Work.Related
    rw [Work.ending, Work.ending, ← h.1]
    cases answers endpoint (.has p under) with
    | error e => exact hfail e
    | ok a =>
      simp only
      split
      · exact ih h.2
      · exact Work.Related.rows .nil

theorem guarded_related {w w' : Work Bindings} (h : w.Related answers R w') :
    (guarded w).Related answers R (guarded w') :=
  .check h.repairingFaults

end Requests

/-! ### Statements, groups and services -/

end Environment

/-- The variables that the evaluation of a statement looks at. -/
def Statement.reads (s : Statement) : List String := s.freeVars ++ Expr.varsOf s.filter

/-- The variables that the evaluation of a group looks at. -/
def ExclusiveGroup.reads (g : ExclusiveGroup) : List String := g.freeVars ++ Expr.varsOf g.filter

/-- The variables that the evaluation of a SERVICE clause looks at if its body is a basic graph
pattern. -/
def Service.reads (s : Service) : List String :=
  match s.bgp? with
  | some (patterns, filter) => patterns.flatMap (·.vars) ++ Expr.varsOf filter
  | none => []

namespace Environment

section Parts

variable {s : Statement} {g : ExclusiveGroup} {l : List String}

/-- **A statement that leaves out other variables** gives rows that agree on what both keep or leave
out. -/
theorem statement_related (hs : ∀ v ∈ s.reads, v ∈ D)
    (hE : ∀ v ∈ E, v ∈ D ∧ (v ∈ s.freeVars → (v ∈ s.localVars ↔ v ∈ l))) (hb : Bindings.EqOn D b b') :
    (env.statement s b).Related env.registry.answers (Bindings.Alike E s.freeVars b b')
      (env.statement { s with localVars := l } b') := by
  have inPattern : ∀ v ∈ s.effectivePattern.vars, v ∈ D ∧ v ∈ s.freeVars := by
    intro v hv
    have hf := Statement.mem_freeVars.2 hv
    exact ⟨hs v (List.mem_append_left _ hf), hf⟩
  have same : ∀ v ∈ s.effectivePattern.vars, b.get? v = b'.get? v := fun v hv =>
    hb (inPattern v hv).1
  have self : Bindings.Alike E s.freeVars b b' b b' :=
    .refl (hb.mono fun v hv => (hE v hv).1) s.freeVars
  have accepted : Expr.acceptsAll s.filter b = Expr.acceptsAll s.filter b' :=
    Expr.acceptsAll_congr fun v hv => hb (hs v (List.mem_append_right _ hv))
  have asked : ∀ endpoint, (fetch endpoint (.get [s.effectivePattern] b s.filter
        (wanted (s.effectivePattern.freeVars b) s.localVars))).Related env.registry.answers
      (Bindings.Alike E s.freeVars b b')
      (fetch endpoint (.get [s.effectivePattern] b' s.filter
        (wanted (s.effectivePattern.freeVars b') l))) := by
    intro endpoint
    rw [← TriplePattern.freeVars_congr same]
    refine fetch_related (Registry.answers_get_related fun triples =>
      Store.solutions_alike (by simpa using inPattern)
        (fun v hv => hs v (List.mem_append_right _ hv)) (fun p hp v hv => ?_) hE hb)
    obtain rfl := List.mem_singleton.1 hp
    rw [TriplePattern.mem_freeVars]
    cases b.contains v <;> simp [hv]
  have confirmed : ∀ endpoint, (confirm endpoint s.effectivePattern b).Related
      env.registry.answers (Bindings.Alike E s.freeVars b b')
      (confirm endpoint s.effectivePattern b') := fun endpoint =>
    confirm_related (Registry.answers_has_congr same) self
  unfold statement
  by_cases hempty : s.sources.isEmpty = true
  · rw [if_pos hempty, if_pos hempty]
    exact .rows .nil
  rw [if_neg hempty, if_neg hempty]
  show Work.Related _ _ _ (if s.effectivePattern.hasFreeVars b' then _ else _)
  rw [← TriplePattern.hasFreeVars_congr same, ← accepted]
  split
  · refine .ofExcept_same fun ms => ?_
    split
    · exact asked _
    · refine .done (.union false ?_)
      rw [List.forall₂_map_left_iff, List.forall₂_map_right_iff, List.forall₂_same]
      exact fun m _ => (asked m.id).repairingFaults
  · split
    · refine .ofExcept_same fun ms => ?_
      split
      · exact confirmed _
      · refine .done (.slice 0 (some 1) (.union true ?_))
        rw [List.forall₂_map_left_iff, List.forall₂_map_right_iff, List.forall₂_same]
        exact fun m _ => (confirmed m.id).repairingFaults
    · exact .rows .nil

/-- The same for a group: only the local variables of its members differ. -/
theorem group_related {g' : ExclusiveGroup} (howner : g'.owner = g.owner)
    (hfilter : g'.filter = g.filter) (hpatterns : g'.patterns = g.patterns)
    (hg : ∀ v ∈ g.reads, v ∈ D)
    (hE : ∀ v ∈ E, v ∈ D ∧ (v ∈ g.freeVars → (v ∈ g.localVars ↔ v ∈ g'.localVars)))
    (hb : Bindings.EqOn D b b') :
    (env.group g b).Related env.registry.answers (Bindings.EqOn E) (env.group g' b') := by
  have inPatterns : ∀ p ∈ g.patterns, ∀ v ∈ p.vars, v ∈ D ∧ v ∈ g.freeVars := by
    intro p hp v hv
    have hf := ExclusiveGroup.mem_freeVars.2 ⟨p, hp, hv⟩
    exact ⟨hg v (List.mem_append_left _ hf), hf⟩
  have bound : g'.patterns.map (·.bind b') = g.patterns.map (·.bind b) := by
    rw [hpatterns]
    exact List.map_congr_left fun p hp => TriplePattern.bind_congr fun v hv =>
      (hb (inPatterns p hp v hv).1).symm
  have accepted : Expr.acceptsAll g.filter b = Expr.acceptsAll g.filter b' :=
    Expr.acceptsAll_congr fun v hv => hb (hg v (List.mem_append_right _ hv))
  unfold group
  rw [howner, hfilter, bound, hpatterns, ← accepted]
  refine .ofExcept_same fun m => ?_
  simp only
  split
  · split
    · exact confirmAll_related .failRepairing (fun _ _ => rfl) (hb.mono fun v hv => (hE v hv).1)
    · exact .rows .nil
  · refine (fetch_related (Registry.answers_get_related fun triples =>
      Store.solutions_alike inPatterns (fun v hv => hg v (List.mem_append_right _ hv))
        (fun p hp v hv => ?_) hE hb)).imp fun _ _ h => h.eqOn
    cases hv' : b.contains v with
    | true => exact .inl rfl
    | false =>
      refine .inr (List.mem_eraseDups.2 (List.mem_flatMap.2 ⟨_, List.mem_map_of_mem hp, ?_⟩))
      exact TriplePattern.mem_vars_bind.2 ⟨hv, Bindings.contains_eq_false_iff.1 hv'⟩

theorem mem_of_bgp? {service : Service} {f : Option Expr} (h : service.bgp? = some (ps, f))
    (hr : ∀ v ∈ service.reads, v ∈ D) :
    (∀ p ∈ ps, ∀ v ∈ p.vars, v ∈ D) ∧ ∀ v ∈ Expr.varsOf f, v ∈ D := by
  have reads : service.reads = ps.flatMap (·.vars) ++ Expr.varsOf f := by
    rw [Service.reads, h]
  rw [reads] at hr
  exact ⟨fun p hp v hv => hr v (List.mem_append_left _ (List.mem_flatMap.2 ⟨p, hp, hv⟩)),
    fun v hv => hr v (List.mem_append_right _ hv)⟩

theorem silently_related {answers : Answers} {R : Bindings → Bindings → Prop} {service : Service}
    {rows rows' : List Bindings} {w w' : Work Bindings} (h : w.Related answers R w')
    (hrows : List.Forall₂ R rows rows') :
    (silently service rows w).Related answers R (silently service rows' w') := by
  unfold silently
  split
  · exact h.handle fun _ => .rows hrows
  · exact h

theorem atService_related {answers : Answers} {R : Bindings → Bindings → Prop} {service : Service}
    {k k' : Member → Work Bindings} (h : ∀ m, (k m).Related answers R (k' m)) :
    (env.atService service k).Related answers R (env.atService service k') := by
  unfold atService
  split
  · exact h _
  · exact .fail _

theorem service_related {service : Service} (hbgp : service.bgp?.isSome = true)
    (hr : ∀ v ∈ service.reads, v ∈ D) (hb : Bindings.EqOn D b b') :
    (env.service service b).Related env.registry.answers (Bindings.EqOn D)
      (env.service service b') := by
  refine silently_related (atService_related fun m => ?_) (.cons hb .nil)
  obtain ⟨⟨ps, f⟩, hparts⟩ := Option.isSome_iff_exists.1 hbgp
  obtain ⟨hps, hf⟩ := mem_of_bgp? hparts hr
  have free : ps.any (·.hasFreeVars b') = ps.any (·.hasFreeVars b) := by
    rw [Bool.eq_iff_iff, List.any_eq_true, List.any_eq_true]
    refine exists_congr fun p => and_congr_right fun hp => ?_
    rw [TriplePattern.hasFreeVars_congr fun v hv => hb (hps p hp v hv)]
  have accepted : Expr.acceptsAll f b' = Expr.acceptsAll f b :=
    Expr.acceptsAll_congr fun v hv => (hb (hf v hv)).symm
  unfold serviceAt
  rw [hparts]
  simp only
  rw [free, accepted]
  split
  · refine fetch_related (Registry.answers_get_related fun triples => ?_)
    have whole : ∀ c, Store.solutions triples ps c f none =
        (Store.evaluateBgp triples ps c).filter (Expr.acceptsAll f) := fun _ => List.map_id _
    rw [whole, whole]
    have within : ∀ p ∈ ps, ∀ v ∈ p.vars, v ∈ D ∧ v ∈ ps.flatMap (·.vars) :=
      fun p hp v hv => ⟨hps p hp v hv, List.mem_flatMap.2 ⟨p, hp, hv⟩⟩
    exact (Store.filter_evaluateBgp_alike within hf hb).imp fun _ _ h => h.eqOn
  · split
    · exact confirmAll_related .fail (fun p hp =>
        Registry.answers_has_congr fun v hv => hb (hps p hp v hv)) hb
    · exact .rows .nil

end Parts

end Environment

/-! ### Blocks -/

namespace BoundJoin

variable {block block' : List Bindings} {tagged tagged' : List (Nat × Bindings)}

theorem demultiplex_eqOn (hblock : List.Forall₂ (Bindings.EqOn D) block block')
    (h : List.Forall₂ (Tag.Numbered D vs block block') tagged tagged') :
    List.Forall₂ (Bindings.EqOn D) (demultiplex block tagged) (demultiplex block' tagged') := by
  refine List.rel_filterMap (fun ⟨i, x⟩ ⟨i', x'⟩ ht => ?_) h
  obtain ⟨rfl, b, b', hb, hb', hx⟩ := ht
  simp only at hb hb' ⊢
  rw [hb, hb']
  exact Bindings.Alike.merge_self (rel_of_getElem? hblock hb hb') hx

theorem confirmed_eqOn (hblock : List.Forall₂ (Bindings.EqOn D) block block')
    (h : List.Forall₂ (Tag.Numbered D vs block block') tagged tagged') :
    List.Forall₂ (Bindings.EqOn D) (confirmed block tagged) (confirmed block' tagged') := by
  have numbers : tagged.map (·.1) = tagged'.map (·.1) := by
    rw [← List.forall₂_eq_eq_eq, List.forall₂_map_left_iff, List.forall₂_map_right_iff]
    exact h.imp fun _ _ ht => ht.1
  have hit : ∀ i, (tagged.any fun t => t.1 == i) = tagged'.any fun t => t.1 == i := by
    intro i
    have := congrArg (List.any · (· == i)) numbers
    simpa only [List.any_map, Function.comp_def] using this
  unfold confirmed
  refine List.rel_map (fun x x' hx => hx.2.1) (forall₂_filter (forall₂_zipIdx hblock) ?_)
  rintro ⟨x, i⟩ ⟨x', i'⟩ ⟨hi, -⟩
  obtain rfl : i = i' := hi
  exact hit i

theorem mergeAll_alike {xs xs' ys ys' : List Bindings}
    (hx : List.Forall₂ (Bindings.Alike D us b b') xs xs')
    (hy : List.Forall₂ (Bindings.Alike D vs b b') ys ys') (shared : ∀ v ∈ us, v ∈ vs → v ∈ D) :
    List.Forall₂ (Bindings.Alike D (us ++ vs) b b') (mergeAll xs ys) (mergeAll xs' ys') :=
  List.rel_flatMap hx fun _ _ hxx => List.rel_filterMap (fun _ _ hyy => hxx.merge hyy shared) hy

variable (us) in
/-- Lists of rows that add different variables are merged in one after another. -/
theorem foldl_mergeAll_eqOn {κ : Type} {keys : List κ} (added : κ → List String)
    {rows rows' : κ → List Bindings} {xs xs' : List Bindings}
    (hrows : ∀ k ∈ keys, List.Forall₂ (Bindings.Alike D (added k) b b') (rows k) (rows' k))
    (shared : keys.Pairwise fun j k => ∀ v ∈ added j, v ∈ added k → v ∈ D)
    (hx : List.Forall₂ (Bindings.Alike D us b b') xs xs')
    (before : ∀ k ∈ keys, ∀ v ∈ us, v ∈ added k → v ∈ D) :
    List.Forall₂ (Bindings.EqOn D) (keys.foldl (fun l k => mergeAll l (rows k)) xs)
      (keys.foldl (fun l k => mergeAll l (rows' k)) xs') := by
  induction keys generalizing us xs xs' with
  | nil => exact hx.imp fun _ _ h => h.eqOn
  | cons k keys ih =>
    rw [List.forall_mem_cons] at hrows before
    rw [List.pairwise_cons] at shared
    refine ih _ hrows.2 shared.2 (mergeAll_alike hx hrows.1 before.1) fun j hj v hv hw => ?_
    rcases List.mem_append.1 hv with hv | hv
    · exact before.2 j hj v hv hw
    · exact shared.1 j hj v hv hw

theorem combine_eqOn {κ : Type} {keys : List κ} (added : κ → List String)
    {answers answers' : κ → List (Nat × Bindings)}
    (hblock : List.Forall₂ (Bindings.EqOn D) block block')
    (h : ∀ k ∈ keys, List.Forall₂ (Tag.Numbered D (added k) block block') (answers k) (answers' k))
    (hadded : ∀ k ∈ keys, ∀ v ∈ added k, v ∈ D) :
    List.Forall₂ (Bindings.EqOn D) (combine block (keys.map answers))
      (combine block' (keys.map answers')) := by
  unfold combine
  refine List.rel_flatMap (forall₂_zipIdx hblock) ?_
  rintro ⟨b, i⟩ ⟨b', i'⟩ ⟨hi, hb, hbi, hbi'⟩
  obtain rfl : i = i' := hi
  simp only [List.foldl_map]
  refine foldl_mergeAll_eqOn [] added (b := b) (fun k hk => ?_)
    (List.pairwise_of_forall_mem_list fun j hj k _ v hv _ => hadded j hj v hv)
    (.cons (.refl hb []) .nil) fun k hk v hv => absurd hv List.not_mem_nil
  have ofRow : List.Forall₂ (fun t t' => t.1 = i ∧ Tag.Numbered D (added k) block block' t t')
      ((answers k).filter fun t => t.1 == i) ((answers' k).filter fun t => t.1 == i) := by
    refine (List.forall₂_and_left _ _).2 ⟨fun t ht => by simpa using (List.mem_filter.1 ht).2, ?_⟩
    exact forall₂_filter (h k hk) fun t t' ht => by rw [ht.1]
  rw [List.forall₂_map_left_iff, List.forall₂_map_right_iff]
  refine ofRow.imp fun t t' ht => ?_
  obtain ⟨rfl, -, c, c', hc, hc', hx⟩ := ht
  obtain rfl := Option.some.inj (hbi.symm.trans hc)
  obtain rfl := Option.some.inj (hbi'.symm.trans hc')
  exact hx

end BoundJoin

namespace Environment

section Blocks

variable {R : Bindings → Bindings → Prop} {s : Statement} {block block' : List Bindings}

theorem joinResponses_related {answers : Answers} {S : Bindings → Bindings → Prop}
    {k k' : List Bindings → Work Bindings}
    (hk : ∀ rows rows', List.Forall₂ S rows rows' → (k rows).Related answers R (k' rows'))
    {soFar soFar' : List Bindings} (hs : List.Forall₂ S soFar soFar')
    {results results' : List (Except FedError (List Bindings))}
    (h : List.Forall₂ (SameOutcome (List.Forall₂ S)) results results') :
    (joinResponses k soFar results).Related answers R (joinResponses k' soFar' results') := by
  induction h generalizing soFar soFar' with
  | nil => exact hk _ _ hs
  | cons hr _ ih =>
    cases hr with
    | ok hrows => exact ih (List.rel_append hs hrows)
    | error e => exact .failRepairing e

theorem fetchTagged_related {k k' : List Bindings → Work Bindings} (hs : ∀ v ∈ s.reads, v ∈ D)
    (hblock : List.Forall₂ (Bindings.EqOn D) block block')
    (hk : ∀ rows rows', List.Forall₂ (Tag.Tagged D s.freeVars block block') rows rows' →
      (k rows).Related env.registry.answers R (k' rows')) :
    (env.fetchTagged s block k).Related env.registry.answers R (env.fetchTagged s block' k') := by
  refine .ofExcept_same fun ms => .gather ?_ fun _ _ => joinResponses_related hk .nil
  rw [List.forall₂_map_left_iff, List.forall₂_map_right_iff, List.forall₂_same]
  refine fun m _ => fetch_related (Registry.answers_bound_related fun triples =>
    Store.boundSolutions_tagged (fun p hp v hv => ?_)
      (fun v hv => hs v (List.mem_append_right _ hv)) hblock)
  obtain rfl := List.mem_singleton.1 hp
  have hf := Statement.mem_freeVars.2 hv
  exact ⟨hs v (List.mem_append_left _ hf), hf⟩

theorem serviceBlock_related {service : Service} (hbgp : service.bgp?.isSome = true)
    (hr : ∀ v ∈ service.reads, v ∈ D) (hsize : block.length ≤ Tag.numberLimit)
    (hblock : List.Forall₂ (Bindings.EqOn D) block block') :
    (env.serviceBlock service block).Related env.registry.answers (Bindings.EqOn D)
      (env.serviceBlock service block') := by
  obtain ⟨⟨ps, f⟩, hparts⟩ := Option.isSome_iff_exists.1 hbgp
  obtain ⟨hps, hf⟩ := mem_of_bgp? hparts hr
  unfold serviceBlock
  rw [hparts]
  refine atService_related fun m => Work.Related.repairingFaults ?_
  have within : ∀ p ∈ ps, ∀ v ∈ p.vars, v ∈ D ∧ v ∈ ps.flatMap (·.vars) :=
    fun p hp v hv => ⟨hps p hp v hv, List.mem_flatMap.2 ⟨p, hp, hv⟩⟩
  refine askRows_related (Registry.answers_bound_related fun triples =>
    Store.boundSolutions_tagged within hf hblock)
    fun rows rows' hrows => .rows ?_
  exact BoundJoin.demultiplex_eqOn hblock (Tag.filterMap_untagRow?_numbered hsize hrows)

theorem independentBlock_related {members : List Statement}
    (hr : ∀ s ∈ members, ∀ v ∈ s.reads, v ∈ D) (hsize : block.length ≤ Tag.numberLimit)
    (hblock : List.Forall₂ (Bindings.EqOn D) block block') :
    (env.independentBlock members block).Related env.registry.answers (Bindings.EqOn D)
      (env.independentBlock members block') := by
  refine .gatherEach (T := fun s => Tag.Tagged D s.freeVars block block')
    (fun s hs => fetchTagged_related (hr s hs) hblock fun _ _ h => .rows h) fun g g' hg => ?_
  rcases SameOutcome.mapM_id hg with ⟨e, he, he'⟩ | ⟨hok, hok', hT⟩
  · rw [he, he']
    exact .fail e
  · rw [hok, hok']
    simp only [List.map_map, Function.comp_def]
    refine .rows (BoundJoin.combine_eqOn Statement.freeVars hblock
      (fun s hs => Tag.filterMap_untagRow?_numbered hsize (hT s hs)) fun s hs v hv =>
        hr s hs v (List.mem_append_left _ hv))

end Blocks

variable (env) in
/-- **Independent statements that leave out other variables** give rows that agree on what all of them
keep or leave out, if that includes whatever two of them mention. -/
theorem independent_related (keys : List (Statement × List String))
    (hr : ∀ k ∈ keys, ∀ v ∈ k.1.reads, v ∈ D)
    (hE : ∀ k ∈ keys, ∀ v ∈ E, v ∈ D ∧ (v ∈ k.1.freeVars → (v ∈ k.1.localVars ↔ v ∈ k.2)))
    (shared : keys.Pairwise fun j k => ∀ v ∈ j.1.freeVars, v ∈ k.1.freeVars → v ∈ E)
    (hED : E ⊆ D) (hb : Bindings.EqOn D b b') :
    (env.independent (keys.map (·.1)) b).Related env.registry.answers (Bindings.EqOn E)
      (env.independent (keys.map fun k => { k.1 with localVars := k.2 }) b') := by
  unfold independent
  rw [List.map_map, List.map_map]
  refine .gatherEach (T := fun k => Bindings.Alike E k.1.freeVars b b')
    (fun k hk => guarded_related (statement_related (hr k hk) (hE k hk) hb)) fun g g' hg => ?_
  rcases SameOutcome.mapM_id hg with ⟨e, he, he'⟩ | ⟨hok, hok', hT⟩
  · rw [he, he']
    exact .fail e
  · rw [hok, hok']
    simp only [List.foldl_map]
    refine .rows (BoundJoin.foldl_mergeAll_eqOn [] (fun k => k.1.freeVars) hT shared
      (.cons (.refl (hb.mono hED) []) .nil) fun k _ v hv => absurd hv List.not_mem_nil)

end Environment

/-! ### Plans -/

namespace Plan

mutual

/-- The variables that the evaluation of a plan looks at. -/
def reads : Plan → List String
  | statement s => s.reads
  | group g => g.reads
  | independent members => members.flatMap (·.reads)
  | service s => s.reads
  | join args _ => readsAll args
  | union args => readsAll args
  | filter condition a => condition.vars ++ a.reads
  | leftJoin l r condition => l.reads ++ r.reads ++ Expr.varsOf condition
  | project vars _ a => vars ++ a.reads
  | slice _ _ a => a.reads
  | distinct a => a.reads
  | passThrough .. => []
  | empty => []

/-- The variables that the evaluation of plans looks at. -/
def readsAll : List Plan → List String
  | [] => []
  | a :: rest => a.reads ++ readsAll rest

end

mutual

/-- Whole queries and SERVICE clauses with other bodies than basic graph patterns do not occur in the
plan, and DISTINCT at most on top.  The Boolean tells whether only modifiers stand above it. -/
def Plain (top : Bool) : Plan → Prop
  | service s => s.bgp?.isSome = true
  | passThrough .. => False
  | distinct a => top = true ∧ a.Plain top
  | slice _ _ a => a.Plain top
  | join args _ => PlainAll args
  | union args => PlainAll args
  | filter _ a => a.Plain false
  | leftJoin l r _ => l.Plain false ∧ r.Plain false
  | project _ _ a => a.Plain false
  | statement _ => True
  | group _ => True
  | independent _ => True
  | empty => True

/-- The same for all plans, none of them on top. -/
def PlainAll : List Plan → Prop
  | [] => True
  | a :: rest => a.Plain false ∧ PlainAll rest

end

end Plan

namespace Environment

/-- A task for a block, whichever kind the first row of all has chosen. -/
theorem blockTask_related {right : Plan} {first first' : Bindings} {block block' : List Bindings}
    (hright : BoundTaskKind.supports right env.config.serviceAsBoundJoin = true)
    (hplain : right.Plain false) (hr : ∀ v ∈ right.reads, v ∈ D) (hfirst : Bindings.EqOn D first first')
    (hsize : block.length ≤ Tag.numberLimit)
    (hblock : List.Forall₂ (Bindings.EqOn D) block block') :
    (env.blockTask right first block).Related env.registry.answers (Bindings.EqOn D)
      (env.blockTask right first' block') := by
  cases right with
  | statement s =>
    have free : s.hasFreeVarsFor first' = s.hasFreeVarsFor first :=
      TriplePattern.hasFreeVars_congr fun v hv =>
        (hfirst (hr v (List.mem_append_left _ (Statement.mem_freeVars.2 hv)))).symm
    unfold blockTask
    simp only [BoundTaskKind.choose?, free]
    cases s.hasFreeVarsFor first with
    | true =>
      exact fetchTagged_related hr hblock fun rows rows' h =>
        .rows (BoundJoin.demultiplex_eqOn hblock (Tag.filterMap_untagRow?_numbered hsize h))
    | false =>
      exact fetchTagged_related hr hblock fun rows rows' h =>
        .rows (BoundJoin.confirmed_eqOn hblock (Tag.filterMap_untagRow?_numbered hsize h))
  | service s =>
    have kind : ∀ c, BoundTaskKind.choose? (.service s) c env.config.serviceAsBoundJoin =
        some .serviceJoin := fun _ => if_pos hright
    unfold blockTask
    rw [kind, kind]
    exact silently_related (serviceBlock_related hplain hr hsize hblock) hblock
  | independent members =>
    exact independentBlock_related (fun s hs v hv => hr v (List.mem_flatMap.2 ⟨s, hs, hv⟩)) hsize
      hblock
  | _ => simp [BoundTaskKind.supports] at hright

/-- One more argument of a join. -/
theorem joinStep_related {right : Plan} {f f' : Feed Bindings}
    (hsize : env.config.boundJoinBlockSize ≤ Tag.numberLimit) (hplain : right.Plain false)
    (hr : ∀ v ∈ right.reads, v ∈ D)
    (hright : ∀ x x', Bindings.EqOn D x x' →
      (env.evaluate right x).Related env.registry.answers (Bindings.EqOn D) (env.evaluate right x'))
    (h : f.Related env.registry.answers (Bindings.EqOn D) f') :
    (env.joinStep f right).Related env.registry.answers (Bindings.EqOn D) (env.joinStep f' right) := by
  unfold joinStep
  split
  · next hsupports =>
    refine h.boundJoin fun x x' hx block block' hblock hlen =>
      blockTask_related hsupports hplain hr hx ?_ hblock
    simp only [BoundJoin.smallBlockSize, Tag.numberLimit] at hlen hsize ⊢
    omega
  · exact h.nestedJoin hright

/-- A projection of rows that agree on its variables, among others. -/
theorem projectOnto_eqOn {vars : List String} {inserted : Bindings} (hvars : ∀ v ∈ vars, v ∈ D)
    (hb : Bindings.EqOn D b b') (hx : Bindings.EqOn D x x') :
    Bindings.EqOn D (projectOnto vars inserted b x) (projectOnto vars inserted b' x') := by
  have same : putBack vars inserted x = putBack vars inserted x' := by
    refine Bindings.ext_get? fun v => ?_
    rw [get?_putBack, get?_putBack]
    split
    · next hv => rw [hx (hvars v hv)]
    · rfl
  have within : ∀ v, (putBack vars inserted x').contains v = true → v ∈ D := by
    intro v hv
    obtain ⟨t, ht⟩ := Bindings.contains_iff.1 hv
    rw [get?_putBack] at ht
    split at ht
    · next hm => exact hvars v hm
    · simp at ht
  have merged := Bindings.EqOn.merge_right hb within
  rw [projectOnto_eq_getD, projectOnto_eq_getD, same]
  generalize b.merge? (putBack vars inserted x') = m at merged ⊢
  generalize b'.merge? (putBack vars inserted x') = m' at merged ⊢
  cases merged with
  | none => exact Set.eqOn_refl _ _
  | some h => exact h

mutual

/-- **Under rows that agree on what a plan looks at, rows that agree on it arrive.** -/
theorem evaluate_related (hsize : env.config.boundJoinBlockSize ≤ Tag.numberLimit) :
    ∀ (p : Plan), p.Plain false → (∀ v ∈ p.reads, v ∈ D) → ∀ {b b' : Bindings},
    Bindings.EqOn D b b' →
      (env.evaluate p b).Related env.registry.answers (Bindings.EqOn D) (env.evaluate p b')
  | .statement s, _, hr, b, b', hb => by
    rw [evaluate, evaluate]
    exact guarded_related ((statement_related (l := s.localVars) hr (fun v hv => ⟨hv, fun _ => Iff.rfl⟩) hb).imp
      fun _ _ h => h.eqOn)
  | .group g, _, hr, b, b', hb => by
    rw [evaluate, evaluate]
    exact guarded_related (group_related rfl rfl rfl hr (fun v hv => ⟨hv, fun _ => Iff.rfl⟩) hb)
  | .service s, hp, hr, b, b', hb => by
    rw [evaluate, evaluate]
    exact guarded_related (service_related hp hr hb)
  | .independent members, _, hr, b, b', hb => by
    have keys : ∀ k ∈ members.map fun s => (s, s.localVars), k.2 = k.1.localVars := by
      intro k hk
      obtain ⟨s, -, rfl⟩ := List.mem_map.1 hk
      rfl
    have readsOf : ∀ k ∈ members.map fun s => (s, s.localVars), ∀ v ∈ k.1.reads, v ∈ D := by
      intro k hk v hv
      obtain ⟨s, hs, rfl⟩ := List.mem_map.1 hk
      exact hr v (List.mem_flatMap.2 ⟨s, hs, hv⟩)
    have related := independent_related env _ (E := D) readsOf
      (fun k hk v hv => ⟨hv, fun _ => by rw [keys k hk]⟩)
      (List.pairwise_of_forall_mem_list fun j hj k _ v hv _ =>
        readsOf j hj v (List.mem_append_left _ hv)) subset_rfl hb
    rw [evaluate, evaluate]
    simp only [List.map_map, Function.comp_def, List.map_id'] at related
    exact guarded_related related
  | .empty, _, _, b, b', _ => by
    rw [evaluate, evaluate]
    exact guarded_related (.rows .nil)
  | .join args vars, hp, hr, b, b', hb => by
    rw [evaluate, evaluate]
    exact guarded_related (evaluateJoin_related hsize args hp hr hb)
  | .union args, hp, hr, b, b', hb => by
    rw [evaluate, evaluate]
    exact guarded_related (.done (.union false (evaluateAll_related hsize args hp hr hb)))
  | .filter condition a, hp, hr, b, b', hb => by
    rw [evaluate, evaluate]
    refine guarded_related ((evaluate_related hsize a hp (fun v hv => hr v (List.mem_append_right _ hv))
      hb).mapFeed fun f f' h => h.filter fun x x' hx => ?_)
    exact Expr.accepts_congr fun v hv => hx (hr v (List.mem_append_left _ hv))
  | .leftJoin l r condition, hp, hr, b, b', hb => by
    rw [evaluate, evaluate]
    have hl : ∀ v ∈ l.reads, v ∈ D := fun v hv =>
      hr v (List.mem_append_left _ (List.mem_append_left _ hv))
    have hright : ∀ v ∈ r.reads, v ∈ D := fun v hv =>
      hr v (List.mem_append_left _ (List.mem_append_right _ hv))
    refine guarded_related ((evaluate_related hsize l hp.1 hl hb).mapFeed fun f f' h =>
      h.optional (fun x x' hx => evaluate_related hsize r hp.2 hright hx) fun x x' hx => ?_)
    exact Expr.acceptsAll_congr fun v hv => hx (hr v (List.mem_append_right _ hv))
  | .project vars inserted a, hp, hr, b, b', hb => by
    rw [evaluate, evaluate]
    refine guarded_related ((evaluate_related hsize a hp (fun v hv => hr v (List.mem_append_right _ hv))
      hb).mapFeed fun f f' h => h.map fun x x' hx => ?_)
    exact projectOnto_eqOn (fun v hv => hr v (List.mem_append_left _ hv)) hb hx
  | .distinct _, hp, _, _, _, _ => absurd hp.1 Bool.false_ne_true
  | .slice offset limit a, hp, hr, b, b', hb => by
    rw [evaluate, evaluate]
    exact guarded_related ((evaluate_related hsize a hp hr hb).mapFeed fun f f' h =>
      h.slice offset limit)

theorem evaluateJoin_related (hsize : env.config.boundJoinBlockSize ≤ Tag.numberLimit) :
    ∀ (args : List Plan), Plan.PlainAll args →
    (∀ v ∈ Plan.readsAll args, v ∈ D) → ∀ {b b' : Bindings}, Bindings.EqOn D b b' →
      (env.evaluateJoin args b).Related env.registry.answers (Bindings.EqOn D)
        (env.evaluateJoin args b')
  | [], _, _, b, b', hb => .rows (.cons hb .nil)
  | first :: rest, hp, hr, b, b', hb => by
    rw [evaluateJoin, evaluateJoin]
    refine (evaluate_related hsize first hp.1 (fun v hv => hr v (List.mem_append_left _ hv)) hb).bind
      fun f f' h => .done (joinRest_related hsize rest hp.2
        (fun v hv => hr v (List.mem_append_right _ hv)) h)

theorem joinRest_related (hsize : env.config.boundJoinBlockSize ≤ Tag.numberLimit) :
    ∀ (args : List Plan), Plan.PlainAll args →
    (∀ v ∈ Plan.readsAll args, v ∈ D) → ∀ {f f' : Feed Bindings},
      f.Related env.registry.answers (Bindings.EqOn D) f' →
        (joinRest env args f).Related env.registry.answers (Bindings.EqOn D) (joinRest env args f')
  | [], _, _, f, f', h => by simpa only [joinRest] using h
  | right :: rest, hp, hr, f, f', h => by
    rw [joinRest_cons, joinRest_cons, h.isKnownEmpty_eq]
    split
    · exact .rows .nil
    · have hright : ∀ v ∈ right.reads, v ∈ D := fun v hv => hr v (List.mem_append_left _ hv)
      exact joinRest_related hsize rest hp.2 (fun v hv => hr v (List.mem_append_right _ hv))
        (joinStep_related hsize hp.1 hright (fun x x' hx => evaluate_related hsize right hp.1 hright hx) h)

theorem evaluateAll_related (hsize : env.config.boundJoinBlockSize ≤ Tag.numberLimit) :
    ∀ (args : List Plan), Plan.PlainAll args →
    (∀ v ∈ Plan.readsAll args, v ∈ D) → ∀ {b b' : Bindings}, Bindings.EqOn D b b' →
      List.Forall₂ (fun w w' => w.2.Related env.registry.answers (Bindings.EqOn D) w'.2)
        (evaluateAll env args b) (evaluateAll env args b')
  | [], _, _, _, _, _ => .nil
  | a :: rest, hp, hr, _, _, hb =>
    .cons (evaluate_related hsize a hp.1 (fun v hv => hr v (List.mem_append_left _ hv)) hb)
      (evaluateAll_related hsize rest hp.2 (fun v hv => hr v (List.mem_append_right _ hv)) hb)

end

end Environment

end FederatedSparql
