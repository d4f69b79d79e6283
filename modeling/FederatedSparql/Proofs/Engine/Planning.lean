import FederatedSparql.Engine.Federation
import FederatedSparql.Proofs.Engine.Probing
import FederatedSparql.Proofs.Plan.Restructuring

/-!
From members and settings to the plan of a query.

A federation of members with different ids that start, answer and accept no whole queries can be
built and started, and plans a query without an error: while nothing is known, the statements of the
plan get the members that hold a match.

* `build_gives`, `initializeMembers_gives`: there is a federation, and it starts.
* `plan_gives`: the plan of a query, with truthful sources.
-/

namespace FederatedSparql.Federation

/-- An action succeeds with a value, and leaves a federation. -/
def Action.Gives {α : Type} (a : Action α) (f : Federation) (x : α) (f' : Federation) : Prop :=
  a.run.run f = (.ok x, f')

section Actions

variable {α β : Type} {a : Action α} {k : α → Action β} {f f' f'' : Federation} {x : α} {y : β}

theorem gives_bind (h : a.Gives f x f') (hk : (k x).Gives f' y f'') : (a >>= k).Gives f y f'' := by
  show (match a.run.run f with
    | (r, f) => (ExceptT.bindCont k r).run f) = (.ok y, f'')
  rw [show a.run.run f = (.ok x, f') from h]
  exact hk

theorem gives_pure (x : α) (f : Federation) : (pure x : Action α).Gives f x f := rfl

theorem gives_get (f : Federation) : (get : Action Federation).Gives f f f := rfl

theorem gives_modify (g : Federation → Federation) (f : Federation) :
    (modify g : Action Unit).Gives f () (g f) := rfl

end Actions

theorem ensureInitialized_gives {f : Federation} (h : f.initialized = true) :
    ensureInitialized.Gives f () f := by
  refine gives_bind (gives_get f) ?_
  rw [h]
  exact gives_pure () f

/-! ### Members -/

variable {ms : List Member} {f : Federation} {config : Config}

/-- A federation of some members that knows nothing about them yet. -/
structure Fresh (ms : List Member) (config : Config) (f : Federation) : Prop where
  config : f.config = config
  members : f.registry.Holds ms
  cold : f.cache.observations = []

/-- **Members of different ids can be federated** under settings that are in order. -/
theorem build_gives (hv : config.validate = .ok ()) (hd : (ms.map (·.id)).Nodup) :
    ∃ f, build config ms = .ok f ∧ Fresh ms config f := by
  obtain ⟨r, hr, hm⟩ := Registry.holds_foldlM_register hd
  refine ⟨{ empty config with registry := r }, ?_, rfl, hm, rfl⟩
  show (config.validate >>= fun _ => ofMembers config ms) = _
  rw [hv]
  show (ms.foldlM Registry.register {} >>= fun r => _) = _
  rw [hr]
  rfl

theorem startMembers_gives (hr : ∀ m ∈ ms, m.Reliable) (ids : List String) (hf : Fresh ms config f) :
    ∃ f', (startMembers ids).Gives f () f' ∧ Fresh ms config f' := by
  induction ids generalizing f with
  | nil => exact ⟨f, rfl, hf⟩
  | cons id rest ih =>
    unfold startMembers
    cases hk : f.registry.known? id with
    | none =>
      obtain ⟨f', run, fresh⟩ := ih hf
      refine ⟨f', gives_bind (gives_get f) ?_, fresh⟩
      rwa [hk]
    | some m =>
      have reliable : m.Reliable := by
        obtain ⟨m', hm', hcore⟩ :=
          hf.members.exists_of_mem_known (Registry.mem_known_of_known? hk)
        exact (hr m' hm').of_core hcore
      have starts : m.start = (.ok (), m.start.2) := by
        simp [Member.start, reliable.starts]
      have started : Fresh ms config
          { f with registry := f.registry.update id fun _ => m.start.2 } :=
        ⟨hf.config, hf.members.replace hk (Member.core_start m), hf.cold⟩
      obtain ⟨f', run, fresh⟩ := ih started
      refine ⟨f', gives_bind (gives_get f) ?_, fresh⟩
      simp only [hk]
      rw [starts]
      exact gives_bind (gives_modify _ f) run

/-- **Reliable members start.** -/
theorem initializeMembers_gives (hr : ∀ m ∈ ms, m.Reliable) (hf : Fresh ms config f) :
    ∃ f', initializeMembers.Gives f () f' ∧ f'.initialized = true ∧ Fresh ms config f' := by
  unfold initializeMembers
  by_cases hi : f.initialized = true
  · refine ⟨f, gives_bind (gives_get f) ?_, hi, hf⟩
    rw [if_pos hi]
    exact gives_pure () f
  · obtain ⟨f', run, fresh⟩ := startMembers_gives hr f.registry.ids hf
    refine ⟨{ f' with
      join := { f'.join with running := true }
      union := { f'.union with running := true }
      initialized := true }, gives_bind (gives_get f) ?_, rfl, fresh.config, fresh.members,
      fresh.cold⟩
    rw [if_neg hi]
    exact gives_bind run (gives_modify _ f')

/-! ### Plans -/

/-- The sources of statements, in the order of the statements. -/
def sourcesBy (statements : List Statement) (selected : List (List Source)) (id : Nat) :
    List Source :=
  (((statements.map (·.id)).zip selected).lookup id).getD []

/-- The plan of a query before sources are attached. -/
def builtPlan (q : Query) : Plan := (Plan.build q.algebra).1

/-- The plan of a query that is evaluated with some sources. -/
def sourcedPlan (q : Query) (selected : List (List Source)) : Plan :=
  let built := builtPlan q
  let sourced := Plan.attached (sourcesBy built.statements selected) (Plan.build q.algebra).2.2 built
  (if (Plan.build q.algebra).2.1.hasFilter then sourced.pushFilters else sourced).scopeVars

/-- What holds of the pattern and the sources of each statement in order holds of those that it gets
by its number. -/
theorem sourcesBy_of_forall₂ {R : TriplePattern → List Source → Prop} {statements : List Statement}
    {selected : List (List Source)} (hd : (statements.map (·.id)).Nodup)
    (h : List.Forall₂ R (statements.map (·.pattern)) selected) :
    ∀ s ∈ statements, R s.pattern (sourcesBy statements selected s.id) := by
  induction statements generalizing selected with
  | nil => exact fun s hs => absurd hs List.not_mem_nil
  | cons t rest ih =>
    rw [List.map_cons] at hd h
    obtain ⟨fresh, hd⟩ := List.nodup_cons.1 hd
    cases h with
    | cons own others =>
      intro s hs
      rcases List.mem_cons.1 hs with rfl | hs
      · simpa [sourcesBy] using own
      · have apart : (s.id == t.id) = false :=
          beq_eq_false_iff_ne.2 fun h => fresh (h ▸ List.mem_map_of_mem hs)
        have later := ih hd others s hs
        rw [sourcesBy] at later ⊢
        rwa [List.map_cons, List.zip_cons_cons, List.lookup_cons, apart]

theorem onlyMember?_eq_none (hr : ∀ m ∈ ms, m.Reliable) (h : f.registry.Holds ms)
    (form : QueryForm) : f.onlyMember? form = none := by
  have unprepared : ∀ m ∈ f.registry.members, m.prepared = false := by
    intro m hm
    obtain ⟨id, -, hk⟩ := List.mem_filterMap.1 hm
    obtain ⟨m', hm', hcore⟩ := h.exists_of_mem_known (Registry.mem_known_of_known? hk)
    exact ((hr m' hm').of_core hcore).unprepared
  unfold onlyMember?
  split
  · rfl
  · rfl
  · next m _ _ hm =>
    rw [hm] at unprepared
    rw [unprepared m List.mem_cons_self]
    rfl
  · rfl

theorem startQuery_gives (ht : config.queryTimeoutMs = 0) (hf : Fresh ms config f) (text : String)
    (form : QueryForm) : (startQuery text form).Gives f (.start text form f.now none) f := by
  have unlimited : f.config.queryTimeout? = none := by
    rw [Config.queryTimeout?, hf.config, ht]
    rfl
  refine gives_bind (gives_get f) ?_
  rw [unlimited]
  exact gives_pure _ f

theorem gives_ofExcept {α : Type} {r : Except FedError α} {x : α} (h : r = .ok x) (f : Federation) :
    (liftM r : Action α).Gives f x f := by
  rw [h]
  rfl

/-- Sources are selected truthfully as long as nothing is known. -/
theorem select_gives (hr : ∀ m ∈ ms, m.Reliable) (hf : Fresh ms config f) {query : QueryContext}
    (ha : query.aborted = false) (ht : query.deadline = none) (patterns : List TriplePattern) :
    ∃ selected f', (select query patterns).Gives f selected f' ∧ f'.config = config ∧
      f'.registry.Holds ms ∧
      List.Forall₂ (fun p found => found.Perm (Selection.matchingSources ms p)) patterns
        selected := by
  let known : Selection.State := { registry := f.registry, cache := f.cache, now := f.now }
  have selection : ∃ selected s', Selection.select f.config.sourceSelection query patterns known =
      (.ok selected, s') ∧ s'.registry.Holds ms ∧ _ :=
    Selection.select_truthful f.config.sourceSelection ha ht hf.members hr hf.cold
  obtain ⟨selected, s, run, holds, truthful⟩ := selection
  refine ⟨selected, { f with registry := s.registry, cache := s.cache, now := s.now }, ?_,
    hf.config, holds, truthful⟩
  refine gives_bind (gives_get f) ?_
  rw [run]
  exact gives_ofExcept rfl _

/-- **A query is planned with truthful sources**, and without an error. -/
theorem plan_gives (hr : ∀ m ∈ ms, m.Reliable) (hf : Fresh ms config f) {query : QueryContext}
    (ha : query.aborted = false) (ht : query.deadline = none) (q : Query)
    (hs : (builtPlan q).statements ≠ []) :
    ∃ selected f', (plan query q).Gives f (sourcedPlan q selected) f' ∧ f'.config = config ∧
      f'.registry.Holds ms ∧
      List.Forall₂ (fun p found => found.Perm (Selection.matchingSources ms p))
        ((builtPlan q).statements.map (·.pattern)) selected := by
  have active : query.checkAborted = .ok () := by
    rw [QueryContext.checkAborted, ha]
    rfl
  obtain ⟨selected, f', run, hconfig, holds, truthful⟩ :=
    select_gives hr hf ha ht ((builtPlan q).statements.map (·.pattern))
  refine ⟨selected, f', gives_bind (gives_ofExcept active f) (gives_bind (gives_get f) ?_), hconfig,
    holds, truthful⟩
  rw [onlyMember?_eq_none hr hf.members]
  have attached : (attachSources query (builtPlan q) (Plan.build q.algebra).2.2).Gives f
      (((builtPlan q).attach (sourcesBy (builtPlan q).statements selected)).run
        (Plan.build q.algebra).2.2) f' := by
    unfold attachSources
    split
    · next h => exact absurd h hs
    · exact gives_bind run (gives_pure _ f')
  exact gives_bind attached (gives_pure _ f')

end FederatedSparql.Federation
