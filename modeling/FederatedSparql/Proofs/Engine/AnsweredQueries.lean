import FederatedSparql.Proofs.Engine.Answering
import FederatedSparql.Proofs.Engine.Lifecycle
import FederatedSparql.Proofs.Engine.PulledRows

/-!
Queries as a federation runs them.

The rows that a query gives are pulled by the one who asks, while the workers of two pools run tasks
and other threads schedule them.

* `Federation.Started.received_rows`: of a plan a consumer gets its rows, whoever takes the next step.
* `Federation.evaluate_gives`: a query is evaluated by pulling the rows of its plan.
* `Federation.received_patternRows`: of a basic graph pattern a consumer gets one row for each choice
  of one triple for each pattern, whoever takes the next step.
* `Federation.evaluate_gives_patternRows`: so does who evaluates the query, unless main has not come
  to an end after as many steps as it may take.
-/

namespace FederatedSparql.Federation

open Machine

variable {f f' f'' : Federation} {query : QueryContext} {q : Query} {p : Plan}

/-! ### Federations that have been started -/

/-- A federation is initialized, and its pools take jobs. -/
structure Started (f : Federation) : Prop where
  initialized : f.initialized = true
  accepting : ∀ p, (f.pool p).accepting = true

theorem Started.setAlike (h : f.Started) (hf : SetAlike f f') : f'.Started where
  initialized := hf.initialized.trans h.initialized
  accepting p := (hf.accepting p).trans (h.accepting p)

theorem Action.Gives.after_eq {α : Type} {a : Action α} {x : α} (h : a.Gives f x f') :
    a.after f = f' := congrArg Prod.snd h

/-- A federation that has been built and initialized takes jobs. -/
theorem started_of_build {config : Config} {ms : List Member} (hbuild : build config ms = .ok f)
    (hstart : initializeMembers.Gives f () f') (hinitialized : f'.initialized = true) :
    f'.Started where
  initialized := hinitialized
  accepting p := by
    obtain ⟨hcold, haccepting⟩ := pools_of_build hbuild
    have hrunning : f.Running := fun h => absurd (hcold.symm.trans h) nofun
    rw [← hstart.after_eq, (initializeMembers_after hrunning).2, haccepting]

/-- Planning leaves a federation started. -/
theorem Started.plan (h : f.Started) (hplan : (plan query q).Gives f p f') : f'.Started :=
  h.setAlike (hplan.after_eq ▸ keepsSettings_plan query q f)

/-- Nothing disturbs a query without a deadline on a federation that has been started. -/
theorem Started.fresh_machine (h : f.Started) (text : String) (form : QueryForm) (now : Nat) :
    (f.machine (α := Bindings) (.start text form now none)).Fresh f.registry.answers where
  calm := {
    answers := rfl
    deadline := rfl
    aborted := rfl
    cancelled := rfl
    hanging := fun task htask => absurd htask (Array.not_mem_empty task)
    accepting := fun p => by rw [pool_machine, h.accepting] }
  executors := rfl
  threads := fun t th hth => by
    have hmem := Array.mem_of_getElem? hth
    simp only [machine, Array.mem_append, List.mem_toArray, List.mem_map] at hmem
    obtain ⟨_, -, rfl⟩ | ⟨_, -, rfl⟩ := hmem
    · exact ⟨rfl, .join, rfl⟩
    · exact ⟨rfl, .union, rfl⟩
  jobs := fun p => by
    have hresting (pool : Pool) (start : Nat) :
        (restingCrew pool start : Crew Bindings).jobs = [] := by
      rw [restingCrew]
      split <;> rfl
    cases p <;> exact hresting _ _

/-! ### Queries that have been planned -/

/-- **Of a plan whose sources are registered a consumer gets its rows**, if its joins may take rows in
blocks: no failure comes and no row too many, whoever takes the next step, and at the end all rows have
come. -/
theorem Started.received_rows (h : f.Started) (hr : f.registry.Sound) (hp : p.WellSourced f.registry)
    (hblocks : p.TakesBlocks f.registry f.config.boundJoinBlockSize ∅) {text : String}
    {form : QueryForm} {now : Nat} {x : Moment Bindings}
    (hx : (Moment.opened (f.machine (.start text form now none))
      (.deferred ((⟨f.registry, f.config⟩ : Environment).evaluate p ∅))).MayBecome x) :
    ∃ rows : List Bindings, x.received = rows.map .ok ∧
      (rows : Multiset Bindings) ≤ p.rows f.registry ∅ ∧
      (x.ended = true → (rows : Multiset Bindings) = p.rows f.registry ∅) := by
  let env : Environment := ⟨f.registry, f.config⟩
  have hcomes : (env.evaluate p ∅).Comes env.registry.answers (p.rows env.registry ∅) :=
    Environment.evaluate_comes hr p hp rfl hblocks
  exact Feed.Comes.exists_received (f := .deferred _) hcomes (h.fresh_machine text form now) hx

/-- What is pulled of the rows of a plan, so many at most; nothing if main has not come to an end after
as many steps as it may take. -/
def pulled (f : Federation) (query : QueryContext) (p : Plan) (wanted : Option Nat) :
    Option (Taken Bindings × Bool) :=
  value (pullRows ⟨f.registry, f.config⟩ p ∅ query.form wanted) (f.machine query)

theorem runOn_gives {α β : Type} (query : QueryContext) (a : Machine.Action α β)
    (f : Federation) : ∃ query' f', (runOn query a).Gives f (value a (f.machine query), query') f' :=
  ⟨_, _, rfl⟩

/-- What is pulled of a plan is what evaluating the plan gives. -/
theorem evaluatePlan_gives (hinitialized : f.initialized = true) (query : QueryContext) (p : Plan)
    (wanted : Option Nat) : ∃ rows f', (evaluatePlan query p ∅ wanted).Gives f rows f' ∧
      ∀ taken late, f.pulled query p wanted = some (taken, late) →
        rows.rows = taken.items ∧ rows.ending = taken.ending := by
  obtain ⟨query', f', hrun⟩ := runOn_gives query
    (pullRows ⟨f.registry, f.config⟩ p ∅ query.form wanted) f
  change Action.Gives _ f (f.pulled query p wanted, query') f' at hrun
  cases hpulled : f.pulled query p wanted with
  | none =>
    rw [hpulled] at hrun
    exact ⟨⟨[], .exhausted, query', false⟩, f', gives_bind (ensureInitialized_gives hinitialized)
      (gives_bind (gives_get f) (gives_bind hrun (gives_pure _ f'))), by simp⟩
  | some t =>
    obtain ⟨taken, late⟩ := t
    rw [hpulled] at hrun
    refine ⟨⟨taken.items, taken.ending, query', late⟩, f',
      gives_bind (ensureInitialized_gives hinitialized)
        (gives_bind (gives_get f) (gives_bind hrun (gives_pure _ f'))), fun taken' late' h => ?_⟩
    obtain ⟨rfl, rfl⟩ := Prod.mk.inj (Option.some.inj h)
    exact ⟨rfl, rfl⟩

/-- **A query is evaluated by pulling the rows of its plan.** -/
theorem evaluate_gives (h : f.Started) (hform : q.form = .select ∨ q.form = .ask)
    (hstart : (startQuery q.text q.form).Gives f query f) (hplan : (plan query q).Gives f p f')
    (wanted : Option Nat) : ∃ rows f'', (evaluate q wanted).Gives f rows f'' ∧
      ∀ taken late, f'.pulled query p wanted = some (taken, late) →
        rows.rows = taken.items ∧ rows.ending = taken.ending := by
  obtain ⟨rows, f'', hrows, htaken⟩ := evaluatePlan_gives (h.plan hplan).initialized query p wanted
  refine ⟨rows, f'', gives_bind (ensureInitialized_gives h.initialized) ?_, htaken⟩
  obtain hform | hform := hform <;> rw [hform] at hstart ⊢ <;>
    exact gives_bind hstart (gives_bind hplan hrows)

/-! ### Basic graph patterns -/

section Patterns

variable {ms : List Member} {a : Algebra} {projection : Option (List String)} {config : Config}
  (hv : config.validate = .ok ()) (htime : config.queryTimeoutMs = 0)
  (hd : (ms.map (·.id)).Nodup) (hm : ∀ m ∈ ms, m.Reliable) (honce : (ms.flatMap (·.triples)).Nodup)
  (ha : a.Basic) (hq : q.algebra = a.projected projection)
  (hi : ∀ p ∈ a.patterns, Tag.indexVar ∉ p.vars)
  (hf : config.boundJoinBlockSize ≤ Tag.numberLimit ∨
    max 1 (ms.flatMap (·.triples)).length ^ a.patterns.length ≤ Tag.numberLimit)

include hv htime hd hm honce ha hq hi hf

/-- **Of a basic graph pattern a consumer gets one row for each choice** of one triple for each
pattern, whoever takes the next step: it never gets a failure or a row too many, and at the end it has
got them all. -/
theorem received_patternRows :
    ∃ f f' f'' query p, build config ms = .ok f ∧ initializeMembers.Gives f () f' ∧
      (startQuery q.text q.form).Gives f' query f' ∧ (plan query q).Gives f' p f'' ∧
      ∀ x : Moment Bindings, (Moment.opened (f''.machine query)
          (.deferred ((⟨f''.registry, f''.config⟩ : Environment).evaluate p ∅))).MayBecome x →
        ∃ rows : List Bindings, x.received = rows.map .ok ∧
          (rows : Multiset Bindings) ≤ patternRows ms a.patterns projection ∧
          (x.ended = true → rows.Perm (patternRows ms a.patterns projection)) := by
  obtain ⟨f, f', f'', p, built, started, initialized, asked, planned, hcomes⟩ :=
    exists_planned hv htime hd hm honce ha hq hi hf
  have fresh := ((started_of_build built started initialized).plan planned).fresh_machine q.text
    q.form
  refine ⟨f, f', f'', _, p, built, started, asked, planned, fun x hx => ?_⟩
  obtain ⟨rows, hreceived, hle, hended⟩ :=
    Feed.Comes.exists_received (f := .deferred _) hcomes (fresh f'.now) hx
  exact ⟨rows, hreceived, hle, fun h => Multiset.coe_eq_coe.1 (hended h)⟩

/-- **Who evaluates a basic graph pattern gets one row for each choice** of one triple for each
pattern, if main comes to an end within the steps it may take. -/
theorem evaluate_gives_patternRows (hform : q.form = .select ∨ q.form = .ask)
    (wanted : Option Nat) :
    ∃ f f' f'' query p, build config ms = .ok f ∧ initializeMembers.Gives f () f' ∧
      (startQuery q.text q.form).Gives f' query f' ∧ (plan query q).Gives f' p f'' ∧
      ∃ rows f₃, (evaluate q wanted).Gives f' rows f₃ ∧
        ∀ taken late, f''.pulled query p wanted = some (taken, late) →
          rows.rows = taken.items ∧ rows.ending = taken.ending ∧
            taken.Suits wanted fun given => ∃ all : List Bindings,
              all.Perm (patternRows ms a.patterns projection) ∧ given = shown q.form all := by
  obtain ⟨f, f', f'', p, built, initializes, initialized, asked, planned, hcomes⟩ :=
    exists_planned hv htime hd hm honce ha hq hi hf
  have started := started_of_build built initializes initialized
  obtain ⟨rows, f₃, hgives, htaken⟩ := evaluate_gives started hform asked planned wanted
  refine ⟨f, f', f'', _, p, built, initializes, asked, planned, rows, f₃, hgives,
    fun taken late hpulled => ?_⟩
  obtain ⟨hrows, hending⟩ := htaken taken late hpulled
  refine ⟨hrows, hending, ?_⟩
  have fresh := (started.plan planned).fresh_machine q.text q.form f'.now
  have hall := hcomes.mono fun xs hxs => Multiset.coe_eq_coe.1 hxs
  exact suits_pullRows fresh hall hpulled

end Patterns

end FederatedSparql.Federation
