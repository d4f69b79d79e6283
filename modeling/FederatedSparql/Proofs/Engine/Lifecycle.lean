import FederatedSparql.Engine.Federation
import FederatedSparql.Proofs.Machine.Crews
import FederatedSparql.Proofs.Machine.RunFrames
import FederatedSparql.Proofs.Machine.Unions

/-!
When a federation can run queries.

A federation is started, shut down, changed and asked in any order.  Starting it sets its pools to
run, but a pool that has been stopped never takes jobs again.

* `Federation.takes_tasks_iff`: after any calls, as long as the federation is initialized its pools
  run; and they take tasks just when it has never been shut down.  Then no task of a query that has
  not been aborted is refused, at any moment of any run.
* `Federation.restarted_refuses`: a federation that is shut down and initialized again is
  initialized, and refuses tasks.
-/

namespace FederatedSparql

open Machine

namespace Machine

variable {α : Type}

/-- The pools are set as they were. -/
structure SetAlike (m m' : Machine α) : Prop where
  accepting : ∀ p, (m'.crew p).pool.accepting = (m.crew p).pool.accepting
  running : ∀ p, (m'.crew p).pool.running = (m.crew p).pool.running

theorem KeepsCrews.setAlike {u : Nat} {may : Option PoolName → Prop} {m m' : Machine α}
    (h : KeepsCrews u may m m') : SetAlike m m' := ⟨h.accepting, h.running⟩

/-- **Running a query leaves the pools set as they were.** -/
theorem runFrame_setAlike [BEq α] : RunFrame (α := α) SetAlike where
  refl _ := ⟨fun _ => rfl, fun _ => rfl⟩
  trans h h' := ⟨fun p => (h'.accepting p).trans (h.accepting p),
    fun p => (h'.running p).trans (h.running p)⟩
  turn t m := (keepsCrews_stepThread m t).setAlike
  aside {m m'} h := by
    have hkept : KeepsCrews 0 (fun _ => True) m m' := .of_parts h.threads h.join h.union
    exact hkept.setAlike

section Queries

/-- What is kept of the crews is kept of the settings. -/
theorem setAlike_of_crews {β : Type} {a : Action α β}
    (h : Keeps (KeepsCrews 0 fun _ => True) a) : Keeps SetAlike a := fun m => (h m).setAlike

theorem setAlike_discard (c : Cursor α) : Keeps SetAlike (discard c) :=
  setAlike_of_crews (turnFrame_keepsCrews.keeps_discard c)

theorem setAlike_close (c : Cursor Bindings) : Keeps SetAlike (Federation.close c) :=
  setAlike_of_crews (turnFrame_keepsCrews.keeps_close c)

theorem setAlike_stepQuery (c : Cursor Bindings) : Keeps SetAlike (Federation.stepQuery c) :=
  setAlike_of_crews (turnFrame_keepsCrews.keeps_stepQuery c)

theorem setAlike_openPlan (env : Environment) (p : Plan) (b : Bindings) (form : QueryForm) :
    Keeps SetAlike (Federation.openPlan env p b form) := by
  have hR := runFrame_setAlike (α := Bindings)
  have opens : Keeps SetAlike (do
      let c ← openFeed (.deferred (env.evaluate p b))
      return if form = .ask then (c.slice 0 (some 1)).map fun _ => ∅ else c) :=
    hR.bind (setAlike_of_crews (turnFrame_keepsCrews.keeps_openFeed _)) fun _ => hR.keeps_pure _
  apply Frame.keeps_get
  intro m
  dsimp only
  split
  · split
    · exact hR.bind (hR.keeps_wakeAt _ _) fun _ => opens
    · exact opens
  · exact opens

theorem setAlike_pullRows (env : Environment) (p : Plan) (b : Bindings) (form : QueryForm)
    (wanted : Option Nat) : Keeps SetAlike (Federation.pullRows env p b form wanted) := by
  have hR := runFrame_setAlike (α := Bindings)
  refine hR.bind (setAlike_openPlan env p b form) fun c => ?_
  refine hR.bind (hR.keeps_runMain (hR.keeps_takeStep setAlike_stepQuery wanted) _ _) fun r => ?_
  cases r with
  | none => exact hR.keeps_pure _
  | some taken =>
    dsimp only
    split
    on_goal 2 => refine hR.bind (setAlike_close _) fun _ => ?_
    all_goals
      refine hR.bind (setAlike_stepQuery _) fun _ => ?_
      exact hR.bind (hR.keeps_sleep 1) fun _ => hR.keeps_pure _

theorem setAlike_collect [BEq α] (w : Work α) : Keeps SetAlike (Federation.collect w) := by
  have hR := runFrame_setAlike (α := α)
  have pulls (c : Cursor α) : Keeps SetAlike (pull .main c) :=
    setAlike_of_crews (turnFrame_keepsCrews.keeps_pull .main c)
  have runs (depth : Nat) (run : Run α) : Keeps SetAlike (stepRun depth .main run) :=
    setAlike_of_crews (turnFrame_keepsCrews.keeps_stepRun depth .main run)
  refine hR.bind (hR.keeps_runWork runs w) fun r => ?_
  split
  · exact hR.keeps_pure _
  · exact hR.keeps_pure _
  · refine hR.bind (hR.keeps_take pulls none _) fun t => ?_
    split
    · exact hR.keeps_pure _
    · refine hR.bind (setAlike_discard _) fun _ => ?_
      split <;> exact hR.keeps_pure _

end Queries

end Machine

namespace Federation

/-! ### What leaves the pools alone -/

/-- A pool of a federation. -/
def pool (f : Federation) : PoolName → Pool
  | .join => f.join
  | .union => f.union

/-- The pools are set as they were, and the federation is initialized if it was. -/
structure SetAlike (f f' : Federation) : Prop where
  initialized : f'.initialized = f.initialized
  accepting : ∀ p, (f'.pool p).accepting = (f.pool p).accepting
  running : ∀ p, (f'.pool p).running = (f.pool p).running

/-- What an action makes of a federation, whether it fails or not. -/
def Action.after {α : Type} (a : Action α) (f : Federation) : Federation := (a.run.run f).2

/-- An action leaves the settings of the pools alone. -/
def Action.KeepsSettings {α : Type} (a : Action α) : Prop := ∀ f, SetAlike f (a.after f)

theorem SetAlike.refl (f : Federation) : SetAlike f f := ⟨rfl, fun _ => rfl, fun _ => rfl⟩

theorem SetAlike.trans {f f' f'' : Federation} (h : SetAlike f f') (h' : SetAlike f' f'') :
    SetAlike f f'' where
  initialized := h'.initialized.trans h.initialized
  accepting p := (h'.accepting p).trans (h.accepting p)
  running p := (h'.running p).trans (h.running p)

section Actions

variable {α β : Type} {a : Action α} {k : α → Action β}

theorem after_bind_ok {f : Federation} {x : α} (h : (a.run.run f).1 = .ok x) :
    (a >>= k).after f = (k x).after (a.after f) := by
  show (match a.run.run f with | (r, f') => (ExceptT.bindCont k r).run f').2 = _
  unfold Action.after
  generalize a.run.run f = out at h ⊢
  obtain ⟨r, f'⟩ := out
  cases h
  rfl

theorem after_bind_error {f : Federation} {e : FedError} (h : (a.run.run f).1 = .error e) :
    (a >>= k).after f = a.after f := by
  show (match a.run.run f with | (r, f') => (ExceptT.bindCont k r).run f').2 = _
  unfold Action.after
  generalize a.run.run f = out at h ⊢
  obtain ⟨r, f'⟩ := out
  cases h
  rfl

theorem keepsSettings_bind (h : a.KeepsSettings) (hk : ∀ x, (k x).KeepsSettings) :
    (a >>= k).KeepsSettings := by
  intro f
  cases hr : (a.run.run f).1 with
  | ok x => rw [after_bind_ok hr]; exact (h f).trans (hk x _)
  | error e => rw [after_bind_error hr]; exact h f

theorem keepsSettings_pure (x : α) : (pure x : Action α).KeepsSettings := SetAlike.refl

theorem keepsSettings_throw (e : FedError) : (throw e : Action α).KeepsSettings := SetAlike.refl

theorem keepsSettings_get_bind {k : Federation → Action β} (hk : ∀ f, (k f).KeepsSettings) :
    (get >>= k).KeepsSettings := fun f => hk f f

theorem keepsSettings_modify {g : Federation → Federation} (h : ∀ f, SetAlike f (g f)) :
    (modify g : Action Unit).KeepsSettings := h

theorem keepsSettings_ofExcept (r : Except FedError α) :
    (liftM r : Action α).KeepsSettings := by
  cases r <;> exact SetAlike.refl

end Actions

/-! ### Members and queries -/

theorem keepsSettings_startMembers (ids : List String) : (startMembers ids).KeepsSettings := by
  induction ids with
  | nil => exact keepsSettings_pure ()
  | cons id rest ih =>
    apply keepsSettings_get_bind
    intro f
    split
    · exact ih
    · refine keepsSettings_bind (keepsSettings_modify fun f => ⟨rfl, ?_, ?_⟩) fun _ => ?_
      · intro p; cases p <;> rfl
      · intro p; cases p <;> rfl
      · split
        · exact ih
        · exact keepsSettings_throw _

theorem keepsSettings_stopMember (id : String) : (stopMember id).KeepsSettings := by
  apply keepsSettings_modify
  intro f
  exact ⟨rfl, fun p => by cases p <;> rfl, fun p => by cases p <;> rfl⟩

/-- A change that leaves pools and the flag alone. -/
theorem SetAlike.of_pools {f f' : Federation} (hinitialized : f'.initialized = f.initialized)
    (hjoin : f'.join = f.join) (hunion : f'.union = f.union) : SetAlike f f' where
  initialized := hinitialized
  accepting p := by cases p; exacts [congrArg _ hjoin, congrArg _ hunion]
  running p := by cases p; exacts [congrArg _ hjoin, congrArg _ hunion]

theorem setAlike_ofExcept_bind {α β : Type} {r : Except FedError α} {k : α → Action β}
    {f : Federation} (h : ∀ x, SetAlike f ((k x).after f)) :
    SetAlike f (Action.after ((liftM r : Action α) >>= k) f) := by
  cases r with
  | ok x => exact h x
  | error e => exact .refl f

theorem keepsSettings_addMember (m : Member) : (addMember m).KeepsSettings := by
  intro f
  show SetAlike f (Action.after
    (liftM (if f.initialized then m.start else (.ok (), m)).1 >>= fun _ =>
    (liftM (f.registry.register (if f.initialized then m.start else (.ok (), m)).2) : Action _) >>=
      fun registry => set { f with
        registry := registry
        cache := f.cache.invalidate (if f.initialized then m.start else (.ok (), m)).2.id }) f)
  apply setAlike_ofExcept_bind
  intro _
  apply setAlike_ofExcept_bind
  intro registry
  exact .of_pools rfl rfl rfl

theorem keepsSettings_removeMember (id : String) : (removeMember id).KeepsSettings := by
  intro f
  have stops (f : Federation) : (do
      if f.initialized then stopMember id : Action Unit).KeepsSettings := by
    split
    · exact keepsSettings_stopMember id
    · exact keepsSettings_pure ()
  show SetAlike f (Action.after ((liftM (f.registry.get id) : Action _) >>= fun _ => set { f with
    registry := f.registry.unregister id, cache := f.cache.invalidate id } >>= fun _ =>
      if f.initialized then stopMember id else pure ()) f)
  apply setAlike_ofExcept_bind
  intro _
  have hset : SetAlike f { f with
      registry := f.registry.unregister id, cache := f.cache.invalidate id } := .of_pools rfl rfl rfl
  exact hset.trans (stops f _)

theorem keepsSettings_select (query : QueryContext) (patterns : List TriplePattern) :
    (select query patterns).KeepsSettings := by
  intro f
  have hset (s : Selection.State) : SetAlike f { f with
      registry := s.registry, cache := s.cache, now := s.now } := .of_pools rfl rfl rfl
  rw [select]
  exact (hset _).trans (keepsSettings_ofExcept _ _)

/-- The machine of a query has the pools of the federation. -/
theorem pool_machine {α : Type} (f : Federation) (query : QueryContext) (p : PoolName) :
    ((f.machine query : Machine α).crew p).pool = f.pool p := by
  have hresting (pool : Pool) (start : Nat) : (restingCrew pool start : Crew α).pool = pool := by
    rw [restingCrew]
    split <;> rfl
  cases p <;> exact hresting _ _

/-- **Running something leaves the pools set as they were**, if the machine does. -/
theorem keepsSettings_runOn {α β : Type} (query : QueryContext) {a : Machine.Action α β}
    (h : Keeps Machine.SetAlike a) : (runOn query a).KeepsSettings := by
  intro f
  have hrun := h (f.machine query)
  constructor
  · rfl
  · intro p
    rw [← pool_machine f query p, ← hrun.accepting p]
    cases p <;> rfl
  · intro p
    rw [← pool_machine f query p, ← hrun.running p]
    cases p <;> rfl

theorem keepsSettings_ensureInitialized : ensureInitialized.KeepsSettings := by
  apply keepsSettings_get_bind
  intro f
  split
  · exact keepsSettings_pure ()
  · exact keepsSettings_throw _

theorem keepsSettings_startQuery (text : String) (form : QueryForm) :
    (startQuery text form).KeepsSettings :=
  keepsSettings_get_bind fun _ => keepsSettings_pure _

theorem keepsSettings_plan (query : QueryContext) (q : Query) :
    (plan query q).KeepsSettings := by
  refine keepsSettings_bind (keepsSettings_ofExcept _) fun _ => keepsSettings_get_bind fun f => ?_
  split
  · exact keepsSettings_pure _
  · have attaches (p : Plan) (nextId : Nat) : (attachSources query p nextId).KeepsSettings := by
      rw [attachSources]
      split
      · exact keepsSettings_pure _
      · exact keepsSettings_bind (keepsSettings_select query _) fun _ => keepsSettings_pure _
    exact keepsSettings_bind (attaches _ _) fun _ => keepsSettings_pure _

theorem keepsSettings_evaluate (q : Query) (wanted : Option Nat) :
    (evaluate q wanted).KeepsSettings := by
  have evaluates (query : QueryContext) (p : Plan) :
      (evaluatePlan query p ∅ wanted).KeepsSettings := by
    refine keepsSettings_bind keepsSettings_ensureInitialized fun _ =>
      keepsSettings_get_bind fun f => keepsSettings_bind
        (keepsSettings_runOn query (setAlike_pullRows _ p ∅ query.form wanted)) fun r => ?_
    obtain ⟨_ | ⟨taken, after⟩, query⟩ := r <;> exact keepsSettings_pure _
  have asks : (do
      let query ← startQuery q.text q.form
      evaluatePlan query (← plan query q) ∅ wanted : Action Rows).KeepsSettings :=
    keepsSettings_bind (keepsSettings_startQuery _ _) fun query =>
      keepsSettings_bind (keepsSettings_plan query q) fun p => evaluates query p
  refine keepsSettings_bind keepsSettings_ensureInitialized fun _ => ?_
  split
  · exact keepsSettings_throw _
  · exact keepsSettings_throw _
  · exact asks

theorem keepsSettings_triples (s p o : Option Term) : (triples s p o).KeepsSettings := by
  refine keepsSettings_bind keepsSettings_ensureInitialized fun _ =>
    keepsSettings_bind (keepsSettings_startQuery _ _) fun query =>
      keepsSettings_bind (keepsSettings_select query _) fun selected => ?_
  split
  · exact keepsSettings_pure _
  · refine keepsSettings_get_bind fun f => keepsSettings_bind
      (keepsSettings_runOn query (setAlike_collect _)) fun r => ?_
    exact keepsSettings_ofExcept r.1

/-! ### Calls -/

/-- What a federation is told to do, or is asked. -/
inductive Call where
  | start
  | shutDown
  | add (m : Member)
  | remove (id : String)
  | evaluate (q : Query) (wanted : Option Nat)
  | triples (s p o : Option Term)

/-- What becomes of a federation by a call, whether the call fails or not. -/
def call (f : Federation) : Call → Federation
  | .start => initializeMembers.after f
  | .shutDown => shutDown.after f
  | .add m => (addMember m).after f
  | .remove id => (removeMember id).after f
  | .evaluate q wanted => (evaluate q wanted).after f
  | .triples s p o => (triples s p o).after f

/-- What becomes of a federation by calls one after another. -/
def calls (f : Federation) (cs : List Call) : Federation := cs.foldl call f

/-- Some call has shut the federation down while it was initialized. -/
def WasShutDown (f : Federation) (cs : List Call) : Prop :=
  ∃ before after, cs = before ++ .shutDown :: after ∧ (f.calls before).initialized = true

/-- The pools of a federation run if it is initialized. -/
def Running (f : Federation) : Prop := f.initialized = true → ∀ p, (f.pool p).running = true

theorem SetAlike.isRunning {f f' : Federation} (h : SetAlike f f') (hf : f.Running) :
    f'.Running := by
  intro hinitialized p
  rw [h.running]
  exact hf (h.initialized ▸ hinitialized) p

/-- Starting sets the pools to run, and they take tasks if they took them before. -/
theorem initializeMembers_after {f : Federation} (h : f.Running) :
    (initializeMembers.after f).Running ∧
      ∀ p, ((initializeMembers.after f).pool p).accepting = (f.pool p).accepting := by
  let starts (f : Federation) : Federation := { f with
    join := { f.join with running := true }
    union := { f.union with running := true }
    initialized := true }
  have hafter : initializeMembers.after f = Action.after
      (if f.initialized then pure () else startMembers f.registry.ids >>= fun _ => modify starts)
      f := rfl
  rw [hafter]
  split
  · exact ⟨h, fun _ => rfl⟩
  · next hinitialized =>
    have hmembers := keepsSettings_startMembers f.registry.ids f
    cases hr : ((startMembers f.registry.ids).run.run f).1 with
    | error e =>
      rw [after_bind_error hr]
      exact ⟨hmembers.isRunning h, hmembers.accepting⟩
    | ok x =>
      rw [after_bind_ok hr]
      refine ⟨fun _ p => ?_, fun p => ?_⟩
      · cases p <;> rfl
      · rw [← hmembers.accepting p]
        cases p <;> rfl

theorem keepsSettings_stopMembers (ids : List String) :
    (forIn ids PUnit.unit fun id _ => do
      stopMember id
      return ForInStep.yield PUnit.unit : Action PUnit).KeepsSettings := by
  induction ids with
  | nil => exact keepsSettings_pure _
  | cons id ids ih =>
    rw [List.forIn_cons]
    refine keepsSettings_bind (keepsSettings_bind (keepsSettings_stopMember id) fun _ =>
      keepsSettings_pure _) fun step => ?_
    cases step with
    | done _ => exact keepsSettings_pure _
    | yield _ => exact ih

/-- Shutting down stops the pools if the federation is initialized. -/
theorem shutDown_after (f : Federation) :
    (shutDown.after f).initialized = false ∧
      ∀ p, ((shutDown.after f).pool p).accepting = (!f.initialized && (f.pool p).accepting) := by
  let stops (f : Federation) : Federation :=
    { f with initialized := false, join := f.join.stop, union := f.union.stop }
  have hafter : shutDown.after f = Action.after
      (if f.initialized then modify stops >>= fun _ => (do
        for id in f.registry.ids do stopMember id) else pure ()) f := rfl
  rw [hafter]
  split
  · next hinitialized =>
    have hmembers : SetAlike (stops f) (Action.after (do
        for id in f.registry.ids do stopMember id) (stops f)) :=
      keepsSettings_bind (keepsSettings_stopMembers f.registry.ids) (fun _ => keepsSettings_pure ())
        (stops f)
    refine ⟨hmembers.initialized, fun p => ?_⟩
    rw [hinitialized]
    apply (hmembers.accepting p).trans
    cases p <;> rfl
  · next hinitialized =>
    have hfalse : f.initialized = false := Bool.eq_false_iff.mpr hinitialized
    exact ⟨hfalse, fun p => by rw [hfalse]; rfl⟩

/-- The calls that neither start nor stop anything leave the pools set as they were. -/
theorem setAlike_call (f : Federation) {c : Call} (hstart : c ≠ .start)
    (hshutDown : c ≠ .shutDown) : SetAlike f (f.call c) := by
  cases c with
  | start => exact absurd rfl hstart
  | shutDown => exact absurd rfl hshutDown
  | add m => exact keepsSettings_addMember m f
  | remove id => exact keepsSettings_removeMember id f
  | evaluate q wanted => exact keepsSettings_evaluate q wanted f
  | triples s p o => exact keepsSettings_triples s p o f

theorem isRunning_call {f : Federation} (h : f.Running) (c : Call) : (f.call c).Running := by
  by_cases hstart : c = .start
  · subst hstart
    exact (initializeMembers_after h).1
  · by_cases hshutDown : c = .shutDown
    · subst hshutDown
      intro hinitialized
      exact absurd (hinitialized.symm.trans (shutDown_after f).1) nofun
    · exact (setAlike_call f hstart hshutDown).isRunning h

/-- **Initialized pools run**, whatever has been called. -/
theorem isRunning_calls {f : Federation} (h : f.Running) (cs : List Call) :
    (f.calls cs).Running := by
  induction cs generalizing f with
  | nil => exact h
  | cons c cs ih => exact ih (isRunning_call h c)

theorem accepting_call {f : Federation} (h : f.Running) (c : Call) (p : PoolName) :
    ((f.call c).pool p).accepting = true ↔
      (f.pool p).accepting = true ∧ ¬ (c = .shutDown ∧ f.initialized = true) := by
  by_cases hstart : c = .start
  · subst hstart
    rw [call, (initializeMembers_after h).2]
    simp
  · by_cases hshutDown : c = .shutDown
    · subst hshutDown
      rw [call, (shutDown_after f).2]
      simp [and_comm]
    · rw [(setAlike_call f hstart hshutDown).accepting]
      simp [hshutDown]

theorem not_wasShutDown_nil (f : Federation) : ¬ f.WasShutDown [] := by
  rintro ⟨before, after, hcs, -⟩
  cases before <;> exact absurd hcs nofun

theorem wasShutDown_cons (f : Federation) (c : Call) (cs : List Call) :
    f.WasShutDown (c :: cs) ↔
      c = .shutDown ∧ f.initialized = true ∨ (f.call c).WasShutDown cs := by
  constructor
  · rintro ⟨before, after, hcs, hinitialized⟩
    cases before with
    | nil =>
      obtain ⟨rfl, rfl⟩ := List.cons.inj hcs
      exact .inl ⟨rfl, hinitialized⟩
    | cons c' before =>
      obtain ⟨rfl, rfl⟩ := List.cons.inj hcs
      exact .inr ⟨before, after, rfl, hinitialized⟩
  · rintro (⟨rfl, hinitialized⟩ | ⟨before, after, rfl, hinitialized⟩)
    · exact ⟨[], cs, rfl, hinitialized⟩
    · exact ⟨c :: before, after, rfl, hinitialized⟩

/-- **Pools take tasks until they are shut down**, and never again. -/
theorem accepting_calls {f : Federation} (h : f.Running) (cs : List Call) (p : PoolName) :
    ((f.calls cs).pool p).accepting = true ↔
      (f.pool p).accepting = true ∧ ¬ f.WasShutDown cs := by
  induction cs generalizing f with
  | nil => exact ⟨fun haccepting => ⟨haccepting, not_wasShutDown_nil f⟩, And.left⟩
  | cons c cs ih =>
    rw [wasShutDown_cons, not_or, ← and_assoc, ← accepting_call h]
    exact ih (isRunning_call h c)

theorem pools_of_build {config : Config} {ms : List Member} {f : Federation}
    (h : build config ms = .ok f) :
    f.initialized = false ∧ ∀ p, (f.pool p).accepting = true := by
  have hbuild : (config.validate >>= fun _ => ms.foldlM Registry.register {} >>= fun registry =>
      pure { empty config with registry := registry }) = Except.ok f := h
  cases hvalid : config.validate with
  | error e => rw [hvalid] at hbuild; exact absurd hbuild nofun
  | ok _ =>
    cases hmembers : ms.foldlM Registry.register {} with
    | error e => rw [hvalid, hmembers] at hbuild; exact absurd hbuild nofun
    | ok registry =>
      rw [hvalid, hmembers] at hbuild
      obtain rfl := Except.ok.inj hbuild
      exact ⟨rfl, fun p => by cases p <;> rfl⟩

end Federation

/-! ### Tasks -/

namespace Machine

variable {α : Type} {m : Machine α} {p : PoolName} {id : Nat}

theorem value_schedule_of_accepting (h : (m.crew p).pool.accepting = true) (name : String)
    (work : Work α) : value (schedule p id name work) m =
      if m.executors[id]?.isSome && m.query.aborted then .error (.aborted m.query.id)
      else .ok () := by
  have haccepts : (m.crew p).pool.checkAccepting = .ok () := by
    rw [Pool.checkAccepting, h]
    rfl
  rw [schedule, value_bind, value_get, after_get, haccepts]
  cases he : m.executors[id]? with
  | none => rfl
  | some e =>
    dsimp only
    rw [QueryContext.register_eq]
    cases m.query.aborted <;> rfl

end Machine

namespace Federation

/-- Queries that run on the pools of a federation. -/
def site (f : Federation) (context : Nat → QueryContext) (cursor : Nat → Cursor Bindings) :
    Site where
  machine := f.machine (context 0)
  context := context
  cursor := cursor

/-- **An initialized federation takes tasks just when it has never been shut down.**  Its pools run,
whatever has been called.  At any moment of any run that stops no pool, a task is refused by its pool
just when some call has shut the federation down while it was initialized; otherwise tasks are
scheduled for every query that is not aborted. -/
theorem takes_tasks_iff {config : Config} {ms : List Member} {f : Federation}
    (hbuild : build config ms = .ok f) (cs : List Call)
    (hinitialized : (f.calls cs).initialized = true) (context : Nat → QueryContext)
    (cursor : Nat → Cursor Bindings) {moves : List Move} (p : PoolName)
    (hmoves : .stopIntake p ∉ moves) :
    let s := ((f.calls cs).site context cursor).run moves
    ((f.calls cs).pool p).running = true ∧
      (((f.calls cs).pool p).accepting = true ↔ ¬ f.WasShutDown cs) ∧
      ∀ id name work,
        ((∃ pool, value (schedule p id name work) (s.seen (s.owner id)) =
          .error (.internalScheduling (.schedulerShutDown pool))) ↔ f.WasShutDown cs) ∧
        ∀ e, s.machine.executors[id]? = some e → (s.context (s.owner id)).aborted = false →
          (value (schedule p id name work) (s.seen (s.owner id)) = .ok () ↔
            ¬ f.WasShutDown cs) := by
  intro s
  obtain ⟨hidle, haccepts⟩ := pools_of_build hbuild
  have hnew : f.Running := fun hinitialized => absurd (hidle.symm.trans hinitialized) nofun
  have hcalls : ((f.calls cs).pool p).accepting = true ↔ ¬ f.WasShutDown cs := by
    rw [accepting_calls hnew cs p]
    exact and_iff_right (haccepts p)
  have hcrew (q : Nat) : ((s.seen q).crew p).pool.accepting = ((f.calls cs).pool p).accepting := by
    rw [← pool_machine (α := Bindings) (f.calls cs) (context 0) p]
    have hrun := Site.accepting_run hmoves ((f.calls cs).site context cursor)
    cases p <;> exact hrun
  refine ⟨isRunning_calls hnew cs hinitialized p, hcalls, fun id name work => ?_⟩
  by_cases hstopped : f.WasShutDown cs
  · have hdown := Bool.eq_false_of_not_eq_true (hcalls.not.mpr (not_not.mpr hstopped))
    rw [value, run_schedule_of_stopped ((hcrew (s.owner id)).trans hdown)]
    refine ⟨iff_of_true ⟨_, rfl⟩ hstopped, fun e _ _ => iff_of_false ?_ (not_not.mpr hstopped)⟩
    rintro ⟨⟩
  · have htakes := (hcrew (s.owner id)).trans (hcalls.mpr hstopped)
    rw [value_schedule_of_accepting htakes]
    refine ⟨iff_of_false ?_ hstopped, fun e he haborted => iff_of_true ?_ hstopped⟩
    · rintro ⟨pool, hrefused⟩
      split at hrefused <;> cases hrefused
    · have hlive : (s.seen (s.owner id)).query.aborted = false := haborted
      rw [hlive, Bool.and_false]
      rfl

/-- A federation that has been started takes the first task of a query. -/
theorem takes_tasks_iff_started :
    let s := (((empty {}).calls [.start]).site (fun _ => {}) fun _ => .empty).run
      [.deed 0 (.addExecutor false)]
    build {} [] = .ok (empty {}) ∧ ((empty {}).calls [.start]).initialized = true ∧
      .stopIntake .join ∉ [Move.deed 0 (.addExecutor false)] ∧
      ∀ name work, value (schedule .join 0 name work) (s.seen 0) = .ok () := by
  intro s
  have hbuild : build {} [] = .ok (empty {}) := rfl
  have hinitialized : ((empty {}).calls [.start]).initialized = true := rfl
  have hmoves : .stopIntake .join ∉ [Move.deed 0 (.addExecutor false)] := by simp
  have hnever : ¬ (empty {}).WasShutDown [.start] := by
    rw [wasShutDown_cons]
    rintro (⟨hstart, -⟩ | hlater)
    · exact absurd hstart nofun
    · exact not_wasShutDown_nil _ hlater
  refine ⟨hbuild, hinitialized, hmoves, fun name work => ?_⟩
  obtain ⟨-, -, htasks⟩ := takes_tasks_iff hbuild [.start] hinitialized (fun _ => {})
    (fun _ => .empty) .join hmoves
  have howner : s.owner 0 = 0 := rfl
  have hscheduled := (htasks 0 name work).2 { branch := 0, firstOnly := false } rfl rfl
  rw [← howner]
  exact hscheduled.mpr hnever

/-- **A federation that is initialized again after it was shut down refuses tasks.** -/
theorem restarted_refuses :
    let f := (empty {}).calls [.start, .shutDown, .start]
    let s := (f.site (fun _ => {}) fun _ => .empty).run [.deed 0 (.addExecutor false)]
    build {} [] = .ok (empty {}) ∧ f.initialized = true ∧ f.join.running = true ∧
      f.join.accepting = false ∧ (s.context 0).aborted = false ∧
      ∀ name work, value (schedule .join 0 name work) (s.seen 0) =
        .error (.internalScheduling (.schedulerShutDown "join")) := by
  intro f s
  refine ⟨rfl, rfl, rfl, rfl, rfl, fun name work => ?_⟩
  exact congrArg Prod.fst (run_schedule_of_stopped rfl 0 name work)

end Federation
end FederatedSparql
