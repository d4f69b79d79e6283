import FederatedSparql.Proofs.Engine.Exactness
import FederatedSparql.Proofs.Engine.Lifecycle
import FederatedSparql.Proofs.Engine.Brings
import FederatedSparql.Proofs.Engine.Planning
import FederatedSparql.Proofs.Machine.Unions

/-!
The triples with given terms at some positions.

A federation is asked for its triples by a pattern that has variables at the open positions.  When
nothing is open, finding the sources has already told whether there is such a triple; one source is
asked at once, and several are asked by the tasks of a union, which needs a pool.

* `Federation.triples_exact`: every member's triples that agree with the given terms come back, as
  often as they are stored, unless there are several sources and the pool takes no jobs any more.
-/

namespace FederatedSparql

open Machine

/-! ### Triples that agree -/

/-- A triple has the given terms at their positions. -/
def Triple.Agrees (s p o : Option Term) (t : Triple) : Prop :=
  (∀ x ∈ s, t.subject = x) ∧ (∀ x ∈ p, t.predicate = x) ∧ ∀ x ∈ o, t.object = x

instance (s p o : Option Term) (t : Triple) : Decidable (t.Agrees s p o) :=
  inferInstanceAs (Decidable (_ ∧ _ ∧ _))

variable {s p o : Option Term}

theorem agrees_all {a b c : Term} {t : Triple} :
    t.Agrees (some a) (some b) (some c) ↔ t = ⟨a, b, c⟩ := by
  obtain ⟨a', b', c'⟩ := t
  simp [Triple.Agrees]

/-- The kind of a pattern of given terms has these terms, and no variable occurs in it twice. -/
theorem ofPattern_ofPositions (s p o : Option Term) :
    PatternKey.ofPattern (.ofPositions s p o) = ⟨s, p, o, ⟨false, false, false⟩⟩ := by
  cases s <;> cases p <;> cases o <;> rfl

theorem isSome_match?_ofPositions {t : Triple} :
    ((TriplePattern.ofPositions s p o).match? t).isSome = true ↔ t.Agrees s p o := by
  rw [PatternKey.isSome_match?_iff, ofPattern_ofPositions]
  constructor
  · intro h
    exact ⟨fun x hx => (h.subject x hx).symm, fun x hx => (h.predicate x hx).symm,
      fun x hx => (h.object x hx).symm⟩
  · rintro ⟨hs, hp, ho⟩
    exact ⟨fun x hx => (hs x hx).symm, fun x hx => (hp x hx).symm, fun x hx => (ho x hx).symm,
      nofun, nofun, nofun⟩

namespace Store

theorem matching_eq_filter (triples : List Triple) (s p o : Option Term) :
    matching triples s p o = triples.filter fun t => t.Agrees s p o := by
  apply List.filter_congr
  intro t _
  rw [Bool.eq_iff_iff, isSome_match?_ofPositions, decide_eq_true_eq]

end Store

/-! ### Asking one member -/

namespace Registry.Serves

variable {r : Registry} {m : Member} (h : r.Serves m)

include h

theorem answers_triples (s p o : Option Term) :
    r.answers m.id (.triples s p o) =
      .ok (.triples (m.triples.filter fun t => t.Agrees s p o)) := by
  simp [answers, h.known, Member.answer, Member.isFailing, h.answersRequests, Store.answer,
    Store.matching_eq_filter]

end Registry.Serves

/-- Asks a member for the triples with the given terms at some positions. -/
def askTriples (m : Member) (s p o : Option Term) : Work Triple :=
  (Work.request m.id (.triples s p o) fun answer =>
    .ofExcept answer fun a => .done (.rows a.toTriples)).repairingFaults

section Asking

variable {r : Registry} {m : Member}

theorem alone_askTriples (m : Member) (s p o : Option Term) : (askTriples m s p o).Alone := by
  intro answer
  cases answer with
  | ok a => exact trivial
  | error e =>
    show (Work.failRepairing e).Alone
    unfold Work.failRepairing
    split <;> exact trivial

theorem ending_askTriples (h : r.Serves m) (s p o : Option Term) :
    (askTriples m s p o).ending r.answers =
      .ok (.rows (m.triples.filter fun t => t.Agrees s p o)) := by
  show ((Work.ofExcept (r.answers m.id (.triples s p o)) fun a =>
    .done (.rows a.toTriples)).handle Work.failRepairing).ending r.answers = _
  rw [h.answers_triples]
  rfl

theorem size_askTriples (h : r.Serves m) (s p o : Option Term) :
    (askTriples m s p o).size r.answers = 2 := by
  show ((Work.ofExcept (r.answers m.id (.triples s p o)) fun a =>
    .done (.rows a.toTriples)).handle Work.failRepairing).size r.answers + 2 = 2
  rw [h.answers_triples]
  rfl

theorem askTriples_comes (h : r.Serves m) (s p o : Option Term) :
    (askTriples m s p o).Comes r.answers
      (m.triples.filter fun t => t.Agrees s p o : List Triple) := by
  apply Work.Comes.repairingFaults
  apply Work.Comes.request
  rw [h.answers_triples]
  exact .rows _

end Asking

/-! ### Asking members -/

/-- The task of a union that asks a member. -/
def triplesTask (s p o : Option Term) (m : Member) : String × Work Triple :=
  ("GetStatements @" ++ m.id, askTriples m s p o)

/-- Asks members: one at once, several by the tasks of a union. -/
def askMembers (s p o : Option Term) : List Member → Work Triple
  | [] => .done (.rows [])
  | [m] => askTriples m s p o
  | ms => .done (.union false (ms.map (triplesTask s p o)))

theorem Environment.fetchTriples_eq {env : Environment} {sources : List Source} {ms : List Member}
    (h : env.membersOf sources = .ok ms) (s p o : Option Term) :
    env.fetchTriples sources s p o = askMembers s p o ms := by
  rw [fetchTriples, h]
  rcases ms with _ | ⟨m, _ | ⟨m', ms⟩⟩ <;> rfl

/-- The triples of members that have the given terms at some positions. -/
def agreeing (s p o : Option Term) (ms : List Member) : List Triple :=
  ms.flatMap fun m => m.triples.filter fun t => t.Agrees s p o

section Members

variable {r : Registry} {ms : List Member} (h : ∀ m ∈ ms, r.Serves m)

include h

theorem askMembers_comes (s p o : Option Term) :
    (askMembers s p o ms).Comes r.answers (agreeing s p o ms : List Triple) := by
  rcases ms with _ | ⟨m, _ | ⟨m', rest⟩⟩
  · exact .rows []
  · rw [agreeing, List.flatMap_singleton]
    exact askTriples_comes (h m List.mem_cons_self) s p o
  · apply Work.Comes.done
    rw [agreeing, List.flatMap_def, coe_flatten]
    apply Feed.Comes.union
    rw [List.map_map, List.forall₂_map_left_iff, List.forall₂_map_right_iff, List.forall₂_same]
    exact fun m hm => askTriples_comes (h m hm) s p o

/-- Fewer than two members are asked without a pool. -/
theorem askMembers_alone (s p o : Option Term) (hfew : ms.length ≤ 1) :
    (askMembers s p o ms).Alone ∧
      (askMembers s p o ms).ending r.answers = .ok (.rows (agreeing s p o ms)) ∧
      (askMembers s p o ms).size r.answers ≤ 2 := by
  rcases ms with _ | ⟨m, _ | ⟨m', rest⟩⟩
  · exact ⟨trivial, rfl, Nat.zero_le 2⟩
  · have hm := h m List.mem_cons_self
    refine ⟨alone_askTriples m s p o, ?_, (size_askTriples hm s p o).le⟩
    rw [agreeing, List.flatMap_singleton]
    exact ending_askTriples hm s p o
  · simp at hfew

omit h in
theorem askMembers_of_two (s p o : Option Term) (hmany : 2 ≤ ms.length) :
    askMembers s p o ms = .done (.union false (ms.map (triplesTask s p o))) := by
  rcases ms with _ | ⟨m, _ | ⟨m', rest⟩⟩
  · simp at hmany
  · simp at hmany
  · rfl

end Members

/-! ### Members that have been probed -/

namespace Selection

variable {r : Registry} {found : List Source} {chosen : List Member}

/-- A member that has been probed is found by its id. -/
theorem get?_sent {m : Member} (hm : m ∈ r.members) (probes : List Probe) :
    (sent r probes).get? m.id = some (counted probes m) := by
  have hcounted : counted probes m ∈ (sent r probes).members := by
    rw [members_sent]
    exact List.mem_map_of_mem hm
  exact Registry.get?_of_mem_members hcounted

/-- The sources of some members are registered, each once. -/
theorem registers_sent (hd : r.ids.Nodup) (hchosen : chosen.Sublist r.members)
    (hfound : found.Perm (chosen.map (·.source))) (probes : List Probe) :
    (sent r probes).Registers found := by
  constructor
  · intro source hsource
    obtain ⟨m, hm, rfl⟩ := List.mem_map.mp (hfound.mem_iff.mp hsource)
    exact Option.isSome_iff_exists.mpr ⟨_, get?_sent (hchosen.subset hm) probes⟩
  · rw [(hfound.map (·.endpoint)).nodup_iff, List.map_map]
    exact (hchosen.map _).nodup (Registry.nodup_members hd)

/-- The members behind the sources of some members are these, with their counts. -/
theorem membersAt_sent_perm (hchosen : chosen.Sublist r.members)
    (hfound : found.Perm (chosen.map (·.source))) (probes : List Probe) :
    ((sent r probes).membersAt found).Perm (chosen.map (counted probes)) := by
  apply (hfound.filterMap _).trans
  rw [List.filterMap_map, ← List.filterMap_eq_map]
  exact .of_eq (List.filterMap_congr fun m hm => get?_sent (hchosen.subset hm) probes)

end Selection

namespace Federation

variable {f : Federation}

/-- Nothing stands in the way of a question: the federation is initialized, its members have
different ids and answer, what is known about them is true, and there is no deadline. -/
structure Dependable (f : Federation) : Prop where
  initialized : f.initialized = true
  distinct : f.registry.ids.Nodup
  answersRequests : ∀ m ∈ f.registry.members, m.failRequests = false
  answersProbes : ∀ m ∈ f.registry.members, m.failProbes = false
  truthful : Selection.State.Truthful { registry := f.registry, cache := f.cache, now := f.now }
  untimed : f.config.queryTimeoutMs = 0

/-- The query by which the triples with some terms are asked for. -/
def triplesQuery (f : Federation) (s p o : Option Term) : QueryContext :=
  .start ("getStatements(" ++ (TriplePattern.ofPositions s p o).toSparql ++ ")") .select f.now none

/-- The members that have a triple with the given terms. -/
def holders (f : Federation) (s p o : Option Term) : List Member :=
  f.registry.members.filter fun m => m.triples.any fun t => t.Agrees s p o

theorem mem_holders {m : Member} : m ∈ f.holders s p o ↔
    m ∈ f.registry.members ∧ ∃ t ∈ m.triples, t.Agrees s p o := by
  rw [holders, List.mem_filter, List.any_eq_true]
  simp only [decide_eq_true_eq]

theorem agreeing_holders (f : Federation) (s p o : Option Term) :
    agreeing s p o (f.holders s p o) = agreeing s p o f.registry.members := by
  apply flatMap_filter_of_nil
  intro m _ hnone
  rw [List.filter_eq_nil_iff]
  intro t ht hagrees
  rw [List.any_eq_false] at hnone
  exact hnone t ht hagrees

/-! ### Finding the sources -/

/-- The sources that are found, and the members behind them. -/
structure Found (f : Federation) (s p o : Option Term) (found : List Source) (f' : Federation)
    (ms : List Member) : Prop where
  selects : (select (f.triplesQuery s p o) [.ofPositions s p o]).Gives f [found] f'
  union : f'.union = f.union
  length : found.length = (f.holders s p o).length
  members : Environment.membersOf ⟨f'.registry, f'.config⟩ found = .ok ms
  serves : ∀ m ∈ ms, f'.registry.Serves m
  holders : ∃ count : Member → Member, (∀ m, (count m).triples = m.triples) ∧
    ms.Perm ((f.holders s p o).map count)

/-- If what is known is true and no probe fails, the sources of a pattern are those that have a
match. -/
theorem yields_eq (h : f.Dependable) (s p o : Option Term) {m : Member}
    (hm : m ∈ f.registry.members) :
    Selection.State.yields { registry := f.registry, cache := f.cache, now := f.now }
      (.ofPositions s p o) m = m.triples.any fun t => t.Agrees s p o := by
  rw [Bool.eq_iff_iff, Selection.yields_iff_offers h.truthful hm, List.any_eq_true]
  simp only [decide_eq_true_eq]
  constructor
  · rintro ⟨⟨t, ht, hmatch⟩, -⟩
    exact ⟨t, ht, isSome_match?_ofPositions.mp hmatch⟩
  · rintro ⟨t, ht, hagrees⟩
    exact ⟨⟨t, ht, isSome_match?_ofPositions.mpr hagrees⟩, fun _ => h.answersProbes m hm⟩

/-- **The members that have triples with the given terms are found.** -/
theorem Dependable.exists_found (h : f.Dependable) (s p o : Option Term) :
    ∃ found f' ms, f.Found s p o found f' ms := by
  let known : Selection.State := { registry := f.registry, cache := f.cache, now := f.now }
  let patterns : List TriplePattern := [.ofPositions s p o]
  let r := Selection.select f.config.sourceSelection (f.triplesQuery s p o) patterns known
  obtain ⟨outcomes, selected⟩ : ∃ outcomes, Selection.Selected f.config.sourceSelection patterns
      known outcomes r := Selection.selected_select f.config.sourceSelection rfl (.inl rfl)
  let found := Selection.sourcesOf (Selection.foundBy patterns known outcomes) 0
  let probes := (Selection.Inquiry.ofPatterns patterns known).1.probes
  let f' : Federation := { f with registry := r.2.registry, cache := r.2.cache, now := r.2.now }
  have hselected : Selection.select f.config.sourceSelection (f.triplesQuery s p o)
      [.ofPositions s p o] { registry := f.registry, cache := f.cache, now := f.now } =
        (.ok [found], r.2) := Prod.ext (selected.fst_eq_ok h.distinct h.answersProbes) rfl
  have hregistry : f'.registry = Selection.sent f.registry probes := selected.registry
  have hsublist : (f.holders s p o).Sublist f.registry.members := List.filter_sublist
  have hfound : found.Perm ((f.holders s p o).map (·.source)) := by
    have hpattern : patterns[0]? = some (.ofPositions s p o) := rfl
    refine (selected.sourcesOf_perm h.distinct hpattern).trans (.of_eq (congrArg _ ?_))
    exact List.filter_congr fun m hm => yields_eq h s p o hm
  have hat := Selection.membersAt_sent_perm hsublist hfound probes
  rw [← hregistry] at hat
  refine ⟨found, f', f'.registry.membersAt found, ?_, rfl, ?_, ?_, ?_, ?_⟩
  · apply gives_bind (gives_get f)
    rw [hselected]
    exact gives_ofExcept rfl f'
  · rw [hfound.length_eq, List.length_map]
  · apply Registry.membersOf_eq_ok
    show f'.registry.Registers found
    rw [hregistry]
    exact Selection.registers_sent h.distinct hsublist hfound probes
  · intro m hm
    obtain ⟨m', hm', rfl⟩ := List.mem_map.mp (hat.mem_iff.mp hm)
    have hmem := hsublist.subset hm'
    have hget := Selection.get?_sent hmem probes
    rw [← hregistry] at hget
    exact ⟨(Registry.get?_eq_some_iff.mp hget).2, h.answersRequests m' hmem,
      h.answersProbes m' hmem⟩
  · exact ⟨Selection.counted probes, fun _ => rfl, hat⟩

/-! ### What is done with the sources -/

theorem run_of_gives {α β : Type} {a : Action α} {k : α → Action β} {f f' : Federation} {x : α}
    (h : a.Gives f x f') : (a >>= k).run.run f = (k x).run.run f' := by
  show (match a.run.run f with
    | (r, f) => (ExceptT.bindCont k r).run f) = _
  rw [show a.run.run f = (.ok x, f') from h]
  rfl

/-- Collects the items of a program with the pools of a federation. -/
def collecting (query : QueryContext) (w : Work Triple) : Action (List Triple) := do
  let (r, _) ← runOn query (collect w)
  r

theorem exists_run_collecting (f : Federation) (query : QueryContext) (w : Work Triple) :
    ∃ f', (collecting query w).run.run f = (value (collect w) (f.machine query), f') := by
  let m : Machine Triple := after (collect w) (f.machine query)
  refine ⟨{ f with
    now := m.now, registry := m.registry, join := m.join.pool, union := m.union.pool }, ?_⟩
  show (liftM (value (collect w) (f.machine query)) : Action (List Triple)).run.run _ = _
  cases value (collect w) (f.machine query) <;> rfl

section Asking

variable {f' : Federation} {found : List Source} {ms : List Member}

/-- What is done with the sources is done when they have been found. -/
theorem Dependable.run_found (h : f.Dependable) (hfound : f.Found s p o found f' ms) {α : Type}
    (k : QueryContext → List (List Source) → Action α) :
    (do
      ensureInitialized
      let pattern := TriplePattern.ofPositions s p o
      let query ← startQuery ("getStatements(" ++ pattern.toSparql ++ ")") .select
      k query (← select query [pattern]) : Action α).run.run f =
        (k (f.triplesQuery s p o) [found]).run.run f' := by
  have hstart : (startQuery ("getStatements(" ++ (TriplePattern.ofPositions s p o).toSparql ++ ")")
      .select).Gives f (f.triplesQuery s p o) f := by
    have huntimed : f.config.queryTimeout? = none := if_pos h.untimed
    rw [triplesQuery, ← huntimed]
    exact gives_bind (gives_get f) (gives_pure _ f)
  rw [run_of_gives (ensureInitialized_gives h.initialized), run_of_gives hstart, run_of_gives hfound.selects]

/-- When all terms are given, it is told from the sources whether there is such a triple. -/
theorem Dependable.triples_closed (h : f.Dependable) {a b c : Term}
    (hfound : f.Found (some a) (some b) (some c) found f' ms) :
    (triples (some a) (some b) (some c)).Gives f (if found.isEmpty then [] else [⟨a, b, c⟩])
      f' := by
  have htold := h.run_found hfound fun _ selected =>
    return if (selected.headD []).isEmpty then [] else [(⟨a, b, c⟩ : Triple)]
  rw [Action.Gives, triples]
  exact htold

/-- When a term is open, the members behind the sources are asked. -/
theorem Dependable.run_triples_open (h : f.Dependable) (hfound : f.Found s p o found f' ms)
    (hopen : s = none ∨ p = none ∨ o = none) :
    (triples s p o).run.run f =
      (collecting (f.triplesQuery s p o) (askMembers s p o ms)).run.run f' := by
  have hasks := h.run_found hfound fun query selected => do
    let f ← get
    collecting query (Environment.fetchTriples ⟨f.registry, f.config⟩ (selected.headD []) s p o)
  rw [← Environment.fetchTriples_eq hfound.members, triples]
  rcases hopen with rfl | rfl | rfl
  · exact hasks
  · cases s <;> exact hasks
  · cases s <;> cases p <;> exact hasks

end Asking

/-! ### The pools -/

/-- The machine of a query is at rest: the workers of the pools are there, without jobs. -/
theorem resting_machine {α : Type} (f : Federation) (query : QueryContext) :
    (f.machine query : Machine α).Resting where
  executors := rfl
  ready := rfl
  asleep := rfl
  idle t a ha := by
    obtain ⟨thread, hthread, rfl⟩ := Option.map_eq_some_iff.mp ha
    have hmem : thread ∈ (f.machine query : Machine α).threads := Array.mem_of_getElem? hthread
    rw [machine, Array.mem_append] at hmem
    rcases hmem with hjoin | hunion
    · obtain ⟨-, -, rfl⟩ := List.mem_map.mp (List.mem_toArray.mp hjoin)
      exact ⟨.join, rfl⟩
    · obtain ⟨-, -, rfl⟩ := List.mem_map.mp (List.mem_toArray.mp hunion)
      exact ⟨.union, rfl⟩

theorem still_machine {α : Type} (f : Federation) (s p o : Option Term) (f₀ : Federation) :
    Still f.registry.answers (f.machine (f₀.triplesQuery s p o) : Machine α) where
  ready := rfl
  asleep := rfl
  timers := rfl
  answers := rfl
  live := rfl
  untimed := rfl

/-- A union of tasks on the pool of a federation. -/
def unionSetting (f : Federation) (text : String) (tasks : List (String × Work Triple)) :
    Setting Triple where
  registry := f.registry
  text := text
  now := f.now
  pool := f.union.name
  workers := f.union.workers
  tasks := tasks

section Uniting

variable {f' : Federation} {found : List Source} {ms : List Member}

theorem Found.length_eq (h : f.Found s p o found f' ms) : ms.length = (f.holders s p o).length := by
  obtain ⟨count, -, hperm⟩ := h.holders
  rw [hperm.length_eq, List.length_map]

/-- The members that are asked have the triples that agree. -/
theorem Found.agreeing_perm (h : f.Found s p o found f' ms) :
    (agreeing s p o ms).Perm (agreeing s p o f.registry.members) := by
  obtain ⟨count, hcount, hperm⟩ := h.holders
  apply (hperm.flatMap_right _).trans
  rw [← agreeing_holders, List.flatMap_map]
  simp only [hcount]
  exact .refl _

/-- One member is asked without a pool. -/
theorem Found.collects_few (h : f.Found s p o found f' ms)
    (hfew : (f.holders s p o).length ≤ 1)
    (hshort : (agreeing s p o f.registry.members).length < stepLimit) :
    ∃ f'', (collecting (f.triplesQuery s p o) (askMembers s p o ms)).Gives f' (agreeing s p o ms)
      f'' := by
  obtain ⟨halone, hending, hsize⟩ :=
    askMembers_alone h.serves s p o (h.length_eq.trans_le hfew)
  rw [← h.agreeing_perm.length_eq] at hshort
  have hcollected := (still_machine f' s p o f).value_collect halone hending
    (hsize.trans_lt (by decide)) hshort
  obtain ⟨f'', hcollecting⟩ :=
    exists_run_collecting f' (f.triplesQuery s p o) (askMembers s p o ms)
  rw [hcollected] at hcollecting
  exact ⟨f'', hcollecting⟩

/-- On a pool that takes jobs the tasks of a union deliver all triples that agree. -/
theorem Found.collects_union (h : f.Found s p o found f' ms) (text : String) {schedule : Nat → Step}
    (hquiet : ∀ n, (schedule n).Quiet) :
    let x := f'.unionSetting text (ms.map (triplesTask s p o))
    (∀ n, (x.play schedule n).ended = true →
      (x.play schedule n).received.Perm ((agreeing s p o f.registry.members).map .ok)) ∧
    (x.Fair schedule → ∃ n, (x.play schedule n).ended = true) := by
  intro x
  have halone : ∀ task ∈ x.tasks, task.2.Alone := by
    intro task htask
    obtain ⟨m, -, rfl⟩ := List.mem_map.mp htask
    exact alone_askTriples m s p o
  have hok : ∀ m ∈ ms, x.outcome (triplesTask s p o m).1
      ((triplesTask s p o m).2.ending x.registry.answers) =
        .ok (m.triples.filter fun t => t.Agrees s p o) := by
    intro m hm
    have hending : (triplesTask s p o m).2.ending x.registry.answers =
        .ok (.rows (m.triples.filter fun t => t.Agrees s p o)) :=
      ending_askTriples (h.serves m hm) s p o
    rw [hending, Setting.outcome, Feed.arrivals, Arrivals.items_ofList]
  have ht := Setting.inTime_of_timeout_eq_none halone rfl schedule
  constructor
  · intro n hended
    have hreceived := Setting.received_perm halone ht hquiet rfl hok hended
    exact hreceived.trans (h.agreeing_perm.map _)
  · intro hfair
    obtain ⟨n, -, hended⟩ := Setting.exists_ended halone ht hfair (n := 0) (fun k _ => hquiet k)
      (.inl (Setting.not_disturbed hquiet 0))
    exact ⟨n, hended⟩

/-- On a pool that takes no jobs the first task is refused. -/
theorem Found.refuses (h : f.Found s p o found f' ms) (hmany : 2 ≤ ms.length)
    (hstopped : f.union.accepting = false) : ∃ f'',
      (collecting (f.triplesQuery s p o)
        (.done (.union false (ms.map (triplesTask s p o))))).run.run f' =
          (.error (.internalScheduling (.schedulerShutDown f.union.name)), f'') := by
  let m : Machine Triple := f'.machine (f.triplesQuery s p o)
  have hpool : m.union.pool = f.union :=
    (pool_machine f' (f.triplesQuery s p o) .union).trans h.union
  cases ms with
  | nil => exact absurd hmany (by simp)
  | cons first rest =>
    have hrefused := value_collect_of_stopped (resting_machine f' (f.triplesQuery s p o))
      ((congrArg Pool.accepting hpool).trans hstopped) rfl rfl rfl (triplesTask s p o first).1
      (triplesTask s p o first).2 (rest.map (triplesTask s p o))
    obtain ⟨f'', hcollecting⟩ := exists_run_collecting f' (f.triplesQuery s p o)
      (.done (.union false ((first :: rest).map (triplesTask s p o))))
    refine ⟨f'', hcollecting.trans ?_⟩
    rw [List.map_cons, ← hpool]
    exact congrArg (·, f'') hrefused

end Uniting

/-! ### All triples that agree -/

/-- **A federation gives the triples that agree with the given terms, from all members.**  If all
three terms are given, that is the triple itself, once, if some member has it.  Otherwise the
members that have such triples are asked.  A single one is asked without a pool; of several each is
asked by a task of a union, and whoever takes the next step, all triples are delivered, as often as
they are stored.  But a pool that has been stopped refuses the tasks. -/
theorem triples_exact (h : f.Dependable) (s p o : Option Term) :
    (∀ a b c, s = some a → p = some b → o = some c → ∃ f', (triples s p o).Gives f
      (if ∃ m ∈ f.registry.members, ⟨a, b, c⟩ ∈ m.triples then [⟨a, b, c⟩] else []) f') ∧
    (s = none ∨ p = none ∨ o = none → ∃ ms f',
      (triples s p o).run.run f =
        (collecting (f.triplesQuery s p o) (askMembers s p o ms)).run.run f' ∧
      (askMembers s p o ms).Yields f'.registry.answers
        (agreeing s p o f.registry.members : List Triple) ∧
      ((f.holders s p o).length ≤ 1 → (agreeing s p o f.registry.members).length < stepLimit →
        ∃ given f'', (triples s p o).Gives f given f'' ∧
          given.Perm (agreeing s p o f.registry.members)) ∧
      (2 ≤ (f.holders s p o).length → f.union.accepting = false →
        ∃ f'', (triples s p o).run.run f =
          (.error (.internalScheduling (.schedulerShutDown f.union.name)), f'')) ∧
      (2 ≤ (f.holders s p o).length → f.union.accepting = true →
        let tasks := ms.map (triplesTask s p o)
        let x := f'.unionSetting (f.triplesQuery s p o).text tasks
        askMembers s p o ms = .done (.union false tasks) ∧
          ∀ schedule, (∀ n, (schedule n).Quiet) →
            (∀ n, (x.play schedule n).ended = true → (x.play schedule n).received.Perm
              ((agreeing s p o f.registry.members).map .ok)) ∧
            (x.Fair schedule → ∃ n, (x.play schedule n).ended = true))) := by
  obtain ⟨found, f', ms, hfound⟩ := h.exists_found s p o
  constructor
  · rintro a b c rfl rfl rfl
    have hheld : (∃ m ∈ f.registry.members, (⟨a, b, c⟩ : Triple) ∈ m.triples) ↔
        ¬ found.isEmpty = true := by
      rw [List.isEmpty_iff_length_eq_zero, hfound.length, ← ne_eq, ← Nat.pos_iff_ne_zero,
        List.length_pos_iff_exists_mem]
      simp only [mem_holders, agrees_all, exists_eq_right]
    refine ⟨f', ?_⟩
    rw [if_congr hheld rfl rfl, ite_not]
    exact h.triples_closed hfound
  · intro hopen
    have hruns := h.run_triples_open hfound hopen
    refine ⟨ms, f', hruns, ?_, ?_, ?_, ?_⟩
    · rw [← Multiset.coe_eq_coe.mpr hfound.agreeing_perm]
      exact (askMembers_comes hfound.serves s p o).yields
    · intro hfew hshort
      obtain ⟨f'', hgiven⟩ := hfound.collects_few hfew hshort
      exact ⟨_, f'', hruns.trans hgiven, hfound.agreeing_perm⟩
    · intro hmany hstopped
      rw [← hfound.length_eq] at hmany
      rw [hruns, askMembers_of_two s p o hmany]
      exact hfound.refuses hmany hstopped
    · intro hmany _
      rw [← hfound.length_eq] at hmany
      exact ⟨askMembers_of_two s p o hmany, fun schedule hquiet => hfound.collects_union _ hquiet⟩

/-! ### Two members with a triple in common -/

/-- Two members of which one has a triple twice that the other one has too. -/
def sharing : Federation :=
  { empty { queryTimeoutMs := 0 } with
    registry := {
      known := [
        { id := "e1", name := "e1", triples := [
          ⟨.iri "a", .iri "p", .iri "b"⟩, ⟨.iri "a", .iri "p", .iri "b"⟩] },
        { id := "e2", name := "e2", triples := [
          ⟨.iri "a", .iri "p", .iri "b"⟩, ⟨.iri "c", .iri "p", .iri "d"⟩] }]
      ids := ["e1", "e2"] } }

theorem dependable_calls_sharing {cs : List Call}
    (hcs : cs = [.start] ∨ cs = [.start, .shutDown, .start]) : (sharing.calls cs).Dependable := by
  rcases hcs with rfl | rfl
  all_goals
    constructor
    · rfl
    · decide
    · decide
    · decide
    · intro m _ p
      rw [MembershipCache.lookup_cold rfl]
      trivial
    · rfl

/-- The triple that both members have is given once if all its terms are given; by its predicate
alone it is found three times, with the other one. -/
theorem triples_exact_sharing :
    let f := sharing.calls [.start]
    f.Dependable ∧ f.union.accepting = true ∧ (f.holders none (some (.iri "p")) none).length = 2 ∧
      (∃ f', (triples (some (.iri "a")) (some (.iri "p")) (some (.iri "b"))).Gives f
        [⟨.iri "a", .iri "p", .iri "b"⟩] f') ∧
      ∃ (ms : List Member) (f' : Federation) (n : Nat),
        let x := f'.unionSetting (f.triplesQuery none (some (.iri "p")) none).text
          (ms.map (triplesTask none (some (.iri "p")) none))
        (x.play Setting.inTurn n).ended = true ∧ (x.play Setting.inTurn n).received.Perm
          [.ok ⟨.iri "a", .iri "p", .iri "b"⟩, .ok ⟨.iri "a", .iri "p", .iri "b"⟩,
            .ok ⟨.iri "a", .iri "p", .iri "b"⟩, .ok ⟨.iri "c", .iri "p", .iri "d"⟩] := by
  intro f
  have hf : f.Dependable := dependable_calls_sharing (.inl rfl)
  have haccepting : f.union.accepting = true := rfl
  have hholders : (f.holders none (some (.iri "p")) none).length = 2 := by decide
  obtain ⟨hclosed, -⟩ := triples_exact hf (some (.iri "a")) (some (.iri "p")) (some (.iri "b"))
  obtain ⟨-, hopen⟩ := triples_exact hf none (some (.iri "p")) none
  obtain ⟨ms, f', -, -, -, -, hunion⟩ := hopen (.inl rfl)
  obtain ⟨-, hdelivers⟩ := hunion hholders.ge haccepting
  obtain ⟨hreceived, hends⟩ := hdelivers Setting.inTurn Setting.quiet_inTurn
  have halone : ∀ task ∈ ms.map (triplesTask none (some (.iri "p")) none), task.2.Alone := by
    intro task htask
    obtain ⟨m, -, rfl⟩ := List.mem_map.mp htask
    exact alone_askTriples m _ _ _
  obtain ⟨n, hended⟩ := hends (Setting.fair_of_inTurn (n := 0) halone
    (Setting.inTime_of_timeout_eq_none halone rfl _) fun _ _ => rfl)
  exact ⟨hf, haccepting, hholders, hclosed _ _ _ rfl rfl rfl, ms, f', n, hended,
    hreceived n hended⟩

/-- **A federation that was shut down and initialized again gives no triples** if two members have
some. -/
theorem restarted_gives_no_triples :
    let f := sharing.calls [.start, .shutDown, .start]
    f.Dependable ∧ (agreeing none (some (.iri "p")) none f.registry.members).length = 4 ∧
      ∃ f', (triples none (some (.iri "p")) none).run.run f =
        (.error (.internalScheduling (.schedulerShutDown "union")), f') := by
  intro f
  have hf : f.Dependable := dependable_calls_sharing (.inr rfl)
  obtain ⟨found, f', ms, hfound⟩ := hf.exists_found none (some (.iri "p")) none
  have hmany : 2 ≤ ms.length := by
    rw [hfound.length_eq]
    decide
  refine ⟨hf, by decide, ?_⟩
  rw [hf.run_triples_open hfound (.inl rfl), askMembers_of_two _ _ _ hmany]
  exact hfound.refuses hmany rfl

end Federation

end FederatedSparql
