import FederatedSparql.Proofs.Endpoint.Members
import FederatedSparql.Proofs.Engine.Inquiry

/-!
Source selection brings the endpoints that hold matches.

How many probes run at a time decides about the order of their outcomes only (`runProbes_spec`).  So
what a selection ends in is decided by what was known and by what the members hold
(`selected_select`): a member is a source of a pattern if that is known, or else if a probe finds a
match (`Selected.sourcesOf_perm`).

* `select_truthful`: while nothing is known, the sources of a pattern are the members that hold a
  match, each once.
* `solutions_of_truthful`: with such sources a pattern has its solutions over the triples of all
  members.
-/

namespace FederatedSparql.Selection

variable {patterns : List TriplePattern} {sources : List Source} {ms : List Member}

/-! ### Probes -/

/-- The probes that are not answered yet. -/
def Flight.probes (f : Flight) : List Probe := f.waiting ++ f.underway.map (·.2)

theorem insertByTime_perm (p : Nat × Probe) (ps : List (Nat × Probe)) :
    (insertByTime p ps).Perm (p :: ps) := by
  induction ps with
  | nil => exact .refl _
  | cons q rest ih =>
    rw [insertByTime]
    split
    · exact .refl _
    · exact (ih.cons q).trans (.swap ..)

theorem answer_receive (m : Member) (q r : Request) : (m.receive q).answer r = m.answer r := by
  cases q <;> cases r <;> rfl

theorem known?_update (r : Registry) (id : String) {f : Member → Member} (hf : ∀ m, (f m).id = m.id)
    (other : String) : (r.update id f).known? other =
      (r.known? other).map fun m => if m.id == id then f m else m := by
  unfold Registry.known? Registry.update
  rw [List.find?_map]
  congr 2
  funext m
  show ((if m.id == id then f m else m).id == other) = (m.id == other)
  split
  · rw [hf]
  · rfl

/-- Asking an endpoint does not change what it answers. -/
theorem resultOf_receive (s : State) (id : String) (r : Request) (p : Probe) :
    resultOf { s with registry := s.registry.update id (·.receive r) } p = resultOf s p := by
  have kept : ∀ m : Member, (m.receive r).id = m.id := fun m =>
    Member.id_eq_of_core (Member.core_receive m r)
  unfold resultOf
  rw [known?_update _ _ kept]
  cases s.registry.known? p.source.endpoint with
  | none => rfl
  | some m =>
    show ((if m.id == id then m.receive r else m).answer p.request).map _ = _
    split
    · rw [answer_receive]
    · rfl

/-! ### Probes that are sent -/

/-- A registry after probes have been sent. -/
def sent (r : Registry) (probes : List Probe) : Registry :=
  probes.foldl (fun r p => r.update p.source.endpoint (·.receive p.request)) r

/-- From one state to another one, probes have been sent, and nothing was recorded. -/
structure Sends (probes : List Probe) (s s' : State) : Prop where
  registry : s'.registry = sent s.registry probes
  cache : s'.cache = s.cache

theorem Sends.refl (s : State) : Sends [] s s := ⟨rfl, rfl⟩

theorem Sends.trans {probes probes' : List Probe} {s s' s'' : State} (h : Sends probes s s')
    (h' : Sends probes' s' s'') : Sends (probes ++ probes') s s'' where
  registry := by
    rw [h'.registry, h.registry]
    exact List.foldl_append.symm
  cache := h'.cache.trans h.cache

/-- Who takes part, and what has been told to fail, stays as it is. -/
theorem holds_sent {r : Registry} (h : r.Holds ms) (probes : List Probe) :
    (sent r probes).Holds ms :=
  List.foldlRecOn probes (motive := fun r => Registry.Holds r ms) _ h
    fun _ hr p _ => hr.update p.source.endpoint fun m => Member.core_receive m p.request

/-- Asking endpoints does not change what they answer. -/
theorem resultOf_sent (s : State) (probes : List Probe) (p : Probe) :
    resultOf { s with registry := sent s.registry probes } p = resultOf s p :=
  List.foldlRecOn probes (motive := fun r => resultOf { s with registry := r } p = resultOf s p)
    _ rfl fun r hr q _ =>
      (resultOf_receive { s with registry := r } q.source.endpoint q.request p).trans hr

theorem Sends.result {probes : List Probe} {s s' : State} (h : Sends probes s s') (p : Probe) :
    resultOf s' p = resultOf s p := by
  rw [← resultOf_sent s probes p]
  unfold resultOf
  rw [h.registry]

/-- Probes are sent in their order and none is lost, and where there is room and a probe to send,
one is under way. -/
theorem launch_spec (room : Nat) (f : Flight) (s : State) :
    ∃ now, Sends now s (launch room f s).2 ∧ f.waiting = now ++ (launch room f s).1.waiting ∧
      ((launch room f s).1.underway.map (·.2)).Perm (now ++ f.underway.map (·.2)) ∧
      ((launch room f s).1.underway = [] → f.underway = [] ∧ (room = 0 ∨ f.waiting = [])) := by
  induction room generalizing f s with
  | zero => exact ⟨[], .refl s, rfl, .refl _, fun h => ⟨h, .inl rfl⟩⟩
  | succ room ih =>
    obtain ⟨waiting, underway⟩ := f
    cases waiting with
    | nil => exact ⟨[], .refl s, rfl, .refl _, fun h => ⟨h, .inr rfl⟩⟩
    | cons p waiting =>
      rw [launch]
      dsimp only
      generalize s.now + ((s.registry.known? p.source.endpoint).map (·.latency p.request)).getD 0 =
        due
      obtain ⟨now, sends, rest, perm, idle⟩ := ih
        { waiting, underway := insertByTime (due, p) underway }
        { s with registry := s.registry.update p.source.endpoint (·.receive p.request) }
      have first : Sends [p] s
          { s with registry := s.registry.update p.source.endpoint (·.receive p.request) } :=
        ⟨rfl, rfl⟩
      refine ⟨p :: now, first.trans sends, congrArg (p :: ·) rest, perm.trans ?_, fun h => ?_⟩
      · have inserted := (insertByTime_perm (due, p) underway).map (·.2)
        exact (inserted.append_left now).trans List.perm_middle
      · have full := (insertByTime_perm (due, p) underway).symm.trans (.of_eq (idle h).1)
        exact absurd full.eq_nil (List.cons_ne_nil _ _)

/-- **All probes are made, each once, and each brings what the endpoint answered from the start
on.** -/
theorem runProbes_spec {room : Nat} (hroom : 0 < room) (rounds : Nat) (f : Flight)
    (outcomes : List Outcome) (s : State) (hf : f.probes.length ≤ rounds) :
    ∃ added s', runProbes room none rounds f outcomes s = (some (outcomes ++ added), s') ∧
      (added.map (·.probe)).Perm f.probes ∧ (∀ o ∈ added, o.result = resultOf s o.probe) ∧
      Sends f.waiting s s' := by
  induction rounds generalizing f outcomes s with
  | zero =>
    have none_left : f.probes = [] := List.eq_nil_of_length_eq_zero (Nat.le_zero.1 hf)
    have nothing : f.waiting = [] := (List.append_eq_nil_iff.1 none_left).1
    exact ⟨[], s, by rw [runProbes, List.append_nil], by rw [none_left]; exact .refl _,
      fun o ho => absurd ho List.not_mem_nil, by rw [nothing]; exact .refl s⟩
  | succ rounds ih =>
    obtain ⟨now, sends, rest, perm, idle⟩ := launch_spec (room - f.underway.length) f s
    rw [runProbes]
    generalize launch (room - f.underway.length) f s = launched at sends rest perm idle
    obtain ⟨⟨waiting, underway⟩, s'⟩ := launched
    dsimp only at sends rest perm idle
    cases underway with
    | nil =>
      obtain ⟨hu, hw⟩ := idle rfl
      have nothing : f.waiting = [] := hw.resolve_left (by rw [hu]; simpa using hroom.ne')
      have none_left : f.probes = [] := by rw [Flight.probes, hu, nothing]; rfl
      have unsent : now = [] := (List.append_eq_nil_iff.1 (rest.symm.trans nothing)).1
      rw [unsent] at sends
      exact ⟨[], s', by rw [List.append_nil], by rw [none_left]; exact .refl _,
        fun o ho => absurd ho List.not_mem_nil, by rw [nothing]; exact sends⟩
    | cons first underway =>
      obtain ⟨due, p⟩ := first
      have rest_perm : (p :: (waiting ++ underway.map (·.2))).Perm f.probes := by
        rw [Flight.probes, rest]
        refine List.perm_middle.symm.trans ((perm.append_left waiting).trans ?_)
        rw [← List.append_assoc]
        exact List.perm_append_comm.append_right _
      have fewer : (Flight.probes { waiting, underway }).length ≤ rounds := by
        have length := rest_perm.length_eq
        exact Nat.le_of_succ_le_succ (length.trans_le hf)
      have later : Sends now s { s' with now := max due s'.now } := ⟨sends.registry, sends.cache⟩
      obtain ⟨added, s'', run, probes, results, sends'⟩ := ih { waiting, underway }
        (outcomes ++ [⟨p, resultOf { s' with now := max due s'.now } p⟩]) _ fewer
      refine ⟨⟨p, resultOf { s' with now := max due s'.now } p⟩ :: added, s'', ?_,
        (probes.cons p).trans rest_perm, ?_, ?_⟩
      · rw [List.append_cons]
        exact run
      · rw [List.forall_mem_cons]
        exact ⟨later.result p, fun o ho => (results o ho).trans (later.result o.probe)⟩
      · rw [rest]
        exact later.trans sends'

/-! ### Selections -/

/-- The failure that a selection ends in if no pattern may be left without a source. -/
def unresolved? (count : Nat) (found : List (Nat × Source)) (outcomes : List Outcome) :
    Option FedError :=
  (List.range count).findSome? fun number =>
    if (sourcesOf found number).isEmpty then failureOf? outcomes number else none

/-- What leaves a pattern without a source is the failure of one of the probes. -/
theorem exists_of_unresolved? {count : Nat} {found : List (Nat × Source)} {outcomes : List Outcome}
    {e : FedError} (h : unresolved? count found outcomes = some e) :
    ∃ o ∈ outcomes, o.result = .error e := by
  obtain ⟨number, -, hfails⟩ := List.exists_of_findSome?_eq_some h
  split at hfails
  · obtain ⟨o, ho, hfails⟩ := List.exists_of_findSome?_eq_some hfails
    refine ⟨o, ho, ?_⟩
    split at hfails
    · next e' he' =>
      split at hfails
      · cases hfails
        exact he'
      · cases hfails
    · cases hfails
  · cases hfails

/-- What is found, by the numbers of the patterns: what is known, and what the probes brought. -/
def foundBy (patterns : List TriplePattern) (s : State) (outcomes : List Outcome) :
    List (Nat × Source) :=
  (Inquiry.ofPatterns patterns s).1.found ++ outcomes.flatMap (·.found)

/-- A selection all of whose probes came back. -/
structure Selected (config : SourceSelectionConfig) (patterns : List TriplePattern) (s : State)
    (outcomes : List Outcome) (r : Except FedError (List (List Source)) × State) : Prop where
  probed : (outcomes.map (·.probe)).Perm (Inquiry.ofPatterns patterns s).1.probes
  brought : ∀ o ∈ outcomes, o.result = resultOf s o.probe
  registry : r.2.registry = sent s.registry (Inquiry.ofPatterns patterns s).1.probes
  cache : r.2.cache = outcomes.foldl (record r.2.now) (Inquiry.ofPatterns patterns s).2
  answer : r.1 =
    match config.failOnUnresolvedSources,
      unresolved? patterns.length (foundBy patterns s outcomes) outcomes with
    | true, some e => .error e
    | _, _ => .ok ((List.range patterns.length).map (sourcesOf (foundBy patterns s outcomes)))

/-- **Without a deadline, or if nothing has to be asked, all probes come back.** -/
theorem selected_select (config : SourceSelectionConfig) {query : QueryContext} {s : State}
    (hq : query.aborted = false)
    (ht : query.deadline = none ∨ (Inquiry.ofPatterns patterns s).1.probes = []) :
    ∃ outcomes, Selected config patterns s outcomes (select config query patterns s) := by
  have active : query.checkAborted = .ok () := by
    rw [QueryContext.checkAborted, hq]
    rfl
  have unhurried : (if (Inquiry.ofPatterns patterns s).1.probes.length = 0 then none
      else query.deadline) = none := by
    rcases ht with ht | ht
    · rw [ht, ite_self]
    · rw [ht]
      rfl
  have room : 0 < if config.probeConcurrency = 0
      then max (Inquiry.ofPatterns patterns s).1.probes.length 1 else config.probeConcurrency := by
    split <;> omega
  obtain ⟨outcomes, s', run, probed, brought, sends⟩ := runProbes_spec room
    (Inquiry.ofPatterns patterns s).1.probes.length
    { waiting := (Inquiry.ofPatterns patterns s).1.probes } []
    { s with cache := (Inquiry.ofPatterns patterns s).2 } (by simp [Flight.probes])
  refine ⟨outcomes, ?_⟩
  unfold select
  rw [active]
  dsimp only
  rw [unhurried, run]
  dsimp only [List.nil_append]
  have probed' : (outcomes.map (·.probe)).Perm (Inquiry.ofPatterns patterns s).1.probes := by
    simpa [Flight.probes] using probed
  have cache : outcomes.foldl (record s'.now) s'.cache =
      outcomes.foldl (record s'.now) (Inquiry.ofPatterns patterns s).2 := by
    rw [sends.cache]
  split
  · next e fails unresolved =>
    refine ⟨probed', brought, sends.registry, cache, ?_⟩
    rw [unresolved?, fails, foundBy, unresolved]
  · next resolved =>
    refine ⟨probed', brought, sends.registry, cache, ?_⟩
    split
    · next e fails unresolved => exact absurd unresolved (resolved e fails)
    · rfl


/-! ### Sources -/

/-- What a member brings to a probe for a pattern. -/
def reply (m : Member) (p : TriplePattern) : Except FedError Bool :=
  if m.failProbes then .error (.endpoint (m.failure (.has p ∅)))
  else .ok (Store.hasMatch m.triples p ∅)

/-- What a probe of a member brings. -/
theorem resultOf_eq {s : State} {m : Member} (hm : m ∈ s.registry.members) {p : Probe}
    (hp : p.source = m.source) : resultOf s p = reply m p.pattern := by
  have known : s.registry.known? p.source.endpoint = some m := by
    rw [hp]
    exact (Registry.get?_eq_some_iff.1 (Registry.get?_of_mem_members hm)).2
  have answered : m.answer p.request =
      if m.failProbes then .error (.endpoint (m.failure (.has p.pattern ∅)))
      else .ok (.found (Store.hasMatch m.triples p.pattern ∅)) := rfl
  unfold resultOf reply
  rw [known]
  dsimp only
  rw [answered]
  split <;> rfl

/-- Whether a probe for a need finds a match. -/
def brings (members : List Member) (patterns : List TriplePattern) (need : Nat × Source) : Bool :=
  members.any fun m => m.source == need.2 &&
    patterns[need.1]?.any fun p => !m.failProbes && Store.hasMatch m.triples p ∅

/-- A list of members of different ids has no source twice. -/
theorem eq_of_source_eq (hd : (ms.map (·.id)).Nodup) {m m' : Member} (hm : m ∈ ms) (hm' : m' ∈ ms)
    (h : m.source = m'.source) : m = m' :=
  List.inj_on_of_nodup_map hd hm hm' (congrArg (·.endpoint) h)

theorem brings_source (hd : (ms.map (·.id)).Nodup) {m : Member} (hm : m ∈ ms) {number : Nat}
    {p : TriplePattern} (hp : patterns[number]? = some p) :
    brings ms patterns (number, m.source) = (!m.failProbes && Store.hasMatch m.triples p ∅) := by
  rw [Bool.eq_iff_iff, brings, List.any_eq_true]
  constructor
  · rintro ⟨m', hm', h⟩
    rw [Bool.and_eq_true, beq_iff_eq] at h
    obtain rfl := eq_of_source_eq hd hm' hm h.1
    simpa [hp] using h.2
  · intro h
    exact ⟨m, hm, by simpa [hp] using h⟩

/-- The sources that a probe brought are those of its needs for which it found a match. -/
theorem found_eq {o : Outcome} (hd : (ms.map (·.id)).Nodup) {m : Member} (hm : m ∈ ms)
    (hs : o.probe.Sound patterns sources) (hsource : o.probe.source = m.source)
    (ho : o.result = reply m o.probe.pattern) :
    o.found = o.probe.asked.filter (brings ms patterns) := by
  have same : ∀ need ∈ o.probe.asked, brings ms patterns need =
      (!m.failProbes && Store.hasMatch m.triples o.probe.pattern ∅) := by
    intro need hn
    obtain ⟨number, hnumber, rfl⟩ := List.mem_map.1 hn
    obtain ⟨q, hq, hkey⟩ := hs.wanted number hnumber
    rw [hsource, brings_source hd hm hq, PatternKey.hasMatch_congr (hkey.trans hs.key) m.triples]
  rw [List.filter_congr same]
  unfold Outcome.found
  rw [ho, reply]
  cases m.failProbes with
  | true => exact (List.filter_false _).symm
  | false =>
    cases Store.hasMatch m.triples o.probe.pattern ∅ with
    | true => exact (List.filter_true _).symm
    | false => exact (List.filter_false _).symm

theorem flatMap_zipIdx_ite {α β : Type} (xs : List α) (k n : Nat) (g : α → List β) :
    ((xs.zipIdx k).flatMap fun x => if x.2 = n then g x.1 else []) =
      if k ≤ n then (xs[n - k]?.map g).getD [] else [] := by
  induction xs generalizing k with
  | nil => simp
  | cons x xs ih =>
    rw [List.zipIdx_cons, List.flatMap_cons, ih]
    rcases Nat.lt_trichotomy k n with h | rfl | h
    · have later : n - k = (n - (k + 1)) + 1 := by omega
      rw [if_neg (Nat.ne_of_lt h), if_pos h.le, if_pos (Nat.succ_le_of_lt h), later]
      simp
    · simp
    · rw [if_neg (Nat.ne_of_gt h), if_neg (Nat.not_le.2 h), if_neg (by omega), List.append_nil]

/-- Of what was found for all patterns, each pattern gets its own. -/
theorem sourcesOf_perm {found : List (Nat × Source)} {number : Nat} {good : Nat × Source → Bool}
    (hf : found.Perm ((needs patterns sources).filter good)) (hn : number < patterns.length) :
    (sourcesOf found number).Perm (sources.filter fun source => good (number, source)) := by
  have own : ((needs patterns sources).filter good).filterMap
      (fun f => if f.1 = number then some f.2 else none) =
        sources.filter fun source => good (number, source) := by
    rw [needs, List.filter_flatMap, List.filterMap_flatMap]
    have each : ∀ x : TriplePattern × Nat,
        (((sources.map fun source => (x.2, source)).filter good).filterMap
          fun f => if f.1 = number then some f.2 else none) =
        if x.2 = number then sources.filter (fun source => good (number, source)) else [] := by
      intro x
      rw [List.filter_map, List.filterMap_map]
      split
      · next h => subst h; simp [Function.comp_def]
      · next h => simp [h]
    simp only [each]
    rw [flatMap_zipIdx_ite patterns 0 number fun _ => _]
    simp [hn]
  rw [sourcesOf]
  refine (List.mergeSort_perm _ _).trans ((hf.filterMap _).trans ?_)
  rw [own]

/-- Whether a need is met, by what is known or else by a probe. -/
def isMet (s : State) (patterns : List TriplePattern) (need : Nat × Source) : Bool :=
  match knownOf s.cache s.now patterns need with
  | .confirmed => true
  | .absent => false
  | .unknown => brings s.registry.members patterns need

/-- Whether a selection makes a member a source of a pattern: if that is known, or else if a probe
finds a match. -/
def State.yields (s : State) (p : TriplePattern) (m : Member) : Bool :=
  match s.cache.membership s.now (.ofPattern p) m.id with
  | .confirmed => true
  | .absent => false
  | .unknown => !m.failProbes && Store.hasMatch m.triples p ∅

section Selected

variable {config : SourceSelectionConfig} {s : State} {outcomes : List Outcome}
  {r : Except FedError (List (List Source)) × State}

theorem Selected.answer_eq_error_iff (h : Selected config patterns s outcomes r) (e : FedError) :
    r.1 = .error e ↔ config.failOnUnresolvedSources = true ∧
      unresolved? patterns.length (foundBy patterns s outcomes) outcomes = some e := by
  rw [h.answer]
  constructor
  · intro heq
    split at heq
    · next fails unresolved =>
      cases heq
      exact ⟨fails, unresolved⟩
    · cases heq
  · rintro ⟨fails, unresolved⟩
    rw [fails, unresolved]

theorem Selected.answer_eq_ok (h : Selected config patterns s outcomes r)
    {selected : List (List Source)} (hok : r.1 = .ok selected) :
    selected = (List.range patterns.length).map (sourcesOf (foundBy patterns s outcomes)) := by
  have answer := h.answer.symm.trans hok
  split at answer
  · cases answer
  · exact (Except.ok.inj answer).symm

/-- Each pattern has its sources in its place. -/
theorem forall₂_sourcesOf {found : List (Nat × Source)} {R : TriplePattern → List Source → Prop}
    (h : ∀ number p, patterns[number]? = some p → R p (sourcesOf found number)) :
    List.Forall₂ R patterns ((List.range patterns.length).map (sourcesOf found)) := by
  rw [List.forall₂_iff_get]
  refine ⟨by simp, fun number hn _ => ?_⟩
  rw [List.get_eq_getElem, List.get_eq_getElem, List.getElem_map, List.getElem_range]
  exact h number _ (List.getElem?_eq_getElem hn)

/-- A registry with different ids has no source twice. -/
theorem nodup_sources (hd : s.registry.ids.Nodup) :
    ((s.registry.members.map (·.source)).map (·.endpoint)).Nodup := by
  rw [List.map_map]
  exact Registry.nodup_members hd

/-- Each outcome is what a member brought to a probe for its kind of pattern. -/
theorem Selected.answered (h : Selected config patterns s outcomes r) (hd : s.registry.ids.Nodup)
    {o : Outcome} (ho : o ∈ outcomes) :
    o.probe.Sound patterns (s.registry.members.map (·.source)) ∧ ∃ m ∈ s.registry.members,
      o.probe.source = m.source ∧ o.result = reply m o.probe.pattern := by
  have asks := Inquiry.asks_ofPatterns patterns (nodup_sources hd)
  have sound := asks.sound _ (h.probed.mem_iff.1 (List.mem_map_of_mem ho))
  obtain ⟨m, hm, hsource⟩ := List.mem_map.1 sound.source
  exact ⟨sound, m, hm, hsource.symm, (h.brought o ho).trans (resultOf_eq hm hsource.symm)⟩

/-- What is found is what is known, and what the probes bring. -/
theorem Selected.found_perm (h : Selected config patterns s outcomes r)
    (hd : s.registry.ids.Nodup) :
    (foundBy patterns s outcomes).Perm
      ((needs patterns (s.registry.members.map (·.source))).filter (isMet s patterns)) := by
  have asks := Inquiry.asks_ofPatterns patterns (nodup_sources hd)
  rw [foundBy, asks.found]
  generalize needs patterns (s.registry.members.map (·.source)) = all at asks ⊢
  have each : outcomes.flatMap (·.found) =
      (outcomes.map (·.probe)).flatMap fun p =>
        p.asked.filter (brings s.registry.members patterns) := by
    rw [List.flatMap_map]
    refine List.flatMap_congr fun o ho => ?_
    obtain ⟨sound, m, hm, hsource, hresult⟩ := h.answered hd ho
    exact found_eq (Registry.nodup_members hd) hm sound hsource hresult
  have brought : (outcomes.flatMap (·.found)).Perm
      ((all.filter fun need => knownOf s.cache s.now patterns need = .unknown).filter
        (brings s.registry.members patterns)) := by
    rw [each]
    refine (h.probed.flatMap_right _).trans ?_
    rw [← List.filter_flatMap]
    exact asks.asked.filter _
  have parts := List.filter_append_perm
    (fun need => decide (knownOf s.cache s.now patterns need = .confirmed))
    (all.filter (isMet s patterns))
  refine (brought.append_left _).trans (.trans (.of_eq ?_) parts)
  rw [List.filter_filter, List.filter_filter, List.filter_filter]
  congr 1
  · refine List.filter_congr fun need _ => ?_
    cases hk : knownOf s.cache s.now patterns need <;> simp [isMet, hk]
  · refine List.filter_congr fun need _ => ?_
    cases hk : knownOf s.cache s.now patterns need <;> simp [isMet, hk]

theorem isMet_source (hd : s.registry.ids.Nodup) {m : Member} (hm : m ∈ s.registry.members)
    {number : Nat} {p : TriplePattern} (hp : patterns[number]? = some p) :
    isMet s patterns (number, m.source) = s.yields p m := by
  rw [isMet, State.yields, knownOf_eq hp, brings_source (Registry.nodup_members hd) hm hp]
  rfl

/-- **The sources of a pattern are the members of which it is known, or else found out.** -/
theorem Selected.sourcesOf_perm (h : Selected config patterns s outcomes r)
    (hd : s.registry.ids.Nodup) {number : Nat} {p : TriplePattern}
    (hp : patterns[number]? = some p) :
    (sourcesOf (foundBy patterns s outcomes) number).Perm
      ((s.registry.members.filter (s.yields p)).map (·.source)) := by
  have hn := (List.getElem?_eq_some_iff.1 hp).1
  refine (Selection.sourcesOf_perm (h.found_perm hd) hn).trans (.of_eq ?_)
  rw [List.filter_map]
  exact congrArg _ (List.filter_congr fun m hm => isMet_source hd hm hp)

/-- If no probe fails, there is an answer. -/
theorem Selected.fst_eq_ok (h : Selected config patterns s outcomes r) (hd : s.registry.ids.Nodup)
    (answers : ∀ m ∈ s.registry.members, m.failProbes = false) :
    r.1 = .ok ((List.range patterns.length).map (sourcesOf (foundBy patterns s outcomes))) := by
  cases hanswer : r.1 with
  | error e =>
    -- without a failure no pattern is unresolved
    obtain ⟨-, unresolved⟩ := (h.answer_eq_error_iff e).1 hanswer
    obtain ⟨o, ho, hfails⟩ := exists_of_unresolved? unresolved
    obtain ⟨-, m, hm, -, hresult⟩ := h.answered hd ho
    rw [hfails, reply, answers m hm] at hresult
    cases hresult
  | ok lists => rw [h.answer_eq_ok hanswer]

end Selected

/-! ### Selecting without knowledge -/

/-- The sources that hold a match of a pattern. -/
def matchingSources (ms : List Member) (p : TriplePattern) : List Source :=
  (ms.filter fun m => Store.hasMatch m.triples p ∅).map (·.source)

/-- What members hold does not depend on their counts and logs. -/
theorem matchingSources_perm {r : Registry} (h : r.Holds ms) (p : TriplePattern) :
    (matchingSources r.members p).Perm (matchingSources ms p) := by
  have cores : ∀ l : List Member, matchingSources l p = matchingSources (l.map (·.core)) p := by
    intro l
    rw [matchingSources, matchingSources, List.filter_map, List.map_map]
    rfl
  rw [cores, cores ms]
  exact (h.members_perm.filter _).map _

/-- **The sources of each pattern are the members that hold a match**, while nothing is known and no
probe fails, whatever number of probes may run at a time. -/
theorem select_truthful (config : SourceSelectionConfig) {query : QueryContext} {s : State}
    (hq : query.aborted = false) (ht : query.deadline = none) (h : s.registry.Holds ms)
    (hr : ∀ m ∈ ms, m.Reliable) (hc : s.cache.observations = []) :
    ∃ selected s', select config query patterns s = (.ok selected, s') ∧ s'.registry.Holds ms ∧
      List.Forall₂ (fun p found => found.Perm (matchingSources ms p)) patterns selected := by
  have hd : s.registry.ids.Nodup := h.ids.nodup_iff.2 h.distinct
  have answers : ∀ m ∈ s.registry.members, m.failProbes = false := by
    intro m hm
    have known := Registry.mem_known_of_known?
      (Registry.get?_eq_some_iff.1 (Registry.get?_of_mem_members hm)).2
    obtain ⟨m', hm', hcore⟩ := h.exists_of_mem_known known
    exact ((hr m' hm').of_core hcore).answersProbes
  obtain ⟨outcomes, selected⟩ : ∃ outcomes, Selected config patterns s outcomes
      (select config query patterns s) := selected_select config hq (.inl ht)
  refine ⟨_, _, Prod.ext (selected.fst_eq_ok hd answers) rfl, ?_, ?_⟩
  · rw [selected.registry]
    exact holds_sent h _
  · refine forall₂_sourcesOf fun number p hp => ?_
    refine (selected.sourcesOf_perm hd hp).trans (.trans (.of_eq ?_) (matchingSources_perm h p))
    refine congrArg _ (List.filter_congr fun m hm => ?_)
    have unknown : s.cache.membership s.now (.ofPattern p) m.id = .unknown := by
      rw [← MembershipCache.fst_lookup, MembershipCache.lookup_cold hc]
    rw [State.yields, unknown, answers m hm]
    rfl

/-! ### Truthful sources -/

section Truthful

variable {r : Registry} {found : List Source} {p : TriplePattern}

theorem solutions_of_hasMatch_eq_false {triples : List Triple}
    (h : Store.hasMatch triples p ∅ = false) : p.solutions triples = 0 := by
  have unmatched : triples.filterMap p.match? = [] := by
    refine List.filterMap_eq_nil_iff.2 fun t ht => ?_
    have absent : ¬ ((p.bind ∅).match? t).isSome = true := List.any_eq_false.1 h t ht
    rw [TriplePattern.bind_empty] at absent
    simpa using absent
  rw [TriplePattern.solutions]
  exact congrArg _ unmatched

/-- Members without a match may be left out. -/
theorem solutions_flatMap_filter (ms : List Member) (p : TriplePattern) :
    p.solutions ((ms.filter fun m => Store.hasMatch m.triples p ∅).flatMap (·.triples)) =
      p.solutions (ms.flatMap (·.triples)) := by
  induction ms with
  | nil => rfl
  | cons m rest ih =>
    rw [List.flatMap_cons, TriplePattern.solutions_append, ← ih]
    cases hm : Store.hasMatch m.triples p ∅ with
    | true =>
      rw [List.filter_cons, if_pos hm, List.flatMap_cons, TriplePattern.solutions_append]
    | false =>
      rw [List.filter_cons, if_neg (by simp [hm]), solutions_of_hasMatch_eq_false hm, zero_add]

theorem triplesOf_perm (h : r.Holds ms) (hf : found.Perm (matchingSources ms p)) :
    (r.triplesOf found).Perm
      ((ms.filter fun m => Store.hasMatch m.triples p ∅).flatMap (·.triples)) := by
  have chosen : ∀ m ∈ ms.filter fun m => Store.hasMatch m.triples p ∅, m ∈ ms :=
    fun m hm => (List.mem_filter.1 hm).1
  rw [← h.triplesOf_map_source chosen]
  exact (hf.filterMap _).flatMap_right _

/-- Truthful sources are registered, each once. -/
theorem registers_of_truthful (h : r.Holds ms) (hf : found.Perm (matchingSources ms p)) :
    r.Registers found := by
  obtain ⟨registered, once⟩ := h.registers_map_source
    (ms.filter_sublist (p := fun m => Store.hasMatch m.triples p ∅))
  exact ⟨fun source hs => registered source (hf.subset hs), (hf.map _).nodup_iff.2 once⟩

/-- **With truthful sources a pattern has its solutions over the triples of all members.** -/
theorem solutions_of_truthful (h : r.Holds ms) (hf : found.Perm (matchingSources ms p)) :
    p.solutions (r.triplesOf found) = p.solutions (ms.flatMap (·.triples)) := by
  rw [← solutions_flatMap_filter, TriplePattern.solutions, TriplePattern.solutions]
  exact Quot.sound ((triplesOf_perm h hf).filterMap _)

theorem length_triplesOf_le (h : r.Holds ms) (hf : found.Perm (matchingSources ms p)) :
    (r.triplesOf found).length ≤ (ms.flatMap (·.triples)).length := by
  rw [(triplesOf_perm h hf).length_eq]
  exact (ms.filter_sublist.flatMap _).length_le

end Truthful

end FederatedSparql.Selection
