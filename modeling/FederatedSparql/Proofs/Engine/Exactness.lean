import FederatedSparql.Proofs.Engine.Probing
import FederatedSparql.Proofs.Engine.Recording

/-!
Source selection is exact, and nothing is asked twice.

Whatever is known beforehand, if it is true, the sources of a pattern are the members that hold a
match, save for those that had to be asked and failed (`State.Offers`).  Each kind of pattern is
asked about at each endpoint of which nothing is known, once.

* `select_exact`: what a selection asks, finds, and fails for; that it leaves nothing to be asked
  when it is made again; and that it records nothing if it comes to no end.
-/

namespace FederatedSparql.Selection

variable {patterns : List TriplePattern} {config : SourceSelectionConfig} {s : State}

/-! ### What a selection is to do -/

namespace State

/-- Nothing is known about a pattern at a member. -/
def Unknown (s : State) (p : TriplePattern) (m : Member) : Prop :=
  (s.cache.lookup s.now (.ofPattern p) m.id).1 = .unknown

/-- What is known about members is true of their triples. -/
def Truthful (s : State) : Prop :=
  ∀ m ∈ s.registry.members, ∀ p,
    (s.cache.lookup s.now (.ofPattern p) m.id).1.Holds (∃ t ∈ m.triples, (p.match? t).isSome = true)

/-- A member holds a match of a pattern, and that is known or its probe does not fail. -/
def Offers (s : State) (p : TriplePattern) (m : Member) : Prop :=
  (∃ t ∈ m.triples, (p.match? t).isSome = true) ∧ (s.Unknown p m → m.failProbes = false)

end State

/-- The probes that a selection makes. -/
def probesFor (patterns : List TriplePattern) (s : State) : List Probe :=
  (Inquiry.ofPatterns patterns s).1.probes

/-- A member after probes have been sent, some of them to it. -/
def counted (probes : List Probe) (m : Member) : Member :=
  { m with probes := m.probes + probes.countP fun p => p.source.endpoint = m.id }

/-- The members that offer matches of a pattern, by ascending ids and none twice. -/
structure Offering (s : State) (p : TriplePattern) (found : List Source) : Prop where
  ascending : found.Pairwise fun a b => a.endpoint < b.endpoint
  mem_iff : ∀ source,
    source ∈ found ↔ ∃ m ∈ s.registry.members, m.source = source ∧ s.Offers p m

/-- What a selection asks, finds, and fails for. -/
structure Exact (config : SourceSelectionConfig) (patterns : List TriplePattern) (s : State)
    (r : Except FedError (List (List Source)) × State) : Prop where
  /-- No two probes are about the same kind of pattern at the same endpoint. -/
  once : ((probesFor patterns s).map Probe.subject).Nodup
  /-- Probes are about what is unknown, and nothing else. -/
  minimal : ∀ k e, (k, e) ∈ (probesFor patterns s).map Probe.subject ↔
    ∃ p ∈ patterns, ∃ m ∈ s.registry.members, PatternKey.ofPattern p = k ∧ m.id = e ∧ s.Unknown p m
  /-- A probe about a kind of pattern asks for a pattern of this kind. -/
  kinds : ∀ probe ∈ probesFor patterns s, probe.key = .ofPattern probe.pattern
  /-- These probes are sent, each once, and nothing else happens to the members. -/
  sent : r.2.registry = sent s.registry (probesFor patterns s)
  /-- Each member is asked as often as there are probes about it. -/
  asked : r.2.registry.members = s.registry.members.map (counted (probesFor patterns s))
  /-- Each pattern gets the members that offer matches. -/
  found : ∀ lists, r.1 = .ok lists → List.Forall₂ (Offering s) patterns lists
  /-- Failures matter where a pattern is left without a source because of them. -/
  fails : (∃ e, r.1 = .error e) ↔ config.failOnUnresolvedSources = true ∧ ∃ p ∈ patterns,
    (∀ m ∈ s.registry.members, ¬ s.Offers p m) ∧
      ∃ m ∈ s.registry.members, s.Unknown p m ∧ m.failProbes = true
  /-- Where observations do not grow old and no probe failed, nothing is left to be asked. -/
  settled : s.cache.ttl = none →
    (∀ p ∈ patterns, ∀ m ∈ s.registry.members, s.Unknown p m → m.failProbes = false) →
      probesFor patterns r.2 = [] ∧ ∃ lists, r.1 = .ok lists ∧
        ∀ (config' : SourceSelectionConfig) (query : QueryContext), query.aborted = false →
          (select config' query patterns r.2).1 = .ok lists ∧
            (select config' query patterns r.2).2.registry = r.2.registry

/-! ### What is asked -/

theorem unknown_iff {p : TriplePattern} {m : Member} :
    s.Unknown p m ↔ s.cache.membership s.now (.ofPattern p) m.id = .unknown := by
  rw [State.Unknown, MembershipCache.fst_lookup]

theorem asks_probesFor (patterns : List TriplePattern) (hd : s.registry.ids.Nodup) :
    Inquiry.Asks s.cache s.now patterns (s.registry.members.map (·.source))
      (needs patterns (s.registry.members.map (·.source))) (Inquiry.ofPatterns patterns s) :=
  Inquiry.asks_ofPatterns patterns (nodup_sources hd)

theorem mem_subjects_probesFor (hd : s.registry.ids.Nodup) {k : PatternKey} {e : String} :
    (k, e) ∈ (probesFor patterns s).map Probe.subject ↔ ∃ p ∈ patterns, ∃ m ∈ s.registry.members,
      PatternKey.ofPattern p = k ∧ m.id = e ∧ s.Unknown p m := by
  rw [probesFor, (asks_probesFor patterns hd).mem_subjects]
  constructor
  · rintro ⟨⟨number, source⟩, hneed, p, hunknown, hp, hkind, hsource⟩
    obtain ⟨m, hm, rfl⟩ := List.mem_map.1 (mem_needs.1 hneed).2
    rw [knownOf_eq hp] at hunknown
    exact ⟨p, List.mem_of_getElem? hp, m, hm, hkind, hsource, unknown_iff.2 hunknown⟩
  · rintro ⟨p, hp, m, hm, hkind, hsource, hunknown⟩
    obtain ⟨number, hn, rfl⟩ := List.getElem_of_mem hp
    refine ⟨(number, m.source), mem_needs.2 ⟨hn, List.mem_map_of_mem hm⟩, patterns[number], ?_,
      List.getElem?_eq_getElem hn, hkind, hsource⟩
    rw [knownOf_eq (List.getElem?_eq_getElem hn)]
    exact unknown_iff.1 hunknown

/-! ### What is found -/

section Selected

variable {outcomes : List Outcome} {r : Except FedError (List (List Source)) × State} {number : Nat}
  {p : TriplePattern}

/-- The sources of a pattern stand by ascending ids, none twice. -/
theorem Selected.ascending (h : Selected config patterns s outcomes r) (hd : s.registry.ids.Nodup)
    (hp : patterns[number]? = some p) :
    (sourcesOf (foundBy patterns s outcomes) number).Pairwise
      fun a b => a.endpoint < b.endpoint := by
  have sorted : (sourcesOf (foundBy patterns s outcomes) number).Pairwise
      fun a b => decide (a.endpoint ≤ b.endpoint) = true := by
    apply List.pairwise_mergeSort
    · intro a b c hab hbc
      exact decide_eq_true (String.le_trans (of_decide_eq_true hab) (of_decide_eq_true hbc))
    · intro a b
      simpa using String.le_total a.endpoint b.endpoint
  have distinct : ((sourcesOf (foundBy patterns s outcomes) number).map (·.endpoint)).Nodup := by
    rw [((h.sourcesOf_perm hd hp).map (·.endpoint)).nodup_iff]
    exact ((List.filter_sublist.map _).map _).nodup (nodup_sources hd)
  have different := List.pairwise_map.1 distinct
  refine (sorted.and different).imp ?_
  rintro a b ⟨hle, hne⟩
  by_contra hlt
  exact hne (String.le_antisymm (of_decide_eq_true hle) (String.not_lt.1 hlt))

/-- If what is known is true, the members that offer matches become sources. -/
theorem yields_iff_offers (ht : s.Truthful) {m : Member} (hm : m ∈ s.registry.members) :
    s.yields p m = true ↔ s.Offers p m := by
  have told := ht m hm p
  rw [MembershipCache.fst_lookup] at told
  rw [State.Offers, unknown_iff, State.yields]
  cases hk : s.cache.membership s.now (.ofPattern p) m.id with
  | confirmed =>
    rw [hk] at told
    exact iff_of_true rfl ⟨told, by simp⟩
  | absent =>
    rw [hk] at told
    exact iff_of_false Bool.false_ne_true fun offers => told offers.1
  | unknown =>
    rw [Bool.and_eq_true, PatternKey.hasMatch_iff_occurs, PatternKey.occurs_ofPattern_iff, and_comm]
    simp

theorem Selected.offering (h : Selected config patterns s outcomes r) (hd : s.registry.ids.Nodup)
    (ht : s.Truthful) (hp : patterns[number]? = some p) :
    Offering s p (sourcesOf (foundBy patterns s outcomes) number) where
  ascending := h.ascending hd hp
  mem_iff source := by
    rw [(h.sourcesOf_perm hd hp).mem_iff, List.mem_map]
    constructor
    · rintro ⟨m, hm, rfl⟩
      obtain ⟨hmem, hyields⟩ := List.mem_filter.1 hm
      exact ⟨m, hmem, rfl, (yields_iff_offers ht hmem).1 hyields⟩
    · rintro ⟨m, hmem, rfl, hoffers⟩
      exact ⟨m, List.mem_filter.2 ⟨hmem, (yields_iff_offers ht hmem).2 hoffers⟩, rfl⟩

/-! ### What is failed for -/

theorem isSome_failureOf?_iff : (failureOf? outcomes number).isSome = true ↔
    ∃ o ∈ outcomes, number ∈ o.probe.wantedBy ∧ ∃ e, o.result = .error e := by
  rw [failureOf?, List.findSome?_isSome_iff]
  refine exists_congr fun o => and_congr_right fun _ => ?_
  cases o.result with
  | ok found => simp
  | error e => simp

/-- A probe for a pattern failed if a member of which nothing was known fails. -/
theorem Selected.isSome_failureOf?_iff (h : Selected config patterns s outcomes r)
    (hd : s.registry.ids.Nodup) (hp : patterns[number]? = some p) :
    (failureOf? outcomes number).isSome = true ↔
      ∃ m ∈ s.registry.members, s.Unknown p m ∧ m.failProbes = true := by
  have asks := asks_probesFor patterns hd
  rw [Selection.isSome_failureOf?_iff]
  constructor
  · rintro ⟨o, ho, hwanted, e, he⟩
    obtain ⟨-, m, hm, hsource, hresult⟩ := h.answered hd ho
    have asked : (number, m.source) ∈ (probesFor patterns s).flatMap Probe.asked := by
      refine List.mem_flatMap.2 ⟨o.probe, h.probed.mem_iff.1 (List.mem_map_of_mem ho), ?_⟩
      exact List.mem_map.2 ⟨number, hwanted, by rw [hsource]⟩
    have hunknown := of_decide_eq_true (List.mem_filter.1 (asks.asked.mem_iff.1 asked)).2
    rw [knownOf_eq hp] at hunknown
    refine ⟨m, hm, unknown_iff.2 hunknown, ?_⟩
    by_contra hanswers
    rw [he, reply, if_neg hanswers] at hresult
    cases hresult
  · rintro ⟨m, hm, hunknown, hfails⟩
    have hn := (List.getElem?_eq_some_iff.1 hp).1
    have wanted : (number, m.source) ∈ (probesFor patterns s).flatMap Probe.asked := by
      refine asks.asked.mem_iff.2 (List.mem_filter.2 ⟨mem_needs.2 ⟨hn, ?_⟩, decide_eq_true ?_⟩)
      · exact List.mem_map_of_mem hm
      · rw [knownOf_eq hp]
        exact unknown_iff.1 hunknown
    obtain ⟨probe, hprobe, hasked⟩ := List.mem_flatMap.1 wanted
    obtain ⟨n, hwanted, heq⟩ := List.mem_map.1 hasked
    obtain ⟨rfl, hsource⟩ := Prod.mk.inj heq
    obtain ⟨o, ho, rfl⟩ := List.mem_map.1 (h.probed.mem_iff.2 hprobe)
    refine ⟨o, ho, hwanted, .endpoint (m.failure (.has o.probe.pattern ∅)), ?_⟩
    rw [h.brought o ho, resultOf_eq hm hsource, reply, if_pos hfails]

theorem Selected.fails_iff (h : Selected config patterns s outcomes r) (hd : s.registry.ids.Nodup)
    (ht : s.Truthful) :
    (∃ e, r.1 = .error e) ↔ config.failOnUnresolvedSources = true ∧ ∃ p ∈ patterns,
      (∀ m ∈ s.registry.members, ¬ s.Offers p m) ∧
        ∃ m ∈ s.registry.members, s.Unknown p m ∧ m.failProbes = true := by
  have sourceless : ∀ number p, patterns[number]? = some p →
      ((sourcesOf (foundBy patterns s outcomes) number).isEmpty = true ↔
        ∀ m ∈ s.registry.members, ¬ s.Offers p m) := by
    intro number p hp
    rw [List.isEmpty_iff, List.eq_nil_iff_forall_not_mem]
    simp only [(h.offering hd ht hp).mem_iff, not_exists, not_and]
    exact ⟨fun none m hm => none m.source m hm rfl, fun none _ m hm _ => none m hm⟩
  simp only [h.answer_eq_error_iff, exists_and_left]
  refine and_congr_right fun _ => ?_
  rw [← Option.isSome_iff_exists, unresolved?, List.findSome?_isSome_iff]
  constructor
  · rintro ⟨number, hn, hsome⟩
    have hp := List.getElem?_eq_getElem (List.mem_range.1 hn)
    split at hsome
    · next empty =>
      exact ⟨_, List.getElem_mem _, (sourceless number _ hp).1 empty,
        (h.isSome_failureOf?_iff hd hp).1 hsome⟩
    · cases hsome
  · rintro ⟨p, hp, hsourceless, hfails⟩
    obtain ⟨number, hn, rfl⟩ := List.getElem_of_mem hp
    have hp := List.getElem?_eq_getElem hn
    refine ⟨number, List.mem_range.2 hn, ?_⟩
    rw [if_pos ((sourceless number _ hp).2 hsourceless)]
    exact (h.isSome_failureOf?_iff hd hp).2 hfails

/-! ### What is left to be asked -/

theorem members_update (r : Registry) (id : String) {f : Member → Member}
    (hf : ∀ m, (f m).id = m.id) :
    (r.update id f).members = r.members.map fun m => if m.id == id then f m else m := by
  rw [Registry.members, Registry.members, List.map_filterMap]
  congr 1
  funext other
  exact known?_update r id hf other

/-- Sending probes only counts them. -/
theorem members_sent (r : Registry) (probes : List Probe) :
    (sent r probes).members = r.members.map (counted probes) := by
  induction probes generalizing r with
  | nil => exact (List.map_id' _).symm
  | cons p rest ih =>
    have kept : ∀ m : Member, (m.receive p.request).id = m.id := fun _ => rfl
    have first := ih (r.update p.source.endpoint (·.receive p.request))
    rw [members_update r _ kept, List.map_map] at first
    refine first.trans (List.map_congr_left fun m _ => ?_)
    by_cases hp : p.source.endpoint = m.id
    · simp [counted, hp, Member.receive, Probe.request, Nat.add_assoc, Nat.add_comm 1]
    · have other : ¬ m.id = p.source.endpoint := fun h => hp h.symm
      simp [counted, hp, other]

theorem ids_sent (r : Registry) (probes : List Probe) : (sent r probes).ids = r.ids :=
  List.foldlRecOn probes (motive := fun r' => Registry.ids r' = r.ids) _ rfl fun _ hr _ _ => hr

theorem truthful_iff :
    s.Truthful ↔ ∀ m ∈ s.registry.members, s.cache.Tells s.now m.id m.triples := by
  refine forall₂_congr fun m hm => forall_congr' fun p => ?_
  rw [MembershipCache.fst_lookup]
  exact ⟨fun h => h.congr PatternKey.occurs_ofPattern_iff.symm,
    fun h => h.congr PatternKey.occurs_ofPattern_iff⟩

/-- What is brought by a probe at the endpoint of a member is brought by the member. -/
theorem Selected.result_eq (h : Selected config patterns s outcomes r) (hd : s.registry.ids.Nodup)
    {m : Member} (hm : m ∈ s.registry.members) {o : Outcome} (ho : o ∈ outcomes)
    (he : o.probe.source.endpoint = m.id) : o.result = reply m o.probe.pattern := by
  obtain ⟨-, m', hm', hsource, hresult⟩ := h.answered hd ho
  have sameId : m'.id = m.id := (congrArg (·.endpoint) hsource).symm.trans he
  obtain rfl := List.inj_on_of_nodup_map (Registry.nodup_members hd) hm' hm sameId
  exact hresult

/-- What a probe brings is true of the member that is asked. -/
theorem Selected.trueOf (h : Selected config patterns s outcomes r) (hd : s.registry.ids.Nodup)
    {m : Member} (hm : m ∈ s.registry.members) : ∀ o ∈ outcomes, o.TrueOf m.id m.triples := by
  intro o ho he found hfound
  rw [h.result_eq hd hm ho he, reply] at hfound
  split at hfound
  · cases hfound
  · cases hfound
    rw [(h.answered hd ho).1.key, PatternKey.hasMatch_iff_occurs]

/-- Where observations do not grow old, all that is told stays true, what is known stays known, and
what has been brought is known. -/
theorem Selected.keeps (h : Selected config patterns s outcomes r) (hd : s.registry.ids.Nodup)
    (ht : s.Truthful) (httl : s.cache.ttl = none) {m : Member} (hm : m ∈ s.registry.members) :
    r.2.cache.Tells r.2.now m.id m.triples ∧
      ∀ p, (s.cache.membership s.now (.ofPattern p) m.id ≠ .unknown ∨ ∃ o ∈ outcomes,
          o.probe.subject = (.ofPattern p, m.id) ∧ ∃ found, o.result = .ok found) →
        r.2.cache.membership r.2.now (.ofPattern p) m.id ≠ .unknown := by
  have inquires := inquires_ofPatterns patterns s
  have lasting : (Inquiry.ofPatterns patterns s).2.ttl = none := inquires.ttl.trans httl
  have same : ∀ k, (Inquiry.ofPatterns patterns s).2.membership r.2.now k m.id =
      s.cache.membership s.now k m.id := by
    intro k
    rw [inquires.membership, MembershipCache.membership_of_ttl_eq_none httl r.2.now s.now]
  have told : (Inquiry.ofPatterns patterns s).2.Tells r.2.now m.id m.triples := by
    intro p
    rw [same]
    exact truthful_iff.1 ht m hm p
  obtain ⟨tells, known⟩ := tells_foldl_record r.2.now told lasting (h.trueOf hd hm)
  rw [← h.cache] at tells known
  refine ⟨tells, fun p hp => known p ?_⟩
  rwa [same]

/-- **Where observations do not grow old and no probe fails, all that was asked is known.** -/
theorem Selected.settles (h : Selected config patterns s outcomes r) (hd : s.registry.ids.Nodup)
    (ht : s.Truthful) (httl : s.cache.ttl = none)
    (answers : ∀ p ∈ patterns, ∀ m ∈ s.registry.members, s.Unknown p m → m.failProbes = false) :
    r.2.Truthful ∧ ∀ p ∈ patterns, ∀ m ∈ r.2.registry.members, ¬ r.2.Unknown p m := by
  rw [truthful_iff, h.registry, members_sent]
  constructor
  · intro m' hm'
    obtain ⟨m, hm, rfl⟩ := List.mem_map.1 hm'
    exact (h.keeps hd ht httl hm).1
  · intro p hp m' hm' hunknown'
    obtain ⟨m, hm, rfl⟩ := List.mem_map.1 hm'
    refine (h.keeps hd ht httl hm).2 p ?_ (unknown_iff.1 hunknown')
    by_cases hunknown : s.Unknown p m
    · have hsubject : (PatternKey.ofPattern p, m.id) ∈ (probesFor patterns s).map Probe.subject :=
        (mem_subjects_probesFor hd).2 ⟨p, hp, m, hm, rfl, rfl, hunknown⟩
      obtain ⟨probe, hprobe, hsubject⟩ := List.mem_map.1 hsubject
      obtain ⟨o, ho, rfl⟩ := List.mem_map.1 (h.probed.mem_iff.2 hprobe)
      have hresult := h.result_eq hd hm ho (Prod.mk.inj hsubject).2
      rw [reply, answers p hp m hm hunknown] at hresult
      exact .inr ⟨o, ho, hsubject, _, hresult⟩
    · exact .inl fun hu => hunknown (unknown_iff.2 hu)

/-- If nothing is unknown, nothing is asked. -/
theorem probesFor_eq_nil (hd : s.registry.ids.Nodup)
    (hknown : ∀ p ∈ patterns, ∀ m ∈ s.registry.members, ¬ s.Unknown p m) :
    probesFor patterns s = [] := by
  rw [← List.map_eq_nil_iff (f := Probe.subject), List.eq_nil_iff_forall_not_mem]
  rintro ⟨k, e⟩ hmem
  obtain ⟨p, hp, m, hm, -, -, hunknown⟩ := (mem_subjects_probesFor hd).1 hmem
  exact hknown p hp m hm hunknown

/-- A selection that is made again finds the same. -/
theorem Selected.sourcesOf_eq (h : Selected config patterns s outcomes r)
    (hd : s.registry.ids.Nodup) (ht : s.Truthful) (httl : s.cache.ttl = none)
    (answers : ∀ p ∈ patterns, ∀ m ∈ s.registry.members, s.Unknown p m → m.failProbes = false)
    {config' : SourceSelectionConfig} {outcomes' : List Outcome}
    {r' : Except FedError (List (List Source)) × State}
    (h' : Selected config' patterns r.2 outcomes' r') (hp : patterns[number]? = some p) :
    sourcesOf (foundBy patterns r.2 outcomes') number =
      sourcesOf (foundBy patterns s outcomes) number := by
  obtain ⟨ht', hknown⟩ := h.settles hd ht httl answers
  have hd' : r.2.registry.ids.Nodup := by rwa [h.registry, ids_sent]
  have hmem := List.mem_of_getElem? hp
  have members : r.2.registry.members = s.registry.members.map (counted (probesFor patterns s)) :=
    (congrArg (·.members) h.registry).trans (members_sent _ _)
  have same : (r.2.registry.members.filter (r.2.yields p)).map (·.source) =
      (s.registry.members.filter (s.yields p)).map (·.source) := by
    rw [members, List.filter_map, List.map_map]
    refine congrArg _ (List.filter_congr fun m hm => ?_)
    have hm' : counted (probesFor patterns s) m ∈ r.2.registry.members := by
      rw [members]
      exact List.mem_map_of_mem hm
    rw [Bool.eq_iff_iff, Function.comp_apply, yields_iff_offers ht' hm', yields_iff_offers ht hm]
    constructor
    · exact fun offers => ⟨offers.1, answers p hmem m hm⟩
    · exact fun offers => ⟨offers.1, fun hunknown => absurd hunknown (hknown p hmem _ hm')⟩
  refine List.Perm.eq_of_pairwise ?_ (h'.ascending hd' hp) (h.ascending hd hp) ?_
  · intro a b _ _ hab hba
    exact absurd hba (String.lt_asymm hab)
  · refine (h'.sourcesOf_perm hd' hp).trans ?_
    rw [same]
    exact (h.sourcesOf_perm hd hp).symm

/-- **A selection that is made again gives the same lists**, if all that it asked is known. -/
theorem Selected.again (h : Selected config patterns s outcomes r) (hd : s.registry.ids.Nodup)
    (ht : s.Truthful) (httl : s.cache.ttl = none)
    (answers : ∀ p ∈ patterns, ∀ m ∈ s.registry.members, s.Unknown p m → m.failProbes = false)
    {lists : List (List Source)} (hok : r.1 = .ok lists) (config' : SourceSelectionConfig)
    {query : QueryContext} (hq : query.aborted = false) :
    (select config' query patterns r.2).1 = .ok lists ∧
      (select config' query patterns r.2).2.registry = r.2.registry := by
  obtain ⟨ht', hknown⟩ := h.settles hd ht httl answers
  have hd' : r.2.registry.ids.Nodup := by rwa [h.registry, ids_sent]
  have nothing := probesFor_eq_nil hd' hknown
  obtain ⟨outcomes', again⟩ : ∃ outcomes', Selected config' patterns r.2 outcomes'
      (select config' query patterns r.2) := selected_select config' hq (.inr nothing)
  have none_back : outcomes' = [] := by
    have perm := again.probed
    rw [show (Inquiry.ofPatterns patterns r.2).1.probes = [] from nothing] at perm
    exact List.map_eq_nil_iff.1 perm.eq_nil
  have asked : (select config' query patterns r.2).2.registry = r.2.registry := by
    rw [again.registry, show (Inquiry.ofPatterns patterns r.2).1.probes = [] from nothing]
    rfl
  refine ⟨?_, asked⟩
  cases hanswer : (select config' query patterns r.2).1 with
  | error e =>
    -- a failure needs a probe that failed
    obtain ⟨-, unresolved⟩ := (again.answer_eq_error_iff e).1 hanswer
    obtain ⟨o, ho, -⟩ := exists_of_unresolved? unresolved
    rw [none_back] at ho
    exact absurd ho List.not_mem_nil
  | ok lists' =>
    rw [again.answer_eq_ok hanswer, h.answer_eq_ok hok]
    refine congrArg _ (List.map_congr_left fun number hn => ?_)
    have hp := List.getElem?_eq_getElem (List.mem_range.1 hn)
    exact h.sourcesOf_eq hd ht httl answers again hp

end Selected

/-! ### Selections that come to no end -/

/-- Only endpoints fail. -/
theorem endpoint_of_resultOf {p : Probe} {e : FedError} (h : resultOf s p = .error e) :
    ∃ cause, e = .endpoint cause := by
  unfold resultOf at h
  cases hm : s.registry.known? p.source.endpoint with
  | none =>
    rw [hm] at h
    cases h
    exact ⟨_, rfl⟩
  | some m =>
    have answered : m.answer p.request =
        if m.failProbes then .error (.endpoint (m.failure p.request))
        else .ok (.found (Store.hasMatch m.triples p.pattern ∅)) := rfl
    rw [hm] at h
    dsimp only at h
    rw [answered] at h
    split at h
    · cases h
      exact ⟨_, rfl⟩
    · cases h

/-- While probes are made nothing is recorded, and failures are those of endpoints. -/
theorem runProbes_unrecorded (room : Nat) (deadline : Option Nat) (rounds : Nat) (f : Flight)
    (outcomes : List Outcome) (s : State)
    (ho : ∀ o ∈ outcomes, ∀ e, o.result = .error e → ∃ cause, e = .endpoint cause) :
    (runProbes room deadline rounds f outcomes s).2.cache = s.cache ∧
      ∀ back, (runProbes room deadline rounds f outcomes s).1 = some back →
        ∀ o ∈ back, ∀ e, o.result = .error e → ∃ cause, e = .endpoint cause := by
  induction rounds generalizing f outcomes s with
  | zero =>
    refine ⟨rfl, fun back hback => ?_⟩
    obtain rfl := Option.some.inj hback
    exact ho
  | succ rounds ih =>
    obtain ⟨now, sends, -⟩ := launch_spec (room - f.underway.length) f s
    rw [runProbes]
    generalize launch (room - f.underway.length) f s = launched at sends
    obtain ⟨⟨waiting, underway⟩, s'⟩ := launched
    cases underway with
    | nil =>
      refine ⟨sends.cache, fun back hback => ?_⟩
      obtain rfl := Option.some.inj hback
      exact ho
    | cons first underway =>
      obtain ⟨due, p⟩ := first
      dsimp only
      split
      · exact ⟨sends.cache, fun _ hback => absurd hback.symm (Option.some_ne_none _)⟩
      · have ho' : ∀ o ∈ outcomes ++ [⟨p, resultOf { s' with now := max due s'.now } p⟩],
            ∀ e, o.result = .error e → ∃ cause, e = .endpoint cause := by
          intro o hmem e he
          rcases List.mem_append.1 hmem with hmem | hmem
          · exact ho o hmem e he
          · rw [List.mem_singleton.1 hmem] at he
            exact endpoint_of_resultOf he
        obtain ⟨cache, back⟩ := ih { waiting, underway } _ { s' with now := max due s'.now } ho'
        exact ⟨cache.trans sends.cache, back⟩

theorem unrecorded_of_runProbes {room : Nat} {deadline : Option Nat} {rounds : Nat} {f : Flight}
    {back : Option (List Outcome)} {s' : State}
    (h : runProbes room deadline rounds f [] s = (back, s')) : s'.cache = s.cache ∧
      ∀ outcomes, back = some outcomes →
        ∀ o ∈ outcomes, ∀ e, o.result = .error e → ∃ cause, e = .endpoint cause := by
  have spec := runProbes_unrecorded room deadline rounds f [] s
    fun o ho => absurd ho List.not_mem_nil
  rwa [h] at spec

/-- A selection that is out of time or aborted. -/
def ComesToNoEnd (e : FedError) : Prop :=
  (∃ cause, e = .timeout cause) ∨ ∃ query, e = .aborted query

theorem not_comesToNoEnd_endpoint (cause : EndpointError) : ¬ ComesToNoEnd (.endpoint cause) := by
  rintro (⟨_, h⟩ | ⟨_, h⟩) <;> cases h

/-- A selection that comes to no end has recorded nothing. -/
theorem observations_select {query : QueryContext} {e : FedError} {s' : State}
    (h : select config query patterns s = (.error e, s')) (hno : ComesToNoEnd e) :
    s'.cache.observations = s.cache.observations := by
  have inquires := inquires_ofPatterns patterns s
  unfold select at h
  split at h
  · cases h
    rfl
  · dsimp only at h
    split at h
    · next s'' hrun =>
      cases h
      obtain ⟨cache, -⟩ := unrecorded_of_runProbes hrun
      rw [cache]
      exact inquires.observations
    · next outcomes s'' hrun =>
      obtain ⟨-, failures⟩ := unrecorded_of_runProbes hrun
      split at h
      · next unresolved =>
        cases h
        obtain ⟨o, ho, hresult⟩ := exists_of_unresolved? unresolved
        obtain ⟨cause, rfl⟩ := failures outcomes rfl o ho e hresult
        exact absurd hno (not_comesToNoEnd_endpoint cause)
      · cases h

/-! ### The whole -/

/-- **Source selection is exact, and asks for nothing twice**, if what is known is true and there is
no deadline; that ids are different is what registering sees to (`Registry.nodup_ids_register`).  A
selection that comes to no end has recorded nothing. -/
theorem select_exact (config : SourceSelectionConfig) (patterns : List TriplePattern) (s : State) :
    (s.registry.ids.Nodup → s.Truthful → ∀ query : QueryContext, query.aborted = false →
      query.deadline = none → Exact config patterns s (select config query patterns s)) ∧
    ∀ (query : QueryContext) (e : FedError) (s' : State),
      select config query patterns s = (.error e, s') → ComesToNoEnd e →
        s'.cache.observations = s.cache.observations := by
  constructor
  · intro hd ht query hq hdeadline
    obtain ⟨outcomes, h⟩ : ∃ outcomes, Selected config patterns s outcomes
      (select config query patterns s) := selected_select config hq (.inl hdeadline)
    constructor
    · exact (asks_probesFor patterns hd).once
    · exact fun k e => mem_subjects_probesFor hd
    · exact (inquires_ofPatterns patterns s).keys
    · exact h.registry
    · exact (congrArg (·.members) h.registry).trans (members_sent _ _)
    · intro lists hok
      rw [h.answer_eq_ok hok]
      exact forall₂_sourcesOf fun number p hp => h.offering hd ht hp
    · exact h.fails_iff hd ht
    · intro httl answers
      obtain ⟨-, hknown⟩ := h.settles hd ht httl answers
      refine ⟨probesFor_eq_nil (by rwa [h.registry, ids_sent]) hknown, ?_⟩
      cases hanswer : (select config query patterns s).1 with
      | error e =>
        obtain ⟨-, p, hp, -, m, hm, hunknown, hfails⟩ := (h.fails_iff hd ht).1 ⟨e, hanswer⟩
        rw [answers p hp m hm hunknown] at hfails
        cases hfails
      | ok lists =>
        exact ⟨lists, rfl, fun config' query' hq' => h.again hd ht httl answers hanswer config' hq'⟩
  · exact fun query e s' h hno => observations_select h hno

/-- A member that takes its time. -/
def answering : Member :=
  { id := "e1", name := "e1", triples := [⟨.iri "s", .iri "p", .iri "o"⟩], delay := 10 }

/-- A member with the same triples whose probes fail. -/
def failing : Member := { answering with id := "e2", name := "e2", failProbes := true }

/-- A pattern of the predicate that the members have. -/
def present : TriplePattern := ⟨.var "x", .const (.iri "p"), .var "y"⟩

/-- A pattern of another predicate. -/
def missing : TriplePattern := ⟨.var "x", .const (.iri "q"), .var "y"⟩

/-- The pattern that is present has been asked for before, at one of the two members. -/
def partlyKnown : State where
  registry := { known := [answering, failing], ids := ["e1", "e2"] }
  cache := ({} : MembershipCache).update 0 (.ofPattern present) "e1" true
  now := 5

theorem truthful_partlyKnown : partlyKnown.Truthful := by
  have members : partlyKnown.registry.members = [answering, failing] := rfl
  have present_at : Store.hasMatch answering.triples present ∅ = true := by decide
  intro m hm p
  rw [MembershipCache.fst_lookup]
  have reports : partlyKnown.cache.Reports m.id m.triples := by
    rw [members] at hm
    refine (MembershipCache.reports_empty none m.id m.triples).update fun _ => ?_
    have triples : m.triples = answering.triples := by
      rcases List.mem_pair.1 hm with rfl | rfl <;> rfl
    rw [triples, ← PatternKey.hasMatch_iff_occurs, present_at]
  exact (reports.membership_holds _ _).congr PatternKey.occurs_ofPattern_iff

theorem select_exact_partlyKnown :
    partlyKnown.registry.ids.Nodup ∧ partlyKnown.Truthful ∧
      Exact { failOnUnresolvedSources := true } [present, missing, present] partlyKnown
        (select { failOnUnresolvedSources := true } {} [present, missing, present] partlyKnown) ∧
      ∃ s', select {} { deadline := some 9 } [missing] partlyKnown =
          (.error (.timeout (.duringSourceSelection 1)), s') ∧
        s'.cache.observations = partlyKnown.cache.observations := by
  have distinct : partlyKnown.registry.ids.Nodup := by decide
  have late : ∃ s', select {} { deadline := some 9 } [missing] partlyKnown =
      (.error (.timeout (.duringSourceSelection 1)), s') := ⟨_, rfl⟩
  obtain ⟨s', late⟩ := late
  refine ⟨distinct, truthful_partlyKnown, ?_, s', late, ?_⟩
  · exact (select_exact _ _ _).1 distinct truthful_partlyKnown {} rfl rfl
  · exact (select_exact _ _ _).2 _ _ s' late (.inl ⟨_, rfl⟩)

end FederatedSparql.Selection
