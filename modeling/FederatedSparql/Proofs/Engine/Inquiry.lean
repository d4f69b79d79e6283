import FederatedSparql.Engine.Selection
import FederatedSparql.Proofs.Engine.Knowledge

/-!
Which probes have to be made.

Each pattern is looked up at each source (`needs`).  What the cache knows decides about a need: the
source is found, or left out, or asked.  Patterns of one kind share a probe, so there may be fewer
probes than needs, but together they are made for each need once.

* `Inquiry.asks_ofPatterns`: the sources that are found are those that the cache confirms, and the
  probes are made for all needs of which it knows nothing.
* `Inquiry.Asks.mem_subjects`: there is one probe for each kind of pattern and each endpoint of
  which nothing is known, and no other.
-/

namespace FederatedSparql.Selection

variable {patterns : List TriplePattern} {sources : List Source} {c : MembershipCache} {now : Nat}

/-! ### What has to be asked -/

/-- Each pattern by its number at each source. -/
def needs (patterns : List TriplePattern) (sources : List Source) : List (Nat × Source) :=
  patterns.zipIdx.flatMap fun p => sources.map fun source => (p.2, source)

theorem mem_needs {need : Nat × Source} :
    need ∈ needs patterns sources ↔ need.1 < patterns.length ∧ need.2 ∈ sources := by
  obtain ⟨number, source⟩ := need
  rw [needs, List.mem_flatMap]
  constructor
  · rintro ⟨⟨p, n⟩, hp, hmem⟩
    obtain ⟨_, hs, heq⟩ := List.mem_map.1 hmem
    cases heq
    rw [List.mk_mem_zipIdx_iff_getElem?] at hp
    exact ⟨(List.getElem?_eq_some_iff.1 hp).1, hs⟩
  · rintro ⟨hn, hs⟩
    refine ⟨(patterns[number], number), ?_, List.mem_map.2 ⟨source, hs, rfl⟩⟩
    rw [List.mk_mem_zipIdx_iff_getElem?]
    exact List.getElem?_eq_getElem hn

/-- What is known of a need. -/
def knownOf (c : MembershipCache) (now : Nat) (patterns : List TriplePattern)
    (need : Nat × Source) : Membership :=
  match patterns[need.1]? with
  | some p => c.membership now (.ofPattern p) need.2.endpoint
  | none => .unknown

theorem knownOf_eq {number : Nat} {p : TriplePattern} (hp : patterns[number]? = some p)
    (source : Source) :
    knownOf c now patterns (number, source) = c.membership now (.ofPattern p) source.endpoint := by
  rw [knownOf, hp]

/-- The needs that a probe is made for. -/
def Probe.asked (p : Probe) : List (Nat × Source) := p.wantedBy.map fun number => (number, p.source)

/-- What a probe finds out about: a kind of pattern at an endpoint. -/
def Probe.subject (p : Probe) : PatternKey × String := (p.key, p.source.endpoint)

/-- A probe asks a source about patterns of its kind. -/
structure Probe.Sound (patterns : List TriplePattern) (sources : List Source) (p : Probe) :
    Prop where
  source : p.source ∈ sources
  key : p.key = PatternKey.ofPattern p.pattern
  wanted : ∀ number ∈ p.wantedBy, ∃ q, patterns[number]? = some q ∧ PatternKey.ofPattern q = p.key
  purposeful : p.wantedBy ≠ []

/-! ### Looking up -/

/-- Looking up leaves what is known as it is, and probes are made for kinds of patterns. -/
structure Inquires (c : MembershipCache) (q : Inquiry × MembershipCache) : Prop where
  observations : q.2.observations = c.observations
  ttl : q.2.ttl = c.ttl
  keys : ∀ p ∈ q.1.probes, p.key = .ofPattern p.pattern

variable {q : Inquiry × MembershipCache} {pattern : TriplePattern} {number : Nat} {source : Source}
  {probes : List Probe}

theorem keys_ask (h : ∀ p ∈ probes, p.key = .ofPattern p.pattern) :
    ∀ p ∈ Inquiry.ask (.ofPattern pattern) pattern number source probes,
      p.key = .ofPattern p.pattern := by
  induction probes with
  | nil =>
    intro p hp
    rw [List.mem_singleton.1 hp]
  | cons p rest ih =>
    obtain ⟨hp, hrest⟩ := List.forall_mem_cons.1 h
    rw [Inquiry.ask]
    split
    · exact List.forall_mem_cons.2 ⟨hp, hrest⟩
    · exact List.forall_mem_cons.2 ⟨hp, ih hrest⟩

theorem Inquires.consult (h : Inquires c q) (number : Nat) (pattern : TriplePattern) (now : Nat)
    (source : Source) : Inquires c (Inquiry.consult number pattern now q source) := by
  obtain ⟨inquiry, cache⟩ := q
  have kept := (cache.observations_lookup now (.ofPattern pattern) source.endpoint).trans
    h.observations
  have lasts := (cache.ttl_lookup now (.ofPattern pattern) source.endpoint).trans h.ttl
  rw [Inquiry.consult]
  generalize cache.lookup now (.ofPattern pattern) source.endpoint = found at *
  obtain ⟨known, cache'⟩ := found
  cases known with
  | confirmed => exact ⟨kept, lasts, h.keys⟩
  | absent => exact ⟨kept, lasts, h.keys⟩
  | unknown => exact ⟨kept, lasts, keys_ask h.keys⟩

theorem inquires_start (c : MembershipCache) : Inquires c ({}, c) :=
  ⟨rfl, rfl, fun _ hp => absurd hp List.not_mem_nil⟩

theorem inquires_ofPatterns (patterns : List TriplePattern) (s : State) :
    Inquires s.cache (Inquiry.ofPatterns patterns s) := by
  apply List.foldlRecOn _ _ (inquires_start s.cache)
  intro q hq p _
  apply List.foldlRecOn _ _ hq
  intro q hq source _
  exact hq.consult p.2 p.1 s.now source

theorem Inquires.reports {e : String} {triples : List Triple} (hq : Inquires c q)
    (h : c.Reports e triples) : q.2.Reports e triples := by
  apply h.congr
  intro k o ho
  rwa [← hq.observations]

theorem Inquires.membership (hq : Inquires c q) (now : Nat) (k : PatternKey) (e : String) :
    q.2.membership now k e = c.membership now k e :=
  MembershipCache.membership_congr hq.observations hq.ttl now k e

/-! ### Probes for needs -/

namespace Inquiry

theorem sound_ask (hn : patterns[number]? = some pattern) (hs : source ∈ sources)
    (h : ∀ p ∈ probes, p.Sound patterns sources) :
    ∀ p ∈ ask (.ofPattern pattern) pattern number source probes, p.Sound patterns sources := by
  induction probes with
  | nil =>
    intro p hp
    obtain rfl := List.mem_singleton.1 hp
    refine ⟨hs, rfl, fun n hn' => ⟨pattern, ?_, rfl⟩, List.cons_ne_nil number []⟩
    rwa [List.mem_singleton.1 hn']
  | cons p rest ih =>
    have hp := h p List.mem_cons_self
    have hrest := fun q hq => h q (List.mem_cons_of_mem p hq)
    rw [ask]
    split
    · next same =>
      rw [List.forall_mem_cons]
      refine ⟨⟨hp.source, hp.key, fun n hn' => ?_, by simp⟩, hrest⟩
      rcases List.mem_append.1 hn' with hn' | hn'
      · exact hp.wanted n hn'
      · rw [List.mem_singleton.1 hn']
        exact ⟨pattern, hn, same.1.symm⟩
    · rw [List.forall_mem_cons]
      exact ⟨hp, ih hrest⟩

/-- Asking for a need adds this need, whether or not another probe is made for it. -/
theorem asked_ask (hd : (sources.map (·.endpoint)).Nodup) (hs : source ∈ sources)
    (h : ∀ p ∈ probes, p.Sound patterns sources) (key : PatternKey) :
    ((ask key pattern number source probes).flatMap Probe.asked).Perm
      (probes.flatMap Probe.asked ++ [(number, source)]) := by
  induction probes with
  | nil => exact .refl _
  | cons p rest ih =>
    rw [ask]
    split
    · next same =>
      have source_eq : p.source = source :=
        List.inj_on_of_nodup_map hd (h p List.mem_cons_self).source hs same.2
      have asked : Probe.asked { p with wantedBy := p.wantedBy ++ [number] } =
          p.asked ++ [(number, source)] := by
        rw [Probe.asked, List.map_append, ← source_eq]
        rfl
      rw [List.flatMap_cons, asked, List.flatMap_cons, List.append_assoc, List.append_assoc]
      exact List.perm_append_comm.append_left _
    · rw [List.flatMap_cons, List.flatMap_cons, List.append_assoc]
      exact (ih fun q hq => h q (List.mem_cons_of_mem p hq)).append_left _

/-- A probe is added only if there is none about the same. -/
theorem subjects_ask (key : PatternKey) (pattern : TriplePattern) (number : Nat) (source : Source)
    (probes : List Probe) :
    (ask key pattern number source probes).map Probe.subject =
      if (key, source.endpoint) ∈ probes.map Probe.subject then probes.map Probe.subject
      else probes.map Probe.subject ++ [(key, source.endpoint)] := by
  induction probes with
  | nil => rfl
  | cons p rest ih =>
    rw [ask]
    split
    · next same =>
      have about : (key, source.endpoint) = p.subject := by
        rw [Probe.subject, same.1, same.2]
      rw [if_pos (List.mem_map.2 ⟨p, List.mem_cons_self, about.symm⟩)]
      rfl
    · next differs =>
      have other : (key, source.endpoint) ≠ p.subject := by
        intro about
        obtain ⟨hkey, hsource⟩ := Prod.mk.inj about
        exact differs ⟨hkey.symm, hsource.symm⟩
      have elsewhere : (key, source.endpoint) ∈ (p :: rest).map Probe.subject ↔
          (key, source.endpoint) ∈ rest.map Probe.subject := by
        rw [List.map_cons, List.mem_cons, or_iff_right other]
      rw [List.map_cons, ih]
      by_cases hmem : (key, source.endpoint) ∈ rest.map Probe.subject
      · rw [if_pos hmem, if_pos (elsewhere.2 hmem)]
        rfl
      · rw [if_neg hmem, if_neg fun h => hmem (elsewhere.1 h)]
        rfl

theorem nodup_subjects_ask {key : PatternKey} (h : (probes.map Probe.subject).Nodup) :
    ((ask key pattern number source probes).map Probe.subject).Nodup := by
  rw [subjects_ask]
  split
  · exact h
  · next fresh =>
    rw [List.nodup_append]
    refine ⟨h, List.nodup_singleton _, ?_⟩
    intro a ha b hb heq
    rw [← List.mem_singleton.1 hb, ← heq] at fresh
    exact fresh ha

/-- An inquiry about some needs: what is confirmed has been found, and probes are made for what is
unknown. -/
structure Asks (c : MembershipCache) (now : Nat) (patterns : List TriplePattern)
    (sources : List Source) (done : List (Nat × Source)) (q : Inquiry × MembershipCache) :
    Prop where
  inquires : Inquires c q
  found : q.1.found = done.filter fun need => knownOf c now patterns need = .confirmed
  sound : ∀ p ∈ q.1.probes, p.Sound patterns sources
  asked : (q.1.probes.flatMap Probe.asked).Perm
    (done.filter fun need => knownOf c now patterns need = .unknown)
  once : (q.1.probes.map Probe.subject).Nodup

variable {done : List (Nat × Source)}

theorem Asks.consult (h : Asks c now patterns sources done q)
    (hd : (sources.map (·.endpoint)).Nodup) (hn : patterns[number]? = some pattern)
    (hs : source ∈ sources) :
    Asks c now patterns sources (done ++ [(number, source)])
      (consult number pattern now q source) := by
  have inquires := h.inquires.consult number pattern now source
  have known : (q.2.lookup now (.ofPattern pattern) source.endpoint).1 =
      knownOf c now patterns (number, source) := by
    rw [MembershipCache.fst_lookup, h.inquires.membership, knownOf_eq hn]
  obtain ⟨inquiry, cache⟩ := q
  obtain ⟨-, found, sound, asked, once⟩ := h
  rw [Inquiry.consult] at inquires ⊢
  dsimp only at known found sound asked once
  generalize cache.lookup now (.ofPattern pattern) source.endpoint = looked at *
  obtain ⟨looked, cache'⟩ := looked
  dsimp only at known
  cases looked with
  | confirmed =>
    refine ⟨inquires, ?_, sound, ?_, once⟩
    · simp [List.filter_append, found, ← known]
    · simpa [List.filter_append, ← known] using asked
  | absent =>
    refine ⟨inquires, ?_, sound, ?_, once⟩
    · simp [List.filter_append, found, ← known]
    · simpa [List.filter_append, ← known] using asked
  | unknown =>
    refine ⟨inquires, ?_, sound_ask hn hs sound, ?_, nodup_subjects_ask once⟩
    · simp [List.filter_append, found, ← known]
    · have added : (done ++ [(number, source)]).filter
          (fun need => knownOf c now patterns need = .unknown) =
            done.filter (fun need => knownOf c now patterns need = .unknown) ++
              [(number, source)] := by
        simp [List.filter_append, ← known]
      rw [added]
      exact (asked_ask hd hs sound _).trans (asked.append_right _)

theorem Asks.consultAll (h : Asks c now patterns sources done q)
    (hd : (sources.map (·.endpoint)).Nodup) (hn : patterns[number]? = some pattern)
    (rest : List Source) (hs : ∀ source ∈ rest, source ∈ sources) :
    Asks c now patterns sources (done ++ rest.map fun source => (number, source))
      (rest.foldl (Inquiry.consult number pattern now) q) := by
  induction rest generalizing done q with
  | nil => simpa using h
  | cons source rest ih =>
    have step := h.consult hd hn (hs source List.mem_cons_self)
    simpa using ih step fun s hm => hs s (List.mem_cons_of_mem source hm)

theorem Asks.consultEach (h : Asks c now patterns sources done q)
    (hd : (sources.map (·.endpoint)).Nodup) (rest : List (TriplePattern × Nat))
    (hr : ∀ p ∈ rest, patterns[p.2]? = some p.1) :
    Asks c now patterns sources
      (done ++ rest.flatMap fun p => sources.map fun source => (p.2, source))
      (rest.foldl (fun q p => sources.foldl (Inquiry.consult p.2 p.1 now) q) q) := by
  induction rest generalizing done q with
  | nil => simpa using h
  | cons p rest ih =>
    have step := h.consultAll hd (hr p List.mem_cons_self) sources fun _ => id
    simpa using ih step fun r hm => hr r (List.mem_cons_of_mem p hm)

/-- **What is confirmed is found, and the probes are made for each unknown need once.** -/
theorem asks_ofPatterns (patterns : List TriplePattern) {s : State}
    (hd : ((s.registry.members.map (·.source)).map (·.endpoint)).Nodup) :
    Asks s.cache s.now patterns (s.registry.members.map (·.source))
      (needs patterns (s.registry.members.map (·.source))) (ofPatterns patterns s) := by
  have start : Asks s.cache s.now patterns (s.registry.members.map (·.source)) [] ({}, s.cache) :=
    ⟨inquires_start s.cache, rfl, fun p hp => absurd hp List.not_mem_nil, .refl _, List.nodup_nil⟩
  exact start.consultEach hd patterns.zipIdx fun p hp => by
    obtain ⟨p, n⟩ := p
    rwa [List.mk_mem_zipIdx_iff_getElem?] at hp

/-- A pattern's need is asked for by a probe of its kind at its source. -/
theorem Asks.mem_subjects (h : Asks c now patterns sources done q) {k : PatternKey} {e : String} :
    (k, e) ∈ q.1.probes.map Probe.subject ↔ ∃ need ∈ done, ∃ p,
      knownOf c now patterns need = .unknown ∧ patterns[need.1]? = some p ∧
        PatternKey.ofPattern p = k ∧ need.2.endpoint = e := by
  constructor
  · intro hmem
    obtain ⟨probe, hprobe, hsubject⟩ := List.mem_map.1 hmem
    obtain ⟨hkey, hsource⟩ := Prod.mk.inj hsubject
    have sound := h.sound probe hprobe
    obtain ⟨number, hnumber⟩ := List.exists_mem_of_ne_nil _ sound.purposeful
    obtain ⟨p, hp, hkind⟩ := sound.wanted number hnumber
    have asked : (number, probe.source) ∈ q.1.probes.flatMap Probe.asked :=
      List.mem_flatMap.2 ⟨probe, hprobe, List.mem_map.2 ⟨number, hnumber, rfl⟩⟩
    obtain ⟨hdone, hunknown⟩ := List.mem_filter.1 (h.asked.mem_iff.1 asked)
    exact ⟨(number, probe.source), hdone, p, of_decide_eq_true hunknown, hp, hkind.trans hkey,
      hsource⟩
  · rintro ⟨⟨number, source⟩, hdone, p, hunknown, hp, rfl, rfl⟩
    have wanted := h.asked.mem_iff.2 (List.mem_filter.2 ⟨hdone, decide_eq_true hunknown⟩)
    obtain ⟨probe, hprobe, hasked⟩ := List.mem_flatMap.1 wanted
    obtain ⟨n, hn, heq⟩ := List.mem_map.1 hasked
    cases heq
    obtain ⟨p', hp', hkind⟩ := (h.sound probe hprobe).wanted number hn
    rw [hp] at hp'
    cases hp'
    exact List.mem_map.2 ⟨probe, hprobe, by rw [Probe.subject, hkind]⟩

end Inquiry

end FederatedSparql.Selection
