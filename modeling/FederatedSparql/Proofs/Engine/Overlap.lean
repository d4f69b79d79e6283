import FederatedSparql.Proofs.Endpoint.Members
import FederatedSparql.Proofs.Engine.Recording

/-!
What is known about members while calls overlap.

Selecting sources takes two steps: members are listed and looked up in the cache, and later the
outcomes of the probes are recorded.  Joining and leaving take two steps as well: the registry is
changed, and then what is known about the id is forgotten.  Other calls may come in between, so an
outcome may be recorded after its member has left and its id has been forgotten, and then it is
taken for one of the member that has the id by then.

* `Overlap.agrees_iff_sameMatches`: what is known agrees with the members whenever all calls have
  ended, for all orders of their steps, exactly if members with the same id never differ; and it
  agrees for all members if an outcome is only recorded while its member has not been forgotten.
* `Overlap.rejoining_member_misjudged`: two members with the same id, and a lookup that is wrong.
-/

namespace FederatedSparql

open Selection

/-- A call between its two steps. -/
inductive Call where
  /-- Sources are being selected, and each probe has been sent to a member that was listed. -/
  | selecting (asked : List (Probe × Member))
  /-- A member has joined or left, and its id has not been forgotten yet. -/
  | changing (id : String)

/-- What all calls share, and those in progress. -/
structure Overlap where
  registry : Registry := {}
  cache : MembershipCache := {}
  calls : List Call := []

namespace Overlap

/-- What is known, and what has to be found out. -/
def inquiry (s : Overlap) (now : Nat) (patterns : List TriplePattern) :
    Inquiry × MembershipCache :=
  Inquiry.ofPatterns patterns { registry := s.registry, cache := s.cache, now }

/-- Probes with the members that they are sent to. -/
def addressed (s : Overlap) (probes : List Probe) : List (Probe × Member) :=
  probes.filterMap fun p => (s.registry.get? p.source.endpoint).map fun m => (p, m)

/-- A step of a call.  It may be restricted which members join, and in which states the outcomes of
a member's probes are recorded. -/
inductive Step (joins : Member → Prop) (records : Overlap → Member → Prop) :
    Overlap → Overlap → Prop where
  /-- Members are listed and looked up. -/
  | select (s : Overlap) (now : Nat) (patterns : List TriplePattern) :
    Step joins records s { s with
      cache := (s.inquiry now patterns).2
      calls := .selecting (s.addressed (s.inquiry now patterns).1.probes) :: s.calls }
  /-- All probes are back: a member has answered or a probe has failed, each in its time. -/
  | record (s : Overlap) (now : Nat) {before behind : List Call} {asked : List (Probe × Member)}
    {outcomes : List Outcome} (inProgress : s.calls = before ++ .selecting asked :: behind)
    (back : (outcomes.map (·.probe)).Perm (asked.map (·.1)))
    (brought : ∀ o ∈ outcomes, ∃ m, (o.probe, m) ∈ asked ∧ ∀ found, o.result = .ok found →
      m.answer o.probe.request = .ok (.found found) ∧ records s m) :
    Step joins records s { s with
      cache := outcomes.foldl (Selection.record now) s.cache
      calls := before ++ behind }
  /-- The probes are not back in time. -/
  | abandon (s : Overlap) {before behind : List Call} {asked : List (Probe × Member)}
    (inProgress : s.calls = before ++ .selecting asked :: behind) :
    Step joins records s { s with calls := before ++ behind }
  | join (s : Overlap) {m : Member} {r : Registry} (joining : joins m)
    (registered : s.registry.register m = .ok r) :
    Step joins records s { s with registry := r, calls := .changing m.id :: s.calls }
  | leave (s : Overlap) {m : Member} {id : String} (registered : s.registry.get id = .ok m) :
    Step joins records s { s with
      registry := s.registry.unregister id
      calls := .changing id :: s.calls }
  | forget (s : Overlap) {before behind : List Call} {id : String}
    (inProgress : s.calls = before ++ .changing id :: behind) :
    Step joins records s { s with cache := s.cache.invalidate id, calls := before ++ behind }

/-- What calls may lead to in a federation without members. -/
def Reachable (joins : Member → Prop) (records : Overlap → Member → Prop) (ttl : Option Nat) :
    Overlap → Prop :=
  Relation.ReflTransGen (Step joins records) { cache := { ttl } }

/-- No lookup is wrong about a member that is not about to be forgotten. -/
def Agrees (s : Overlap) : Prop :=
  ∀ m ∈ s.registry.members, .changing m.id ∉ s.calls → ∀ now q,
    (s.cache.lookup now (.ofPattern q) m.id).1.Holds (∃ t ∈ m.triples, (q.match? t).isSome = true)

/-- A member has not been forgotten: it takes part, or its id is still to be forgotten. -/
def Remembers (s : Overlap) (m : Member) : Prop :=
  s.registry.get? m.id = some m ∨ .changing m.id ∈ s.calls

/-- Members with the same id have matches for the same patterns, unless their probes fail. -/
def SameMatches (joins : Member → Prop) : Prop :=
  ∀ m m', joins m → joins m' → m.id = m'.id → m.failProbes = false →
    ∀ p, Store.hasMatch m.triples p ∅ = Store.hasMatch m'.triples p ∅

end Overlap

/-! ### Members that join and leave -/

namespace Registry

variable {r r' : Registry} {m m' : Member} {id : String}

theorem register_eq_ok (h : r.register m = .ok r') :
    r' = { r with known := r.known.filter (·.id != m.id) ++ [m], ids := insertId m.id r.ids } := by
  unfold register at h
  split at h
  · cases h
  · cases h
    rfl

theorem mem_known_register (h : r.register m = .ok r') (hm : m' ∈ r'.known) :
    m' = m ∨ m' ∈ r.known := by
  rw [register_eq_ok h] at hm
  rcases List.mem_append.1 hm with old | new
  · exact .inr (List.mem_of_mem_filter old)
  · exact .inl (List.mem_singleton.1 new)

/-- A member that joins changes nothing for other ids. -/
theorem get?_register_of_ne (h : r.register m = .ok r') (hne : id ≠ m.id) :
    r'.get? id = r.get? id := by
  have listed : id ∈ r'.ids ↔ id ∈ r.ids := by
    rw [register_eq_ok h, (insertId_perm m.id r.ids).mem_iff, List.mem_cons, or_iff_right hne]
  have known : r'.known? id = r.known? id := by
    have other : ¬ m.id = id := fun heq => hne heq.symm
    rw [register_eq_ok h]
    unfold known?
    rw [List.find?_append, List.find?_filter]
    simp only [List.find?_singleton, beq_iff_eq, if_neg other, Option.or_none]
    congr 1
    funext x
    by_cases hx : x.id = id
    · simp [hx, hne]
    · simp [hx]
  apply Option.ext
  intro x
  rw [get?_eq_some_iff, get?_eq_some_iff, listed, known]

/-- A member that leaves changes nothing for other ids. -/
theorem get?_unregister_of_ne (r : Registry) {id' : String} (hne : id ≠ id') :
    (r.unregister id').get? id = r.get? id := by
  apply Option.ext
  intro x
  rw [get?_eq_some_iff, get?_eq_some_iff]
  have listed : id ∈ (r.unregister id').ids ↔ id ∈ r.ids := by simp [unregister, hne]
  rw [listed]
  rfl

end Registry

/-! ### What every step keeps -/

namespace Overlap

variable {joins : Member → Prop} {records : Overlap → Member → Prop} {ttl : Option Nat}
  {s s' : Overlap}

/-- A probe for a kind of pattern that has been sent to a member with the id of its source. -/
structure Addressed (joins : Member → Prop) (a : Probe × Member) : Prop where
  joined : joins a.2
  id : a.2.id = a.1.source.endpoint
  key : a.1.key = .ofPattern a.1.pattern

/-- Members have joined, and probes have been sent to members. -/
structure Sound (joins : Member → Prop) (ttl : Option Nat) (s : Overlap) : Prop where
  joined : ∀ m ∈ s.registry.known, joins m
  addressed : ∀ asked, .selecting asked ∈ s.calls → ∀ a ∈ asked, Addressed joins a
  ttl : s.cache.ttl = ttl

theorem mem_of_mem_others {call call' : Call} {before behind : List Call}
    (h : call ∈ before ++ behind) : call ∈ before ++ call' :: behind :=
  ((List.sublist_cons_self call' behind).append_left before).subset h

theorem Sound.addressed_inquiry (h : Sound joins ttl s) (now : Nat)
    (patterns : List TriplePattern) :
    ∀ a ∈ s.addressed (s.inquiry now patterns).1.probes, Addressed joins a := by
  intro a ha
  obtain ⟨p, hp, hsome⟩ := List.mem_filterMap.1 ha
  obtain ⟨m, hm, rfl⟩ := Option.map_eq_some_iff.1 hsome
  constructor
  · exact h.joined m (Registry.mem_known_of_known? (Registry.get?_eq_some_iff.1 hm).2)
  · exact Registry.id_of_get? hm
  · exact (inquires_ofPatterns patterns _).keys p hp

theorem Sound.step (h : Sound joins ttl s) (step : Step joins records s s') :
    Sound joins ttl s' := by
  have others : ∀ {before behind : List Call} {call : Call}, s.calls = before ++ call :: behind →
      ∀ asked, .selecting asked ∈ before ++ behind → ∀ a ∈ asked, Addressed joins a := by
    intro before behind call inProgress asked hasked
    apply h.addressed asked
    rw [inProgress]
    exact mem_of_mem_others hasked
  cases step with
  | select now patterns =>
    refine ⟨h.joined, ?_, (inquires_ofPatterns patterns _).ttl.trans h.ttl⟩
    intro asked hasked
    rcases List.mem_cons.1 hasked with heq | hold
    · cases heq
      exact h.addressed_inquiry now patterns
    · exact h.addressed asked hold
  | record now inProgress back brought =>
    exact ⟨h.joined, others inProgress, (ttl_foldl_record now _ _).trans h.ttl⟩
  | abandon inProgress => exact ⟨h.joined, others inProgress, h.ttl⟩
  | join joining registered =>
    refine ⟨?_, ?_, h.ttl⟩
    · intro m hm
      rcases Registry.mem_known_register registered hm with rfl | hold
      · exact joining
      · exact h.joined m hold
    · intro asked hasked
      exact h.addressed asked (List.mem_of_ne_of_mem Call.noConfusion hasked)
  | leave registered =>
    refine ⟨h.joined, ?_, h.ttl⟩
    intro asked hasked
    exact h.addressed asked (List.mem_of_ne_of_mem Call.noConfusion hasked)
  | forget inProgress => exact ⟨h.joined, others inProgress, h.ttl⟩

theorem Reachable.sound (h : Reachable joins records ttl s) : Sound joins ttl s := by
  induction h with
  | refl =>
    constructor
    · exact fun m hm => absurd hm List.not_mem_nil
    · exact fun asked hasked => absurd hasked List.not_mem_nil
    · rfl
  | tail _ step ih => exact ih.step step

/-- An outcome is an answer of a member to a probe that was sent to it. -/
theorem Sound.of_answered (h : Sound joins ttl s) {before behind : List Call}
    {asked : List (Probe × Member)} {o : Outcome} {m : Member} {found : Bool}
    (inProgress : s.calls = before ++ .selecting asked :: behind) (hm : (o.probe, m) ∈ asked)
    (answered : m.answer o.probe.request = .ok (.found found)) :
    Addressed joins (o.probe, m) ∧ m.failProbes = false ∧
      found = Store.hasMatch m.triples o.probe.pattern ∅ := by
  constructor
  · exact h.addressed asked (inProgress ▸ List.mem_append_right _ List.mem_cons_self) _ hm
  · exact of_answer_request answered

theorem Addressed.occurs_iff {o : Outcome} {m : Member} (h : Addressed joins (o.probe, m))
    (triples : List Triple) :
    o.probe.key.Occurs triples ↔ Store.hasMatch triples o.probe.pattern ∅ = true := by
  rw [show o.probe.key = .ofPattern o.probe.pattern from h.key, PatternKey.hasMatch_iff_occurs]

theorem agrees_of_reports
    (h : ∀ m, s.registry.get? m.id = some m → .changing m.id ∉ s.calls →
      s.cache.Reports m.id m.triples) : s.Agrees := by
  intro m hm hquiet now q
  rw [MembershipCache.fst_lookup]
  have reports := h m (Registry.get?_of_mem_members hm) hquiet
  exact (reports.membership_holds now _).congr PatternKey.occurs_ofPattern_iff

/-! ### Outcomes that are recorded in time -/

/-- All observations are true of the members that take part and are not about to be forgotten. -/
def Truthful (s : Overlap) : Prop :=
  ∀ m, s.registry.get? m.id = some m → .changing m.id ∉ s.calls → s.cache.Reports m.id m.triples

/-- The end of another call leaves a change in progress. -/
theorem changing_mem_others {call : Call} {before behind : List Call} {id : String}
    (inProgress : s.calls = before ++ call :: behind) (hne : .changing id ≠ call)
    (h : .changing id ∈ s.calls) : .changing id ∈ before ++ behind := by
  rw [inProgress] at h
  rcases List.mem_append.1 h with h | h
  · exact List.mem_append_left _ h
  · exact List.mem_append_right _ (List.mem_of_ne_of_mem hne h)

/-- **If outcomes are recorded in time, what is known stays true.** -/
theorem Truthful.step (h : Truthful s) (sound : Sound joins ttl s)
    (step : Step joins Remembers s s') : Truthful s' := by
  intro m hm hquiet
  cases step with
  | select now patterns =>
    have before := h m hm fun hc => hquiet (List.mem_cons_of_mem _ hc)
    exact (inquires_ofPatterns patterns _).reports before
  | @record now before behind asked outcomes inProgress back brought =>
    have unchanged : .changing m.id ∉ s.calls := fun hc =>
      hquiet (changing_mem_others inProgress Call.noConfusion hc)
    apply reports_foldl_record (h m hm unchanged) now
    intro o ho found hfound hend
    obtain ⟨m', hm', hbrought⟩ := brought o ho
    obtain ⟨answered, remembered⟩ := hbrought found hfound
    obtain ⟨sent, -, rfl⟩ := sound.of_answered inProgress hm' answered
    have hid : m'.id = m.id := sent.id.trans hend
    rw [sent.occurs_iff]
    -- the member that has answered is the one that takes part
    rcases remembered with current | changing
    · rw [hid, hm] at current
      cases current
      rfl
    · rw [hid] at changing
      exact absurd changing unchanged
  | abandon inProgress =>
    exact h m hm fun hc => hquiet (changing_mem_others inProgress Call.noConfusion hc)
  | @join joined r joining registered =>
    have other : m.id ≠ joined.id := fun heq => hquiet (heq ▸ List.mem_cons_self)
    rw [Registry.get?_register_of_ne registered other] at hm
    exact h m hm fun hc => hquiet (List.mem_cons_of_mem _ hc)
  | @leave _ id registered =>
    have other : m.id ≠ id := fun heq => hquiet (heq ▸ List.mem_cons_self)
    rw [Registry.get?_unregister_of_ne s.registry other] at hm
    exact h m hm fun hc => hquiet (List.mem_cons_of_mem _ hc)
  | @forget before behind id inProgress =>
    by_cases heq : m.id = id
    · rw [heq]
      exact MembershipCache.reports_invalidate s.cache id m.triples
    · have other : Call.changing m.id ≠ .changing id := fun hc => heq (Call.changing.inj hc)
      have before := h m hm fun hc => hquiet (changing_mem_others inProgress other hc)
      exact before.invalidate id

theorem Reachable.truthful (h : Reachable joins Remembers ttl s) : Truthful s := by
  induction h with
  | refl => exact fun m _ _ => MembershipCache.reports_empty ttl m.id m.triples
  | tail reachable step ih => exact ih.step (Reachable.sound reachable) step

/-! ### Members that do not differ -/

/-- All observations are true of all members that may have the id. -/
def TruthfulOfAll (joins : Member → Prop) (s : Overlap) : Prop :=
  ∀ m, joins m → s.cache.Reports m.id m.triples

theorem TruthfulOfAll.step (h : TruthfulOfAll joins s) (sound : Sound joins ttl s)
    (same : SameMatches joins) (step : Step joins records s s') : TruthfulOfAll joins s' := by
  intro m hm
  have before := h m hm
  cases step with
  | select now patterns => exact (inquires_ofPatterns patterns _).reports before
  | @record now _ _ asked outcomes inProgress back brought =>
    apply reports_foldl_record before now
    intro o ho found hfound hend
    obtain ⟨m', hm', hbrought⟩ := brought o ho
    obtain ⟨sent, hfail, rfl⟩ := sound.of_answered inProgress hm' (hbrought found hfound).1
    rw [sent.occurs_iff, same m' m sent.joined hm (sent.id.trans hend) hfail]
  | abandon inProgress => exact before
  | join joining registered => exact before
  | leave registered => exact before
  | forget inProgress => exact before.invalidate _

theorem Reachable.truthfulOfAll (h : Reachable joins records ttl s) (same : SameMatches joins) :
    TruthfulOfAll joins s := by
  induction h with
  | refl => exact fun m _ => MembershipCache.reports_empty ttl m.id m.triples
  | tail reachable step ih => exact ih.step (Reachable.sound reachable) same step

/-! ### A member that comes back with other triples -/

/-- The only probe for a pattern at a member. -/
def probeOf (p : TriplePattern) (m : Member) : Probe := ⟨.ofPattern p, p, m.source, [0]⟩

/-- A registry with one member. -/
def alone (m : Member) : Registry := { known := [m], ids := [m.id] }

/-- What remains when a member has left during a selection, another one has joined under its id, and
the outcome of the probe is recorded at last. -/
def rejoined (ttl : Option Nat) (p : TriplePattern) (former latter : Member) : Overlap where
  registry := alone latter
  cache := ({ ttl, misses := 1 } : MembershipCache).update 0 (.ofPattern p) former.id
    (Store.hasMatch former.triples p ∅)

variable {former latter m : Member}

theorem get?_alone (m : Member) : (alone m).get? m.id = some m := by
  simp [alone, Registry.get?, Registry.known?]

theorem inquiry_alone (ttl : Option Nat) (m : Member) (p : TriplePattern) (calls : List Call) :
    inquiry { registry := alone m, cache := { ttl }, calls } 0 [p] =
      ({ probes := [probeOf p m] }, { ttl, misses := 1 }) := by
  have sources : (alone m).members.map (·.source) = [m.source] := by
    simp [alone, Registry.members, Registry.known?]
  simp [inquiry, Inquiry.ofPatterns, sources, Inquiry.consult, MembershipCache.lookup_cold,
    Inquiry.ask, probeOf]

theorem reachable_rejoined (hid : former.id = latter.id) (hfail : former.failProbes = false)
    (hformer : joins former) (hlatter : joins latter) (ttl : Option Nat) (p : TriplePattern) :
    Reachable joins (fun _ _ => True) ttl (rejoined ttl p former latter) := by
  let Steps := Step joins fun _ _ => True
  let asked : Call := .selecting [(probeOf p former, former)]
  let empty : MembershipCache := { ttl }
  let missed : MembershipCache := { ttl, misses := 1 }
  have joined : Steps { cache := empty } ⟨alone former, empty, [.changing former.id]⟩ :=
    .join _ hformer rfl
  have forgotten : Steps ⟨alone former, empty, [.changing former.id]⟩ ⟨alone former, empty, []⟩ :=
    @Step.forget _ _ _ [] _ _ rfl
  have listed : Steps ⟨alone former, empty, []⟩ ⟨alone former, missed, [asked]⟩ := by
    have step : Steps ⟨alone former, empty, []⟩ _ := .select _ 0 [p]
    rw [inquiry_alone] at step
    have addressed : addressed ⟨alone former, empty, []⟩ [probeOf p former] =
        [(probeOf p former, former)] := by
      simp [Overlap.addressed, probeOf, Member.source, get?_alone]
    rwa [addressed] at step
  have left : Steps ⟨alone former, missed, [asked]⟩
      ⟨{ known := [former] }, missed, [.changing former.id, asked]⟩ := by
    have step : Steps ⟨alone former, missed, [asked]⟩ _ :=
      .leave _ (Registry.get_eq_ok (get?_alone former))
    simpa [Registry.unregister, alone] using step
  have forgottenAgain : Steps ⟨{ known := [former] }, missed, [.changing former.id, asked]⟩
      ⟨{ known := [former] }, missed, [asked]⟩ := @Step.forget _ _ _ [] _ _ rfl
  have joinedAgain : Steps ⟨{ known := [former] }, missed, [asked]⟩
      ⟨alone latter, missed, [.changing latter.id, asked]⟩ := by
    apply Step.join _ hlatter
    simp [Registry.register, alone, hid, Registry.insertId]
  have forgottenAtLast : Steps ⟨alone latter, missed, [.changing latter.id, asked]⟩
      ⟨alone latter, missed, [asked]⟩ := @Step.forget _ _ _ [] _ _ rfl
  have recorded : Steps ⟨alone latter, missed, [asked]⟩ (rejoined ttl p former latter) := by
    let outcome : Outcome := ⟨probeOf p former, .ok (Store.hasMatch former.triples p ∅)⟩
    refine @Step.record _ _ _ 0 [] [] _ [outcome] rfl (.refl _) ?_
    intro o ho
    rw [List.mem_singleton.1 ho]
    refine ⟨former, List.mem_cons_self, ?_⟩
    rintro found ⟨⟩
    simp [outcome, probeOf, Probe.request, Member.answer, Member.isFailing, hfail, Store.answer]
  exact ((((((((.refl : Reachable joins _ ttl _).tail joined).tail forgotten).tail listed).tail
    left).tail forgottenAgain).tail joinedAgain).tail forgottenAtLast).tail recorded

theorem lookup_rejoined (hid : former.id = latter.id) (httl : ttl ≠ some 0) (p : TriplePattern) :
    ((rejoined ttl p former latter).cache.lookup 0 (.ofPattern p) latter.id).1 =
      if Store.hasMatch former.triples p ∅ then .confirmed else .absent := by
  rw [MembershipCache.fst_lookup, ← hid]
  apply MembershipCache.membership_of_fresh (MembershipCache.lookup_observations_update ..)
  apply MembershipCache.isFresh_of_young
  intro age hage
  have hage' : ttl = some age := (MembershipCache.ttl_update _ 0 _ _ _).symm.trans hage
  rw [hage'] at httl
  exact Nat.pos_of_ne_zero fun hzero => httl (hzero ▸ rfl)

/-- If the outcome came from a member with other matches, the lookup is wrong. -/
theorem not_agrees_rejoined (hid : former.id = latter.id) (httl : ttl ≠ some 0)
    (hdiffer : Store.hasMatch former.triples p ∅ ≠ Store.hasMatch latter.triples p ∅) :
    ¬ (rejoined ttl p former latter).Agrees := by
  intro agrees
  have member : latter ∈ (rejoined ttl p former latter).registry.members :=
    Registry.mem_members_of_get? (get?_alone latter)
  have holds := agrees latter member List.not_mem_nil 0 p
  rw [lookup_rejoined hid httl, ← PatternKey.occurs_ofPattern_iff,
    ← PatternKey.hasMatch_iff_occurs] at holds
  cases hformer : Store.hasMatch former.triples p ∅ with
  | true =>
    rw [hformer] at holds hdiffer
    exact hdiffer (Eq.symm holds)
  | false =>
    rw [hformer] at holds hdiffer
    exact hdiffer (Bool.eq_false_iff.2 holds).symm

/-- Observations that are disregarded at once tell nothing. -/
theorem agrees_of_ttl_eq_zero (h : s.cache.ttl = some 0) : s.Agrees := by
  have nothing : ∀ now k e, s.cache.observed now k e = .unknown := by
    intro now k e
    unfold MembershipCache.observed
    split
    · simp [MembershipCache.isFresh, h]
    · rfl
  intro m _ _ now q
  have unknown : s.cache.membership now (.ofPattern q) m.id = .unknown := by
    unfold MembershipCache.membership
    rw [nothing]
    dsimp only
    split
    · rw [nothing]
      rfl
    · rfl
  rw [MembershipCache.fst_lookup, unknown]
  trivial

/-- **What is known stays true through changes of the members, for all orders of their steps,
exactly if no member comes back with other matches under its id.**  It also does if outcomes are
recorded only as long as the member that they came from has not been forgotten. -/
theorem agrees_iff_sameMatches (joins : Member → Prop) (ttl : Option Nat) :
    (∀ s, Reachable joins Remembers ttl s → s.Agrees) ∧
      ((∀ s, Reachable joins (fun _ _ => True) ttl s → s.calls = [] → s.Agrees) ↔
        ttl = some 0 ∨ SameMatches joins) := by
  refine ⟨fun s reachable => agrees_of_reports reachable.truthful, ?_, ?_⟩
  · intro agrees
    by_cases httl : ttl = some 0
    · exact .inl httl
    · right
      intro former latter hformer hlatter hid hfail p
      by_contra hdiffer
      have reachable := reachable_rejoined hid hfail hformer hlatter ttl p
      exact not_agrees_rejoined hid httl hdiffer (agrees _ reachable rfl)
  · rintro (httl | same) s reachable -
    · exact agrees_of_ttl_eq_zero (reachable.sound.ttl.trans httl)
    · apply agrees_of_reports
      intro m hm _
      have hknown := Registry.mem_known_of_known? (Registry.get?_eq_some_iff.1 hm).2
      exact reachable.truthfulOfAll same m (reachable.sound.joined m hknown)

/-- A member with one triple, which leaves. -/
def departed : Member := { id := "e", name := "e", triples := [⟨.iri "s", .iri "p", .iri "o"⟩] }

/-- A member without triples, which joins under the same id. -/
def newcomer : Member := { id := "e", name := "e" }

/-- The pattern that is asked about. -/
def askedFor : TriplePattern := ⟨.var "s", .const (.iri "p"), .var "o"⟩

/-- The outcome of a probe is recorded for a member that it does not come from, and when all calls
have ended nothing is left that would forget it. -/
theorem rejoining_member_misjudged :
    ∃ s, Reachable (fun m => m = departed ∨ m = newcomer) (fun _ _ => True) none s ∧
      s.calls = [] ∧ s.registry.members = [newcomer] ∧
      (s.cache.lookup 0 (.ofPattern askedFor) newcomer.id).1 = .confirmed ∧
      ∀ t ∈ newcomer.triples, (askedFor.match? t).isSome = false := by
  have sameId : departed.id = newcomer.id := rfl
  refine ⟨rejoined none askedFor departed newcomer, ?_, rfl, ?_, ?_, ?_⟩
  · apply reachable_rejoined sameId rfl
    · exact .inl rfl
    · exact .inr rfl
  · simp [rejoined, alone, Registry.members, Registry.known?]
  · rw [lookup_rejoined sameId (Option.some_ne_none 0).symm]
    decide
  · exact fun t ht => absurd ht List.not_mem_nil

end Overlap

end FederatedSparql
