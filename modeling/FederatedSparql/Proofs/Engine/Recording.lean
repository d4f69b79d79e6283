import FederatedSparql.Proofs.Engine.Inquiry

/-!
What is known after the outcomes of probes have been recorded.

An outcome is recorded for its kind of pattern, and a match for the kind of its predicate too, so
recording one outcome may change what is known of other kinds.  If all that is told is true, it
stays true, and what is known stays known unless it grows too old.

* `Selection.reports_foldl_record`: outcomes may be recorded that are true.
* `Selection.known_foldl_record`: where observations do not grow old, recording true outcomes makes
  nothing unknown, and what they are about is known.
-/

namespace FederatedSparql

namespace PatternKey

/-- The kind of a predicate is a kind of pattern. -/
theorem exists_ofPattern_of_generalized? {p : TriplePattern} {g : PatternKey}
    (h : (ofPattern p).generalized? = some g) : ∃ q, ofPattern q = g := by
  obtain ⟨-, rfl⟩ := of_generalized? h
  cases hp : p.predicate with
  | var v =>
    refine ⟨⟨.var "s", .var "p", .var "o"⟩, ?_⟩
    simp [ofPattern, hp, PatternTerm.const?, sameVar]
  | const c =>
    refine ⟨⟨.var "s", .const c, .var "o"⟩, ?_⟩
    simp [ofPattern, hp, PatternTerm.const?, sameVar]

end PatternKey

namespace MembershipCache

variable {c : MembershipCache} {k k' : PatternKey} {e e' : String} {triples : List Triple}
  {now time : Nat} {hasData : Bool}

/-! ### One outcome -/

theorem lookup_filter_ne {α β : Type} [BEq α] [LawfulBEq α] {a b : α} (h : b ≠ a)
    (l : List (α × β)) : (l.filter fun x => x.1 != a).lookup b = l.lookup b := by
  induction l with
  | nil => rfl
  | cons x l ih =>
    by_cases hx : x.1 = a
    · have other : (b == x.1) = false := by simpa [hx] using h
      rw [List.filter_cons_of_neg (by simp [hx]), ih]
      obtain ⟨y, z⟩ := x
      rw [List.lookup_cons, other]
    · rw [List.filter_cons_of_pos (by simp [hx])]
      obtain ⟨y, z⟩ := x
      rw [List.lookup_cons, List.lookup_cons, ih]

theorem lookup_record (c : MembershipCache) (k : PatternKey) (e : String) (o : Observation)
    (x : PatternKey × String) :
    (c.record k e o).observations.lookup x =
      if x = (k, e) then some o else c.observations.lookup x := by
  rw [record, List.lookup_cons]
  by_cases hx : x = (k, e)
  · rw [if_pos hx, hx, beq_self_eq_true]
  · rw [if_neg hx, beq_false_of_ne hx]
    exact lookup_filter_ne hx _

/-- An outcome is recorded for its own kind, and a match for that of its predicate. -/
def Concerns (k : PatternKey) (hasData : Bool) (k' : PatternKey) : Prop :=
  k' = k ∨ hasData = true ∧ k.generalized? = some k'

instance (k : PatternKey) (hasData : Bool) (k' : PatternKey) : Decidable (Concerns k hasData k') :=
  inferInstanceAs (Decidable (_ ∨ _))

/-- What is true of a kind is true of all kinds that it is recorded for. -/
theorem Concerns.occurs_iff (h : Concerns k hasData k') (ho : hasData = true ↔ k.Occurs triples) :
    hasData = true ↔ k'.Occurs triples := by
  rcases h with rfl | ⟨hdata, hg⟩
  · exact ho
  · exact iff_of_true hdata ((ho.1 hdata).generalized hg)

theorem lookup_update (c : MembershipCache) (time : Nat) (k : PatternKey) (e : String)
    (hasData : Bool) (k' : PatternKey) (e' : String) :
    (c.update time k e hasData).observations.lookup (k', e') =
      if e' = e ∧ Concerns k hasData k' then some ⟨hasData, time⟩
      else c.observations.lookup (k', e') := by
  have own : (c.record k e ⟨hasData, time⟩).observations.lookup (k', e') =
      if e' = e ∧ k' = k then some ⟨hasData, time⟩ else c.observations.lookup (k', e') := by
    rw [lookup_record]
    simp only [Prod.mk.injEq, and_comm]
  unfold update
  cases hg : k.generalized? with
  | none => simp [own, Concerns, hg]
  | some g =>
    cases hasData with
    | false => simp [own, Concerns]
    | true =>
      simp only [if_true, lookup_record, own, Concerns, hg, Prod.mk.injEq, Option.some.injEq]
      by_cases hk : k' = g
      · by_cases he : e' = e <;> simp [hk, he]
      · have other : ¬ g = k' := fun h => hk h.symm
        simp [hk, other]

/-- Observations that do not grow old tell what has been recorded last. -/
theorem observed_update (ht : c.ttl = none) :
    (c.update time k e hasData).observed now k' e' =
      if e' = e ∧ Concerns k hasData k' then (if hasData then .confirmed else .absent)
      else c.observed now k' e' := by
  have fresh : ∀ o, (c.update time k e hasData).isFresh now o = true := by
    intro o
    rw [isFresh, ttl_update, ht]
  have fresh' : ∀ o, c.isFresh now o = true := by
    intro o
    rw [isFresh, ht]
  rw [observed, observed, lookup_update]
  simp only [fresh, fresh', if_true]
  by_cases hc : e' = e ∧ Concerns k hasData k'
  · rw [if_pos hc, if_pos hc]
  · rw [if_neg hc, if_neg hc]

/-- What has not been observed may follow from the absence of its predicate. -/
theorem membership_eq_unknown_iff :
    c.membership now k e = .unknown ↔ c.observed now k e = .unknown ∧
      ∀ g, k.generalized? = some g → c.observed now g e ≠ .absent := by
  unfold membership
  cases ho : c.observed now k e with
  | confirmed => simp
  | absent => simp
  | unknown =>
    cases hg : k.generalized? with
    | none => simp
    | some g => simp

/-- Where observations do not grow old, the time does not matter. -/
theorem membership_of_ttl_eq_none (ht : c.ttl = none) (now now' : Nat) (k : PatternKey)
    (e : String) : c.membership now k e = c.membership now' k e := by
  have fresh : ∀ now o, c.isFresh now o = true := by
    intro now o
    rw [isFresh, ht]
  simp only [membership, observed, fresh]

/-! ### Truth -/

/-- What is told of kinds of patterns is true of some triples. -/
def Tells (c : MembershipCache) (now : Nat) (e : String) (triples : List Triple) : Prop :=
  ∀ p, (c.membership now (.ofPattern p) e).Holds ((PatternKey.ofPattern p).Occurs triples)

theorem tells_iff_observed : c.Tells now e triples ↔
    ∀ p, (c.observed now (.ofPattern p) e).Holds ((PatternKey.ofPattern p).Occurs triples) := by
  constructor
  · intro h p
    have told := h p
    unfold membership at told
    cases ho : c.observed now (.ofPattern p) e with
    | unknown => trivial
    | confirmed => rwa [ho] at told
    | absent => rwa [ho] at told
  · intro h p
    unfold membership
    split
    · split
      · next g hg =>
        obtain ⟨q, rfl⟩ := PatternKey.exists_ofPattern_of_generalized? hg
        split
        · next habsent =>
          have general := h q
          rw [habsent] at general
          exact fun hoccurs => general (hoccurs.generalized hg)
        · trivial
      · trivial
    · exact h p

theorem Tells.update (h : c.Tells now e' triples) (ht : c.ttl = none)
    (hdata : e = e' → (hasData = true ↔ k.Occurs triples)) :
    (c.update time k e hasData).Tells now e' triples := by
  rw [tells_iff_observed] at h ⊢
  intro p
  rw [observed_update ht]
  split
  · next hc =>
    have occurs := hc.2.occurs_iff (hdata hc.1.symm)
    cases hasData with
    | true => exact occurs.1 rfl
    | false => exact fun hoccurs => Bool.false_ne_true (occurs.2 hoccurs)
  · exact h p

/-- A true outcome makes nothing unknown. -/
theorem Tells.known_update (h : c.Tells now e' triples) (ht : c.ttl = none)
    (hdata : e = e' → (hasData = true ↔ k.Occurs triples)) {p : TriplePattern}
    (hk : c.membership now (.ofPattern p) e' ≠ .unknown) :
    (c.update time k e hasData).membership now (.ofPattern p) e' ≠ .unknown := by
  intro hunknown
  obtain ⟨unobserved, present⟩ := membership_eq_unknown_iff.1 hunknown
  rw [observed_update ht] at unobserved
  split at unobserved
  · cases hasData <;> cases unobserved
  · refine hk (membership_eq_unknown_iff.2 ⟨unobserved, fun g hg habsent => ?_⟩)
    obtain ⟨q, rfl⟩ := PatternKey.exists_ofPattern_of_generalized? hg
    -- the predicate was absent, so no outcome that is true has been recorded for it but absence
    have general := tells_iff_observed.1 h q
    rw [habsent] at general
    refine present _ hg ?_
    rw [observed_update ht]
    split
    · next hc =>
      have occurs := hc.2.occurs_iff (hdata hc.1.symm)
      cases hasData with
      | true => exact absurd (occurs.1 rfl) general
      | false => rfl
    · exact habsent

end MembershipCache

/-! ### All outcomes -/

namespace Selection

variable {c : MembershipCache}

theorem ttl_record (now : Nat) (c : MembershipCache) (o : Outcome) :
    (record now c o).ttl = c.ttl := by
  unfold record
  split
  · exact c.ttl_update now _ _ _
  · rfl

theorem ttl_foldl_record (now : Nat) (c : MembershipCache) (outcomes : List Outcome) :
    (outcomes.foldl (record now) c).ttl = c.ttl :=
  List.foldlRecOn outcomes (motive := fun c' => c'.ttl = c.ttl) _ rfl
    fun c' hc o _ => (ttl_record now c' o).trans hc

/-- Outcomes may be recorded that are true of an endpoint or come from other ones. -/
theorem reports_foldl_record {e : String} {triples : List Triple} {outcomes : List Outcome}
    (h : c.Reports e triples) (now : Nat)
    (ho : ∀ o ∈ outcomes, ∀ found, o.result = .ok found → o.probe.source.endpoint = e →
      (found = true ↔ o.probe.key.Occurs triples)) :
    (outcomes.foldl (record now) c).Reports e triples := by
  induction outcomes generalizing c with
  | nil => exact h
  | cons o rest ih =>
    obtain ⟨hfirst, hrest⟩ := List.forall_mem_cons.1 ho
    refine ih ?_ hrest
    unfold record
    split
    · next found hfound => exact h.update (hfirst found hfound)
    · exact h

/-- What a member answers to a probe is true of its triples, unless its probes fail. -/
theorem of_answer_request {m : Member} {p : Probe} {found : Bool}
    (h : m.answer p.request = .ok (.found found)) :
    m.failProbes = false ∧ found = Store.hasMatch m.triples p.pattern ∅ := by
  cases hfail : m.failProbes with
  | true => simp [Member.answer, Probe.request, Member.isFailing, hfail] at h
  | false =>
    refine ⟨rfl, ?_⟩
    simpa [Member.answer, Probe.request, Member.isFailing, hfail, Store.answer] using h.symm

/-- Outcomes that are true of the triples that endpoints hold. -/
def Outcome.TrueOf (o : Outcome) (e : String) (triples : List Triple) : Prop :=
  o.probe.source.endpoint = e →
    ∀ found, o.result = .ok found → (found = true ↔ o.probe.key.Occurs triples)

/-- What is known after an outcome has been recorded. -/
theorem known_record (time : Nat) {now : Nat} {e : String} {triples : List Triple} {o : Outcome}
    (h : c.Tells now e triples) (ht : c.ttl = none) (ho : o.TrueOf e triples) {p : TriplePattern}
    (hk : c.membership now (.ofPattern p) e ≠ .unknown ∨
      o.probe.subject = (.ofPattern p, e) ∧ ∃ found, o.result = .ok found) :
    (record time c o).membership now (.ofPattern p) e ≠ .unknown := by
  rcases hk with hk | ⟨hsubject, found, hfound⟩
  · unfold record
    split
    · next found hfound => exact h.known_update ht (fun heq => ho heq found hfound) hk
    · exact hk
  · obtain ⟨hkey, hsource⟩ := Prod.mk.inj hsubject
    unfold record
    rw [hfound]
    dsimp only
    rw [hkey, hsource]
    intro hunknown
    have unobserved := (MembershipCache.membership_eq_unknown_iff.1 hunknown).1
    rw [MembershipCache.observed_update ht, if_pos ⟨rfl, .inl rfl⟩] at unobserved
    cases found <;> cases unobserved

theorem tells_record (time : Nat) {now : Nat} {e : String} {triples : List Triple} {o : Outcome}
    (h : c.Tells now e triples) (ht : c.ttl = none) (ho : o.TrueOf e triples) :
    (record time c o).Tells now e triples := by
  unfold record
  split
  · next found hfound => exact h.update ht fun heq => ho heq found hfound
  · exact h

/-- **Where observations do not grow old, recording true outcomes leaves what is told true and what
is known known, and what is recorded is known.** -/
theorem tells_foldl_record (time : Nat) {now : Nat} {e : String} {triples : List Triple}
    {outcomes : List Outcome} (h : c.Tells now e triples) (ht : c.ttl = none)
    (ho : ∀ o ∈ outcomes, o.TrueOf e triples) :
    (outcomes.foldl (record time) c).Tells now e triples ∧
      ∀ p, (c.membership now (.ofPattern p) e ≠ .unknown ∨ ∃ o ∈ outcomes,
          o.probe.subject = (.ofPattern p, e) ∧ ∃ found, o.result = .ok found) →
        (outcomes.foldl (record time) c).membership now (.ofPattern p) e ≠ .unknown := by
  induction outcomes generalizing c with
  | nil =>
    refine ⟨h, fun p hp => hp.resolve_right ?_⟩
    rintro ⟨o, ho, -⟩
    exact absurd ho List.not_mem_nil
  | cons o rest ih =>
    obtain ⟨hfirst, hrest⟩ := List.forall_mem_cons.1 ho
    obtain ⟨tells, known⟩ := ih (tells_record time h ht hfirst)
      ((ttl_record time c o).trans ht) hrest
    refine ⟨tells, fun p hp => known p ?_⟩
    rcases hp with hp | ⟨o', ho', hp⟩
    · exact .inl (known_record time h ht hfirst (.inl hp))
    · rcases List.mem_cons.1 ho' with rfl | ho'
      · exact .inl (known_record time h ht hfirst (.inr hp))
      · exact .inr ⟨o', ho', hp⟩

end Selection

end FederatedSparql
