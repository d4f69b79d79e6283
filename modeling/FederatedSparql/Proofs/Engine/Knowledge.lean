import FederatedSparql.Proofs.Engine.Membership

/-!
What a cache of probe outcomes says of the triples that endpoints hold.

An observation is kept for a kind of pattern, but it was made with one pattern, and it is used for
the kind of the predicate too.  Both are sound because a kind decides which triples a pattern
matches, and a triple that fits a kind fits the kind of its predicate.

* `MembershipCache.Reports.membership_holds`: a cache whose observations are true of some triples
  tells nothing else of them.
* `MembershipCache.lookup_holds`: if the outcomes that are recorded are true, whatever else is done
  with a cache, every lookup is true.
-/

namespace FederatedSparql

namespace PatternKey

variable {k g : PatternKey} {p : TriplePattern} {t : Triple} {triples : List Triple}

/-- A kind of pattern has a match among some triples. -/
def Occurs (k : PatternKey) (triples : List Triple) : Prop := ∃ t ∈ triples, k.Fits t

/-- The more general kind keeps the predicate and is another one. -/
theorem of_generalized? (hg : k.generalized? = some g) :
    k ≠ g ∧ g = ⟨none, k.predicate, none, ⟨false, false, false⟩⟩ := by
  unfold generalized? at hg
  dsimp only at hg
  split at hg
  · cases hg
  · next hne =>
    cases hg
    exact ⟨hne, rfl⟩

/-- What fits a kind fits the kind of its predicate. -/
theorem Fits.generalized (h : k.Fits t) (hg : k.generalized? = some g) : g.Fits t := by
  obtain ⟨-, rfl⟩ := of_generalized? hg
  exact ⟨nofun, h.predicate, nofun, nofun, nofun, nofun⟩

theorem Occurs.generalized (h : k.Occurs triples) (hg : k.generalized? = some g) :
    g.Occurs triples := by
  obtain ⟨t, ht, hfits⟩ := h
  exact ⟨t, ht, hfits.generalized hg⟩

/-- The kind of a pattern occurs where the pattern has a match. -/
theorem occurs_ofPattern_iff :
    (ofPattern p).Occurs triples ↔ ∃ t ∈ triples, (p.match? t).isSome = true := by
  constructor
  · rintro ⟨t, ht, hfits⟩
    exact ⟨t, ht, isSome_match?_iff.2 hfits⟩
  · rintro ⟨t, ht, hmatch⟩
    exact ⟨t, ht, isSome_match?_iff.1 hmatch⟩

/-- A probe tells whether the kind of its pattern occurs. -/
theorem hasMatch_iff_occurs :
    Store.hasMatch triples p ∅ = true ↔ (ofPattern p).Occurs triples := by
  rw [occurs_ofPattern_iff, Store.hasMatch, TriplePattern.bind_empty, List.any_eq_true]

end PatternKey

/-- What is said of something that is so or is not so. -/
def Membership.Holds (m : Membership) (found : Prop) : Prop :=
  match m with
  | .confirmed => found
  | .absent => ¬ found
  | .unknown => True

theorem Membership.Holds.congr {m : Membership} {found found' : Prop} (h : m.Holds found)
    (hiff : found ↔ found') : m.Holds found' := by
  cases m with
  | confirmed => exact hiff.1 h
  | absent => exact fun hfound => h (hiff.2 hfound)
  | unknown => trivial

namespace MembershipCache

variable {c : MembershipCache} {k : PatternKey} {e endpoint : String} {triples : List Triple}
  {now : Nat}

/-! ### Observations that are true -/

/-- All that has been observed at an endpoint is true of some triples. -/
def Reports (c : MembershipCache) (e : String) (triples : List Triple) : Prop :=
  ∀ (k : PatternKey) (o : Observation), ((k, e), o) ∈ c.observations →
    (o.hasData = true ↔ k.Occurs triples)

theorem reports_empty (ttl : Option Nat) (e : String) (triples : List Triple) :
    Reports { ttl } e triples := by
  intro k o ho
  exact absurd ho List.not_mem_nil

/-- Only the observations matter. -/
theorem Reports.congr (h : c.Reports e triples) {c' : MembershipCache}
    (hsame : ∀ k o, ((k, e), o) ∈ c'.observations → ((k, e), o) ∈ c.observations) :
    c'.Reports e triples := fun k o ho => h k o (hsame k o ho)

theorem observations_lookup (c : MembershipCache) (now : Nat) (k : PatternKey) (e : String) :
    (c.lookup now k e).2.observations = c.observations := by
  unfold lookup
  split <;> rfl

theorem ttl_lookup (c : MembershipCache) (now : Nat) (k : PatternKey) (e : String) :
    (c.lookup now k e).2.ttl = c.ttl := by
  unfold lookup
  split <;> rfl

theorem fst_lookup (c : MembershipCache) (now : Nat) (k : PatternKey) (e : String) :
    (c.lookup now k e).1 = c.membership now k e := by
  unfold lookup
  split
  · next h => exact h.symm
  · rfl

theorem Reports.lookup (h : c.Reports e triples) (now : Nat) (k : PatternKey) (e' : String) :
    (c.lookup now k e').2.Reports e triples :=
  h.congr fun k' o ho => by rwa [observations_lookup] at ho

theorem mem_observations_record {k' : PatternKey} {e' : String} {o o' : Observation}
    (h : ((k', e'), o') ∈ (c.record k e o).observations) :
    (k' = k ∧ e' = e ∧ o' = o) ∨ ((k', e'), o') ∈ c.observations := by
  rcases List.mem_cons.1 h with heq | hold
  · cases heq
    exact .inl ⟨rfl, rfl, rfl⟩
  · exact .inr (List.mem_of_mem_filter hold)

/-- An observation that is true of an endpoint, or made at another one, may be recorded. -/
theorem Reports.record (h : c.Reports e triples) {o : Observation}
    (ho : endpoint = e → (o.hasData = true ↔ k.Occurs triples)) :
    (c.record k endpoint o).Reports e triples := by
  intro k' o' hmem
  rcases mem_observations_record hmem with ⟨rfl, heq, rfl⟩ | hold
  · exact ho heq.symm
  · exact h k' o' hold

/-- A true outcome may be recorded: what it says of the predicate is true as well. -/
theorem Reports.update (h : c.Reports e triples) {hasData : Bool}
    (hdata : endpoint = e → (hasData = true ↔ k.Occurs triples)) :
    (c.update now k endpoint hasData).Reports e triples := by
  have recorded : (c.record k endpoint ⟨hasData, now⟩).Reports e triples := h.record hdata
  unfold MembershipCache.update
  cases hg : k.generalized? with
  | none => exact recorded
  | some g =>
    cases hasData with
    | false => exact recorded
    | true =>
      refine recorded.record fun heq => ?_
      exact iff_of_true rfl (((hdata heq).1 rfl).generalized hg)

theorem Reports.invalidate (h : c.Reports e triples) (endpoint : String) :
    (c.invalidate endpoint).Reports e triples :=
  h.congr fun _ _ ho => List.mem_of_mem_filter ho

/-- Nothing is said of an endpoint that has been forgotten. -/
theorem reports_invalidate (c : MembershipCache) (e : String) (triples : List Triple) :
    (c.invalidate e).Reports e triples := by
  intro k o ho
  have := (List.mem_filter.1 ho).2
  simp at this

theorem reports_clear (c : MembershipCache) (e : String) (triples : List Triple) :
    c.clear.Reports e triples := by
  intro k o ho
  exact absurd ho List.not_mem_nil

/-! ### What follows from true observations -/

theorem Reports.observed_holds (h : c.Reports e triples) (now : Nat) (k : PatternKey) :
    (c.observed now k e).Holds (k.Occurs triples) := by
  unfold observed
  split
  · next o ho =>
    obtain ⟨before, behind, heq, -⟩ := List.lookup_eq_some_iff.1 ho
    have htrue := h k o (heq ▸ List.mem_append_right _ List.mem_cons_self)
    cases hfresh : c.isFresh now o with
    | false => trivial
    | true =>
      cases hdata : o.hasData with
      | true => exact htrue.1 hdata
      | false => exact fun hoccurs => by simp [htrue.2 hoccurs] at hdata
  · trivial

/-- **A cache of true observations tells nothing that is false.**  What it says of a kind that has
not been observed follows from what it knows of the predicate. -/
theorem Reports.membership_holds (h : c.Reports e triples) (now : Nat) (k : PatternKey) :
    (c.membership now k e).Holds (k.Occurs triples) := by
  have direct := h.observed_holds now k
  unfold membership
  split
  · split
    · next g hg =>
      by_cases habsent : c.observed now g e = .absent
      · rw [if_pos habsent]
        have general := h.observed_holds now g
        rw [habsent] at general
        exact fun hoccurs => general (hoccurs.generalized hg)
      · rw [if_neg habsent]
        trivial
    · trivial
  · exact direct

/-! ### What is known -/

/-- Knowledge depends on the observations and on how long they count. -/
theorem membership_congr {c' : MembershipCache} (ho : c'.observations = c.observations)
    (ht : c'.ttl = c.ttl) (now : Nat) (k : PatternKey) (e : String) :
    c'.membership now k e = c.membership now k e := by
  have fresh : ∀ o, c'.isFresh now o = c.isFresh now o := by
    intro o
    rw [isFresh, isFresh, ht]
  have same : ∀ k, c'.observed now k e = c.observed now k e := by
    intro k
    simp only [observed, fresh, ho]
  simp only [membership, same]

theorem isFresh_of_young {o : Observation}
    (h : ∀ age, c.ttl = some age → now - o.recordedAt < age) :
    c.isFresh now o = true := by
  unfold isFresh
  split
  · next age hage => exact decide_eq_true (h age hage)
  · rfl

/-- What has been observed is known as long as it is fresh. -/
theorem membership_of_fresh {o : Observation} (ho : c.observations.lookup (k, e) = some o)
    (hfresh : c.isFresh now o = true) :
    c.membership now k e = if o.hasData then .confirmed else .absent := by
  have known : c.observed now k e = if o.hasData then .confirmed else .absent := by
    simp only [observed, ho, hfresh, if_true]
  rw [membership, known]
  cases o.hasData <;> rfl

/-- An outcome that has been recorded stands under the kind of its pattern. -/
theorem lookup_observations_update (c : MembershipCache) (now : Nat) (k : PatternKey) (e : String)
    (hasData : Bool) :
    (c.update now k e hasData).observations.lookup (k, e) = some ⟨hasData, now⟩ := by
  have recorded : (c.record k e ⟨hasData, now⟩).observations.lookup (k, e) =
      some ⟨hasData, now⟩ := List.lookup_cons_self
  unfold update
  cases hg : k.generalized? with
  | none => exact recorded
  | some g =>
    cases hasData with
    | false => exact recorded
    | true =>
      -- the observation for the predicate stands in front and hides nothing of another kind
      obtain ⟨hne, -⟩ := PatternKey.of_generalized? hg
      have hkey : ((k, e) == (g, e)) = false := by simpa using hne
      simp [record, List.lookup_cons, hkey, hne]

theorem ttl_update (c : MembershipCache) (now : Nat) (k : PatternKey) (e : String)
    (hasData : Bool) : (c.update now k e hasData).ttl = c.ttl := by
  unfold update
  split
  · split <;> rfl
  · rfl

end MembershipCache

/-! ### Runs -/

/-- Something that is done with a cache at some time. -/
inductive CacheStep where
  /-- The outcome of probing an endpoint for a pattern is recorded. -/
  | update (now : Nat) (p : TriplePattern) (endpoint : String)
  | lookup (now : Nat) (p : TriplePattern) (endpoint : String)
  | invalidate (endpoint : String)
  | clear

namespace MembershipCache

variable {c : MembershipCache} {e : String}

/-- Does something with a cache.  Endpoints hold some triples each, and probing one tells whether
the pattern has a match among them. -/
def perform (data : String → List Triple) (c : MembershipCache) : CacheStep → MembershipCache
  | .update now p e => c.update now (.ofPattern p) e (Store.hasMatch (data e) p ∅)
  | .lookup now p e => (c.lookup now (.ofPattern p) e).2
  | .invalidate e => c.invalidate e
  | .clear => c.clear

variable {data : String → List Triple}

/-- True observations remain true, whatever is done. -/
theorem Reports.perform (h : c.Reports e (data e)) (step : CacheStep) :
    (c.perform data step).Reports e (data e) := by
  cases step with
  | update now p endpoint =>
    refine h.update fun heq => ?_
    rw [heq]
    exact PatternKey.hasMatch_iff_occurs
  | lookup now p endpoint => exact h.lookup now _ endpoint
  | invalidate endpoint => exact h.invalidate endpoint
  | clear => exact reports_clear c e (data e)

theorem Reports.foldl_perform (h : c.Reports e (data e)) (steps : List CacheStep) :
    (steps.foldl (MembershipCache.perform data) c).Reports e (data e) := by
  induction steps generalizing c with
  | nil => exact h
  | cons step steps ih => exact ih (h.perform step)

theorem ttl_perform (data : String → List Triple) (c : MembershipCache) (step : CacheStep) :
    (c.perform data step).ttl = c.ttl := by
  cases step with
  | update now p endpoint => exact ttl_update c now _ endpoint _
  | lookup now p endpoint => exact ttl_lookup c now _ endpoint
  | invalidate endpoint => rfl
  | clear => rfl

theorem ttl_foldl_perform (data : String → List Triple) (c : MembershipCache)
    (steps : List CacheStep) : (steps.foldl (perform data) c).ttl = c.ttl := by
  induction steps generalizing c with
  | nil => rfl
  | cons step steps ih => exact (ih _).trans (ttl_perform data c step)

/-- **A cache never lies about triples that stay as they are.**  Whatever has been recorded, looked
up and forgotten, and in whatever order, a lookup that answers tells whether the pattern has a match
at the endpoint; and it does answer for all patterns of a kind that has just been probed, until the
outcome is too old. -/
theorem lookup_holds (data : String → List Triple) (ttl : Option Nat) (steps : List CacheStep)
    (q : TriplePattern) (e : String) (now : Nat) :
    let c := steps.foldl (perform data) { ttl }
    (c.lookup now (.ofPattern q) e).1.Holds (∃ t ∈ data e, (q.match? t).isSome = true) ∧
      ∀ p recordedAt, PatternKey.ofPattern p = .ofPattern q →
        (∀ age, ttl = some age → now - recordedAt < age) →
          ((c.perform data (.update recordedAt p e)).lookup now (.ofPattern q) e).1 ≠ .unknown := by
  intro c
  constructor
  · rw [fst_lookup]
    have reports := (reports_empty ttl e (data e)).foldl_perform steps
    exact (reports.membership_holds now _).congr PatternKey.occurs_ofPattern_iff
  · intro p recordedAt hkind hyoung
    rw [fst_lookup, ← hkind]
    have httl : (c.perform data (.update recordedAt p e)).ttl = ttl :=
      (ttl_perform data c _).trans (ttl_foldl_perform data { ttl } steps)
    have known := membership_of_fresh (c := c.perform data (.update recordedAt p e))
      (lookup_observations_update c recordedAt _ e _)
      (isFresh_of_young fun age hage => hyoung age (httl.symm.trans hage))
    rw [known]
    split <;> exact nofun

/-- A pattern that repeats a variable is of a kind of its own: that it has no match says nothing
about the predicate. -/
example :
    let data := fun _ : String => [(⟨.iri "s", .iri "p", .iri "o"⟩ : Triple)]
    let loops : TriplePattern := ⟨.var "x", .const (.iri "p"), .var "x"⟩
    let all : TriplePattern := ⟨.var "s", .const (.iri "p"), .var "o"⟩
    let c := [.update 0 loops "e", .update 5 all "e"].foldl (perform data) ({} : MembershipCache)
    (c.lookup 9 (.ofPattern loops) "e").1 = .absent ∧
      (c.lookup 9 (.ofPattern all) "e").1 = .confirmed := by
  decide

end MembershipCache

end FederatedSparql
