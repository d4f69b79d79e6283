import FederatedSparql.Endpoint.Member
import FederatedSparql.Engine.MembershipCache
import FederatedSparql.Proofs.Algebra.Matching

/-!
What the kind of a pattern decides.

A pattern has a match exactly if its kind fits a triple, so patterns of one kind have matches at the
same endpoints, whatever their variables are called.

* `PatternKey.hasMatch_congr`: one probe is enough for all patterns of a kind.
* `MembershipCache.lookup_cold`: a cache without observations knows nothing.
-/

namespace FederatedSparql

namespace PatternKey

variable {p q : TriplePattern} {t : Triple}

/-- A triple has the fixed terms of a kind, and equal terms where the kind repeats a variable. -/
structure Fits (k : PatternKey) (t : Triple) : Prop where
  subject : ∀ c, k.subject = some c → c = t.subject
  predicate : ∀ c, k.predicate = some c → c = t.predicate
  object : ∀ c, k.object = some c → c = t.object
  subjectPredicate : k.repeated.subjectPredicate = true → t.subject = t.predicate
  subjectObject : k.repeated.subjectObject = true → t.subject = t.object
  predicateObject : k.repeated.predicateObject = true → t.predicate = t.object

theorem exists_of_sameVar {a b : PatternTerm} (h : sameVar a b = true) :
    ∃ v, a = .var v ∧ b = .var v := by
  cases a with
  | const s => cases h
  | var v =>
    cases b with
    | const s => cases h
    | var w => exact ⟨v, rfl, by rw [beq_iff_eq.1 h]⟩

/-- A term that two positions with the same variable resolve to. -/
theorem eq_of_sameVar {a b : PatternTerm} {c : Bindings} {s u : Term} (h : sameVar a b = true)
    (ha : a.resolve? c = some s) (hb : b.resolve? c = some u) : s = u := by
  obtain ⟨v, rfl, rfl⟩ := exists_of_sameVar h
  exact Option.some.inj (ha.symm.trans hb)

theorem eq_of_const? {a : PatternTerm} {c : Bindings} {s u : Term} (h : a.const? = some s)
    (ha : a.resolve? c = some u) : s = u := by
  cases a with
  | var v => cases h
  | const w =>
    obtain rfl : w = s := Option.some.inj h
    exact Option.some.inj ha

/-- The mapping that a position binds to a term, over another one. -/
def assign (a : PatternTerm) (u : Term) (b : Bindings) : Bindings :=
  match a with
  | .var v => b.insert v u
  | .const _ => b

theorem resolve?_assign_self {a : PatternTerm} {u : Term} (h : ∀ s, a.const? = some s → s = u)
    (b : Bindings) : a.resolve? (assign a u b) = some u := by
  cases a with
  | var v => simp [assign, PatternTerm.resolve?]
  | const s => exact congrArg some (h s rfl)

/-- Assigning another position changes nothing if the variable is the same and so is the term. -/
theorem resolve?_assign {a a' : PatternTerm} {u u' : Term} {b : Bindings}
    (h : sameVar a a' = true → u = u') (hb : a'.resolve? b = some u') :
    a'.resolve? (assign a u b) = some u' := by
  cases a' with
  | const s => exact hb
  | var v' =>
    cases a with
    | const s => exact hb
    | var v =>
      rw [assign, PatternTerm.resolve?, Bindings.get?_insert]
      split
      · next hv => exact congrArg some (h (by simp [sameVar, hv]))
      · exact hb

/-- **A pattern matches a triple exactly if its kind fits it.** -/
theorem isSome_match?_iff : (p.match? t).isSome = true ↔ (ofPattern p).Fits t := by
  constructor
  · intro h
    obtain ⟨c, hc⟩ := Option.isSome_iff_exists.1 h
    obtain ⟨hs, hq, ho⟩ := (TriplePattern.match?_eq_some_iff.1 hc).1
    exact ⟨fun _ h => eq_of_const? h hs, fun _ h => eq_of_const? h hq,
      fun _ h => eq_of_const? h ho, fun h => eq_of_sameVar h hs hq,
      fun h => eq_of_sameVar h hs ho, fun h => eq_of_sameVar h hq ho⟩
  · intro h
    let c := assign p.subject t.subject (assign p.predicate t.predicate
      (assign p.object t.object ∅))
    have matched : p.Matches c t := by
      refine ⟨resolve?_assign_self h.subject _, ?_, ?_⟩
      · exact resolve?_assign h.subjectPredicate (resolve?_assign_self h.predicate _)
      · exact resolve?_assign h.subjectObject
          (resolve?_assign h.predicateObject (resolve?_assign_self h.object _))
    have restricted : p.match? t = some (c.restrict fun v => v ∈ p.vars) := by
      refine TriplePattern.match?_eq_some_iff.2 ⟨?_, fun v hv => ?_⟩
      · exact matched.congr fun v hv => by simp [Bindings.get?_restrict, hv]
      · obtain ⟨u, hu⟩ := Bindings.contains_iff.1 hv
        rw [Bindings.get?_restrict] at hu
        by_contra hn
        simp [hn] at hu
    rw [restricted]
    rfl

/-- **Patterns of one kind have matches in the same triples.** -/
theorem hasMatch_congr (h : ofPattern p = ofPattern q) (triples : List Triple) :
    Store.hasMatch triples p ∅ = Store.hasMatch triples q ∅ := by
  unfold Store.hasMatch
  rw [TriplePattern.bind_empty, TriplePattern.bind_empty]
  congr 1
  funext t
  rw [Bool.eq_iff_iff, isSome_match?_iff, isSome_match?_iff, h]

end PatternKey

namespace MembershipCache

/-- A cache without observations knows nothing; it counts the miss. -/
theorem lookup_cold {c : MembershipCache} (h : c.observations = []) (now : Nat) (k : PatternKey)
    (endpoint : String) :
    c.lookup now k endpoint = (.unknown, { c with misses := c.misses + 1 }) := by
  have nothing : ∀ k, c.observed now k endpoint = .unknown := by
    intro k
    rw [observed, h]
    rfl
  have unknown : c.membership now k endpoint = .unknown := by
    rw [membership, nothing]
    cases k.generalized? with
    | none => rfl
    | some general => simp [nothing]
  rw [lookup, unknown]

end MembershipCache

end FederatedSparql
