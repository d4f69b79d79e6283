import FederatedSparql.Algebra.TriplePattern

/-!
What is known about which endpoints hold matches for which patterns.

Knowledge is kept per kind of pattern: its fixed terms by position and which positions repeat a
variable.  An endpoint that has nothing for a pattern's predicate has nothing for the pattern
either, and a match for a pattern is one for its predicate.
-/

namespace FederatedSparql

/-- Which positions of a pattern hold the same variable. -/
structure Repetition where
  subjectPredicate : Bool
  subjectObject : Bool
  predicateObject : Bool
deriving DecidableEq, Repr, Inhabited

/-- The repetition as a set of bits. -/
def Repetition.bits (r : Repetition) : Nat :=
  r.subjectPredicate.toNat + 2 * r.subjectObject.toNat + 4 * r.predicateObject.toNat

/-- The kind of a pattern. -/
structure PatternKey where
  subject : Option Term
  predicate : Option Term
  object : Option Term
  repeated : Repetition
deriving DecidableEq, Repr, Inhabited

namespace PatternKey

/-- Whether two positions hold the same variable. -/
def sameVar : PatternTerm → PatternTerm → Bool
  | .var a, .var b => a == b
  | _, _ => false

/-- The kind of a pattern. -/
def ofPattern (p : TriplePattern) : PatternKey where
  subject := p.subject.const?
  predicate := p.predicate.const?
  object := p.object.const?
  repeated := ⟨sameVar p.subject p.predicate, sameVar p.subject p.object,
    sameVar p.predicate p.object⟩

/-- The kind that keeps the predicate only, unless this is one. -/
def generalized? (k : PatternKey) : Option PatternKey :=
  let general : PatternKey := ⟨none, k.predicate, none, ⟨false, false, false⟩⟩
  if k = general then none else some general

end PatternKey

/-- What is known about a kind of pattern and an endpoint. -/
inductive Membership where
  | confirmed
  | absent
  /-- Nothing, or nothing any more. -/
  | unknown
deriving DecidableEq, Repr, Inhabited

/-- The outcome of a probe and when it was recorded, in milliseconds. -/
structure Observation where
  hasData : Bool
  recordedAt : Nat
deriving DecidableEq, Repr, Inhabited

/-- The observations of all probes, and how often they were of use. -/
structure MembershipCache where
  /-- Milliseconds after which an observation is disregarded. -/
  ttl : Option Nat := none
  /-- The last observation for each kind of pattern and endpoint. -/
  observations : List ((PatternKey × String) × Observation) := []
  hits : Nat := 0
  misses : Nat := 0
deriving Repr, Inhabited

namespace MembershipCache

/-- Whether an observation still counts. -/
def isFresh (c : MembershipCache) (now : Nat) (o : Observation) : Bool :=
  match c.ttl with
  | some ttl => now - o.recordedAt < ttl
  | none => true

/-- What has been observed for exactly this kind of pattern. -/
def observed (c : MembershipCache) (now : Nat) (k : PatternKey) (endpoint : String) : Membership :=
  match c.observations.lookup (k, endpoint) with
  | some o =>
    if c.isFresh now o then (if o.hasData then .confirmed else .absent) else .unknown
  | none => .unknown

/-- What follows from the observations: that of the kind itself, or else absence for its
predicate. -/
def membership (c : MembershipCache) (now : Nat) (k : PatternKey) (endpoint : String) :
    Membership :=
  match c.observed now k endpoint with
  | .unknown =>
    match k.generalized? with
    | some general => if c.observed now general endpoint = .absent then .absent else .unknown
    | none => .unknown
  | m => m

/-- Looks up and counts a hit or a miss. -/
def lookup (c : MembershipCache) (now : Nat) (k : PatternKey) (endpoint : String) :
    Membership × MembershipCache :=
  match c.membership now k endpoint with
  | .unknown => (.unknown, { c with misses := c.misses + 1 })
  | m => (m, { c with hits := c.hits + 1 })

/-- Records one observation. -/
def record (c : MembershipCache) (k : PatternKey) (endpoint : String) (o : Observation) :
    MembershipCache :=
  { c with
    observations := ((k, endpoint), o) :: c.observations.filter fun e => e.1 != (k, endpoint) }

/-- Records the outcome of a probe; a match is also one for the predicate. -/
def update (c : MembershipCache) (now : Nat) (k : PatternKey) (endpoint : String)
    (hasData : Bool) : MembershipCache :=
  let o : Observation := ⟨hasData, now⟩
  let c := c.record k endpoint o
  match k.generalized? with
  | some general => if hasData then c.record general endpoint o else c
  | none => c

/-- Forgets what is known about an endpoint. -/
def invalidate (c : MembershipCache) (endpoint : String) : MembershipCache :=
  { c with observations := c.observations.filter fun e => e.1.2 != endpoint }

/-- Forgets everything but the counts of hits and misses. -/
def clear (c : MembershipCache) : MembershipCache := { c with observations := [] }

/-- The number of kinds of pattern about which anything is known. -/
def size (c : MembershipCache) : Nat := (c.observations.map (·.1.1)).eraseDups.length

end MembershipCache

end FederatedSparql
