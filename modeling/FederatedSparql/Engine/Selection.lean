import FederatedSparql.Config
import FederatedSparql.Endpoint.Registry
import FederatedSparql.Engine.MembershipCache
import FederatedSparql.Engine.QueryContext

/-!
Which endpoints hold matches for which patterns.

What is known from earlier probes is taken from the cache; everything else is probed, each kind of
pattern at each endpoint once.  Probes run side by side, as many as the settings allow, and what
they bring is recorded only when all are back in time.
-/

namespace FederatedSparql.Selection

/-- What selecting sources uses and changes. -/
structure State where
  registry : Registry
  cache : MembershipCache
  now : Nat

/-- A probe that has to be made. -/
structure Probe where
  key : PatternKey
  pattern : TriplePattern
  source : Source
  /-- The numbers of the patterns that the outcome is for. -/
  wantedBy : List Nat

/-- What is known, and what has to be found out. -/
structure Inquiry where
  /-- Patterns by their numbers, and sources of theirs. -/
  found : List (Nat × Source) := []
  /-- The probes to make, in the order in which the need for them arose. -/
  probes : List Probe := []

namespace Inquiry

/-- Adds a pattern to the probe of its kind, or a probe for it. -/
def ask (key : PatternKey) (pattern : TriplePattern) (number : Nat) (source : Source) :
    List Probe → List Probe
  | [] => [⟨key, pattern, source, [number]⟩]
  | p :: rest =>
    if p.key = key ∧ p.source.endpoint = source.endpoint then
      { p with wantedBy := p.wantedBy ++ [number] } :: rest
    else p :: ask key pattern number source rest

/-- Looks up one pattern at one endpoint. -/
def consult (number : Nat) (pattern : TriplePattern) (now : Nat) (q : Inquiry × MembershipCache)
    (source : Source) : Inquiry × MembershipCache :=
  let key := PatternKey.ofPattern pattern
  let (q, cache) := q
  match cache.lookup now key source.endpoint with
  | (.confirmed, cache) => ({ q with found := q.found ++ [(number, source)] }, cache)
  | (.absent, cache) => (q, cache)
  | (.unknown, cache) => ({ q with probes := ask key pattern number source q.probes }, cache)

/-- Looks up all patterns at all endpoints. -/
def ofPatterns (patterns : List TriplePattern) (s : State) : Inquiry × MembershipCache :=
  let sources := s.registry.members.map (·.source)
  patterns.zipIdx.foldl (fun q p => sources.foldl (consult p.2 p.1 s.now) q) ({}, s.cache)

end Inquiry

/-! ### Probes -/

/-- A probe, and what it brought. -/
structure Outcome where
  probe : Probe
  result : Except FedError Bool

/-- Probes that are to be made, and those under way with the times of their answers. -/
structure Flight where
  waiting : List Probe
  underway : List (Nat × Probe) := []

/-- Puts a probe behind those that are answered before it or at the same time. -/
def insertByTime (p : Nat × Probe) : List (Nat × Probe) → List (Nat × Probe)
  | [] => [p]
  | q :: rest => if p.1 < q.1 then p :: q :: rest else q :: insertByTime p rest

/-- The request that a probe makes. -/
def Probe.request (p : Probe) : Request := .has p.pattern ∅

/-- Sends probes, so many at most. -/
def launch : Nat → Flight → State → Flight × State
  | 0, f, s => (f, s)
  | room + 1, f, s =>
    match f.waiting with
    | [] => (f, s)
    | p :: waiting =>
      let delay := ((s.registry.known? p.source.endpoint).map (·.latency p.request)).getD 0
      launch room { waiting, underway := insertByTime (s.now + delay, p) f.underway }
        { s with registry := s.registry.update p.source.endpoint (·.receive p.request) }

/-- The answer to a probe. -/
def resultOf (s : State) (p : Probe) : Except FedError Bool :=
  match s.registry.known? p.source.endpoint with
  | some m => (m.answer p.request).map (·.isFound)
  | none => .error (.endpoint (.unknownEndpoint p.source.endpoint))

/-- Makes probes, `room` at a time, and gives their outcomes in the order of the answers; nothing if
the deadline passes first.  Every round brings one answer, so there are as many rounds as probes. -/
def runProbes (room : Nat) (deadline : Option Nat) :
    Nat → Flight → List Outcome → State → Option (List Outcome) × State
  | 0, _, outcomes, s => (some outcomes, s)
  | rounds + 1, f, outcomes, s =>
    let (f, s) := launch (room - f.underway.length) f s
    match f.underway with
    | [] => (some outcomes, s)
    | (due, p) :: underway =>
      match deadline.filter fun d => max d s.now < due with
      | some d => (none, { s with now := max d s.now })
      | none =>
        let s := { s with now := max due s.now }
        runProbes room deadline rounds { f with underway } (outcomes ++ [⟨p, resultOf s p⟩]) s

/-! ### Sources -/

/-- Records what a probe brought. -/
def record (now : Nat) (cache : MembershipCache) (o : Outcome) : MembershipCache :=
  match o.result with
  | .ok hasData => cache.update now o.probe.key o.probe.source.endpoint hasData
  | .error _ => cache

/-- The sources that a probe brought. -/
def Outcome.found (o : Outcome) : List (Nat × Source) :=
  match o.result with
  | .ok true => o.probe.wantedBy.map fun number => (number, o.probe.source)
  | _ => []

/-- The first failure of a probe for a pattern. -/
def failureOf? (outcomes : List Outcome) (number : Nat) : Option FedError :=
  outcomes.findSome? fun o =>
    match o.result with
    | .error e => if o.probe.wantedBy.contains number then some e else none
    | .ok _ => none

/-- The sources of a pattern, by ascending ids. -/
def sourcesOf (found : List (Nat × Source)) (number : Nat) : List Source :=
  (found.filterMap fun f => if f.1 = number then some f.2 else none).mergeSort
    fun a b => decide (a.endpoint ≤ b.endpoint)

/-- The sources of patterns.  Under `failOnUnresolvedSources` a pattern without a source is an error
if a probe for it failed. -/
def select (config : SourceSelectionConfig) (query : QueryContext) (patterns : List TriplePattern)
    (s : State) : Except FedError (List (List Source)) × State :=
  match query.checkAborted with
  | .error e => (.error e, s)
  | .ok () =>
    let (inquiry, cache) := Inquiry.ofPatterns patterns s
    let s := { s with cache := cache }
    let count := inquiry.probes.length
    let room := if config.probeConcurrency = 0 then max count 1 else config.probeConcurrency
    let deadline := if count = 0 then none else query.deadline
    match runProbes room deadline count { waiting := inquiry.probes } [] s with
    | (none, s) => (.error (.timeout (.duringSourceSelection query.id)), s)
    | (some outcomes, s) =>
      let s := { s with cache := outcomes.foldl (record s.now) s.cache }
      let found := inquiry.found ++ outcomes.flatMap (·.found)
      let numbers := List.range patterns.length
      let unresolved := numbers.findSome? fun number =>
        if (sourcesOf found number).isEmpty then failureOf? outcomes number else none
      match config.failOnUnresolvedSources, unresolved with
      | true, some e => (.error e, s)
      | _, _ => (.ok (numbers.map (sourcesOf found)), s)

end FederatedSparql.Selection
