import FederatedSparql.Algebra.Condition
import FederatedSparql.Endpoint.Request
import FederatedSparql.Endpoint.Tag
import FederatedSparql.Error
import FederatedSparql.Plan.Basic

/-!
Federation members that keep their triples in memory.

A member counts what it is asked, may take its time and may be told to fail.  What it answers
depends on its triples alone: the solutions of a basic graph pattern are found by nested loops over
the stored triples, in order.
-/

namespace FederatedSparql

/-! ### Stored triples -/

namespace Store

/-- The solutions that extend a partial one by a match of a pattern. -/
def extend (triples : List Triple) (p : TriplePattern) (partial_ : Bindings) : List Bindings :=
  triples.filterMap fun t => ((p.bind partial_).match? t).bind partial_.merge?

/-- The solutions of patterns that extend a binding set. -/
def evaluateBgp (triples : List Triple) (patterns : List TriplePattern) (b : Bindings) :
    List Bindings :=
  patterns.foldl (fun solutions p => solutions.flatMap (extend triples p)) [b]

/-- Whether a pattern has a match under a binding set. -/
def hasMatch (triples : List Triple) (p : TriplePattern) (b : Bindings) : Bool :=
  triples.any fun t => ((p.bind b).match? t).isSome

/-- Keeps the variables of a projection and those that were bound before. -/
def projectRow (projection : Option (List String)) (b row : Bindings) : Bindings :=
  match projection with
  | some vars => row.project (vars ++ b.names)
  | none => row

/-- The solutions of patterns that meet a condition and extend a binding set. -/
def solutions (triples : List Triple) (patterns : List TriplePattern) (b : Bindings)
    (filter : Option Expr) (projection : Option (List String)) : List Bindings :=
  ((evaluateBgp triples patterns b).filter (Expr.acceptsAll filter)).map (projectRow projection b)

/-- The solutions under each of some binding sets, tagged with its number. -/
def boundSolutions (triples : List Triple) (patterns : List TriplePattern) (rows : List Bindings)
    (filter : Option Expr) : List Bindings :=
  rows.zipIdx.flatMap fun (b, index) =>
    ((evaluateBgp triples patterns b).filter (Expr.acceptsAll filter)).map
      fun row => Tag.tagRow row index

/-- The triples with the given terms at some positions. -/
def matching (triples : List Triple) (subject predicate object : Option Term) : List Triple :=
  triples.filter fun t => ((TriplePattern.ofPositions subject predicate object).match? t).isSome

/-- The answer to a request for data. -/
def answer (triples : List Triple) : Request → Answer
  | .has p b => .found (hasMatch triples p b)
  | .get ps b filter projection => .rows (solutions triples ps b filter projection)
  | .bound ps rows filter => .rows (boundSolutions triples ps rows filter)
  | .triples s p o => .triples (matching triples s p o)
  | .query _ _ => .rows []

end Store

/-! ### Members -/

/-- A federation member. -/
structure Member where
  id : String
  name : String
  url : Option String := none
  locality : Locality := .local
  triples : List Triple := []
  /-- Milliseconds that every request takes. -/
  delay : Nat := 0
  /-- Whether whole queries are accepted. -/
  prepared : Bool := false
  /-- The solutions of every whole query, if there are any to give. -/
  answers : Option (List Bindings) := none
  failRequests : Bool := false
  failProbes : Bool := false
  /-- Whether failures are faults of the connection. -/
  connectionFaults : Bool := false
  failStart : Bool := false
  failStop : Bool := false
  requests : Nat := 0
  probes : Nat := 0
  repairs : Nat := 0
  /-- Starts, stops and whole queries, in order. -/
  log : List String := []
deriving Repr, Inhabited

namespace Member

/-- The source that the member is. -/
def source (m : Member) : Source := ⟨m.id, m.locality⟩

/-- What failures call a request. -/
def operationName : Request → String
  | .has .. => "probe"
  | _ => "request"

/-- Whether the member has been told to fail such a request. -/
def isFailing (m : Member) : Request → Bool
  | .has .. => m.failProbes
  | _ => m.failRequests

/-- The failure of a request. -/
def failure (m : Member) (r : Request) : EndpointError :=
  if m.connectionFaults then
    .connection m.id (operationName r ++ " failed: connection refused")
  else remoteFailure m.id ("simulated " ++ operationName r ++ " failure") ""

/-- Counts a request when it arrives. -/
def receive (m : Member) : Request → Member
  | .has .. => { m with probes := m.probes + 1 }
  | .query text _ => { m with log := m.log ++ [text] }
  | _ => { m with requests := m.requests + 1 }

/-- How long a request takes; whole queries are answered at once. -/
def latency (m : Member) : Request → Nat
  | .query .. => 0
  | _ => m.delay

/-- The answer to a whole query. -/
def answerQuery (m : Member) (b : Bindings) : Except FedError Answer :=
  match m.answers with
  | some rows => .ok (.rows (rows.filterMap b.merge?))
  | none => .error (.endpoint (.unsupported m.id "prepared queries"))

/-- The answer to a request. -/
def answer (m : Member) (r : Request) : Except FedError Answer :=
  match r with
  | .query _ b => m.answerQuery b
  | r => if m.isFailing r then .error (.endpoint (m.failure r)) else .ok (Store.answer m.triples r)

/-- Makes a request, which is counted, and gives the answer. -/
def ask (m : Member) (r : Request) : Except FedError Answer × Member :=
  let m := m.receive r
  (m.answer r, m)

/-- Starts the member. -/
def start (m : Member) : Except FedError Unit × Member :=
  let m := { m with log := m.log ++ ["initialize"] }
  (if m.failStart then .error (.configuration (.cannotStart m.id)) else .ok (), m)

/-- Stops the member. -/
def stop (m : Member) : Except FedError Unit × Member :=
  let m := { m with log := m.log ++ ["shutdown"] }
  (if m.failStop then .error (.configuration (.cannotStop m.id)) else .ok (), m)

/-- Repairs the connection. -/
def repair (m : Member) : Member := { m with repairs := m.repairs + 1 }

/-- Forgets how many requests there were. -/
def resetCounters (m : Member) : Member := { m with requests := 0, probes := 0 }

/-- Stores another triple. -/
def addTriple (m : Member) (t : Triple) : Member := { m with triples := m.triples ++ [t] }

end Member

end FederatedSparql
