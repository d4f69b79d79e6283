import FederatedSparql.Endpoint.QueryText
import FederatedSparql.Endpoint.Request
import FederatedSparql.Endpoint.Results
import FederatedSparql.Endpoint.StatusPhrase
import FederatedSparql.Plan.Basic
import FederatedSparql.Url.Reader

/-!
Federation members behind the SPARQL protocol: the query that each request becomes, the message it
is sent in, and how replies are understood.
-/

namespace FederatedSparql

/-- A member behind the SPARQL protocol. -/
structure Remote where
  id : String
  name : String
  url : String
  /-- Whether it answers questions; otherwise it is asked for one solution. -/
  asks : Bool := true
  /-- Milliseconds that a reply may take. -/
  timeout : Nat := 30000
deriving DecidableEq, Repr, Inhabited

/-- A message that carries a query. -/
structure HttpRequest where
  method : String
  url : String
  headers : List (String × String)
  form : List (String × String)
  timeout : Nat
deriving DecidableEq, Repr, Inhabited

/-- What comes back for a message. -/
inductive HttpReply where
  | response (status : Nat) (body : String)
  /-- A response of which the body could not be read. -/
  | unreadable (reason : String)
  | unreachable (reason : String)
  | timedOut (reason : String)
  /-- No response for any other reason. -/
  | failed (reason : String)
deriving DecidableEq, Repr, Inhabited

namespace Remote

/-- The member at a URL, which has to be absolute; it is named by its id. -/
def connect (id url : String) : Except FedError Remote :=
  match Url.read? url with
  | some u => .ok { id, name := id, url := u.write }
  | none => .error (.configuration (.invalidUrl url))

/-- The source that the member is. -/
def source (m : Remote) : Source := ⟨m.id, .remote⟩

/-- Whole queries are accepted. -/
def isPrepared (_ : Remote) : Bool := true

/-! ### Requests -/

/-- The message that carries a query. -/
def post (m : Remote) (query : String) : HttpRequest where
  method := "POST"
  url := m.url
  headers := [("accept", "application/sparql-results+json")]
  form := [("query", query)]
  timeout := m.timeout

/-- The query whether a pattern has a match. -/
def probeText (m : Remote) (p : TriplePattern) (b : Bindings) : String :=
  if m.asks then QueryText.ask p b else QueryText.selectOne p b

/-- The query that a request becomes. -/
def queryText (m : Remote) : Request → Except FedError String
  | .has p b => .ok (m.probeText p b)
  | .get ps b filter projection => QueryText.select ps b filter projection
  | .bound ps rows filter => QueryText.boundJoin ps rows filter
  | .triples s p o =>
    let pattern := TriplePattern.ofPositions s p o
    if pattern.isFullyBound then .ok (m.probeText pattern ∅)
    else QueryText.select [pattern] ∅ none none
  | .query text _ => .ok text

/-! ### Replies -/

/-- What a failure adds about the query. -/
def queryInfo (query : String) : String := "Query: " ++ query

/-- The failure that an unsuccessful response reports. -/
def statusFailure (m : Remote) (query : String) (status : Nat) (body : String) : FedError :=
  let report :=
    if (Text.trimBlanks body.toList).isEmpty then
      "HTTP request failed with status: " ++ toString status ++ " " ++ statusPhrase status
    else body
  .endpoint (remoteFailure m.id report (queryInfo query))

/-- The result document in the reply to a query. -/
def results (m : Remote) (query : String) : HttpReply → Except FedError Results
  | .unreachable reason => .error (.endpoint (.connection m.id reason))
  | .timedOut reason => .error (.endpoint (.connection m.id reason))
  | .failed reason => .error (.endpoint (remoteFailure m.id reason ""))
  | .unreadable reason =>
    .error (.endpoint (.connection m.id ("Failed to read response: " ++ reason)))
  | .response status body =>
    if 200 ≤ status ∧ status < 300 then
      match Results.parse body with
      | .ok r => .ok r
      | .error e => .error (.endpoint (remoteFailure m.id e.message (queryInfo query)))
    else .error (m.statusFailure query status body)

/-- Whether a result document confirms a match. -/
def confirms (m : Remote) (r : Results) : Except FedError Bool :=
  if m.asks then .ok (r.boolean.getD false) else do return !(← r.rows).isEmpty

/-- The triple that a solution of a pattern means. -/
def tripleOf? (pattern : TriplePattern) (row : Bindings) : Option Triple := do
  return ⟨← pattern.subject.resolve? row, ← pattern.predicate.resolve? row,
    ← pattern.object.resolve? row⟩

/-- The answer that a result document gives to a request. -/
def answer (m : Remote) (r : Results) : Request → Except FedError Answer
  | .has _ _ => do return .found (← m.confirms r)
  | .get _ b _ _ => do return .rows ((← r.rows).filterMap b.merge?)
  | .bound _ _ _ => do return .rows (← r.rows)
  | .triples s p o => do
    let pattern := TriplePattern.ofPositions s p o
    if pattern.isFullyBound then
      let yes ← m.confirms r
      return .triples (if yes then (tripleOf? pattern ∅).toList else [])
    else return .triples ((← r.rows).filterMap (tripleOf? pattern))
  | .query _ b =>
    match r.boolean with
    | some yes => .ok (.rows (if yes then [b] else []))
    | none => do return .rows ((← r.rows).filterMap b.merge?)

/-- Sends a request through a transport and gives the answer; what cannot be put into a query is not
sent. -/
def ask {σ : Type} (m : Remote) (send : HttpRequest → σ → HttpReply × σ) (r : Request)
    (s : σ) : Except FedError Answer × σ :=
  match m.queryText r with
  | .error e => (.error e, s)
  | .ok query =>
    let (reply, s) := send (m.post query) s
    ((m.results query reply).bind fun document => m.answer document r, s)

end Remote

end FederatedSparql
