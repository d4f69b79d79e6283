import FederatedSparql.Endpoint.Member
import FederatedSparql.Endpoint.Remote
import FederatedSparql.Json.Plan

/-!
The JSON form of members, of requests to endpoints and of what comes back.
-/

namespace FederatedSparql.Json

namespace Decode

/-- A member. -/
def member : Decoder Member := fun _ j => do
  let id ← need j "id" string
  let name ← orElse j "name" string id
  let url ← may j "url" string
  let isRemote ← orElse j "remote" bool false
  let triples ← orElse j "triples" (list termTriple) []
  let delay ← orElse j "delay_ms" nat 0
  let prepared ← orElse j "prepared" bool false
  let answers ← may j "answers" (list row)
  let failRequests ← orElse j "fail_requests" bool false
  let failProbes ← orElse j "fail_probes" bool false
  let connectionFaults ← orElse j "connection_faults" bool false
  let failStart ← orElse j "fail_init" bool false
  let failStop ← orElse j "fail_shutdown" bool false
  return {
    id, name, url, triples, delay, prepared, answers, failRequests, failProbes, connectionFaults
    failStart, failStop, locality := if isRemote then .remote else .local }

/-- A change of the failures that a member has been told. -/
def failures (j : Json) : Option (Member → Member) := do
  let failRequests ← may j "fail_requests" bool
  let failProbes ← may j "fail_probes" bool
  let connectionFaults ← may j "connection_faults" bool
  return fun m => { m with
    failRequests := failRequests.getD m.failRequests
    failProbes := failProbes.getD m.failProbes
    connectionFaults := connectionFaults.getD m.connectionFaults }

/-- A request of some kind; none if there is no such kind. -/
def request? (kind : String) (j : Json) : Option (Option Request) := do
  match kind with
  | "has" =>
    let p ← need j "pattern" pattern
    let b ← orElse j "bindings" row ∅
    return some (.has p b)
  | "get" =>
    let ps ← need j "patterns" (list pattern)
    let b ← orElse j "bindings" row ∅
    let filter ← may j "filter" expr
    let projection ← may j "projection" (list string)
    return some (.get ps b filter projection)
  | "bound" =>
    let ps ← need j "patterns" (list pattern)
    let rows ← need j "bindings" (list row)
    let filter ← may j "filter" expr
    return some (.bound ps rows filter)
  | "triples" =>
    let s ← may j "subject" term
    let p ← may j "predicate" term
    let o ← may j "object" term
    return some (.triples s p o)
  | "query" =>
    let text ← need j "query" string
    let b ← orElse j "bindings" row ∅
    return some (.query text b)
  | _ => return none

/-- What comes back for a message. -/
def reply : Decoder HttpReply := fun _ j => do
  let body ← need j "body" string
  match ← may j "fail" string with
  | none => return .response (← need j "status" nat) body
  | some "connect" => return .unreachable body
  | some "timeout" => return .timedOut body
  | some "other" => return .failed body
  | some "body" => return .unreadable body
  | some _ => none

end Decode

/-- An answer. -/
def ofAnswer : Answer → Json
  | .found yes => .bool yes
  | .rows rows => list ofRow rows
  | .triples ts => obj [("triples", list ofTermTriple ts)]

/-- A message. -/
def ofHttpRequest (r : HttpRequest) : Json :=
  let pairs := list fun (p : String × String) => .array [str p.1, str p.2]
  obj [("method", str r.method), ("url", str r.url), ("headers", pairs r.headers),
    ("form", pairs r.form), ("timeout_ms", nat r.timeout)]

end FederatedSparql.Json
