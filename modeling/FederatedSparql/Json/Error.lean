import FederatedSparql.Json.Basic
import FederatedSparql.Error

/-!
The JSON form of errors: the kind, the message, the endpoint and the status it reports.  What holds
the number of a query is left out of the form.
-/

namespace FederatedSparql.Json

/-- The name of an error's kind. -/
def errorKind : FedError → String
  | .endpoint (.remoteEvaluation ..) => "RemoteEvaluation"
  | .endpoint (.connection ..) => "Connection"
  | .endpoint (.unsupported ..) => "Unsupported"
  | .endpoint (.unknownEndpoint _) => "UnknownEndpoint"
  | .timeout _ => "Timeout"
  | .malformedQuery _ => "MalformedQuery"
  | .internalScheduling _ => "InternalScheduling"
  | .aborted _ => "Aborted"
  | .configuration _ => "Configuration"

/-- The message of an error, unless it holds the number of a query. -/
def errorMessage? : FedError → Option String
  | .timeout _ => none
  | .aborted _ => none
  | e => some e.message

/-- An error; `wording` is applied to its message. -/
def ofErrorWith (wording : String → String) (e : FedError) : Json :=
  let message := (errorMessage? e).map fun text => ("message", str (wording text))
  let endpoint := e.endpointId?.map fun id => ("endpoint_id", str id)
  let status :=
    match e with
    | .endpoint (.remoteEvaluation _ status _) => some ("http_status", opt str status)
    | _ => none
  obj (("error", str (errorKind e)) :: message.toList ++ endpoint.toList ++ status.toList)

end FederatedSparql.Json
