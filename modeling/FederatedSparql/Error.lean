import FederatedSparql.Text.Blank
import FederatedSparql.Algebra.QueryForm

/-!
What can go wrong, by cause, and how each cause is worded.

Errors that come from an endpoint carry its id, and only a `connection` error counts as a fault of
the connection that is worth a repair.  The body of a failed remote request is reduced to the title
of the page if it is one.
-/

namespace FederatedSparql

/-- Failures of one endpoint. -/
inductive EndpointError where
  /-- The endpoint answered with a failure; the status is the title of its error page. -/
  | remoteEvaluation (endpoint : String) (httpStatus : Option String) (detail : String)
  /-- The endpoint could not be reached. -/
  | connection (endpoint : String) (detail : String)
  /-- The endpoint has no such operation. -/
  | unsupported (endpoint : String) (operation : String)
  /-- No endpoint has this id. -/
  | unknownEndpoint (id : String)
deriving DecidableEq, Repr

/-- Reasons for which a query or a result document is refused. -/
inductive MalformedQuery where
  | allVariablesBound
  | noBindings
  | notRenderable (form : QueryForm)
  | unsupportedForm (form : QueryForm)
  | unknownTermType (kind : String)
  | unreadableResults (reason : String)
deriving DecidableEq, Repr

/-- Where the deadline of a query was noticed. -/
inductive Timeout where
  | deadlineExceeded (query : Nat)
  | outstandingTasks (query : Nat) (count : Nat)
  | duringSourceSelection (query : Nat)
deriving DecidableEq, Repr

/-- Failures of task scheduling. -/
inductive SchedulingError where
  | reported (text : String)
  | taskPanicked (task : String)
  | schedulerShutDown (scheduler : String)
  | schedulerRefused (scheduler : String)
  | cannotEvaluate (task : String) (argument : String)
deriving DecidableEq, Repr

/-- Settings and calls that do not fit together. -/
inductive ConfigurationError where
  | zeroBlockSize
  | zeroWorkerThreads
  | duplicateEndpoint (id : String)
  | notInitialized
  | invalidUrl (url : String)
  | cannotStart (endpoint : String)
  | cannotStop (endpoint : String)
deriving DecidableEq, Repr

/-- Everything that can end a query. -/
inductive FedError where
  | endpoint (cause : EndpointError)
  | timeout (cause : Timeout)
  | malformedQuery (cause : MalformedQuery)
  | internalScheduling (cause : SchedulingError)
  | aborted (query : Nat)
  | configuration (cause : ConfigurationError)
deriving DecidableEq, Repr

/-! ### Wording -/

/-- What is said of an endpoint's failure. -/
def EndpointError.message : EndpointError → String
  | .remoteEvaluation endpoint _ detail => "@ " ++ endpoint ++ " - " ++ detail
  | .connection endpoint detail => "@ " ++ endpoint ++ " - Connection failed: " ++ detail
  | .unsupported endpoint operation =>
    "@ " ++ endpoint ++ " - Unsupported operation: " ++ operation
  | .unknownEndpoint id => "Unknown endpoint: " ++ id

/-- What is said of a refused query. -/
def MalformedQuery.message : MalformedQuery → String
  | .allVariablesBound => "cannot build SELECT query: all variables are bound"
  | .noBindings => "bound join query requires at least one binding"
  | .notRenderable form => form.name ++ " queries cannot be rendered for pass-through"
  | .unsupportedForm form => form.name ++ " queries are not supported"
  | .unknownTermType kind => "unknown RDF term type '" ++ kind ++ "' in results"
  | .unreadableResults reason => "Failed to parse SPARQL results: " ++ reason

/-- What is said of a missed deadline. -/
def Timeout.message : Timeout → String
  | .deadlineExceeded query => "query " ++ toString query ++ " exceeded its deadline"
  | .outstandingTasks query count =>
    "query " ++ toString query ++ " timed out with " ++ toString count ++ " outstanding sub-task(s)"
  | .duringSourceSelection query =>
    "query " ++ toString query ++ " timed out during source selection"

/-- What is said of a scheduling failure. -/
def SchedulingError.message : SchedulingError → String
  | .reported text => text
  | .taskPanicked task => "task " ++ task ++ " panicked"
  | .schedulerShutDown scheduler => "scheduler " ++ scheduler ++ " is shut down"
  | .schedulerRefused scheduler => "scheduler " ++ scheduler ++ " stopped accepting tasks"
  | .cannotEvaluate task argument => task ++ " cannot evaluate " ++ argument

/-- What is said of a configuration error. -/
def ConfigurationError.message : ConfigurationError → String
  | .zeroBlockSize => "bound_join_block_size must be greater than zero"
  | .zeroWorkerThreads => "worker thread counts must be greater than zero"
  | .duplicateEndpoint id => "Endpoint '" ++ id ++ "' is already registered"
  | .notInitialized => "federation is not initialized"
  | .invalidUrl url => "Invalid endpoint URL '" ++ url ++ "'"
  | .cannotStart endpoint => endpoint ++ " cannot start"
  | .cannotStop endpoint => endpoint ++ " cannot stop"

namespace FedError

/-- The text of an error. -/
def message : FedError → String
  | .endpoint cause => cause.message
  | .timeout cause => "Query timed out: " ++ cause.message
  | .malformedQuery cause => "Malformed query: " ++ cause.message
  | .internalScheduling cause => "Internal scheduling error: " ++ cause.message
  | .aborted query => "Query " ++ toString query ++ " was aborted"
  | .configuration cause => "Configuration error: " ++ cause.message

/-- Connection errors are worth a repair of the connection. -/
def isConnectionFault : FedError → Bool
  | .endpoint (.connection ..) => true
  | _ => false

/-- Whether the deadline of the query has passed. -/
def isTimeout : FedError → Bool
  | .timeout _ => true
  | _ => false

/-- The endpoint that the error is attributed to. -/
def endpointId? : FedError → Option String
  | .endpoint (.remoteEvaluation id _ _) => some id
  | .endpoint (.connection id _) => some id
  | .endpoint (.unsupported id _) => some id
  | .endpoint (.unknownEndpoint id) => some id
  | _ => none

end FedError

/-! ### Remote failures -/

/-- Splits a text around the last occurrence of a marker. -/
def splitAtLast? (marker : List Char) : List Char → Option (List Char × List Char)
  | [] => none
  | c :: cs =>
    match splitAtLast? marker cs with
    | some (before, after) => some (c :: before, after)
    | none => (marker.isPrefixOf? (c :: cs)).map fun after => ([], after)

/-- The title of an HTML page: what stands, trimmed, between the last closing tag and the last
opening tag before it. -/
def pageTitle? (page : String) : Option String := do
  let (body, _) ← splitAtLast? "</title>".toList page.toList
  let (_, title) ← splitAtLast? "<title>".toList body
  return String.ofList (Text.trimBlanks title)

/-- The failure that a remote endpoint's answer reports: the title of an error page, else the
answer itself, followed by further information if there is any. -/
def remoteFailure (endpoint answer info : String) : EndpointError :=
  let title := pageTitle? answer
  let base :=
    match title with
    | some t => "HTTP Error: " ++ t
    | none => Text.trim answer
  .remoteEvaluation endpoint title (if info.isEmpty then base else base ++ ". " ++ info)

end FederatedSparql
