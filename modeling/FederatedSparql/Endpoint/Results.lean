import FederatedSparql.Json.Reader
import FederatedSparql.Json.Decode
import FederatedSparql.Rdf.Bindings
import FederatedSparql.Error

/-!
Result documents of endpoints: the JSON form of SPARQL query results.
-/

namespace FederatedSparql

/-- A value in a result document. -/
structure ResultValue where
  kind : String
  value : String
  language : Option String
  datatype : Option String
deriving DecidableEq, Repr, Inhabited

/-- A result document: the variables it announces, and its solutions or the answer to a question. -/
structure Results where
  vars : List String
  /-- The solutions, if there are any to give. -/
  solutions : Option (List (List (String × ResultValue)))
  boolean : Option Bool
deriving DecidableEq, Repr, Inhabited

/-- The term of a value. -/
def ResultValue.toTerm (v : ResultValue) : Except FedError Term :=
  match v.kind with
  | "uri" => .ok (.iri v.value)
  | "bnode" => .ok (.blank v.value)
  | "literal" | "typed-literal" => .ok (.literal ⟨v.value, v.datatype, v.language⟩)
  | kind => .error (.malformedQuery (.unknownTermType kind))

namespace Results

section Decoding

open Json.Decode

/-- Reads a value. -/
def decodeValue : Json.Decoder ResultValue := fun n j => do
  let f ← record ["type", "value", "xml:lang", "datatype"] n j
  let kind ← f.get "type" string
  let value ← f.get "value" string
  let language ← f.getNullable "xml:lang" string
  let datatype ← f.getNullable "datatype" string
  return ⟨kind, value, language, datatype⟩

/-- Reads the head of a document: the variables, none if they are not announced. -/
def decodeHead : Json.Decoder (List String) := fun n j => do
  let f ← fields ["vars"] 0 n j
  f.getD "vars" (list string) []

/-- Reads the solutions. -/
def decodeSolutions : Json.Decoder (List (List (String × ResultValue))) := fun n j => do
  let f ← record ["bindings"] n j
  f.get "bindings" (list (map decodeValue))

/-- Reads a document. -/
def decode : Json.Decoder Results := fun n j => do
  let f ← record ["head", "results", "boolean"] n j
  let vars ← f.getD "head" decodeHead []
  let solutions ← f.getNullable "results" decodeSolutions
  let boolean ← f.getNullable "boolean" bool
  return ⟨vars, solutions, boolean⟩

end Decoding

/-- Reads a document from its text. -/
def parse (body : String) : Except FedError Results :=
  match (Json.parse? body).bind (decode Json.nestLimit) with
  | some r => .ok r
  | none => .error (.malformedQuery (.unreadableResults "not a result document"))

/-- Leaves out values that are followed by another one for the same variable. -/
def lastValues : List (String × ResultValue) → List (String × ResultValue)
  | [] => []
  | v :: rest => if rest.any fun w => w.1 == v.1 then lastValues rest else v :: lastValues rest

/-- One solution; of values for the same variable the last one counts. -/
def solutionRow (solution : List (String × ResultValue)) : Except FedError Bindings := do
  let entries ← (lastValues solution).mapM fun v => do return (v.1, ← v.2.toTerm)
  return Bindings.ofList entries

/-- The solutions in document order; the answer to a question has none. -/
def rows (r : Results) : Except FedError (List Bindings) :=
  (r.solutions.getD []).mapM solutionRow

end Results

end FederatedSparql
