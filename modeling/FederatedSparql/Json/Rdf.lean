import FederatedSparql.Json.Decode
import FederatedSparql.Rdf.Bindings

/-!
The JSON form of terms, triples and solution mappings.
-/

namespace FederatedSparql.Json

/-! ### Reading -/

namespace Decode

/-- A literal. -/
def literal : Decoder Literal := fun n j => do
  let f ← record ["lexical", "datatype", "language"] n j
  let lexical ← f.get "lexical" string
  let datatype ← f.getNullable "datatype" string
  let language ← f.getNullable "language" string
  return ⟨lexical, datatype, language⟩

/-- A term. -/
def term : Decoder Term := fun n j =>
  match n, variant? j with
  | n + 1, some ("Iri", some data) => (string n data).map .iri
  | n + 1, some ("BlankNode", some data) => (string n data).map .blank
  | n + 1, some ("Literal", some data) => (literal n data).map .literal
  | _, _ => none

/-- A triple. -/
def triple : Decoder Triple := fun n j => do
  let f ← record ["subject", "predicate", "object"] n j
  let subject ← f.get "subject" term
  let predicate ← f.get "predicate" term
  let object ← f.get "object" term
  return ⟨subject, predicate, object⟩

/-- A solution mapping as an object from names to terms. -/
def row : Decoder Bindings := fun n j => (map term n j).map Bindings.ofList

/-- A solution mapping in a record of its own. -/
def bindings : Decoder Bindings := fun n j => do
  let f ← record ["bindings"] n j
  f.get "bindings" row

end Decode

/-! ### Writing -/

/-- A literal as a record. -/
def ofLiteral (l : Literal) : Json :=
  obj [("lexical", str l.lexical), ("datatype", opt str l.datatype),
    ("language", opt str l.language)]

/-- A term as a variant. -/
def ofTerm : Term → Json
  | .iri s => obj [("Iri", str s)]
  | .blank label => obj [("BlankNode", str label)]
  | .literal l => obj [("Literal", ofLiteral l)]

/-- A triple as a record. -/
def ofTriple (t : Triple) : Json :=
  obj [("subject", ofTerm t.subject), ("predicate", ofTerm t.predicate),
    ("object", ofTerm t.object)]

/-- A solution mapping as an object from names to terms. -/
def ofRow (b : Bindings) : Json := obj (b.entries.map fun e => (e.1, ofTerm e.2))

/-- A solution mapping in a record of its own. -/
def ofBindings (b : Bindings) : Json := obj [("bindings", ofRow b)]

end FederatedSparql.Json
