import FederatedSparql.Text.Blank
import FederatedSparql.Text.Binary64
import FederatedSparql.Text.Quoted

/-!
RDF terms and triples: their order, their text in a query, and the numeric and Boolean values that
filters give to literals.
-/

namespace FederatedSparql

/-- A literal: its lexical form, with a datatype or a language tag or neither. -/
structure Literal where
  lexical : String
  datatype : Option String
  language : Option String
deriving DecidableEq, Repr, Inhabited

/-- An RDF term. -/
inductive Term where
  | iri (text : String)
  | blank (label : String)
  | literal (value : Literal)
deriving DecidableEq, Repr, Inhabited

/-- An RDF statement. -/
structure Triple where
  subject : Term
  predicate : Term
  object : Term
deriving DecidableEq, Repr, Inhabited

namespace Xsd

/-- The datatype of plain strings. -/
def string : String := "http://www.w3.org/2001/XMLSchema#string"

/-- The datatype of whole numbers. -/
def integer : String := "http://www.w3.org/2001/XMLSchema#integer"

/-- The datatype of decimal fractions. -/
def decimal : String := "http://www.w3.org/2001/XMLSchema#decimal"

/-- The datatype of double-precision numbers. -/
def double : String := "http://www.w3.org/2001/XMLSchema#double"

/-- The datatype of truth values. -/
def boolean : String := "http://www.w3.org/2001/XMLSchema#boolean"

end Xsd

/-! ### Order -/

/-- Absent sorts before any text. -/
def compareOptional : Option String → Option String → Ordering
  | none, none => .eq
  | none, some _ => .lt
  | some _, none => .gt
  | some a, some b => compare a b

/-- Literals sort by lexical form, then datatype, then language. -/
def Literal.order (a b : Literal) : Ordering :=
  (compare a.lexical b.lexical).then
    ((compareOptional a.datatype b.datatype).then (compareOptional a.language b.language))

/-- IRIs sort before blank nodes, blank nodes before literals. -/
def Term.order : Term → Term → Ordering
  | .iri a, .iri b => compare a b
  | .iri _, _ => .lt
  | .blank _, .iri _ => .gt
  | .blank a, .blank b => compare a b
  | .blank _, .literal _ => .lt
  | .literal a, .literal b => a.order b
  | .literal _, _ => .gt

instance : Ord Term := ⟨Term.order⟩

/-- Triples sort by subject, then predicate, then object. -/
def Triple.order (a b : Triple) : Ordering :=
  (compare a.subject b.subject).then
    ((compare a.predicate b.predicate).then (compare a.object b.object))

instance : Ord Triple := ⟨Triple.order⟩

namespace Term

/-! ### Construction and inspection -/

/-- A literal with neither datatype nor language. -/
def plain (lexical : String) : Term := .literal ⟨lexical, none, none⟩

/-- A literal with a datatype. -/
def typed (lexical datatype : String) : Term := .literal ⟨lexical, some datatype, none⟩

/-- A whole number. -/
def ofInt (n : Int) : Term := typed (toString n) Xsd.integer

/-- A truth value. -/
def ofBool (b : Bool) : Term := typed (if b then "true" else "false") Xsd.boolean

/-- IRIs and blank nodes are resources. -/
def isResource : Term → Bool
  | .iri _ | .blank _ => true
  | .literal _ => false

/-- Whether the term is a literal. -/
def isLiteral (t : Term) : Bool := !t.isResource

/-- The text of an IRI, the label of a blank node, the lexical form of a literal. -/
def text : Term → String
  | .iri s | .blank s => s
  | .literal l => l.lexical

/-- Literals without a language that are untyped or typed as strings. -/
def isPlainString : Term → Bool
  | .literal ⟨_, datatype, none⟩ => datatype.all (· == Xsd.string)
  | _ => false

/-- The number that an integer, decimal or double literal denotes.  Blanks around its lexical form
are disregarded. -/
def numericValue? : Term → Option Float
  | .literal ⟨lexical, some datatype, _⟩ =>
    if datatype = Xsd.integer ∨ datatype = Xsd.decimal ∨ datatype = Xsd.double then
      Text.Binary64.ofString? (Text.trim lexical)
    else none
  | _ => none

/-- The effective Boolean value of a term, where it has one. -/
def effectiveBoolean? (t : Term) : Option Bool :=
  match t with
  | .literal l =>
    if l.datatype = some Xsd.boolean then
      if l.lexical = "true" ∨ l.lexical = "1" then some true
      else if l.lexical = "false" ∨ l.lexical = "0" then some false
      else none
    else
      match t.numericValue? with
      | some x => some (x != 0 && !x.isNaN)
      | none => if t.isPlainString then some (!l.lexical.isEmpty) else none
  | _ => none

/-! ### Query text -/

/-- What stands behind the closing quote of a literal: a language tag if it has one, else its
datatype unless that is the one of strings. -/
def literalSuffix (l : Literal) : String :=
  match l.language, l.datatype with
  | some language, _ => "@" ++ language
  | none, some datatype => if datatype = Xsd.string then "" else "^^<" ++ datatype ++ ">"
  | none, none => ""

/-- The term as it is written in a query. -/
def toSparql : Term → String
  | .iri s => "<" ++ s ++ ">"
  | .blank label => "_:" ++ label
  | .literal l => Text.Quoted.quote l.lexical ++ literalSuffix l

instance : ToString Term := ⟨toSparql⟩

end Term

/-- A triple as it is written in a query. -/
def Triple.toSparql (t : Triple) : String :=
  t.subject.toSparql ++ " " ++ t.predicate.toSparql ++ " " ++ t.object.toSparql ++ " ."

instance : ToString Triple := ⟨Triple.toSparql⟩

end FederatedSparql
