/-!
JSON documents.

A document keeps what its text says: the digits of numbers, members in their order with repeated
keys, and the fact that a string holds surrogates that are not paired.  What is made of these is up
to the reader of the document.
-/

namespace FederatedSparql

/-- A JSON document. -/
inductive Json where
  | null
  | bool (value : Bool)
  | number (text : String)
  /-- A string; `none` if it holds a surrogate without its partner. -/
  | string (text : Option String)
  | array (items : List Json)
  | object (members : List (Option String × Json))
deriving Repr, Inhabited

namespace Json

/-- A string. -/
def str (s : String) : Json := .string (some s)

/-- A natural number. -/
def nat (n : Nat) : Json := .number (toString n)

/-- A whole number. -/
def int (n : Int) : Json := .number (toString n)

/-- An object. -/
def obj (members : List (String × Json)) : Json := .object (members.map fun (k, v) => (some k, v))

/-- An optional value, absent as null. -/
def opt {α : Type} (f : α → Json) : Option α → Json
  | none => .null
  | some a => f a

/-- A list. -/
def list {α : Type} (f : α → Json) (xs : List α) : Json := .array (xs.map f)

end Json

end FederatedSparql
