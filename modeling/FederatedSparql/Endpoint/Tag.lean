import FederatedSparql.Rdf.Bindings

/-!
Rows that carry the number of the binding set they answer.
-/

namespace FederatedSparql.Tag

/-- The variable that carries the number. -/
def indexVar : String := "__fedx_idx"

/-- How many numbers 64 bits tell apart. -/
def wordCount : Nat := 0x10000000000000000

/-- Adds the number of a binding set, as a signed 64-bit integer. -/
def tagRow (row : Bindings) (index : Nat) : Bindings :=
  row.insert indexVar (Term.ofInt ((index : Int).bmod wordCount))

/-- The number of a tag: digits that fit 64 bits, behind a plus or not. -/
def index? (cs : List Char) : Option Nat :=
  let ds :=
    match cs with
    | '+' :: ds => ds
    | ds => ds
  let n := Text.Binary64.digitsValue ds
  if ds ≠ [] ∧ ds.all Char.isDigit ∧ n < wordCount then some n else none

/-- Takes the number off a row. -/
def untagRow? (row : Bindings) : Option (Nat × Bindings) := do
  let tag ← row.get? indexVar
  let index ← index? (Text.trimBlanks tag.text.toList)
  return (index, row.erase indexVar)

end FederatedSparql.Tag
