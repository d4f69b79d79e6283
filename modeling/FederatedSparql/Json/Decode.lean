import FederatedSparql.Json.Basic
import FederatedSparql.Text.Binary64

/-!
Reading typed values out of JSON documents.

A record is an object with one member for each field, where members of other names are disregarded,
or an array with all fields in order.  A variant with data is an object with the variant's name as
its only key; one without data may also be the name alone.  Arrays and objects that are read may
nest only so deep; what is disregarded may be anything.
-/

namespace FederatedSparql.Json

/-- How deep the arrays and objects of a document may nest. -/
def nestLimit : Nat := 127

/-- Reads a value out of a document, in which so many arrays and objects may still be entered. -/
abbrev Decoder (α : Type) := Nat → Json → Option α

namespace Decode

/-- A string. -/
def string : Decoder String
  | _, .string s => s
  | _, _ => none

/-- A truth value. -/
def bool : Decoder Bool
  | _, .bool b => some b
  | _, _ => none

/-- The natural number that digits alone denote. -/
def natOfText? (text : String) : Option Nat :=
  let ds := text.toList
  if ds.all Char.isDigit then some (Text.Binary64.digitsValue ds) else none

/-- A number without sign, point or exponent that fits 64 bits. -/
def nat : Decoder Nat
  | _, .number text => (natOfText? text).filter (· < 0x10000000000000000)
  | _, _ => none

/-- Null, or a value. -/
def nullable {α : Type} (d : Decoder α) : Decoder (Option α)
  | _, .null => some none
  | n, j => (d n j).map some

/-- An array. -/
def list {α : Type} (d : Decoder α) : Decoder (List α)
  | n + 1, .array items => items.mapM (d n)
  | _, _ => none

/-- An object with any keys. -/
def map {α : Type} (d : Decoder α) : Decoder (List (String × α))
  | n + 1, .object members =>
    members.mapM fun (key, value) => do
      let k ← key
      let a ← d n value
      return (k, a)
  | _, _ => none

/-! ### Records -/

/-- The fields of a record that are present, and the depth left for their values. -/
structure Fields where
  depth : Nat
  values : List (String × Json)

/-- The member of a name, which may be given once at most. -/
def member? (members : List (Option String × Json)) (name : String) : Option (Option Json) :=
  match members.filter fun m => m.1 == some name with
  | [] => some none
  | [m] => some (some m.2)
  | _ => none

/-- The fields of a record.  In the form of an array the first `required` fields have to be there.
-/
def fields (names : List String) (required : Nat) : Decoder Fields
  | n + 1, .object members => do
    if members.any fun m => m.1.isNone then none
    let values ← names.mapM fun name => do
      let v ← member? members name
      return v.toList.map fun v => (name, v)
    return ⟨n, values.flatten⟩
  | n + 1, .array items =>
    if required ≤ items.length ∧ items.length ≤ names.length then
      some ⟨n, names.zip items⟩
    else none
  | _, _ => none

/-- The fields of a record that has to have all of them when it is an array. -/
def record (names : List String) : Decoder Fields := fields names names.length

namespace Fields

/-- A field that has to be there. -/
def get {α : Type} (f : Fields) (name : String) (d : Decoder α) : Option α := do
  let v ← f.values.lookup name
  d f.depth v

/-- A field that is null when it is not there. -/
def getNullable {α : Type} (f : Fields) (name : String) (d : Decoder α) : Option (Option α) :=
  match f.values.lookup name with
  | none => some none
  | some v => nullable d f.depth v

/-- A field that has a value even when it is not there. -/
def getD {α : Type} (f : Fields) (name : String) (d : Decoder α) (default : α) : Option α :=
  match f.values.lookup name with
  | none => some default
  | some v => d f.depth v

end Fields

/-! ### Variants -/

/-- The name of a variant, with its data if it is an object.  The data may be as deep as the given
number less one. -/
def variant? : Json → Option (String × Option Json)
  | .string s => s.map fun s => (s, none)
  | .object [(key, value)] => key.map fun k => (k, some value)
  | _ => none

/-- A variant without data. -/
def unitVariant : Decoder String
  | n, j => do
    let (name, data) ← variant? j
    match data with
    | none => some name
    | some .null => if n = 0 then none else some name
    | some _ => none

/-- An array of two. -/
def pair {α : Type} (d : Json → Option α) : Json → Option (α × α)
  | .array [a, b] => do
    let x ← d a
    let y ← d b
    return (x, y)
  | _ => none

end Decode

/-! ### Whole documents -/

mutual

/-- Whether a document nests no deeper than the limit, all its strings are well formed and all its
numbers are finite doubles. -/
def isStrict : Nat → Json → Bool
  | _, .null => true
  | _, .bool _ => true
  | _, .number text =>
    (Text.Binary64.bits? text.toList).any fun b =>
      b % Text.Binary64.signBit < Text.Binary64.infinityBits
  | _, .string s => s.isSome
  | 0, .array _ => false
  | n + 1, .array items => itemsStrict n items
  | 0, .object _ => false
  | n + 1, .object members => membersStrict n members

/-- `isStrict` of all items. -/
def itemsStrict : Nat → List Json → Bool
  | _, [] => true
  | n, j :: rest => isStrict n j && itemsStrict n rest

/-- `isStrict` of all members. -/
def membersStrict : Nat → List (Option String × Json) → Bool
  | _, [] => true
  | n, (key, j) :: rest => key.isSome && isStrict n j && membersStrict n rest

end

/-- Leaves out members that are followed by another one of the same key. -/
def lastMembers : List (Option String × Json) → List (Option String × Json)
  | [] => []
  | m :: rest => if rest.any fun k => k.1 == m.1 then lastMembers rest else m :: lastMembers rest

mutual

/-- Keeps the last of the members with one key, everywhere in the document. -/
def distinctKeys : Json → Json
  | .array items => .array (itemsDistinct items)
  | .object members => .object (lastMembers (membersDistinct members))
  | j => j

/-- `distinctKeys` of all items. -/
def itemsDistinct : List Json → List Json
  | [] => []
  | j :: rest => j.distinctKeys :: itemsDistinct rest

/-- `distinctKeys` of all members. -/
def membersDistinct : List (Option String × Json) → List (Option String × Json)
  | [] => []
  | (key, j) :: rest => (key, j.distinctKeys) :: membersDistinct rest

end

end FederatedSparql.Json
