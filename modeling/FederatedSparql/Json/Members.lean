import FederatedSparql.Json.Decode

/-!
Taking the members of an object one by one.

A member that is missing reads as null, members that nobody asks for are disregarded, and values may
nest as deep as they like.
-/

namespace FederatedSparql.Json

/-- A depth that no document reaches. -/
def anyDepth : Nat := 1000000

/-- The value of a member. -/
def field (j : Json) (name : String) : Json :=
  match j with
  | .object members => (members.lookup (some name)).getD .null
  | _ => .null

/-- A member that has to be there. -/
def need {α : Type} (j : Json) (name : String) (d : Decoder α) : Option α :=
  d anyDepth (field j name)

/-- A member that may be missing or null. -/
def may {α : Type} (j : Json) (name : String) (d : Decoder α) : Option (Option α) :=
  Decode.nullable d anyDepth (field j name)

/-- A member with a default. -/
def orElse {α : Type} (j : Json) (name : String) (d : Decoder α) (default : α) : Option α :=
  (may j name d).map (·.getD default)

namespace Decode

/-- An object, as it is. -/
def object : Decoder Json
  | _, .object members => some (.object members)
  | _, _ => none

/-- A whole number. -/
def int : Decoder Int
  | _, .number text =>
    match text.toList with
    | '-' :: ds => (natOfText? (String.ofList ds)).map fun n => -(n : Int)
    | _ => (natOfText? text).map fun n => (n : Int)
  | _, _ => none

end Decode

end FederatedSparql.Json
