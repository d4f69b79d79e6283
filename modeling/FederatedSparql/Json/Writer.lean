import FederatedSparql.Json.Basic

/-!
Writing JSON documents.
-/

namespace FederatedSparql.Json

/-- Four hexadecimal digits. -/
def hex4 (n : Nat) : List Char :=
  let digit (k : Nat) : Char := "0123456789abcdef".toList.getD ((n >>> (4 * k)) % 16) '0'
  [digit 3, digit 2, digit 1, digit 0]

/-- A character as it is written inside a string. -/
def escapeChar (c : Char) : List Char :=
  if c = '"' then ['\\', '"']
  else if c = '\\' then ['\\', '\\']
  else if c.toNat < 0x20 then ['\\', 'u'] ++ hex4 c.toNat
  else [c]

/-- A string in quotes. -/
def quote (s : String) : String := String.ofList ('"' :: s.toList.flatMap escapeChar ++ ['"'])

mutual

/-- The text of a document. -/
def write : Json → String
  | .null => "null"
  | .bool b => if b then "true" else "false"
  | .number text => text
  | .string s => quote (s.getD "")
  | .array items => "[" ++ ",".intercalate (writeItems items) ++ "]"
  | .object members => "\x7b" ++ ",".intercalate (writeMembers members) ++ "\x7d"

/-- The texts of the items of an array. -/
def writeItems : List Json → List String
  | [] => []
  | j :: rest => j.write :: writeItems rest

/-- The texts of the members of an object. -/
def writeMembers : List (Option String × Json) → List String
  | [] => []
  | (key, j) :: rest => (quote (key.getD "") ++ ":" ++ j.write) :: writeMembers rest

end

end FederatedSparql.Json
