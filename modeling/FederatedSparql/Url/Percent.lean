/-!
Percent-encoding: characters that a part of a URL cannot hold are written as the bytes they have in
UTF-8, each a percent sign and two hexadecimal digits.
-/

namespace FederatedSparql.Url

/-- The digit of a number below sixteen, in capitals. -/
def hexDigit (n : Nat) : Char :=
  if n < 10 then Char.ofNat ('0'.toNat + n) else Char.ofNat ('A'.toNat + (n - 10))

/-- The value of a hexadecimal digit. -/
def hexValue? (c : Char) : Option Nat :=
  if '0' ≤ c ∧ c ≤ '9' then some (c.toNat - '0'.toNat)
  else if 'a' ≤ c ∧ c ≤ 'f' then some (c.toNat - 'a'.toNat + 10)
  else if 'A' ≤ c ∧ c ≤ 'F' then some (c.toNat - 'A'.toNat + 10)
  else none

/-- A byte in percent-encoding. -/
def escapedByte (b : UInt8) : List Char :=
  ['%', hexDigit (b.toNat / 16), hexDigit (b.toNat % 16)]

/-! ### What each part encodes -/

/-- Encoded in every part: controls and what is not ASCII. -/
def alwaysEscaped (c : Char) : Bool := c.toNat < 0x20 || 0x7F ≤ c.toNat

/-- Encoded in a fragment. -/
def inFragment (c : Char) : Bool := [' ', '"', '<', '>', Char.ofNat 0x60].contains c

/-- Encoded in a query; `quote` tells whether single quotes are, too. -/
def inQuery (quote : Bool) (c : Char) : Bool :=
  [' ', '"', '#', '<', '>'].contains c || (quote && c.toNat == 0x27)

/-- Encoded in a segment of a path. -/
def inPath (c : Char) : Bool := inFragment c || ['#', '?', '^', '{', '}'].contains c

/-- Encoded in names and passwords. -/
def inCredentials (c : Char) : Bool :=
  inPath c || ['/', ':', ';', '=', '@', '[', '\\', ']', '|'].contains c

/-- A text in which the controls, what is not ASCII and the characters of a set are encoded. -/
def escape (set : Char → Bool) (cs : List Char) : List Char :=
  cs.flatMap fun c =>
    if alwaysEscaped c || set c then (String.utf8EncodeChar c).flatMap escapedByte else [c]

/-- The bytes that a percent-encoded text stands for; percent signs that start no byte are kept. -/
def unescape : List Char → List UInt8
  | '%' :: high :: low :: rest =>
    match hexValue? high, hexValue? low with
    | some h, some l => UInt8.ofNat (16 * h + l) :: unescape rest
    | _, _ => String.utf8EncodeChar '%' ++ unescape (high :: low :: rest)
  | c :: cs => String.utf8EncodeChar c ++ unescape cs
  | [] => []

/-- The text in UTF-8 that a percent-encoded text stands for. -/
def unescapeText? (cs : List Char) : Option (List Char) :=
  (String.fromUTF8? ⟨(unescape cs).toArray⟩).map String.toList

end FederatedSparql.Url
