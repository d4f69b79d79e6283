import FederatedSparql.Url.Percent

/-!
Numeric addresses of hosts, of thirty-two and of a hundred and twenty-eight bits.
-/

namespace FederatedSparql.Url

/-- The parts of a text between separators. -/
def fields (separator : Char) : List Char → List (List Char)
  | [] => [[]]
  | c :: cs =>
    let rest := fields separator cs
    if c == separator then [] :: rest
    else
      match rest with
      | field :: others => (c :: field) :: others
      | [] => [[c]]

/-- The number that digits in a base make; no digits make zero. -/
def digits? (base : Nat) (cs : List Char) : Option Nat :=
  cs.foldlM (fun n c => do
    let d ← hexValue? c
    guard (d < base)
    return base * n + d) 0

/-! ### Four bytes -/

/-- A part of an address: hexadecimal after `0x`, octal after `0`, else decimal. -/
def part? : List Char → Option Nat
  | [] => none
  | ['0'] => some 0
  | '0' :: c :: cs => if c == 'x' || c == 'X' then digits? 16 cs else digits? 8 (c :: cs)
  | cs => digits? 10 cs

/-- Whether a part makes the host a numeric address. -/
def isNumeric (part : List Char) : Bool :=
  (!part.isEmpty && part.all Char.isDigit) || (part? part).isSome

/-- Parts without the empty one after a final dot. -/
def withoutFinalDot (parts : List (List Char)) : List (List Char) :=
  if parts.getLast? == some [] then parts.dropLast else parts

/-- A host whose last part is numeric is an address or nothing. -/
def endsInNumber (parts : List (List Char)) : Bool :=
  (withoutFinalDot parts).getLast?.any isNumeric

/-- The address in up to four parts, of which the last stands for all the bytes that are left. -/
def readV4? (parts : List (List Char)) : Option Nat := do
  let parts := withoutFinalDot parts
  guard (parts.length ≤ 4)
  let numbers ← parts.mapM part?
  let last ← numbers.getLast?
  let bytes := numbers.dropLast
  guard (bytes.all (· < 256))
  let width := 8 * (4 - bytes.length)
  guard (last < 1 <<< width)
  return (bytes.foldl (fun n b => 256 * n + b) 0 <<< width) + last

/-- An address as four decimal numbers. -/
def writeV4 (address : Nat) : String :=
  ".".intercalate ([3, 2, 1, 0].map fun i => toString ((address >>> (8 * i)) % 256))

/-! ### Eight pieces of sixteen bits -/

/-- A decimal number of at most one byte without needless zeros. -/
def byte? (cs : List Char) : Option Nat := do
  guard (!cs.isEmpty && (cs.length == 1 || cs.head? != some '0'))
  let n ← digits? 10 cs
  guard (n < 256)
  return n

/-- The pieces that one field stands for: a number of up to four digits, or, in the last field, an
address of four bytes. -/
def pieces? (isLast : Bool) (field : List Char) : Option (List Nat) :=
  if isLast && field.contains '.' then do
    let bytes ← (fields '.' field).mapM byte?
    match bytes with
    | [a, b, c, d] => some [256 * a + b, 256 * c + d]
    | _ => none
  else do
    guard (1 ≤ field.length && field.length ≤ 4)
    return [← digits? 16 field]

/-- The pieces of a run of fields. -/
def run? (isLast : Bool) : List (List Char) → Option (List Nat)
  | [] => some []
  | [field] => pieces? isLast field
  | field :: rest => do return (← pieces? false field) ++ (← run? isLast rest)

/-- The pieces of a text between colons; an empty text has none. -/
def side? (isLast : Bool) (cs : List Char) : Option (List Nat) :=
  if cs.isEmpty then some [] else run? isLast (fields ':' cs)

/-- Splits a text around the first two colons in a row. -/
def splitAtGap? : List Char → Option (List Char × List Char)
  | ':' :: ':' :: cs => some ([], cs)
  | c :: cs => (splitAtGap? cs).map fun (before, after) => (c :: before, after)
  | [] => none

/-- The eight pieces of an address; two colons in a row stand for zeros. -/
def readV6? (cs : List Char) : Option (List Nat) :=
  match splitAtGap? cs with
  | none => do
    let pieces ← run? true (fields ':' cs)
    guard (pieces.length == 8)
    return pieces
  | some (before, after) => do
    let front ← side? false before
    let back ← side? true after
    guard (front.length + back.length < 8)
    return front ++ List.replicate (8 - front.length - back.length) 0 ++ back

/-- The pieces in hexadecimal, between colons. -/
def writePieces (pieces : List Nat) : String :=
  ":".intercalate (pieces.map fun n => String.ofList (Nat.toDigits 16 n))

/-- How many zeros a list starts with. -/
def zeros (pieces : List Nat) : Nat := (pieces.takeWhile (· == 0)).length

/-- An address, with the first of the longest runs of two or more zeros left out. -/
def writeV6 (pieces : List Nat) : String :=
  let start := (List.range pieces.length).foldl
    (fun best i => if zeros (pieces.drop best) < zeros (pieces.drop i) then i else best) 0
  let length := zeros (pieces.drop start)
  if length < 2 then writePieces pieces
  else writePieces (pieces.take start) ++ "::" ++ writePieces (pieces.drop (start + length))

end FederatedSparql.Url
