/-!
Decimal numerals read as IEEE 754 double-precision numbers.

A numeral is an optional sign and either one of the words `inf`, `infinity` and `nan` in any
letter case, or decimal digits with at most one point, at least one digit in all, and an optional
exponent.  The number read is the nearest double, a tie going to the even significand; what is too
large is an infinity.
-/

namespace FederatedSparql.Text.Binary64

/-- The value `coefficient · 10 ^ scale` of a numeral without its sign. -/
structure Magnitude where
  coefficient : Nat
  scale : Int
deriving DecidableEq, Repr

/-- The least significand of 53 bits. -/
def leastSignificand : Nat := 0x10000000000000

/-- The bit that tells of a sign. -/
def signBit : Nat := 0x8000000000000000

/-- The binary exponent of the grid on which the positive quotient `num / den` is rounded: 53
significant bits, but no finer than `2 ^ -1074`. -/
def gridExponent (num den : Nat) : Int :=
  let e : Int := (num.log2 : Int) - den.log2 - 52
  let scaled := if e < 0 then (num <<< (-e).toNat) / den else num / (den <<< e.toNat)
  max (if scaled < leastSignificand then e - 1 else e) (-1074)

/-- The quotient rounded to the nearest natural number, a tie going to the even one. -/
def roundQuotient (num den : Nat) : Nat :=
  let q := num / den
  let r := num % den
  if 2 * r < den then q
  else if den < 2 * r then q + 1
  else if q % 2 = 0 then q else q + 1

/-- Bits of positive infinity. -/
def infinityBits : Nat := 0x7FF0000000000000

/-- Bits of the quiet NaN. -/
def nanBits : Nat := 0x7FF8000000000000

/-- Bits of the double nearest to `num / den`. -/
def bitsOfQuotient (num den : Nat) : Nat :=
  if num = 0 then 0
  else
    let e := gridExponent num den
    let significand :=
      if e < 0 then roundQuotient (num <<< (-e).toNat) den
      else roundQuotient num (den <<< e.toNat)
    -- A significand of `2 ^ 53` carries into the exponent field by itself.
    let bits := (e + 1074).toNat * leastSignificand + significand
    if bits < infinityBits then bits else infinityBits

/-- Bits of the double nearest to a magnitude.  Powers of ten far outside the range of doubles are
decided by the position of the leading digit. -/
def bitsOfMagnitude (m : Magnitude) : Nat :=
  let leading : Int := (Nat.toDigits 10 m.coefficient).length + m.scale
  if m.coefficient = 0 then 0
  else if leading > 310 then infinityBits
  else if leading < -330 then 0
  else if m.scale < 0 then bitsOfQuotient m.coefficient (Nat.pow 10 (-m.scale).toNat)
  else bitsOfQuotient (m.coefficient * Nat.pow 10 m.scale.toNat) 1

/-- The natural number written by decimal digits, most significant first. -/
def digitsValue (ds : List Char) : Nat :=
  ds.foldl (fun n d => n * 10 + (d.toNat - '0'.toNat)) 0

/-- Removes an optional sign; the Boolean tells whether it was a minus. -/
def takeSign : List Char → Bool × List Char
  | '-' :: cs => (true, cs)
  | '+' :: cs => (false, cs)
  | cs => (false, cs)

/-- An exponent part, or nothing at all. -/
def exponent? : List Char → Option Int
  | [] => some 0
  | c :: cs =>
    if c = 'e' ∨ c = 'E' then
      let (negative, ds) := takeSign cs
      if ds ≠ [] ∧ ds.all Char.isDigit then
        some (if negative then -(digitsValue ds : Int) else digitsValue ds)
      else none
    else none

/-- Digits with an optional point and an optional exponent. -/
def magnitude? (cs : List Char) : Option Magnitude :=
  let whole := cs.takeWhile Char.isDigit
  let (fraction, rest) :=
    match cs.dropWhile Char.isDigit with
    | '.' :: rest => (rest.takeWhile Char.isDigit, rest.dropWhile Char.isDigit)
    | rest => ([], rest)
  if whole = [] ∧ fraction = [] then none
  else (exponent? rest).map fun e => ⟨digitsValue (whole ++ fraction), e - fraction.length⟩

/-- Bits of the double that an unsigned numeral or word denotes. -/
def unsignedBits? (cs : List Char) : Option Nat :=
  match String.ofList (cs.map Char.toLower) with
  | "inf" | "infinity" => some infinityBits
  | "nan" => some nanBits
  | _ => (magnitude? cs).map bitsOfMagnitude

/-- Bits of the double that a numeral denotes. -/
def bits? (cs : List Char) : Option Nat :=
  let (negative, rest) := takeSign cs
  (unsignedBits? rest).map fun b => if negative then b + signBit else b

/-- The double that a numeral denotes, or `none` for any other text. -/
def ofString? (s : String) : Option Float :=
  (bits? s.toList).map fun b => Float.ofBits b.toUInt64

end FederatedSparql.Text.Binary64
