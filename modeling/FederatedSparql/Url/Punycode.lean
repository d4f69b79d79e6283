/-!
Punycode: texts in letters, digits and hyphens that stand for texts in any characters.

The characters beyond ASCII are inserted one by one in the order of their code points.  Each is
given by how many of all the possible insertions are passed over, a number with its least digit
first, in base thirty-six; how far each digit carries adapts to the numbers before.
-/

namespace FederatedSparql.Url.Punycode

/-- The digit of a number below thirty-six: the letters, then the figures. -/
def digit (n : Nat) : Char :=
  if n < 26 then Char.ofNat ('a'.toNat + n) else Char.ofNat ('0'.toNat + (n - 26))

/-- The value of a digit. -/
def digitValue? (c : Char) : Option Nat :=
  if 'a' ≤ c ∧ c ≤ 'z' then some (c.toNat - 'a'.toNat)
  else if 'A' ≤ c ∧ c ≤ 'Z' then some (c.toNat - 'A'.toNat)
  else if '0' ≤ c ∧ c ≤ '9' then some (c.toNat - '0'.toNat + 26)
  else none

/-- The least digit that tells of another one after it, at position `k`. -/
def threshold (k bias : Nat) : Nat := max 1 (min 26 (k - bias))

theorem threshold_pos (k bias : Nat) : 1 ≤ threshold k bias := by unfold threshold; omega

/-- The bias for numbers of about the size of `delta`. -/
def settle (delta k : Nat) : Nat :=
  if delta ≤ 455 then k + 36 * delta / (delta + 38) else settle (delta / 35) (k + 36)
termination_by delta
decreasing_by omega

/-- The bias after a number, when `count` characters are in place. -/
def adapt (delta count : Nat) (first : Bool) : Nat :=
  let scaled := if first then delta / 700 else delta / 2
  settle (scaled + scaled / count) 0

/-! ### Writing -/

/-- The digits of a number from position `k` on. -/
def writeNumber (bias k n : Nat) : List Char :=
  let t := threshold k bias
  if n < t then [digit n]
  else digit (t + (n - t) % (36 - t)) :: writeNumber bias (k + 36) ((n - t) / (36 - t))
termination_by n
decreasing_by
  have := threshold_pos k bias
  exact Nat.lt_of_le_of_lt (Nat.div_le_self _ _) (by omega)

/-- How far a text is written. -/
structure Progress where
  digits : List Char := []
  /-- Insertions passed over since the last character. -/
  passed : Nat := 0
  bias : Nat := 72
  /-- Characters in place. -/
  placed : Nat

/-- Goes past one character of the text while characters of code point `point` are inserted. -/
def Progress.pass (start point : Nat) (p : Progress) (c : Char) : Progress :=
  if c.toNat < point then { p with passed := p.passed + 1 }
  else if c.toNat = point then
    { digits := p.digits ++ writeNumber p.bias 36 p.passed
      passed := 0
      bias := adapt p.passed (p.placed + 1) (p.placed == start)
      placed := p.placed + 1 }
  else p

/-- Inserts the characters of the given code points, in ascending order from `next` on. -/
def writePoints (text : List Char) (start : Nat) : List Nat → Nat → Progress → Progress
  | [], _, p => p
  | point :: points, next, p =>
    let p := { p with passed := p.passed + (point - next) * (p.placed + 1) }
    let p := text.foldl (Progress.pass start point) p
    writePoints text start points (point + 1) { p with passed := p.passed + 1 }

/-- The characters of ASCII in a text. -/
def basicPart (text : List Char) : List Char := text.filter fun c => c.toNat < 0x80

/-- The code points beyond ASCII in a text, in ascending order. -/
def points (text : List Char) : List Nat :=
  (((text.filter fun c => 0x80 ≤ c.toNat).map Char.toNat).mergeSort).eraseDups

/-- A text in Punycode. -/
def encode (text : List Char) : List Char :=
  let basic := basicPart text
  let written := writePoints text basic.length (points text) 0x80 { placed := basic.length }
  (if basic.isEmpty then [] else basic ++ ['-']) ++ written.digits

/-! ### Reading -/

/-- A number from position `k` on, where a digit weighs `weight`, added to `sum`, and what follows.
-/
def readNumber? (bias : Nat) : Nat → Nat → Nat → List Char → Option (Nat × List Char)
  | _, _, _, [] => none
  | k, weight, sum, c :: cs =>
    match digitValue? c with
    | none => none
    | some d =>
      let t := threshold k bias
      if d < t then some (sum + d * weight, cs)
      else readNumber? bias (k + 36) (weight * (36 - t)) (sum + d * weight) cs

/-- A number takes at least one digit. -/
theorem readNumber?_length {bias n : Nat} {rest : List Char} :
    ∀ {k weight sum : Nat} {cs : List Char},
      readNumber? bias k weight sum cs = some (n, rest) → rest.length < cs.length
  | _, _, _, [], h => by simp [readNumber?] at h
  | k, weight, sum, c :: cs, h => by
    rw [readNumber?] at h
    split at h
    · simp at h
    · dsimp only at h
      split at h
      · simp only [Option.some.injEq, Prod.mk.injEq] at h
        simp [h.2]
      · exact Nat.lt_succ_of_lt (readNumber?_length h)

/-- Inserts the characters that the digits tell of, from code point `point` and place `place` on. -/
def readPoints? (bias point place : Nat) (text cs : List Char) : Option (List Char) :=
  if cs.isEmpty then some text
  else
    match h : readNumber? bias 36 1 place cs with
    | none => none
    | some (n, rest) =>
      let count := text.length + 1
      let code := point + n / count
      let spot := n % count
      if code.isValidChar then
        readPoints? (adapt (n - place) count (place == 0)) code (spot + 1)
          (text.insertIdx spot (Char.ofNat code)) rest
      else none
termination_by cs.length
decreasing_by exact readNumber?_length h

/-- The text that Punycode stands for: the part before the last hyphen, with insertions. -/
def decode? (cs : List Char) : Option (List Char) :=
  let reversed := cs.reverse
  let tail := reversed.takeWhile (· != '-')
  let basic := (reversed.drop (tail.length + 1)).reverse
  readPoints? 72 0x80 0 basic tail.reverse

end FederatedSparql.Url.Punycode
