import FederatedSparql.Text.Regex.CharClass

/-!
Regular expressions and the search for them in a text.

A set of positions of a text is a list of marks, one before each character and one at the end.
`ends` carries the positions where a match may start to those where it may end, for all starts at
once, so a text contains a match when any position is left after starting everywhere.
-/

namespace FederatedSparql.Text

/-- Conditions on a position of the text. -/
inductive Regex.Look where
  | textStart
  | textEnd
  | lineStart
  | lineEnd
  /-- Line boundaries where a carriage return, alone or before a line feed, ends a line too. -/
  | crlfStart
  | crlfEnd
  /-- Exactly one neighbour belongs to the class of word characters. -/
  | wordBoundary (word : Regex.CharClass)
  | notWordBoundary (word : Regex.CharClass)
  | wordStart (word : Regex.CharClass)
  | wordEnd (word : Regex.CharClass)
  | wordStartHalf (word : Regex.CharClass)
  | wordEndHalf (word : Regex.CharClass)

/-- A regular expression. -/
inductive Regex where
  | empty
  | char (set : Regex.CharClass)
  | look (condition : Regex.Look)
  | concat (a b : Regex)
  | alternate (a b : Regex)
  /-- At least `min` and, with a maximum, at most `max` times. -/
  | repeat (a : Regex) (min : Nat) (max : Option Nat)

namespace Regex

/-- Whether a condition holds between two neighbours, either of which may be missing. -/
def Look.holds (before after : Option Char) : Look → Bool
  | textStart => before.isNone
  | textEnd => after.isNone
  | lineStart => before.all (· == '\n')
  | lineEnd => after.all (· == '\n')
  | crlfStart => before.all fun c => c == '\n' || (c == '\r' && after != some '\n')
  | crlfEnd => after.all fun c => c == '\r' || (c == '\n' && before != some '\r')
  | wordBoundary w => before.any w.contains != after.any w.contains
  | notWordBoundary w => before.any w.contains == after.any w.contains
  | wordStart w => !before.any w.contains && after.any w.contains
  | wordEnd w => before.any w.contains && !after.any w.contains
  | wordStartHalf w => !before.any w.contains
  | wordEndHalf w => !after.any w.contains

/-- Positions of a text, one mark before each character and one at the end. -/
abbrev Marks := List Bool

/-- The positions of either set. -/
def Marks.union (a b : Marks) : Marks := a.zipWith (· || ·) b

/-- Moves each position whose next character is in the set behind that character. -/
def advance (set : CharClass) (text : List Char) (m : Marks) : Marks :=
  false :: text.zipWith (fun c here => here && set.contains c) m

/-- The neighbours of every position. -/
def neighbours : Option Char → List Char → List (Option Char × Option Char)
  | before, [] => [(before, none)]
  | before, c :: rest => (before, some c) :: neighbours (some c) rest

/-- Repeats a step exactly `n` times, or until it changes nothing. -/
def times (step : Marks → Marks) : Nat → Marks → Marks
  | 0, m => m
  | n + 1, m =>
    let next := step m
    if next = m then m else times step n next

/-- The positions after at most `n` steps, or until no new one is met. -/
def upTo (step : Marks → Marks) : Nat → Marks → Marks
  | 0, m => m
  | n + 1, m =>
    let next := m.union (step m)
    if next = m then m else upTo step n next

/-- The positions where a match may end that starts at one of the given positions.  Without a
maximum, as many repetitions as there are positions reach everything that more would. -/
def ends (text : List Char) : Regex → Marks → Marks
  | empty, m => m
  | char set, m => advance set text m
  | look l, m => (neighbours none text).zipWith (fun p here => here && l.holds p.1 p.2) m
  | concat a b, m => b.ends text (a.ends text m)
  | alternate a b, m => (a.ends text m).union (b.ends text m)
  | .repeat a min none, m => upTo (a.ends text) (text.length + 1) (times (a.ends text) min m)
  | .repeat a min (some max), m => upTo (a.ends text) (max - min) (times (a.ends text) min m)

/-- Whether a text contains a match. -/
def search (r : Regex) (text : String) : Bool :=
  (r.ends text.toList (List.replicate (text.toList.length + 1) true)).any id

/-! ### Size -/

/-- Bytes that a class of characters takes in a compiled expression, about. -/
def CharClass.weight : CharClass → Nat
  | .range first last => if first == last || last.toNat < 128 then 32 else 96
  | .runs rs => rs.length * 96
  | .none => 32
  | .union a b => a.weight + b.weight
  | .inter a b => a.weight + b.weight
  | .complement a => a.weight + 96
  | .foldCase a => a.weight + 32

/-- Bytes that a compiled expression takes, about. -/
def weight : Regex → Nat
  | empty => 32
  | char set => set.weight
  | look _ => 32
  | concat a b => a.weight + b.weight
  | alternate a b => a.weight + b.weight + 32
  | .repeat a min none => a.weight * (min + 1) + 32
  | .repeat a min (some max) => a.weight * Nat.max min max + 32

/-- Expressions that would compile to more than this many bytes are refused. -/
def weightLimit : Nat := 10485760

end Regex

end FederatedSparql.Text
