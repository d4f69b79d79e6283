import FederatedSparql.Text.Blank
import FederatedSparql.Text.Unicode.CaseFolding
import FederatedSparql.Text.Unicode.Letter
import FederatedSparql.Text.Unicode.Mark
import FederatedSparql.Text.Unicode.Property
import FederatedSparql.Text.Unicode.Script
import FederatedSparql.Text.Unicode.Symbol

/-!
Character classes of regular expressions, as set expressions over characters.
-/

namespace FederatedSparql.Text.Regex

open FederatedSparql.Text.Unicode

/-- A set of characters. -/
inductive CharClass where
  /-- The characters from the first to the last one. -/
  | range (first last : Char)
  /-- The characters in runs of code points. -/
  | runs (rs : List CodeRun)
  | none
  | union (a b : CharClass)
  | inter (a b : CharClass)
  | complement (a : CharClass)
  /-- The characters that differ in letter case only from one of the set. -/
  | foldCase (a : CharClass)

namespace CharClass

/-- Membership. -/
def contains : CharClass → Char → Bool
  | range first last, c => first ≤ c && c ≤ last
  | runs rs, c => inRuns rs c
  | none, _ => false
  | union a b, c => a.contains c || b.contains c
  | inter a b, c => a.contains c && b.contains c
  | complement a, c => !a.contains c
  | foldCase a, c => (caseVariants (Unicode.foldCase c)).any a.contains

/-- Every character. -/
def any : CharClass := complement none

/-- One character. -/
def single (c : Char) : CharClass := range c c

/-- The characters of a list. -/
def ofList (cs : List Char) : CharClass := cs.foldr (fun c a => union (single c) a) none

/-- The characters of any of the classes. -/
def unionAll (cs : List CharClass) : CharClass := cs.foldr union none

/-- The characters of `a` that are not of `b`. -/
def diff (a b : CharClass) : CharClass := inter a (complement b)

/-- The characters of exactly one of two classes. -/
def symmDiff (a b : CharClass) : CharClass := union (diff a b) (diff b a)

/-- The complement, if asked for. -/
def negateIf (negated : Bool) (a : CharClass) : CharClass := if negated then complement a else a

/-- The characters with a code below 128. -/
def ascii : CharClass := range (Char.ofNat 0) (Char.ofNat 127)

/-- The characters that differ in letter case only from one of the set, as far as both are ASCII. -/
def foldAsciiCase (a : CharClass) : CharClass := union a (inter ascii (foldCase (inter a ascii)))

/-! ### Digits, blanks and words -/

/-- ASCII digits. -/
def asciiDigit : CharClass := range '0' '9'

/-- ASCII white space. -/
def asciiSpace : CharClass := union (range '\t' '\r') (single ' ')

/-- ASCII letters. -/
def asciiLetter : CharClass := union (range 'a' 'z') (range 'A' 'Z')

/-- ASCII letters, digits and the underscore. -/
def asciiWord : CharClass := unionAll [asciiLetter, asciiDigit, single '_']

/-- Decimal digits of any script. -/
def digit : CharClass := runs decimalNumber

/-- The characters with the property `White_Space`. -/
def blank : CharClass :=
  unionAll [range '\t' '\r', ofList [' ', Char.ofNat 0x85, Char.ofNat 0xA0, Char.ofNat 0x1680],
    range (Char.ofNat 0x2000) (Char.ofNat 0x200A),
    ofList [Char.ofNat 0x2028, Char.ofNat 0x2029, Char.ofNat 0x202F, Char.ofNat 0x205F,
      Char.ofNat 0x3000]]

/-- The characters of words. -/
def word : CharClass := runs Unicode.word

/-! ### Bracketed names -/

/-- The classes that are written as a name between colons inside brackets. -/
def named? : String → Option CharClass
  | "alnum" => some (union asciiLetter asciiDigit)
  | "alpha" => some asciiLetter
  | "ascii" => some ascii
  | "blank" => some (ofList ['\t', ' '])
  | "cntrl" => some (union (range (Char.ofNat 0) (Char.ofNat 31)) (single (Char.ofNat 127)))
  | "digit" => some asciiDigit
  | "graph" => some (range '!' '~')
  | "lower" => some (range 'a' 'z')
  | "print" => some (range ' ' '~')
  | "punct" => some (unionAll [range '!' '/', range ':' '@', range '[' (Char.ofNat 96),
      range (Char.ofNat 123) '~'])
  | "space" => some asciiSpace
  | "upper" => some (range 'A' 'Z')
  | "word" => some asciiWord
  | "xdigit" => some (unionAll [asciiDigit, range 'A' 'F', range 'a' 'f'])
  | _ => Option.none

/-! ### Properties -/

/-- All letters. -/
def letters : CharClass :=
  unionAll [runs uppercaseLetter, runs lowercaseLetter, runs titlecaseLetter, runs modifierLetter,
    runs otherLetter]

/-- All marks. -/
def marks : CharClass := unionAll [runs nonspacingMark, runs spacingMark, runs enclosingMark]

/-- All numbers. -/
def numbers : CharClass := unionAll [runs decimalNumber, runs letterNumber, runs otherNumber]

/-- All punctuation. -/
def punctuation : CharClass :=
  unionAll [runs connectorPunctuation, runs dashPunctuation, runs openPunctuation,
    runs closePunctuation, runs initialPunctuation, runs finalPunctuation, runs otherPunctuation]

/-- All symbols. -/
def symbols : CharClass :=
  unionAll [runs mathSymbol, runs currencySymbol, runs modifierSymbol, runs otherSymbol]

/-- All separators. -/
def separators : CharClass :=
  unionAll [runs spaceSeparator, runs lineSeparator, runs paragraphSeparator]

/-- The characters of all general categories but that of unassigned ones. -/
def assigned : CharClass :=
  unionAll [letters, marks, numbers, punctuation, symbols, separators, runs control, runs format,
    runs privateUse]

/-- General categories by their short and long names. -/
def category? : String → Option CharClass
  | "l" | "letter" => some letters
  | "lu" | "uppercaseletter" => some (runs uppercaseLetter)
  | "ll" | "lowercaseletter" => some (runs lowercaseLetter)
  | "lt" | "titlecaseletter" => some (runs titlecaseLetter)
  | "lc" | "casedletter" =>
    some (unionAll [runs uppercaseLetter, runs lowercaseLetter, runs titlecaseLetter])
  | "lm" | "modifierletter" => some (runs modifierLetter)
  | "lo" | "otherletter" => some (runs otherLetter)
  | "m" | "mark" | "combiningmark" => some marks
  | "mn" | "nonspacingmark" => some (runs nonspacingMark)
  | "mc" | "spacingmark" => some (runs spacingMark)
  | "me" | "enclosingmark" => some (runs enclosingMark)
  | "n" | "number" => some numbers
  | "nd" | "decimalnumber" | "digit" => some (runs decimalNumber)
  | "nl" | "letternumber" => some (runs letterNumber)
  | "no" | "othernumber" => some (runs otherNumber)
  | "p" | "punctuation" | "punct" => some punctuation
  | "pc" | "connectorpunctuation" => some (runs connectorPunctuation)
  | "pd" | "dashpunctuation" => some (runs dashPunctuation)
  | "ps" | "openpunctuation" => some (runs openPunctuation)
  | "pe" | "closepunctuation" => some (runs closePunctuation)
  | "pi" | "initialpunctuation" => some (runs initialPunctuation)
  | "pf" | "finalpunctuation" => some (runs finalPunctuation)
  | "po" | "otherpunctuation" => some (runs otherPunctuation)
  | "s" | "symbol" => some symbols
  | "sm" | "mathsymbol" => some (runs mathSymbol)
  | "sc" | "currencysymbol" => some (runs currencySymbol)
  | "sk" | "modifiersymbol" => some (runs modifierSymbol)
  | "so" | "othersymbol" => some (runs otherSymbol)
  | "z" | "separator" => some separators
  | "zs" | "spaceseparator" => some (runs spaceSeparator)
  | "zl" | "lineseparator" => some (runs lineSeparator)
  | "zp" | "paragraphseparator" => some (runs paragraphSeparator)
  | "c" | "other" =>
    some (complement (unionAll [letters, marks, numbers, punctuation, symbols, separators]))
  | "cc" | "control" | "cntrl" => some (runs control)
  | "cf" | "format" => some (runs format)
  | "cn" | "unassigned" => some (complement assigned)
  | "co" | "privateuse" => some (runs privateUse)
  | "any" => some any
  | "assigned" => some assigned
  | "ascii" => some ascii
  | _ => Option.none

/-- Scripts by name. -/
def script? : String → Option CharClass
  | "latin" | "latn" => some (runs latin)
  | "greek" | "grek" => some (runs greek)
  | "cyrillic" | "cyrl" => some (runs cyrillic)
  | "han" | "hani" => some (runs han)
  | "hiragana" | "hira" => some (runs hiragana)
  | "katakana" | "kana" => some (runs katakana)
  | "arabic" | "arab" => some (runs arabic)
  | "hebrew" | "hebr" => some (runs hebrew)
  | "thai" => some (runs thai)
  | "hangul" | "hang" => some (runs hangul)
  | "devanagari" | "deva" => some (runs devanagari)
  | _ => Option.none

/-- Properties that hold of a character or do not. -/
def binary? : String → Option CharClass
  | "alphabetic" | "alpha" => some (runs alphabetic)
  | "uppercase" | "upper" => some (runs uppercase)
  | "lowercase" | "lower" => some (runs lowercase)
  | "whitespace" | "wspace" | "space" => some blank
  | "asciihexdigit" | "ahex" => some (unionAll [asciiDigit, range 'A' 'F', range 'a' 'f'])
  | _ => Option.none

/-- Names of properties compare without letter case, blanks, hyphens, underscores and a leading
`is`. -/
def looseName (cs : List Char) : String :=
  let kept := (cs.filter fun c => c != ' ' && c != '_' && c != '-').map Char.toLower
  match kept with
  | 'i' :: 's' :: c :: rest => String.ofList (c :: rest)
  | _ => String.ofList kept

/-- The class of a property, by its name alone or by the kind of property and its value. -/
def property? (kind : Option (List Char)) (name : List Char) : Option CharClass :=
  let value := looseName name
  match kind.map looseName with
  | Option.none => (binary? value).or ((category? value).or (script? value))
  | some "gc" | some "generalcategory" => category? value
  | some "sc" | some "script" => script? value
  | some _ => Option.none

end CharClass

end FederatedSparql.Text.Regex
