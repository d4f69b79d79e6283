import FederatedSparql.Text.Unicode.CaseFolding
import FederatedSparql.Text.Unicode.Letter
import FederatedSparql.Text.Unicode.Mark
import FederatedSparql.Text.Unicode.Symbol
import FederatedSparql.Url.Address
import FederatedSparql.Url.Punycode

/-!
Names of hosts.  Width and letter case make no difference to a name, and what is not ASCII is
written in Punycode, label by label.
-/

namespace FederatedSparql.Url

open Text.Unicode

/-- Characters that have no place in the name of a host. -/
def isForbiddenInHost (c : Char) : Bool :=
  ['\x00', '\t', '\n', '\r', ' ', '#', '/', ':', '<', '>', '?', '@', '[', '\\', ']', '^',
    '|'].contains c

/-- Characters that have no place in a domain. -/
def isForbiddenInDomain (c : Char) : Bool :=
  isForbiddenInHost c || c.toNat ≤ 0x1F || c == '%' || c.toNat == 0x7F

/-! ### Equal names -/

/-- Characters that are not seen: the soft hyphen, joiners of words and variation selectors. -/
def isInvisible (c : Char) : Bool :=
  let n := c.toNat
  n == 0xAD || n == 0x34F || n == 0x200B || n == 0x2060 || n == 0x2064 || n == 0xFEFF ||
    (0x180B ≤ n && n ≤ 0x180D) || n == 0x180F || (0xFE00 ≤ n && n ≤ 0xFE0F)

/-- A character at the usual width. -/
def ofUsualWidth (c : Char) : Char :=
  let n := c.toNat
  if 0xFF01 ≤ n && n ≤ 0xFF5E then Char.ofNat (n - 0xFEE0)
  else if n == 0x3002 || n == 0xFF61 then '.'
  else c

/-- The small letter of a capital.  The final sigma and the micro sign are not the small letters of
their capitals, although they fold to the same; the long s and the micro sign fold like capitals. -/
def smallLetter (c : Char) : Char :=
  let isForm (v : Char) := ['ς', 'µ', 'ſ'].contains v
  if inRuns uppercaseLetter c || inRuns titlecaseLetter c || c == 'µ' || c == 'ſ' then
    ((caseVariants (foldCase c)).find? fun v => inRuns lowercaseLetter v && !isForm v).getD c
  else c

/-- The form that all equal names have. -/
def foldName (cs : List Char) : List Char :=
  (cs.filter fun c => !isInvisible c).map fun c => smallLetter (ofUsualWidth c)

/-! ### Labels -/

/-- Marks combine with the character before them. -/
def isMark (c : Char) : Bool :=
  inRuns nonspacingMark c || inRuns spacingMark c || inRuns enclosingMark c

/-- Characters that can be seen and are in the form of `foldName`. -/
def isPlain (c : Char) : Bool :=
  c.toNat < 0x80 || isMark c || (c.toNat != 0xFFFD &&
    [lowercaseLetter, modifierLetter, otherLetter, decimalNumber, letterNumber, otherNumber,
      connectorPunctuation, dashPunctuation, openPunctuation, closePunctuation, initialPunctuation,
      finalPunctuation, otherPunctuation, mathSymbol, currencySymbol, modifierSymbol,
      otherSymbol].any fun runs => inRuns runs c)

/-- A label in any characters: all of them plain, and no mark in front. -/
def isWellFormed (label : List Char) : Bool := label.all isPlain && !label.head?.any isMark

/-- A label in ASCII.  A label that is in Punycode already must stand for a text that needs it. -/
def label? (label : List Char) : Option (List Char) :=
  let isBasic (c : Char) : Bool := c.toNat < 0x80
  match "xn--".toList.isPrefixOf? label with
  | some digits => do
    let text ← Punycode.decode? digits
    guard (!text.all isBasic && isWellFormed text && foldName text == text)
    guard (Punycode.encode text == digits)
    return label
  | none =>
    if label.all isBasic then some label
    else if isWellFormed label then some ("xn--".toList ++ Punycode.encode label)
    else none

/-- The domain, in ASCII, that a text names. -/
def domain? (cs : List Char) : Option (List Char) := do
  let labels ← (fields '.' (foldName cs)).mapM label?
  let name := ['.'].intercalate labels
  guard (!name.isEmpty && !name.any isForbiddenInDomain)
  return name

end FederatedSparql.Url
