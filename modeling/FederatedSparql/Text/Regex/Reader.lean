import FederatedSparql.Text.Regex.Basic

/-!
Reading regular expressions from their text.

The dialect has no look-around and no back-references, so every expression denotes a regular set of
texts.  Groups only bracket, whether named or not.  Flags switched inside a group hold up to its
end, also behind a bar.
-/

namespace FederatedSparql.Text.Regex

/-- The flags in force. -/
structure Flags where
  ignoreCase : Bool := false
  /-- Whether the point matches a line feed. -/
  dotAll : Bool := false
  multiLine : Bool := false
  /-- Whether lines may end with a carriage return. -/
  crlf : Bool := false
  /-- Whether blanks and comments in the expression are disregarded. -/
  verbose : Bool := false
  unicode : Bool := true
  swapGreed : Bool := false
deriving DecidableEq, Repr

namespace Flags

/-- Switches the flag of a letter. -/
def set? (f : Flags) (letter : Char) (value : Bool) : Option Flags :=
  match letter with
  | 'i' => some { f with ignoreCase := value }
  | 's' => some { f with dotAll := value }
  | 'm' => some { f with multiLine := value }
  | 'R' => some { f with crlf := value }
  | 'x' => some { f with verbose := value }
  | 'u' => some { f with unicode := value }
  | 'U' => some { f with swapGreed := value }
  | _ => none

/-- The class under the flag for letter case. -/
def fold (f : Flags) (k : CharClass) : CharClass :=
  if !f.ignoreCase then k else if f.unicode then .foldCase k else .foldAsciiCase k

/-- Whether a class may stand in an expression.  Outside Unicode mode classes are made of ASCII
characters, and one that has others by being a complement would match parts of them. -/
def admits (f : Flags) (k : CharClass) : Bool := f.unicode || !k.contains (Char.ofNat 0x80)

/-- Whether a character may stand in a bracketed class. -/
def admitsInSet (f : Flags) (c : Char) : Bool := f.unicode || c.toNat < 0x80

/-- The word characters. -/
def word (f : Flags) : CharClass := if f.unicode then .word else .asciiWord

/-- The position at the start of the text, or of a line. -/
def startLook (f : Flags) : Look :=
  if f.multiLine then (if f.crlf then .crlfStart else .lineStart) else .textStart

/-- The position at the end of the text, or of a line. -/
def endLook (f : Flags) : Look :=
  if f.multiLine then (if f.crlf then .crlfEnd else .lineEnd) else .textEnd

/-- What the point matches. -/
def dot (f : Flags) : CharClass :=
  if f.dotAll then .any
  else if f.crlf then .complement (.ofList ['\r', '\n'])
  else .complement (.single '\n')

end Flags

/-! ### Small pieces -/

/-- Drops blanks and comments; the Boolean tells whether a comment has begun. -/
def skipComments : Bool → List Char → List Char
  | _, [] => []
  | true, c :: rest => skipComments (c != '\n') rest
  | false, c :: rest =>
    if isBlank c then skipComments false rest
    else if c = '#' then skipComments true rest
    else c :: rest

/-- Drops what the flags tell to disregard. -/
def skipIgnored (f : Flags) (cs : List Char) : List Char :=
  if f.verbose then skipComments false cs else cs

/-- The value of a hexadecimal digit. -/
def hexDigit? (c : Char) : Option Nat :=
  if '0' ≤ c ∧ c ≤ '9' then some (c.toNat - '0'.toNat)
  else if 'a' ≤ c ∧ c ≤ 'f' then some (c.toNat - 'a'.toNat + 10)
  else if 'A' ≤ c ∧ c ≤ 'F' then some (c.toNat - 'A'.toNat + 10)
  else none

/-- The character with a code point given in hexadecimal digits. -/
def hexChar? (ds : List Char) : Option Char := do
  if ds = [] then none
  let n ← ds.foldlM (fun n d => (hexDigit? d).map (n * 16 + ·)) 0
  if h : n.isValidChar then some (Char.ofNatAux n h) else none

/-- Reads up to a closing character, which is dropped. -/
def upToClosing? (close : Char) (cs : List Char) : Option (List Char × List Char) :=
  match cs.dropWhile (· != close) with
  | _ :: rest => some (cs.takeWhile (· != close), rest)
  | [] => none

/-- Reads the code of a character: so many hexadecimal digits, or any number of them in braces. -/
def readHex? (width : Nat) : List Char → Option (Char × List Char)
  | '\x7b' :: rest => do
    let (ds, rest) ← upToClosing? '\x7d' rest
    let c ← hexChar? ds
    return (c, rest)
  | cs => do
    if cs.length < width then none
    let c ← hexChar? (cs.take width)
    return (c, cs.drop width)

/-- A decimal number that fits 32 bits, with blanks around it. -/
def readCount? (cs : List Char) : Option (Nat × List Char) :=
  let cs := cs.dropWhile isBlank
  let ds := cs.takeWhile Char.isDigit
  let n := ds.foldl (fun n d => n * 10 + (d.toNat - '0'.toNat)) 0
  if ds = [] ∨ 0x100000000 ≤ n then none
  else some (n, (cs.dropWhile Char.isDigit).dropWhile isBlank)

/-- The bounds of a counted repetition, behind its opening brace. -/
def readBounds? (cs : List Char) : Option ((Nat × Option Nat) × List Char) := do
  let (min, rest) ← readCount? cs
  match rest with
  | '\x7d' :: rest => return ((min, some min), rest)
  | ',' :: rest =>
    match rest.dropWhile isBlank with
    | '\x7d' :: rest => return ((min, none), rest)
    | _ =>
      let (max, rest) ← readCount? rest
      match rest with
      | '\x7d' :: rest => if min ≤ max then return ((min, some max), rest) else none
      | _ => none
  | _ => none

/-- A lazy repetition finds a match exactly when a greedy one does. -/
def skipLazy : List Char → List Char
  | '?' :: rest => rest
  | cs => cs

/-! ### Escapes -/

/-- What a backslash and the characters behind it stand for. -/
inductive Escape where
  | literal (c : Char)
  | look (l : Look)
  | set (k : CharClass)

/-- A class that is written as a letter, upper case for its complement. -/
def letterClass (f : Flags) (unicode ascii : CharClass) (negated : Bool) : CharClass :=
  .negateIf negated (if f.unicode then unicode else ascii)

/-- Splits around the first sign of inequality. -/
def splitUnequal? : List Char → Option (List Char × List Char)
  | '!' :: '=' :: rest => some ([], rest)
  | c :: rest => (splitUnequal? rest).map fun (a, b) => (c :: a, b)
  | [] => none

/-- Splits a property into the kind of property and its value, and tells whether they are to
differ. -/
def splitProperty (cs : List Char) : Option (List Char) × List Char × Bool :=
  match splitUnequal? cs with
  | some (kind, value) => (some kind, value, true)
  | none =>
    let head := cs.takeWhile fun c => c != ':' && c != '='
    match cs.dropWhile fun c => c != ':' && c != '=' with
    | _ :: value => (some head, value, false)
    | [] => (none, cs, false)

/-- The class of a property that is written behind `\p`. -/
def readProperty? (f : Flags) (negated : Bool) (cs : List Char) :
    Option (CharClass × List Char) := do
  if !f.unicode then none
  match cs with
  | '\x7b' :: rest =>
    let (text, rest) ← upToClosing? '\x7d' rest
    let (kind, value, differs) := splitProperty text
    let k ← CharClass.property? kind value
    return (.negateIf (negated != differs) (f.fold k), rest)
  | c :: rest =>
    let k ← CharClass.property? none [c]
    return (.negateIf negated (f.fold k), rest)
  | [] => none

/-- The kinds of word boundary that are written in braces behind `\b`.  Braces that cannot hold such
a name are left to be read as a repetition. -/
def readBoundary? (f : Flags) (cs : List Char) : Option (Look × List Char) :=
  let plain := some (Look.wordBoundary f.word, cs)
  match cs with
  | '\x7b' :: inside =>
    match skipIgnored f inside with
    | [] => none
    | c :: _ =>
      if c.isAlpha ∨ c = '-' then do
        let (name, rest) ← upToClosing? '\x7d' (skipIgnored f inside)
        match String.ofList name with
        | "start" => some (.wordStart f.word, rest)
        | "end" => some (.wordEnd f.word, rest)
        | "start-half" => some (.wordStartHalf f.word, rest)
        | "end-half" => some (.wordEndHalf f.word, rest)
        | _ => none
      else plain
  | _ => plain

/-- ASCII characters other than letters, digits and angle brackets stand for themselves behind a
backslash. -/
def isEscapable (c : Char) : Bool :=
  c.toNat < 128 && !c.isAlphanum && c != '<' && c != '>'

/-- Reads a code of two digits, or one in braces.  Two digits are a byte outside Unicode mode, and
bytes beyond ASCII are parts of characters only. -/
def readByte? (f : Flags) (cs : List Char) : Option (Char × List Char) := do
  let (c, rest) ← readHex? 2 cs
  if f.unicode || c.toNat < 0x80 || cs.head? == some '\x7b' then some (c, rest) else none

/-- Reads what follows a backslash. -/
def readEscape? (f : Flags) : List Char → Option (Escape × List Char)
  | [] => none
  | c :: rest =>
    match c with
    | 'x' => (readByte? f rest).map fun (c, rest) => (.literal c, rest)
    | 'u' => (readHex? 4 rest).map fun (c, rest) => (.literal c, rest)
    | 'U' => (readHex? 8 rest).map fun (c, rest) => (.literal c, rest)
    | 'p' => (readProperty? f false rest).map fun (k, rest) => (.set k, rest)
    | 'P' => (readProperty? f true rest).map fun (k, rest) => (.set k, rest)
    | 'd' => some (.set (letterClass f .digit .asciiDigit false), rest)
    | 'D' => some (.set (letterClass f .digit .asciiDigit true), rest)
    | 's' => some (.set (letterClass f .blank .asciiSpace false), rest)
    | 'S' => some (.set (letterClass f .blank .asciiSpace true), rest)
    | 'w' => some (.set (letterClass f .word .asciiWord false), rest)
    | 'W' => some (.set (letterClass f .word .asciiWord true), rest)
    | 'a' => some (.literal (Char.ofNat 7), rest)
    | 'f' => some (.literal (Char.ofNat 12), rest)
    | 't' => some (.literal '\t', rest)
    | 'n' => some (.literal '\n', rest)
    | 'r' => some (.literal '\r', rest)
    | 'v' => some (.literal (Char.ofNat 11), rest)
    | 'A' => some (.look .textStart, rest)
    | 'z' => some (.look .textEnd, rest)
    | 'b' => (readBoundary? f rest).map fun (l, rest) => (.look l, rest)
    | 'B' => some (.look (.notWordBoundary f.word), rest)
    | '<' => some (.look (.wordStart f.word), rest)
    | '>' => some (.look (.wordEnd f.word), rest)
    | c => if isEscapable c then some (.literal c, rest) else none

/-! ### Bracketed classes -/

/-- Binary operators inside brackets. -/
inductive SetOp where
  | inter
  | diff
  | symmDiff

/-- Applies an operator whose left operand has been read. -/
def applyOp (f : Flags) (pending : Option (SetOp × CharClass)) (right : CharClass) : CharClass :=
  match pending with
  | none => right
  | some (.inter, left) => .inter (f.fold left) (f.fold right)
  | some (.diff, left) => .diff (f.fold left) (f.fold right)
  | some (.symmDiff, left) => .symmDiff (f.fold left) (f.fold right)

/-- One character or one escaped class inside brackets. -/
def readSetItem? (f : Flags) : List Char → Option (Escape × List Char)
  | [] => none
  | '\\' :: rest => readEscape? f rest
  | c :: rest => some (.literal c, rest)

/-- A single item, or a range between two characters. -/
def readSetRange? (f : Flags) (cs : List Char) : Option (CharClass × List Char) := do
  let (first, rest) ← readSetItem? f cs
  let alone : Option (CharClass × List Char) :=
    match first with
    | .literal c => if f.admitsInSet c then some (.single c, rest) else none
    | .set k => some (k, rest)
    | .look _ => none
  match skipIgnored f rest with
  | [] => none
  | '-' :: behind =>
    match skipIgnored f behind with
    | ']' :: _ => alone
    | '-' :: _ => alone
    | upper =>
      let (last, rest) ← readSetItem? f upper
      match first, last with
      | .literal a, .literal b =>
        if a ≤ b && f.admitsInSet b then some (.range a b, rest) else none
      | _, _ => none
  | _ => alone

/-- A class that is written as a name between colons, behind its opening bracket. -/
def readNamedClass? (cs : List Char) : Option (CharClass × List Char) :=
  match cs with
  | ':' :: rest =>
    let (negated, rest) :=
      match rest with
      | '^' :: rest => (true, rest)
      | rest => (false, rest)
    let name := rest.takeWhile (· != ':')
    match rest.dropWhile (· != ':') with
    | ':' :: ']' :: rest =>
      (CharClass.named? (String.ofList name)).map fun k => (.negateIf negated k, rest)
    | _ => none
  | _ => none

/-- Hyphens at the start of a bracketed class stand for themselves, and so does a closing bracket
where nothing stands before it. -/
def readLeading (f : Flags) : List Char → CharClass → CharClass × List Char
  | '-' :: rest, _ => readLeading f rest (.single '-')
  | ']' :: rest, .none => (.single ']', rest)
  | cs, k => (k, skipIgnored f cs)

/-- Reads the rest of a bracketed class; `acc` is the union since the last operator. -/
def readSet? (f : Flags) :
    Nat → Bool → Option (SetOp × CharClass) → CharClass → List Char →
      Option (CharClass × List Char)
  | 0, _, _, _, _ => none
  | fuel + 1, negated, pending, acc, cs =>
    match skipIgnored f cs with
    | [] => none
    | ']' :: rest => some (.negateIf negated (f.fold (applyOp f pending acc)), rest)
    | '&' :: '&' :: rest =>
      readSet? f fuel negated (some (.inter, applyOp f pending acc)) .none rest
    | '-' :: '-' :: rest =>
      readSet? f fuel negated (some (.diff, applyOp f pending acc)) .none rest
    | '~' :: '~' :: rest =>
      readSet? f fuel negated (some (.symmDiff, applyOp f pending acc)) .none rest
    | '[' :: rest =>
      match readNamedClass? rest with
      | some (k, rest) => readSet? f fuel negated pending (.union acc k) rest
      | none =>
        let (inner, rest) :=
          match skipIgnored f rest with
          | '^' :: rest => (true, rest)
          | rest => (false, rest)
        let (start, rest) := readLeading f (skipIgnored f rest) .none
        match readSet? f fuel inner none start rest with
        | some (k, rest) => readSet? f fuel negated pending (.union acc k) rest
        | none => none
    | cs =>
      match readSetRange? f cs with
      | some (k, rest) => readSet? f fuel negated pending (.union acc k) rest
      | none => none

/-- Reads a bracketed class behind its opening bracket. -/
def readBracketed? (f : Flags) (cs : List Char) : Option (CharClass × List Char) := do
  let (negated, rest) :=
    match skipIgnored f cs with
    | '^' :: rest => (true, rest)
    | rest => (false, rest)
  let (start, rest) := readLeading f (skipIgnored f rest) .none
  readSet? f (cs.length + 1) negated none start rest

/-! ### Groups -/

/-- What opens a group. -/
inductive Opening where
  /-- Flags for the rest of the enclosing group. -/
  | flags (f : Flags)
  /-- A group, read under its flags, that may have a name. -/
  | group (f : Flags) (name : Option (List Char))

/-- Reads flags; `seen` are the letters before, and `value` what they are set to. -/
def readFlags? : Flags → List Char → Bool → Bool → List Char → Option (Flags × Bool × List Char)
  | _, _, _, _, [] => none
  | f, seen, value, dangling, c :: rest =>
    if c = ')' ∨ c = ':' then
      if dangling then none else some (f, c = ':', rest)
    else if c = '-' then
      if value then readFlags? f seen false true rest else none
    else if seen.contains c then none
    else
      match f.set? c value with
      | some f => readFlags? f (c :: seen) value false rest
      | none => none

/-- Names of groups start with a letter or an underscore, and go on with these, digits, points and
square brackets. -/
def isGroupName : List Char → Bool
  | [] => false
  | c :: rest =>
    let letter (c : Char) : Bool := Unicode.inRuns Unicode.alphabetic c
    (c == '_' || letter c) && rest.all fun c =>
      c == '_' || c == '.' || c == '[' || c == ']' || letter c ||
        CharClass.numbers.contains c

/-- The opening of a named group. -/
def readName? (f : Flags) (cs : List Char) : Option (Opening × List Char) := do
  let (name, rest) ← upToClosing? '>' cs
  if isGroupName name then some (.group f (some name), rest) else none

/-- Reads what follows an opening parenthesis. -/
def readOpening? (f : Flags) (cs : List Char) : Option (Opening × List Char) :=
  match skipIgnored f cs with
  | '?' :: '=' :: _ => none
  | '?' :: '!' :: _ => none
  | '?' :: '<' :: '=' :: _ => none
  | '?' :: '<' :: '!' :: _ => none
  | '?' :: 'P' :: '<' :: rest => readName? f rest
  | '?' :: '<' :: rest => readName? f rest
  | '?' :: ')' :: _ => none
  | '?' :: rest => do
    let (g, isGroup, rest) ← readFlags? f [] true false rest
    return (if isGroup then .group g none else .flags g, rest)
  | rest => some (.group f none, rest)

/-! ### Expressions -/

/-- What has been read of a group. -/
structure Progress where
  flags : Flags
  /-- Names of the groups so far. -/
  names : List (List Char)
  /-- The alternatives that are complete. -/
  alternatives : Option Regex := none
  /-- What stands before the last item of the current alternative. -/
  before : Regex := .empty
  /-- The last item, if a repetition may follow. -/
  last : Option Regex := none

namespace Progress

/-- The current alternative. -/
def current (p : Progress) : Regex :=
  match p.last with
  | some r => .concat p.before r
  | none => p.before

/-- All alternatives. -/
def finish (p : Progress) : Regex :=
  match p.alternatives with
  | some r => .alternate r p.current
  | none => p.current

/-- Appends an item. -/
def push (p : Progress) (r : Regex) : Progress := { p with before := p.current, last := some r }

/-- Repeats the last item, which has to be there. -/
def repeatLast? (p : Progress) (min : Nat) (max : Option Nat) : Option Progress :=
  p.last.map fun r => { p with last := some (.repeat r min max) }

/-- Starts the next alternative. -/
def bar (p : Progress) : Progress :=
  { p with alternatives := some p.finish, before := .empty, last := none }

/-- Changes the flags for what follows. -/
def switch (p : Progress) (f : Flags) : Progress :=
  { p with flags := f, before := p.current, last := none }

end Progress

/-- How deep groups may nest. -/
def nestLimit : Nat := 250

/-- Reads a group up to its closing parenthesis, which stays, or to the end of the text. -/
def readGroup? : Nat → Nat → Progress → List Char → Option (Progress × List Char)
  | 0, _, _, _ => none
  | fuel + 1, depth, p, cs =>
    let f := p.flags
    match skipIgnored f cs with
    | [] => some (p, [])
    | ')' :: rest => some (p, ')' :: rest)
    | '|' :: rest => readGroup? fuel depth p.bar rest
    | '*' :: rest => (p.repeatLast? 0 none).bind fun p => readGroup? fuel depth p (skipLazy rest)
    | '+' :: rest => (p.repeatLast? 1 none).bind fun p => readGroup? fuel depth p (skipLazy rest)
    | '?' :: rest =>
      (p.repeatLast? 0 (some 1)).bind fun p => readGroup? fuel depth p (skipLazy rest)
    | '\x7b' :: rest =>
      match readBounds? rest with
      | some ((min, max), rest) =>
        (p.repeatLast? min max).bind fun p =>
          readGroup? fuel depth p (skipLazy (skipIgnored f rest))
      | none => none
    | '.' :: rest =>
      if f.admits f.dot then readGroup? fuel depth (p.push (.char f.dot)) rest else none
    | '^' :: rest => readGroup? fuel depth (p.push (.look f.startLook)) rest
    | '$' :: rest => readGroup? fuel depth (p.push (.look f.endLook)) rest
    | '[' :: rest =>
      match readBracketed? f rest with
      | some (k, rest) =>
        if f.admits k then readGroup? fuel depth (p.push (.char k)) rest else none
      | none => none
    | '\\' :: rest =>
      match readEscape? f rest with
      | some (.literal c, rest) =>
        readGroup? fuel depth (p.push (.char (f.fold (.single c)))) rest
      | some (.look l, rest) => readGroup? fuel depth (p.push (.look l)) rest
      | some (.set k, rest) =>
        if f.admits k then readGroup? fuel depth (p.push (.char k)) rest else none
      | none => none
    | '(' :: rest =>
      match readOpening? f rest with
      | some (.flags g, rest) => readGroup? fuel depth (p.switch g) rest
      | some (.group g name, rest) =>
        if depth = 0 ∨ name.any p.names.contains then none
        else
          let inside : Progress := { flags := g, names := name.toList ++ p.names }
          match readGroup? fuel (depth - 1) inside rest with
          | some (inner, ')' :: rest) =>
            readGroup? fuel depth { p.push inner.finish with names := inner.names } rest
          | _ => none
      | none => none
    | c :: rest => readGroup? fuel depth (p.push (.char (f.fold (.single c)))) rest

/-- The expression that a text denotes under some flags. -/
def read? (f : Flags) (pattern : String) : Option Regex := do
  let cs := pattern.toList
  let (p, rest) ← readGroup? (cs.length + 1) nestLimit ⟨f, [], none, .empty, none⟩ cs
  if rest = [] ∧ p.finish.weight ≤ weightLimit then some p.finish else none

/-- The letters of `i`, `s`, `m` and `x` switch flags on; other letters are refused. -/
def flags? (letters : String) : Option Flags :=
  letters.toList.foldlM (fun f c => if "ismx".toList.contains c then f.set? c true else none) {}

/-- Searches a text for a pattern under flags. -/
def search? (pattern flags text : String) : Option Bool := do
  let f ← flags? flags
  let r ← read? f pattern
  return r.search text

end FederatedSparql.Text.Regex
