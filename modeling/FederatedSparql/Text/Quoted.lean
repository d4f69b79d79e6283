/-!
Double-quoted strings of the query language.

`escape` writes a text so that it can stand between double quotes; `scan?` reads from just after an
opening quote up to the closing one.  The scanner's grammar is that of the language: any character
but the quote, the backslash, the line feed and the carriage return, or a backslash followed by one
of `\`, `"`, `n`, `r` and `t`.  Main statement: `scan?_escape`, reading back what was written,
whatever follows the closing quote.
-/

namespace FederatedSparql.Text.Quoted

/-- A character as it is written between double quotes. -/
def escapeChar (c : Char) : List Char :=
  if c = '\\' then ['\\', '\\']
  else if c = '"' then ['\\', '"']
  else if c = '\n' then ['\\', 'n']
  else if c = '\r' then ['\\', 'r']
  else if c = '\t' then ['\\', 't']
  else [c]

/-- A text as it is written between double quotes. -/
def escape (cs : List Char) : List Char := cs.flatMap escapeChar

/-- The character that a backslash followed by the given one stands for. -/
def unescape? (c : Char) : Option Char :=
  if c = '\\' then some '\\'
  else if c = '"' then some '"'
  else if c = 'n' then some '\n'
  else if c = 'r' then some '\r'
  else if c = 't' then some '\t'
  else none

/-- Reads up to the closing quote: the text between the quotes and what follows them. -/
def scan? : List Char → Option (List Char × List Char)
  | [] => none
  | '"' :: rest => some ([], rest)
  | '\\' :: c :: rest => do
    let d ← unescape? c
    let (text, after) ← scan? rest
    return (d :: text, after)
  | c :: rest =>
    if c = '\\' ∨ c = '\n' ∨ c = '\r' then none
    else (scan? rest).map fun (text, after) => (c :: text, after)

/-- A text between double quotes. -/
def quote (s : String) : String := String.ofList ('"' :: escape s.toList ++ ['"'])

/-- What was written between quotes reads back, and reading stops at the closing quote. -/
theorem scan?_escape (cs rest : List Char) :
    scan? (escape cs ++ '"' :: rest) = some (cs, rest) := by
  induction cs with
  | nil => rfl
  | cons c cs ih =>
    have step : escape (c :: cs) = escapeChar c ++ escape cs := by simp [escape]
    rw [step]
    by_cases h1 : c = '\\'
    · subst h1; simp [escapeChar, scan?, unescape?, ih]
    by_cases h2 : c = '"'
    · subst h2; simp [escapeChar, scan?, unescape?, ih]
    by_cases h3 : c = '\n'
    · subst h3; simp [escapeChar, scan?, unescape?, ih]
    by_cases h4 : c = '\r'
    · subst h4; simp [escapeChar, scan?, unescape?, ih]
    by_cases h5 : c = '\t'
    · subst h5; simp [escapeChar, scan?, unescape?, ih]
    · simp [escapeChar, h1, h2, h3, h4, h5, scan?, ih]

end FederatedSparql.Text.Quoted
