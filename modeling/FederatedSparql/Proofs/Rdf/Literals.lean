import Mathlib.Data.List.Basic
import FederatedSparql.Rdf.Term

/-!
Literals in query texts.

The grammar of double-quoted strings is given as a relation, and the scanner reads exactly what the
grammar allows.  A text has therefore one reading at most, and a literal that is written in a query
has the one that was meant.

* `Text.Quoted.reads_iff_scan?`: the scanner decides the grammar.
* `Text.Quoted.reads_quote_iff`: what is written between quotes reads back, and as nothing else.
* `Term.literal_reads_back`: a literal cannot break out of its quotes.
-/

namespace FederatedSparql

namespace Text.Quoted

/-! ### The grammar -/

/-- What may stand behind a backslash, and the character that both stand for. -/
def escapes : List (Char × Char) :=
  [('\\', '\\'), ('"', '"'), ('n', '\n'), ('r', '\r'), ('t', '\t')]

/-- What may stand between double quotes, and the text that it stands for: each character stands for
itself, but for the quote, the backslash and the ends of lines, or is behind a backslash. -/
inductive Spells : List Char → List Char → Prop
  | nil : Spells [] []
  | plain {c : Char} {written text : List Char} (h : c ∉ ['"', '\\', '\n', '\r'])
      (rest : Spells written text) : Spells (c :: written) (c :: text)
  | escaped {c d : Char} {written text : List Char} (h : (c, d) ∈ escapes)
      (rest : Spells written text) : Spells ('\\' :: c :: written) (d :: text)

/-- A text that starts with a quoted string, what the string stands for, and what comes behind its
closing quote. -/
def Reads (cs text after : List Char) : Prop :=
  ∃ written, Spells written text ∧ cs = '"' :: written ++ '"' :: after

/-! ### The scanner decides the grammar -/

variable {c d : Char} {written text after cs : List Char}

theorem unescape?_eq_some_iff : unescape? c = some d ↔ (c, d) ∈ escapes := by
  constructor
  · intro h
    unfold unescape? at h
    split_ifs at h <;> cases h <;> simp_all [escapes]
  · intro h
    simp only [escapes, List.mem_cons, Prod.mk.injEq, List.not_mem_nil, or_false] at h
    rcases h with ⟨rfl, rfl⟩ | ⟨rfl, rfl⟩ | ⟨rfl, rfl⟩ | ⟨rfl, rfl⟩ | ⟨rfl, rfl⟩ <;> rfl

theorem scan?_of_spells (h : Spells written text) (after : List Char) :
    scan? (written ++ '"' :: after) = some (text, after) := by
  induction h with
  | nil => rfl
  | plain h rest ih =>
    simp only [List.mem_cons, List.not_mem_nil, or_false, not_or] at h
    obtain ⟨hq, hb, hn, hr⟩ := h
    simp [scan?, ih, hb, hn, hr]
  | escaped h rest ih => simp [scan?, unescape?_eq_some_iff.2 h, ih]

theorem exists_spells_of_scan? (h : scan? cs = some (text, after)) :
    ∃ written, Spells written text ∧ cs = written ++ '"' :: after := by
  fun_induction scan? cs generalizing text with
  | case1 => simp at h
  | case2 rest =>
    obtain ⟨rfl, rfl⟩ : [] = text ∧ rest = after := by simpa using h
    exact ⟨[], .nil, rfl⟩
  | case3 c rest ih =>
    simp only [Option.bind_eq_bind, Option.bind_eq_some_iff, Option.pure_def] at h
    obtain ⟨d, hd, ⟨t, r⟩, hs, h⟩ := h
    obtain ⟨rfl, rfl⟩ : d :: t = text ∧ r = after := by simpa using h
    obtain ⟨written, spells, rfl⟩ := ih hs
    exact ⟨'\\' :: c :: written, .escaped (unescape?_eq_some_iff.1 hd) spells, rfl⟩
  | case4 => simp at h
  | case5 c rest hq _ hc ih =>
    obtain ⟨⟨t, r⟩, hs, h⟩ := Option.map_eq_some_iff.1 h
    obtain ⟨rfl, rfl⟩ : c :: t = text ∧ r = after := by simpa using h
    obtain ⟨written, spells, rfl⟩ := ih hs
    have plain : c ∉ ['"', '\\', '\n', '\r'] := by
      simp_all
    exact ⟨c :: written, .plain plain spells, rfl⟩

/-- **The scanner decides the grammar.**  So a text has one reading at most. -/
theorem reads_iff_scan? : Reads ('"' :: cs) text after ↔ scan? cs = some (text, after) := by
  constructor
  · rintro ⟨written, spells, h⟩
    rw [List.cons_append, List.cons.injEq] at h
    rw [h.2]
    exact scan?_of_spells spells after
  · intro h
    obtain ⟨written, spells, rfl⟩ := exists_spells_of_scan? h
    exact ⟨written, spells, rfl⟩

/-- **What is written between quotes reads back, and as nothing else**, whatever comes behind. -/
theorem reads_quote_iff (s rest : String) :
    Reads (quote s ++ rest).toList text after ↔ text = s.toList ∧ after = rest.toList := by
  have spelled : (quote s ++ rest).toList = '"' :: (escape s.toList ++ '"' :: rest.toList) := by
    simp [quote]
  rw [spelled, reads_iff_scan?, scan?_escape, Option.some.injEq, Prod.mk.injEq]
  exact and_congr eq_comm eq_comm

end Text.Quoted

namespace Term

open Text.Quoted

/-- What a literal has behind its closing quote: its language tag, else its datatype unless that is
the one of strings, else nothing. -/
inductive HasSuffix (l : Literal) : String → Prop
  | language {tag : String} (tagged : l.language = some tag) : HasSuffix l ("@" ++ tag)
  | datatype {iri : String} (untagged : l.language = none) (typed : l.datatype = some iri)
      (other : iri ≠ Xsd.string) : HasSuffix l ("^^<" ++ iri ++ ">")
  | nothing (untagged : l.language = none)
      (plain : ∀ iri, l.datatype = some iri → iri = Xsd.string) : HasSuffix l ""

theorem hasSuffix_literalSuffix (l : Literal) : HasSuffix l (literalSuffix l) := by
  unfold literalSuffix
  split
  · next tag tagged => exact .language tagged
  · next iri untagged typed =>
    split
    · next isString =>
      refine .nothing untagged fun other h => ?_
      rw [typed, Option.some.injEq] at h
      exact h ▸ isString
    · next other => exact .datatype untagged typed other
  · next untagged untyped => exact .nothing untagged fun iri h => by simp [untyped] at h

/-- The one reading of a literal in a query. -/
theorem reads_literal_iff (l : Literal) (rest : String) (text after : List Char) :
    Reads ((literal l).toSparql ++ rest).toList text after ↔
      text = l.lexical.toList ∧ after = (literalSuffix l ++ rest).toList := by
  rw [toSparql, String.append_assoc]
  exact reads_quote_iff l.lexical (literalSuffix l ++ rest)

/-- **A literal cannot break out of its quotes.**  Whatever its lexical form is and whatever comes
behind it, its text in a query starts with a quoted string in one way only: the string stands for
the lexical form and ends at the quote that closes the literal, behind which there is its language
tag, its datatype or nothing.  So literals with different lexical forms are never written alike. -/
theorem literal_reads_back (l : Literal) :
    (∃ suffix, HasSuffix l suffix ∧ ∀ (rest : String) (text after : List Char),
      Reads ((literal l).toSparql ++ rest).toList text after ↔
        text = l.lexical.toList ∧ after = (suffix ++ rest).toList) ∧
    ∀ (m : Literal) (rest other : String),
      (literal l).toSparql ++ rest = (literal m).toSparql ++ other → l.lexical = m.lexical := by
  refine ⟨⟨literalSuffix l, hasSuffix_literalSuffix l, reads_literal_iff l⟩, ?_⟩
  intro m rest other alike
  have reading : Reads ((literal l).toSparql ++ rest).toList l.lexical.toList
      (literalSuffix l ++ rest).toList := (reads_literal_iff l rest _ _).2 ⟨rfl, rfl⟩
  rw [alike] at reading
  exact String.toList_inj.1 ((reads_literal_iff m other _ _).1 reading).1

/-- A backslash and a quote at the end of a literal do not close it. -/
example : scan? ((plain "\\\"").toSparql.toList.drop 1) = some (['\\', '"'], []) := by decide

end Term

end FederatedSparql
