import FederatedSparql.Rdf.Bindings

/-!
Triple patterns: triples with variables.

`bind` replaces variables by the terms bound to them; `match?` gives the solution that a triple
yields, where a variable that stands at two positions has to meet the same term at both.
-/

namespace FederatedSparql

/-- A position of a pattern: a variable or a fixed term. -/
inductive PatternTerm where
  | var (name : String)
  | const (term : Term)
deriving DecidableEq, Repr, Inhabited

namespace PatternTerm

/-- The name of a variable. -/
def var? : PatternTerm → Option String
  | .var name => some name
  | .const _ => none

/-- The fixed term. -/
def const? : PatternTerm → Option Term
  | .var _ => none
  | .const t => some t

/-- Replaces a bound variable by its term. -/
def bind (b : Bindings) : PatternTerm → PatternTerm
  | .var name =>
    match b.get? name with
    | some t => .const t
    | none => .var name
  | .const t => .const t

/-- The term at the position, fixed or bound. -/
def resolve? (b : Bindings) : PatternTerm → Option Term
  | .var name => b.get? name
  | .const t => some t

/-- The position as it is written in a query. -/
def toSparql : PatternTerm → String
  | .var name => "?" ++ name
  | .const t => t.toSparql

/-- Meets a term at the position: a fixed term has to be equal, a variable is bound unless it is
bound to another term already. -/
def meet? (p : PatternTerm) (t : Term) (b : Bindings) : Option Bindings :=
  match p with
  | .const c => if c = t then some b else none
  | .var name => b.addEntry? (name, t)

end PatternTerm

/-- A triple pattern. -/
structure TriplePattern where
  subject : PatternTerm
  predicate : PatternTerm
  object : PatternTerm
deriving DecidableEq, Repr, Inhabited

namespace TriplePattern

/-- The three positions. -/
def terms (p : TriplePattern) : List PatternTerm := [p.subject, p.predicate, p.object]

/-- The pattern that leaves absent positions to the variables `s`, `p` and `o`. -/
def ofPositions (subject predicate object : Option Term) : TriplePattern :=
  let position (t : Option Term) (name : String) : PatternTerm :=
    match t with
    | some t => .const t
    | none => .var name
  ⟨position subject "s", position predicate "p", position object "o"⟩

/-- The variables, each once, in order of appearance. -/
def vars (p : TriplePattern) : List String := (p.terms.filterMap PatternTerm.var?).eraseDups

/-- The variables that are not bound. -/
def freeVars (p : TriplePattern) (b : Bindings) : List String :=
  p.vars.filter fun v => !b.contains v

/-- Whether any variable is not bound. -/
def hasFreeVars (p : TriplePattern) (b : Bindings) : Bool :=
  p.terms.any fun t => t.var?.any fun v => !b.contains v

/-- Whether there is no variable. -/
def isFullyBound (p : TriplePattern) : Bool := p.terms.all fun t => t.var?.isNone

/-- Replaces bound variables by their terms. -/
def bind (b : Bindings) (p : TriplePattern) : TriplePattern :=
  ⟨p.subject.bind b, p.predicate.bind b, p.object.bind b⟩

/-- Replaces one variable by a term. -/
def bindVar (name : String) (t : Term) (p : TriplePattern) : TriplePattern :=
  p.bind (Bindings.single name t)

/-- The solution that a triple yields. -/
def match? (p : TriplePattern) (t : Triple) : Option Bindings := do
  let b ← p.subject.meet? t.subject ∅
  let b ← p.predicate.meet? t.predicate b
  p.object.meet? t.object b

/-- The pattern as it is written in a query. -/
def toSparql (p : TriplePattern) : String :=
  p.subject.toSparql ++ " " ++ p.predicate.toSparql ++ " " ++ p.object.toSparql ++ " ."

end TriplePattern

end FederatedSparql
