import FederatedSparql.Rdf.Bindings

/-!
Filter expressions.

An expression has a value (a term) and an effective Boolean value, and either may be missing: an
evaluation error.  Conjunction and disjunction are three-valued: a false operand decides a
conjunction and a true one a disjunction even if the other operand is an error.  A filter accepts a
solution only if the condition is true for it.

Regular-expression search is a parameter of the evaluator, so that what holds of expressions holds
whatever the dialect of patterns.
-/

namespace FederatedSparql

/-- Comparison operators. -/
inductive CompareOp where
  | eq
  | ne
  | lt
  | le
  | gt
  | ge
deriving DecidableEq, Repr, Inhabited

namespace CompareOp

/-- The operator as it is written in a query. -/
def symbol : CompareOp → String
  | .eq => "="
  | .ne => "!="
  | .lt => "<"
  | .le => "<="
  | .gt => ">"
  | .ge => ">="

/-- Whether the operator holds of operands in the given order. -/
def accepts : CompareOp → Ordering → Bool
  | .eq, o => o.isEq
  | .ne, o => o.isNe
  | .lt, o => o.isLT
  | .le, o => o.isLE
  | .gt, o => o.isGT
  | .ge, o => o.isGE

end CompareOp

/-- A filter expression. -/
inductive Expr where
  | var (name : String)
  | const (term : Term)
  | compare (op : CompareOp) (left right : Expr)
  | and (left right : Expr)
  | or (left right : Expr)
  | not (arg : Expr)
  | bound (name : String)
  | regex (arg pattern : Expr)
  | regexWith (arg pattern flags : Expr)
deriving DecidableEq, Repr, Inhabited

/-- A search for a pattern, under flags, in a text; `none` if the pattern or the flags are not
well formed. -/
abbrev RegexSearch := (pattern flags text : String) → Option Bool

/-- The order of two numbers, unless one of them is a NaN. -/
def compareNumbers? (x y : Float) : Option Ordering :=
  if x < y then some .lt
  else if x == y then some .eq
  else if y < x then some .gt
  else none

/-- Compares two terms: numbers by value, plain strings by code points; other terms are equal or
different, but neither is the smaller one. -/
def compareTerms? (op : CompareOp) (s t : Term) : Option Bool :=
  match s.numericValue?, t.numericValue? with
  | some x, some y => (compareNumbers? x y).map op.accepts
  | _, _ =>
    if s.isPlainString && t.isPlainString then some (op.accepts (Ord.compare s.text t.text))
    else
      match op with
      | .eq => some (decide (s = t))
      | .ne => some (decide (s ≠ t))
      | _ => none

/-- Three-valued conjunction. -/
def andTruth : Option Bool → Option Bool → Option Bool
  | some false, _ => some false
  | _, some false => some false
  | some true, some true => some true
  | _, _ => none

/-- Three-valued disjunction. -/
def orTruth : Option Bool → Option Bool → Option Bool
  | some true, _ => some true
  | _, some true => some true
  | some false, some false => some false
  | _, _ => none

namespace Expr

/-! ### Structure -/

/-- Every mention of a variable, in order. -/
def mentions : Expr → List String
  | var name => [name]
  | bound name => [name]
  | const _ => []
  | compare _ l r => l.mentions ++ r.mentions
  | and l r => l.mentions ++ r.mentions
  | or l r => l.mentions ++ r.mentions
  | not e => e.mentions
  | regex a p => a.mentions ++ p.mentions
  | regexWith a p f => a.mentions ++ p.mentions ++ f.mentions

/-- The variables mentioned, each once, in order of appearance. -/
def vars (e : Expr) : List String := e.mentions.eraseDups

/-- The leaves of the topmost conjunctions. -/
def conjuncts : Expr → List Expr
  | and l r => l.conjuncts ++ r.conjuncts
  | e => [e]

/-- The left-deep conjunction of expressions; `none` of no expression. -/
def andAll : List Expr → Option Expr
  | [] => none
  | e :: es => some (es.foldl and e)

/-- Whether the expression may be evaluated next to a single pattern.  Disjunctions stay where they
are, also below conjunctions and negations. -/
def isPushable : Expr → Bool
  | or _ _ => false
  | and l r => l.isPushable && r.isPushable
  | not e => e.isPushable
  | _ => true

/-- The variable and the resource of an equality between them, in either orientation. -/
def resourceEquality? : Expr → Option (String × Term)
  | compare .eq (var name) (const t) => if t.isResource then some (name, t) else none
  | compare .eq (const t) (var name) => if t.isResource then some (name, t) else none
  | _ => none

/-- Replaces bound variables by their terms, and the question whether they are bound by its answer.
-/
def substitute (b : Bindings) : Expr → Expr
  | var name =>
    match b.get? name with
    | some t => const t
    | none => var name
  | bound name => if b.contains name then const (Term.ofBool true) else bound name
  | const t => const t
  | compare op l r => compare op (l.substitute b) (r.substitute b)
  | and l r => and (l.substitute b) (r.substitute b)
  | or l r => or (l.substitute b) (r.substitute b)
  | not e => not (e.substitute b)
  | regex a p => regex (a.substitute b) (p.substitute b)
  | regexWith a p f => regexWith (a.substitute b) (p.substitute b) (f.substitute b)

/-! ### Evaluation -/

section Evaluation

variable (search : RegexSearch)

/-- The value of an expression, given its effective Boolean value: variables and constants have a
value of their own, all else has its Boolean value as a term. -/
def valueGiven (b : Bindings) (e : Expr) (truth : Option Bool) : Option Term :=
  match e with
  | var name => b.get? name
  | const t => some t
  | _ => truth.map Term.ofBool

/-- Searches a literal for a pattern. -/
def searchTerm (arg pattern : Term) (flags : String) : Option Bool :=
  if arg.isLiteral then search pattern.text flags arg.text else none

/-- The effective Boolean value of an expression. -/
def truthWith (b : Bindings) : Expr → Option Bool
  | var name => (b.get? name).bind Term.effectiveBoolean?
  | const t => t.effectiveBoolean?
  | bound name => some (b.contains name)
  | compare op l r => do
    let s ← l.valueGiven b (l.truthWith b)
    let t ← r.valueGiven b (r.truthWith b)
    compareTerms? op s t
  | and l r => andTruth (l.truthWith b) (r.truthWith b)
  | or l r => orTruth (l.truthWith b) (r.truthWith b)
  | not e => (e.truthWith b).map Bool.not
  | regex a p => do
    let arg ← a.valueGiven b (a.truthWith b)
    let pattern ← p.valueGiven b (p.truthWith b)
    searchTerm search arg pattern ""
  | regexWith a p f => do
    let arg ← a.valueGiven b (a.truthWith b)
    let pattern ← p.valueGiven b (p.truthWith b)
    let flags ← f.valueGiven b (f.truthWith b)
    searchTerm search arg pattern flags.text

/-- The value of an expression. -/
def valueWith (b : Bindings) (e : Expr) : Option Term := e.valueGiven b (e.truthWith search b)

end Evaluation

/-! ### Query text -/

/-- The expression as it is written in a query. -/
def toSparql : Expr → String
  | var name => "?" ++ name
  | const t => t.toSparql
  | compare op l r => "(" ++ l.toSparql ++ " " ++ op.symbol ++ " " ++ r.toSparql ++ ")"
  | and l r => "(" ++ l.toSparql ++ " && " ++ r.toSparql ++ ")"
  | or l r => "(" ++ l.toSparql ++ " || " ++ r.toSparql ++ ")"
  | not e => "(!" ++ e.toSparql ++ ")"
  | bound name => "bound(?" ++ name ++ ")"
  | regex a p => "regex(" ++ a.toSparql ++ ", " ++ p.toSparql ++ ")"
  | regexWith a p f =>
    "regex(" ++ a.toSparql ++ ", " ++ p.toSparql ++ ", " ++ f.toSparql ++ ")"

end Expr

end FederatedSparql
