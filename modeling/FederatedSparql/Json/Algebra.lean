import FederatedSparql.Json.Rdf
import FederatedSparql.Algebra.Query

/-!
The JSON form of patterns, expressions and queries.
-/

namespace FederatedSparql.Json

/-! ### Reading -/

namespace Decode

/-- A position of a pattern. -/
def patternTerm : Decoder PatternTerm := fun n j =>
  match n, variant? j with
  | n + 1, some ("Var", some data) => (string n data).map .var
  | n + 1, some ("Const", some data) => (term n data).map .const
  | _, _ => none

/-- A triple pattern. -/
def pattern : Decoder TriplePattern := fun n j => do
  let f ← record ["subject", "predicate", "object"] n j
  let subject ← f.get "subject" patternTerm
  let predicate ← f.get "predicate" patternTerm
  let object ← f.get "object" patternTerm
  return ⟨subject, predicate, object⟩

/-- A comparison operator. -/
def compareOp : Decoder CompareOp := fun n j =>
  match unitVariant n j with
  | some "Eq" => some .eq
  | some "Ne" => some .ne
  | some "Lt" => some .lt
  | some "Le" => some .le
  | some "Gt" => some .gt
  | some "Ge" => some .ge
  | _ => none

/-- The form of a query. -/
def queryForm : Decoder QueryForm := fun n j =>
  match unitVariant n j with
  | some "Select" => some .select
  | some "Ask" => some .ask
  | some "Construct" => some .construct
  | some "Describe" => some .describe
  | _ => none

/-- An expression. -/
def expr : Decoder Expr
  | 0, _ => none
  | 1, j =>
    match variant? j with
    | some ("Var", some data) => (string 0 data).map .var
    | some ("Bound", some data) => (string 0 data).map .bound
    | _ => none
  | n + 2, j =>
    match variant? j with
    | some ("Var", some data) => (string (n + 1) data).map .var
    | some ("Constant", some data) => (term (n + 1) data).map .const
    | some ("Bound", some data) => (string (n + 1) data).map .bound
    | some ("Not", some data) => (expr (n + 1) data).map .not
    | some ("And", some data) => (pair (expr n) data).map fun (l, r) => .and l r
    | some ("Or", some data) => (pair (expr n) data).map fun (l, r) => .or l r
    | some ("Compare", some data) => do
      let f ← record ["op", "left", "right"] (n + 1) data
      let op ← f.get "op" compareOp
      let left ← f.get "left" fun _ => expr n
      let right ← f.get "right" fun _ => expr n
      return .compare op left right
    | some ("Regex", some data) => do
      let f ← record ["arg", "pattern", "flags"] (n + 1) data
      let arg ← f.get "arg" fun _ => expr n
      let pattern ← f.get "pattern" fun _ => expr n
      let flags ← f.getNullable "flags" fun _ => expr n
      return match flags with
        | none => .regex arg pattern
        | some flags => .regexWith arg pattern flags
    | _ => none

/-- The algebra of a query. -/
def algebra : Decoder Algebra
  | 0, _ => none
  | 1, _ => none
  | n + 2, j =>
    match variant? j with
    | some ("Pattern", some data) => (pattern (n + 1) data).map .pattern
    | some ("Join", some data) => (pair (algebra n) data).map fun (l, r) => .join l r
    | some ("Union", some data) => (pair (algebra n) data).map fun (l, r) => .union l r
    | some ("Distinct", some data) => (algebra (n + 1) data).map .distinct
    | some ("LeftJoin", some data) => do
      let f ← record ["left", "right", "condition"] (n + 1) data
      let left ← f.get "left" fun _ => algebra n
      let right ← f.get "right" fun _ => algebra n
      let condition ← f.getNullable "condition" expr
      return .leftJoin left right condition
    | some ("Filter", some data) => do
      let f ← record ["condition", "arg"] (n + 1) data
      let condition ← f.get "condition" expr
      let arg ← f.get "arg" fun _ => algebra n
      return .filter condition arg
    | some ("Projection", some data) => do
      let f ← record ["vars", "arg"] (n + 1) data
      let vars ← f.get "vars" (list string)
      let arg ← f.get "arg" fun _ => algebra n
      return .project vars arg
    | some ("Slice", some data) => do
      let f ← record ["offset", "limit", "arg"] (n + 1) data
      let offset ← f.get "offset" nat
      let limit ← f.getNullable "limit" nat
      let arg ← f.get "arg" fun _ => algebra n
      return .slice offset limit arg
    | some ("Service", some data) => do
      let f ← record ["endpoint", "arg", "silent"] (n + 1) data
      let endpoint ← f.get "endpoint" string
      let arg ← f.get "arg" fun _ => algebra n
      let silent ← f.get "silent" bool
      return .service endpoint arg silent
    | _ => none

/-- A query. -/
def query : Decoder Query := fun n j => do
  let f ← record ["text", "query_type", "expr"] n j
  let text ← f.get "text" string
  let form ← f.get "query_type" queryForm
  let a ← f.get "expr" algebra
  return ⟨text, form, a⟩

end Decode

/-! ### Writing -/

/-- A position as a variant. -/
def ofPatternTerm : PatternTerm → Json
  | .var name => obj [("Var", str name)]
  | .const t => obj [("Const", ofTerm t)]

/-- A triple pattern as a record. -/
def ofPattern (p : TriplePattern) : Json :=
  obj [("subject", ofPatternTerm p.subject), ("predicate", ofPatternTerm p.predicate),
    ("object", ofPatternTerm p.object)]

/-- A comparison operator by name. -/
def ofCompareOp : CompareOp → Json
  | .eq => str "Eq"
  | .ne => str "Ne"
  | .lt => str "Lt"
  | .le => str "Le"
  | .gt => str "Gt"
  | .ge => str "Ge"

/-- A search in an expression as a variant. -/
def ofRegex (arg pattern flags : Json) : Json :=
  obj [("Regex", obj [("arg", arg), ("pattern", pattern), ("flags", flags)])]

/-- An expression as a variant. -/
def ofExpr : Expr → Json
  | .var name => obj [("Var", str name)]
  | .const t => obj [("Constant", ofTerm t)]
  | .compare op l r =>
    obj [("Compare", obj [("op", ofCompareOp op), ("left", ofExpr l), ("right", ofExpr r)])]
  | .and l r => obj [("And", .array [ofExpr l, ofExpr r])]
  | .or l r => obj [("Or", .array [ofExpr l, ofExpr r])]
  | .not e => obj [("Not", ofExpr e)]
  | .bound name => obj [("Bound", str name)]
  | .regex a p => ofRegex (ofExpr a) (ofExpr p) .null
  | .regexWith a p f => ofRegex (ofExpr a) (ofExpr p) (ofExpr f)

/-- The algebra of a query as a variant. -/
def ofAlgebra : Algebra → Json
  | .pattern p => obj [("Pattern", ofPattern p)]
  | .join l r => obj [("Join", .array [ofAlgebra l, ofAlgebra r])]
  | .leftJoin l r c =>
    obj [("LeftJoin", obj [("left", ofAlgebra l), ("right", ofAlgebra r),
      ("condition", opt ofExpr c)])]
  | .union l r => obj [("Union", .array [ofAlgebra l, ofAlgebra r])]
  | .filter c a => obj [("Filter", obj [("condition", ofExpr c), ("arg", ofAlgebra a)])]
  | .project vars a => obj [("Projection", obj [("vars", list str vars), ("arg", ofAlgebra a)])]
  | .slice offset limit a =>
    obj [("Slice", obj [("offset", nat offset), ("limit", opt nat limit), ("arg", ofAlgebra a)])]
  | .distinct a => obj [("Distinct", ofAlgebra a)]
  | .service endpoint a silent =>
    obj [("Service", obj [("endpoint", str endpoint), ("arg", ofAlgebra a),
      ("silent", .bool silent)])]

/-- A query as a record. -/
def ofQuery (q : Query) : Json :=
  obj [("text", str q.text), ("query_type", str q.form.name), ("expr", ofAlgebra q.algebra)]

end FederatedSparql.Json
