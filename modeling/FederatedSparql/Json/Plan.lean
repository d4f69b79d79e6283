import FederatedSparql.Json.Algebra
import FederatedSparql.Json.Members
import FederatedSparql.Plan.Build

/-!
The JSON form of plans.

A triple in a plan's surroundings is the array of its terms; a statement or a group is an object in
which filters, fixed terms and local variables may be missing.
-/

namespace FederatedSparql.Json

/-! ### Reading -/

namespace Decode

/-- A triple as the array of its terms. -/
def termTriple : Decoder Triple := fun n j => do
  match ← list term n j with
  | [s, p, o] => some ⟨s, p, o⟩
  | _ => none

/-- Where an endpoint's data is. -/
def locality : Decoder Locality := fun n j =>
  match unitVariant n j with
  | some "Local" => some .local
  | some "Remote" => some .remote
  | _ => none

/-- A source. -/
def source : Decoder Source := fun n j => do
  let f ← record ["endpoint_id", "source_type"] n j
  let endpoint ← f.get "endpoint_id" string
  let kind ← f.get "source_type" locality
  return ⟨endpoint, kind⟩

/-- A statement. -/
def statement : Decoder Statement := fun _ j => do
  let id ← need j "id" nat
  let pattern ← need j "pattern" pattern
  let sources ← need j "sources" (list source)
  let filter ← may j "filter" expr
  let bound ← orElse j "bound_filters" row ∅
  let vars ← orElse j "local_vars" (list string) []
  return ⟨id, pattern, sources, filter, bound, vars⟩

/-- A group, field by field. -/
def group : Decoder ExclusiveGroup := fun _ j => do
  let id ← need j "id" nat
  let statements ← need j "statements" (list statement)
  let owner ← need j "owner" source
  let filter ← may j "filter" expr
  let bound ← orElse j "bound_filters" row ∅
  return ⟨id, statements, owner, filter, bound⟩

/-- A plan. -/
def plan : Nat → Json → Option Plan
  | 0, _ => none
  | n + 1, j => do
    match j with
    | .string (some "Empty") => return .empty
    | .object [(some key, data)] =>
      match key with
      | "Statement" => return .statement (← statement n data)
      | "ExclusiveGroup" => return .group (← group n data)
      | "NJoin" =>
        let args ← need data "args" fun _ => list (fun _ => plan n) anyDepth
        let vars ← need data "join_vars" (list string)
        return .join args vars
      | "NUnion" => return .union (← list (fun _ => plan n) anyDepth data)
      | "Service" =>
        let endpoint ← need data "service_ref" string
        let body ← need data "expr" algebra
        let silent ← need data "silent" bool
        return .service ⟨endpoint, body, silent⟩
      | "IndependentJoinGroup" => return .independent (← list statement anyDepth data)
      | "SingleSourceQuery" =>
        let endpoint ← need data "endpoint_id" string
        let query ← need data "query" query
        return .passThrough endpoint query
      | "Filter" =>
        let condition ← need data "condition" expr
        let arg ← need data "arg" fun _ => plan n
        return .filter condition arg
      | "LeftJoin" =>
        let left ← need data "left" fun _ => plan n
        let right ← need data "right" fun _ => plan n
        let condition ← may data "condition" expr
        return .leftJoin left right condition
      | "Projection" =>
        let vars ← need data "vars" (list string)
        let inserted ← orElse data "inserted" row ∅
        let arg ← need data "arg" fun _ => plan n
        return .project vars inserted arg
      | "Slice" =>
        let offset ← need data "offset" nat
        let limit ← may data "limit" nat
        let arg ← need data "arg" fun _ => plan n
        return .slice offset limit arg
      | "Distinct" => return .distinct (← plan n data)
      | _ => none
    | _ => none

end Decode

/-! ### Writing -/

/-- Names. -/
def strs (xs : List String) : Json := list str xs

/-- A triple as the array of its terms. -/
def ofTermTriple (t : Triple) : Json :=
  .array [ofTerm t.subject, ofTerm t.predicate, ofTerm t.object]

/-- The name of a place of data. -/
def localityName : Locality → String
  | .local => "Local"
  | .remote => "Remote"

/-- A source. -/
def ofSource (s : Source) : Json :=
  obj [("endpoint_id", str s.endpoint), ("source_type", str (localityName s.locality))]

/-- A statement. -/
def ofStatement (s : Statement) : Json :=
  obj [("id", nat s.id), ("pattern", ofPattern s.pattern), ("sources", list ofSource s.sources),
    ("filter", opt ofExpr s.filter), ("bound_filters", ofRow s.boundFilters),
    ("local_vars", strs s.localVars)]

/-- A group. -/
def ofGroup (g : ExclusiveGroup) : Json :=
  obj [("id", nat g.id), ("statements", list ofStatement g.statements),
    ("owner", ofSource g.owner), ("filter", opt ofExpr g.filter),
    ("bound_filters", ofRow g.boundFilters)]

mutual

/-- A plan. -/
def ofPlan : Plan → Json
  | .empty => str "Empty"
  | .statement s => obj [("Statement", ofStatement s)]
  | .group g => obj [("ExclusiveGroup", ofGroup g)]
  | .join args vars =>
    obj [("NJoin", obj [("args", .array (ofPlans args)), ("join_vars", strs vars)])]
  | .union args => obj [("NUnion", .array (ofPlans args))]
  | .service s =>
    obj [("Service", obj [("service_ref", str s.endpoint), ("expr", ofAlgebra s.body),
      ("silent", .bool s.silent)])]
  | .independent members => obj [("IndependentJoinGroup", list ofStatement members)]
  | .passThrough endpoint q =>
    obj [("SingleSourceQuery", obj [("endpoint_id", str endpoint), ("query", ofQuery q)])]
  | .filter c a => obj [("Filter", obj [("condition", ofExpr c), ("arg", ofPlan a)])]
  | .leftJoin l r c =>
    obj [("LeftJoin", obj [("left", ofPlan l), ("right", ofPlan r), ("condition", opt ofExpr c)])]
  | .project vars inserted a =>
    obj [("Projection", obj [("vars", strs vars), ("inserted", ofRow inserted),
      ("arg", ofPlan a)])]
  | .slice offset limit a =>
    obj [("Slice", obj [("offset", nat offset), ("limit", opt nat limit), ("arg", ofPlan a)])]
  | .distinct a => obj [("Distinct", ofPlan a)]

/-- Plans. -/
def ofPlans : List Plan → List Json
  | [] => []
  | a :: rest => ofPlan a :: ofPlans rest

end

/-- What is known about the structure of a query. -/
def ofStructure (s : QueryStructure) : Json :=
  obj [("statement_count", nat s.statementCount), ("has_union", .bool s.hasUnion),
    ("has_filter", .bool s.hasFilter), ("has_service", .bool s.hasService),
    ("has_optional", .bool s.hasOptional), ("limit", opt nat s.limit)]

end FederatedSparql.Json
