import FederatedSparql.Proofs.Engine.BoundJoin
import FederatedSparql.Proofs.Plan.Denotation

/-!
Independent statements, evaluated in three ways.

A block of rows is joined with all members in one go: each member is asked once for the whole block
and what comes back is put together by the numbers of the rows.  Under a single binding set each
member is evaluated by itself and the results are multiplied.  Members can also be joined like any
other statements, one after another, each under the rows that the ones before it left.

* `Statement.rows_of_extends`: the rows of a statement under more bindings are those under fewer,
  joined with what is bound.
* `Environment.joinedInTurn_comes`: so joining one after another gives the product of what all
  members have.
* `Environment.independent_agrees`: all three ways yield the same rows, in whatever order the
  members are joined and whether or not one depends on another.
-/

namespace FederatedSparql

variable {r : Registry} {s : Statement} {members : List Statement} {b x : Bindings}

namespace Statement

/-- A statement whose sources are registered, that keeps all its variables, looks at no others, and
has none for the number of a row. -/
structure SelfContained (r : Registry) (s : Statement) : Prop where
  registered : r.Registers s.sources
  localVars : s.localVars = []
  filter : ∀ v ∈ Expr.varsOf s.filter, v ∈ s.freeVars
  pattern : Tag.indexVar ∉ s.effectivePattern.vars

/-- **The rows of a statement under more bindings** are those under fewer, joined with what is
bound.  Its condition may be asked before or after, since the pattern binds all its variables. -/
theorem rows_of_extends (hf : ∀ v ∈ Expr.varsOf s.filter, v ∈ s.freeVars) (h : b.Extends x) :
    s.rows r x = {x} * s.rows r b := by
  let solutions := Store.bgpSolutions (r.triplesOf s.sources) [s.effectivePattern]
  have moved : ({x} * ({b} * solutions)).filter (Expr.acceptsAll s.filter ·) =
      {x} * ({b} * solutions).filter (Expr.acceptsAll s.filter ·) := by
    apply Rows.filter_mul_right
    intro y _ z hz c hc
    have bound : ∀ v ∈ Expr.varsOf s.filter, z.contains v = true := by
      intro v hv
      apply (Store.contains_of_mem_bgpRows hz v).2
      exact .inr ⟨_, List.mem_singleton_self _, mem_freeVars.1 (hf v hv)⟩
    rw [Expr.acceptsAll_of_extends (Bindings.extends_right_of_merge hc) bound]
  calc s.rows r x = ({x} * solutions).filter (Expr.acceptsAll s.filter ·) := rfl
    _ = ({x} * ({b} * solutions)).filter (Expr.acceptsAll s.filter ·) := by
      rw [Rows.singleton_mul_singleton_mul_of_extends h]
    _ = {x} * s.rows r b := moved

/-- The order of the members is of no importance for what they yield together. -/
theorem joinedRows_perm {others : List Statement} (h : others.Perm members) (b : Bindings) :
    joinedRows r others b = joinedRows r members b := by
  rw [joinedRows, joinedRows, (h.map fun s => s.rows r b).prod_eq]

end Statement

namespace Environment

variable {env : Environment} {block : List Bindings}

/-- Joins rows with statements one after another, row by row. -/
def joinedInTurn (env : Environment) (left : Feed Bindings) (members : List Statement) :
    Feed Bindings :=
  members.foldl (fun left s => .nestedJoin left (env.statement s)) left

/-- Rows that extend a binding set, joined with one statement after another, come to their product
with what each statement has under the binding set. -/
theorem joinedInTurn_comes_mul (hr : env.registry.Sound)
    (hm : ∀ s ∈ members, s.SelfContained env.registry) {left : Feed Bindings} {X : Rows}
    (hleft : left.Comes env.registry.answers X) (hX : ∀ x ∈ X, b.Extends x) :
    (env.joinedInTurn left members).Comes env.registry.answers
      (X * (members.map fun s => s.rows env.registry b).prod) := by
  induction members generalizing left X with
  | nil => simpa [joinedInTurn] using hleft
  | cons s members ih =>
    have hs := hm s List.mem_cons_self
    have step : (Feed.nestedJoin left (env.statement s)).Comes env.registry.answers
        (X * s.rows env.registry b) := by
      rw [← Rows.bind_singleton_mul]
      apply hleft.nestedJoin
      intro x hx
      rw [← Statement.rows_of_extends hs.filter (hX x hx),
        ← Statement.wantedRows_of_localVars_eq_nil hs.localVars]
      exact statement_comes hr hs.registered
    have extending : ∀ y ∈ X * s.rows env.registry b, b.Extends y := by
      intro y hy
      obtain ⟨x, hx, z, -, hmerge⟩ := Rows.mem_mul.1 hy
      exact (hX x hx).trans (Bindings.extends_left_of_merge hmerge)
    rw [List.map_cons, List.prod_cons, ← mul_assoc]
    exact ih (fun t ht => hm t (List.mem_cons_of_mem s ht)) step extending

/-- **Joining a binding set with one member after another** gives the product of what they have. -/
theorem joinedInTurn_comes (hr : env.registry.Sound)
    (hm : ∀ s ∈ members, s.SelfContained env.registry) (b : Bindings) :
    (env.joinedInTurn (.rows [b]) members).Comes env.registry.answers
      (Statement.joinedRows env.registry members b) := by
  apply joinedInTurn_comes_mul hr hm (Feed.Comes.rows [b])
  intro x hx
  rw [List.mem_singleton.1 hx]
  exact .refl b

/-- Evaluating each member by itself and multiplying gives that product, too. -/
theorem independent_comes_joinedRows (hr : env.registry.Sound)
    (hm : ∀ s ∈ members, s.SelfContained env.registry) (b : Bindings) :
    (env.independent members b).Comes env.registry.answers
      (Statement.joinedRows env.registry members b) := by
  have kept : members.map (fun s => s.wantedRows env.registry b) =
      members.map fun s => s.rows env.registry b :=
    List.map_congr_left fun s hs => Statement.wantedRows_of_localVars_eq_nil (hm s hs).localVars b
  rw [Statement.joinedRows, ← kept]
  exact independent_comes hr fun s hs => (hm s hs).registered

/-- **The three ways to evaluate independent statements agree**: the rows of a binding set are the
product of what all members have under it.  Evaluating the members side by side yields them, joining
the binding set with the members one after another does so in any order, and the task for a block
yields those of all its binding sets.  Nothing is asked of the members about each other.  A block is
no longer than the numbers that rows can have. -/
theorem independent_agrees (hr : env.registry.Sound)
    (hm : ∀ s ∈ members, s.SelfContained env.registry)
    (hrows : ∀ b ∈ block, b.contains Tag.indexVar = false)
    (hlen : block.length ≤ Tag.numberLimit) (first : Bindings) :
    (env.blockTask (.independent members) first block).Yields env.registry.answers
        ((block : Rows).bind (Statement.joinedRows env.registry members)) ∧
      (∀ b ∈ block, (env.independent members b).Yields env.registry.answers
        (Statement.joinedRows env.registry members b)) ∧
      ∀ b ∈ block, ∀ order : List Statement, order.Perm members →
        (env.joinedInTurn (.rows [b]) order).Yields env.registry.answers
          (Statement.joinedRows env.registry members b) := by
  refine ⟨?block, ?beside, ?inTurn⟩
  case block =>
    apply Work.Comes.yields
    apply independentBlock_comes hr
    intro s hs
    exact ⟨(hm s hs).registered, hlen, hrows, (hm s hs).pattern⟩
  case beside =>
    intro b _
    exact (independent_comes_joinedRows hr hm b).yields
  case inTurn =>
    intro b _ order horder
    rw [← Statement.joinedRows_perm horder b]
    apply Feed.Comes.yields
    apply joinedInTurn_comes hr
    intro s hs
    exact hm s (horder.subset hs)

/-! ### Members that depend on one another -/

/-- A federation of one member that knows who works where and where that is. -/
def workplaces : Environment :=
  ⟨.single [⟨.iri "ann", .iri "worksIn", .iri "oslo"⟩, ⟨.iri "oslo", .iri "liesIn", .iri "norway"⟩],
    {}⟩

/-- Asks where somebody works. -/
def worksIn : Statement :=
  { id := 0, pattern := ⟨.var "who", .const (.iri "worksIn"), .var "town"⟩,
    sources := [Registry.onlySource], filter := some (.bound "who") }

/-- Asks in which country a town lies. -/
def liesIn : Statement :=
  { id := 1, pattern := ⟨.var "town", .const (.iri "liesIn"), .var "country"⟩,
    sources := [Registry.onlySource] }

/-- Rows of which the second one leaves nothing of `worksIn` free. -/
def someRows : List Bindings := [∅, Bindings.ofList [("who", .iri "ann"), ("town", .iri "oslo")]]

/-- Both statements mention the town, and the rows bind different variables; the three ways agree
all the same. -/
theorem independent_agrees_on_dependent :
    (workplaces.blockTask (.independent [worksIn, liesIn]) ∅ someRows).Yields
        workplaces.registry.answers
        ((someRows : Rows).bind (Statement.joinedRows workplaces.registry [worksIn, liesIn])) ∧
      (∀ b ∈ someRows,
        (workplaces.independent [worksIn, liesIn] b).Yields workplaces.registry.answers
          (Statement.joinedRows workplaces.registry [worksIn, liesIn] b)) ∧
      ∀ b ∈ someRows, ∀ order : List Statement, order.Perm [worksIn, liesIn] →
        (workplaces.joinedInTurn (.rows [b]) order).Yields workplaces.registry.answers
          (Statement.joinedRows workplaces.registry [worksIn, liesIn] b) := by
  refine independent_agrees (Registry.single_sound (by decide)) ?_ (by decide) (by decide) ∅
  intro s hs
  rcases List.mem_pair.1 hs with rfl | rfl
  · exact ⟨Registry.single_registers _, rfl, by decide, by decide⟩
  · exact ⟨Registry.single_registers _, rfl, by decide, by decide⟩

end Environment

end FederatedSparql
