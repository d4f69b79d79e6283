import FederatedSparql.Proofs.Plan.Blocks

/-!
Evaluation meets the meaning of plans.

* `Environment.evaluate_comes`: a plan whose sources are registered comes to its rows, if its joins
  may take rows in blocks.
* `Environment.evaluate_project_comes`: so does a projection, row by row.
-/

namespace FederatedSparql

/-! ### Plans with sources -/

namespace Statement

/-- The sources of a statement are registered, each once, and its pattern leaves the variable for
numbers alone. -/
structure WellSourced (r : Registry) (s : Statement) : Prop where
  registers : r.Registers s.sources
  index : Tag.indexVar ∉ s.freeVars

end Statement

namespace Plan

mutual

/-- All sources of a plan are registered, no pattern uses the variable for numbers, and there are
only parts that `Plan.rows` covers. -/
def WellSourced (r : Registry) : Plan → Prop
  | statement s => s.WellSourced r
  | group g => (r.get? g.owner.endpoint).isSome ∧ Tag.indexVar ∉ g.freeVars
  | independent members => ∀ s ∈ members, s.WellSourced r
  | join args _ => WellSourcedAll r args
  | union args => WellSourcedAll r args
  | filter _ a => a.WellSourced r
  | leftJoin left right _ => left.WellSourced r ∧ right.WellSourced r
  | distinct a => a.WellSourced r
  | empty => True
  | _ => False

/-- All sources of all plans are registered. -/
def WellSourcedAll (r : Registry) : List Plan → Prop
  | [] => True
  | a :: rest => a.WellSourced r ∧ WellSourcedAll r rest

end

variable {r : Registry} {b c : Bindings}

mutual

theorem index_not_mem_freeVars : ∀ p : Plan, p.WellSourced r → Tag.indexVar ∉ p.freeVars
  | statement _, h => h.index
  | group _, h => h.2
  | independent members, h => by
    intro hv
    obtain ⟨s, hs, hv⟩ := List.mem_flatMap.1 (List.mem_eraseDups.1 hv)
    exact (h s hs).index hv
  | join args _, h => fun hv => index_not_mem_freeVarsAll args h (List.mem_eraseDups.1 hv)
  | union args, h => fun hv => index_not_mem_freeVarsAll args h (List.mem_eraseDups.1 hv)
  | filter _ a, h => index_not_mem_freeVars a h
  | leftJoin left right _, h => by
    intro hv
    rcases List.mem_append.1 (List.mem_eraseDups.1 hv) with hv | hv
    · exact index_not_mem_freeVars left h.1 hv
    · exact index_not_mem_freeVars right h.2 hv
  | distinct a, h => index_not_mem_freeVars a h
  | empty, _ => List.not_mem_nil

theorem index_not_mem_freeVarsAll :
    ∀ args : List Plan, WellSourcedAll r args → Tag.indexVar ∉ freeVarsAll args
  | [], _ => List.not_mem_nil
  | a :: rest, h => by
    intro hv
    rcases List.mem_append.1 hv with hv | hv
    · exact index_not_mem_freeVars a h.1 hv
    · exact index_not_mem_freeVarsAll rest h.2 hv

end

/-- Rows leave alone what neither the plan nor the binding set mentions. -/
theorem not_contains_of_grows {vars : List String} {v : String} (h : b.Grows vars c)
    (hb : b.contains v = false) (hv : v ∉ vars) : c.contains v = false := by
  by_contra hc
  rcases h.within v (by simpa using hc) with hb' | hv'
  · simp [hb] at hb'
  · exact hv hv'

end Plan

/-! ### Evaluation -/

namespace Environment

open Plan Work.Comes

variable {env : Environment} {M : Rows} {b : Bindings}

theorem guarded_comes {w : Work Bindings} (h : w.Comes env.registry.answers M) :
    (guarded w).Comes env.registry.answers M :=
  check (repairingFaults h)

/-- Joining a feed with an argument in blocks joins its rows with it. -/
theorem boundJoin_comes (hr : env.registry.Sound) {a : Plan} {left : Feed Bindings} {X : Rows}
    (hleft : left.Comes env.registry.answers X)
    (hsup : BoundTaskKind.supports a env.config.serviceAsBoundJoin = true)
    (ha : a.WellSourced env.registry) (hX : ∀ x ∈ X, x.contains Tag.indexVar = false)
    (hblocks : RestTakesBlocks env.registry env.config.boundJoinBlockSize [a] X) :
    (Feed.boundJoin left (max env.config.boundJoinBlockSize 1)
      fun first block => env.blockTask a first block).Comes env.registry.answers
        (X.bind (a.rightRows env.registry)) := by
  have numbered : ∀ {s : Statement}, s.WellSourced env.registry →
      Numberable env.config.boundJoinBlockSize X → ∀ {block : List Bindings}, (block : Rows) ≤ X →
      block.length ≤ max BoundJoin.smallBlockSize (max env.config.boundJoinBlockSize 1) →
      Numbered block s := by
    intro s hs hnum block hsub hlen
    refine ⟨hnum.length_le hsub hlen,
      fun x hx => hX x (Multiset.mem_of_le hsub (Multiset.mem_coe.2 hx)), ?_⟩
    rw [← Statement.mem_freeVars]
    exact hs.index
  refine hleft.boundJoin fun first hfirst block hsub hlen => ?_
  cases a with
  | statement s =>
    obtain ⟨hnum, heven⟩ := hblocks.1
    refine statementTask_comes hr ha.registers (numbered ha hnum hsub hlen) fun hf x hx => ?_
    rw [← heven first hfirst x (Multiset.mem_of_le hsub (Multiset.mem_coe.2 hx)), hf]
  | independent members =>
    exact independentBlock_comes hr (fun s hs => ⟨(ha s hs).registers,
      numbered (ha s hs) hblocks.1 hsub hlen⟩) first
  | service _ => exact ha.elim
  | _ => simp [BoundTaskKind.supports] at hsup

mutual

/-- **Evaluating a plan brings its rows.** -/
theorem evaluate_comes (hr : env.registry.Sound) : ∀ (p : Plan) {b : Bindings},
    p.WellSourced env.registry → b.contains Tag.indexVar = false →
    p.TakesBlocks env.registry env.config.boundJoinBlockSize b →
      (env.evaluate p b).Comes env.registry.answers (p.rows env.registry b)
  | .statement s, b, hp, _, _ => guarded_comes (statement_comes hr hp.registers)
  | .group g, b, hp, _, _ => by
    obtain ⟨m, hm⟩ := Option.isSome_iff_exists.1 hp.1
    exact guarded_comes (group_comes hr hm)
  | .independent members, b, hp, _, _ =>
    guarded_comes (independent_comes hr fun s hs => (hp s hs).registers)
  | .join [] _, b, _, _, _ => guarded_comes (.rows [b])
  | .join (first :: rest) _, b, hp, hb, ht => by
    refine guarded_comes ((evaluate_comes hr first hp.1 hb ht.1).bind fun left hleft => ?_)
    refine .done (joinRest_comes hr rest hp.2 hleft (fun x hx => ?_) ht.2)
    exact not_contains_of_grows (grows_of_mem_rows first hx) hb (index_not_mem_freeVars first hp.1)
  | .union args, b, hp, hb, ht => by
    refine guarded_comes (.done ?_)
    show (Feed.union false (evaluateAll env args b)).Comes env.registry.answers
      (unionRows env.registry args b)
    rw [unionRows_eq_sum]
    exact .union (evaluateAll_comes hr args hp hb ht)
  | .filter condition a, b, hp, hb, ht =>
    guarded_comes ((evaluate_comes hr a hp hb ht).mapFeed fun _ hf => hf.filter _)
  | .leftJoin left right condition, b, hp, hb, ht => by
    refine guarded_comes ((evaluate_comes hr left hp.1 hb ht.1).mapFeed fun f hf => ?_)
    refine hf.optional fun x hx => evaluate_comes hr right hp.2 ?_ (ht.2 x hx)
    exact not_contains_of_grows (grows_of_mem_rows left hx) hb (index_not_mem_freeVars left hp.1)
  | .distinct a, b, hp, hb, ht =>
    guarded_comes ((evaluate_comes hr a hp hb ht).mapFeed fun _ hf => hf.distinct)
  | .empty, _, _, _, _ => guarded_comes (.rows [])

theorem joinRest_comes (hr : env.registry.Sound) : ∀ (args : List Plan) {left : Feed Bindings}
    {X : Rows}, WellSourcedAll env.registry args → left.Comes env.registry.answers X →
    (∀ x ∈ X, x.contains Tag.indexVar = false) →
    RestTakesBlocks env.registry env.config.boundJoinBlockSize args X →
      (env.joinRest args left).Comes env.registry.answers (restRows env.registry args X)
  | [], _, _, _, hleft, _, _ => hleft
  | a :: rest, left, X, hp, hleft, hX, ht => by
    have lacking : ∀ y ∈ X.bind (a.rightRows env.registry), y.contains Tag.indexVar = false := by
      intro y hy
      obtain ⟨x, hx, hy⟩ := Multiset.mem_bind.1 hy
      exact not_contains_of_grows (grows_of_mem_rightRows (grows_of_mem_rows a) hy) (hX x hx)
        (index_not_mem_freeVars a hp.1)
    rw [restRows_cons]
    unfold joinRest
    split
    · next hempty =>
      rw [hleft.eq_zero hempty, Multiset.zero_bind, restRows_zero]
      exact .rows []
    · split
      · next hsup =>
        exact joinRest_comes hr rest hp.2
          (boundJoin_comes hr hleft hsup hp.1 hX ⟨ht.1, trivial⟩) lacking ht.2
      · next hsup =>
        refine joinRest_comes hr rest hp.2 (hleft.nestedJoin fun x hx => ?_) lacking ht.2
        cases a with
        | statement s => simp [BoundTaskKind.supports] at hsup
        | independent members => simp [BoundTaskKind.supports] at hsup
        | _ => exact evaluate_comes hr _ hp.1 (hX x hx) (ht.1 x hx)

theorem evaluateAll_comes (hr : env.registry.Sound) : ∀ (args : List Plan) {b : Bindings},
    WellSourcedAll env.registry args → b.contains Tag.indexVar = false →
    UnionTakesBlocks env.registry env.config.boundJoinBlockSize args b →
      List.Forall₂ (fun branch M => branch.2.Comes env.registry.answers M)
        (env.evaluateAll args b) (args.map fun a => a.rows env.registry b)
  | [], _, _, _, _ => .nil
  | a :: rest, _, hp, hb, ht =>
    .cons (evaluate_comes hr a hp.1 hb ht.1) (evaluateAll_comes hr rest hp.2 hb ht.2)

end

/-- A projection brings the rows of its argument, each as it is projected. -/
theorem evaluate_project_comes {a : Plan} (vars : List String) (inserted : Bindings)
    (h : (env.evaluate a b).Comes env.registry.answers M) :
    (env.evaluate (.project vars inserted a) b).Comes env.registry.answers
      (M.map (projectOnto vars inserted b)) :=
  guarded_comes (h.mapFeed fun _ hf => hf.map _)

end Environment

end FederatedSparql
