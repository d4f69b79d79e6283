import FederatedSparql.Proofs.Engine.BoundJoin
import FederatedSparql.Proofs.Engine.MayGive
import FederatedSparql.Proofs.Plan.Pushdown

/-!
Rows that include the bindings they were asked for.

A part of a plan is evaluated under a binding set, and whoever wants its rows relies on their binding
all of that set to the same terms.  Statements, groups, services and joins in blocks see to it
themselves, and every other part hands it on, but for projections that put back what filters have
fixed: a fixed term takes precedence over the one that the variable was bound to before.

* `Environment.keepsBindings_iff_inAccord`: all parts of a plan keep the bindings exactly if no
  projection among them that has a row puts back a term for a variable that is bound to another one.
* `Environment.keepsBindings_of_insertsNothing`: a plan whose projections put nothing back keeps them.
* `Environment.project_overrides_binding`: a projection that puts back another term.
-/

namespace FederatedSparql.Environment

variable {env : Environment} {p q : Plan} {b c row : Bindings}

/-! ### Answers of members -/

/-- Rows that a member has under a binding set extend it. -/
theorem extends_of_get {r : Registry} {endpoint : String} {ps : List TriplePattern}
    {filter : Option Expr} {projection : Option (List String)} {a : Answer}
    (h : r.answers endpoint (.get ps b filter projection) = .ok a) (hrow : row ∈ a.toRows) :
    b.Extends row := by
  unfold Registry.answers at h
  split at h
  · next m _ =>
    simp only [Member.answer] at h
    split at h
    · simp at h
    · obtain rfl := Except.ok.inj h
      obtain ⟨x, hx, rfl⟩ := List.mem_map.1 hrow
      have hmem : x ∈ Store.bgpRows m.triples ps b := by
        rw [← Store.coe_evaluateBgp]
        exact List.mem_of_mem_filter hx
      exact extends_projectRow (Store.extends_of_mem_bgpRows hmem)
  · simp at h

/-- What a member has for a whole query under a binding set extends it. -/
theorem extends_of_query {r : Registry} {endpoint text : String} {a : Answer}
    (h : r.answers endpoint (.query text b) = .ok a) (hrow : row ∈ a.toRows) : b.Extends row := by
  unfold Registry.answers at h
  split at h
  · next m _ =>
    simp only [Member.answer, Member.answerQuery] at h
    split at h
    · obtain rfl := Except.ok.inj h
      obtain ⟨x, -, hx⟩ := List.mem_filterMap.1 hrow
      exact Bindings.extends_left_of_merge hx
    · simp at h
  · simp at h

/-! ### Requests -/

section Requests

variable {answers : Answers} {endpoint : String} {r : Request}

theorem mayGive_askRows_iff {k : List Bindings → Work Bindings} :
    (askRows endpoint r k).MayGive answers row ↔
      ∃ a, answers endpoint r = .ok a ∧ (k a.toRows).MayGive answers row :=
  Work.mayGive_ofExcept_iff

theorem mayGive_fetch_iff : (fetch endpoint r).MayGive answers row ↔
    ∃ a, answers endpoint r = .ok a ∧ row ∈ a.toRows :=
  mayGive_askRows_iff

/-- A check for a match gives the binding set itself. -/
theorem eq_of_mayGive_confirm {pattern : TriplePattern}
    (h : (confirm endpoint pattern b).MayGive answers row) : row = b := by
  obtain ⟨a, -, h⟩ := Work.mayGive_ofExcept_iff.1 h
  change row ∈ _ at h
  split at h
  · exact List.mem_singleton.1 h
  · simp at h

theorem eq_of_mayGive_confirmAll {onFailure : FedError → Work Bindings} {under : Bindings}
    (hfail : ∀ e, ¬ (onFailure e).MayGive answers row) (ps : List TriplePattern)
    (h : (confirmAll endpoint onFailure under b ps).MayGive answers row) : row = b := by
  induction ps with
  | nil => exact List.mem_singleton.1 h
  | cons p rest ih =>
    cases ha : answers endpoint (.has p under) with
    | error e =>
      rw [confirmAll, Work.MayGive, ha] at h
      exact absurd h (hfail e)
    | ok a =>
      rw [confirmAll, Work.MayGive, ha] at h
      simp only at h
      split at h
      · exact ih h
      · simp [Work.MayGive, Feed.MayGive] at h

/-- The rows of a block come from those that came back. -/
theorem exists_of_mayGive_joinResponses {k : List Bindings → Work Bindings}
    {soFar : List Bindings} {results : List (Except FedError (List Bindings))}
    (h : (joinResponses k soFar results).MayGive answers row) :
    ∃ rows, (k rows).MayGive answers row := by
  induction results generalizing soFar with
  | nil => exact ⟨soFar, h⟩
  | cons result rest ih =>
    cases result with
    | error e => exact absurd h Work.not_mayGive_failRepairing
    | ok rows => exact ih h

theorem exists_of_mayGive_fetchTagged {s : Statement} {block : List Bindings}
    {k : List Bindings → Work Bindings} (h : (env.fetchTagged s block k).MayGive answers row) :
    ∃ rows, (k rows).MayGive answers row := by
  obtain ⟨ms, -, results, -, h⟩ := Work.mayGive_ofExcept_iff.1 h
  exact exists_of_mayGive_joinResponses h

end Requests

/-! ### Parts that keep the bindings by themselves -/

/-- Every row that may come of a part under a binding set extends it. -/
def KeepsBindings (env : Environment) (p : Plan) (b : Bindings) : Prop :=
  ∀ row, (env.evaluate p b).MayGive env.registry.answers row → b.Extends row

/-- A guarded program gives what the program gives. -/
theorem mayGive_guarded_iff {answers : Answers} {w : Work Bindings} :
    (guarded w).MayGive answers row ↔ w.MayGive answers row :=
  Work.mayGive_repairingFaults_iff

theorem extends_of_mayGive_statement {s : Statement}
    (h : (env.statement s b).MayGive env.registry.answers row) : b.Extends row := by
  unfold statement at h
  split at h
  · simp [Work.MayGive, Feed.MayGive] at h
  · split at h
    · obtain ⟨ms, -, h⟩ := Work.mayGive_ofExcept_iff.1 h
      split at h
      · obtain ⟨a, ha, hrow⟩ := mayGive_fetch_iff.1 h
        exact extends_of_get ha hrow
      · obtain ⟨branch, hb, h⟩ := branchesMayGive_iff.1 h
        obtain ⟨m, -, rfl⟩ := List.mem_map.1 hb
        obtain ⟨a, ha, hrow⟩ := mayGive_fetch_iff.1 (Work.mayGive_repairingFaults_iff.1 h)
        exact extends_of_get ha hrow
    · split at h
      · obtain ⟨ms, -, h⟩ := Work.mayGive_ofExcept_iff.1 h
        split at h
        · exact eq_of_mayGive_confirm h ▸ .refl b
        · obtain ⟨branch, hb, h⟩ := branchesMayGive_iff.1 h
          obtain ⟨m, -, rfl⟩ := List.mem_map.1 hb
          exact eq_of_mayGive_confirm (Work.mayGive_repairingFaults_iff.1 h) ▸ .refl b
      · simp [Work.MayGive, Feed.MayGive] at h

theorem extends_of_mayGive_group {g : ExclusiveGroup}
    (h : (env.group g b).MayGive env.registry.answers row) : b.Extends row := by
  obtain ⟨m, -, h⟩ := Work.mayGive_ofExcept_iff.1 h
  simp only at h
  split at h
  · split at h
    · exact eq_of_mayGive_confirmAll (fun _ => Work.not_mayGive_failRepairing) _ h ▸ .refl b
    · simp [Work.MayGive, Feed.MayGive] at h
  · obtain ⟨a, ha, hrow⟩ := mayGive_fetch_iff.1 h
    exact extends_of_get ha hrow

theorem extends_of_mayGive_serviceAt {m : Member} {s : Service}
    (h : (serviceAt m s b).MayGive env.registry.answers row) : b.Extends row := by
  unfold serviceAt at h
  split at h
  · split at h
    · obtain ⟨a, ha, hrow⟩ := mayGive_fetch_iff.1 h
      exact extends_of_get ha hrow
    · split at h
      · exact eq_of_mayGive_confirmAll (fun _ => id) _ h ▸ .refl b
      · simp [Work.MayGive, Feed.MayGive] at h
  · split at h
    · obtain ⟨a, ha, hrow⟩ := mayGive_fetch_iff.1 h
      exact extends_of_query ha hrow
    · exact absurd h id

/-- A program for a SERVICE clause gives rows of the endpoint or, silently, the rows given to it. -/
theorem mayGive_silently {answers : Answers} {s : Service} {rows : List Bindings}
    {w : Work Bindings} (h : (silently s rows w).MayGive answers row) :
    w.MayGive answers row ∨ row ∈ rows := by
  unfold silently at h
  split at h
  · exact (Work.MayGive.of_handle h).imp_right fun ⟨_, h⟩ => h
  · exact .inl h

theorem exists_of_mayGive_atService {answers : Answers} {s : Service}
    {k : Member → Work Bindings} (h : (env.atService s k).MayGive answers row) :
    ∃ m, (k m).MayGive answers row := by
  unfold atService at h
  split at h
  · next m _ => exact ⟨m, h⟩
  · exact absurd h id

theorem extends_of_mayGive_service {s : Service}
    (h : (env.service s b).MayGive env.registry.answers row) : b.Extends row := by
  rcases mayGive_silently h with h | h
  · obtain ⟨m, h⟩ := exists_of_mayGive_atService h
    exact extends_of_mayGive_serviceAt h
  · exact List.mem_singleton.1 h ▸ .refl b

theorem exists_extends_of_mem_mergeAll {left right : List Bindings}
    (h : row ∈ BoundJoin.mergeAll left right) : ∃ l ∈ left, l.Extends row := by
  obtain ⟨l, hl, h⟩ := List.mem_flatMap.1 h
  obtain ⟨x, -, hx⟩ := List.mem_filterMap.1 h
  exact ⟨l, hl, Bindings.extends_left_of_merge hx⟩

/-- However many lists are merged in, what comes out extends what was there at first. -/
theorem exists_extends_of_mem_foldl {β : Type} {f : β → List Bindings} {rights : List β}
    {left : List Bindings}
    (h : row ∈ rights.foldl (fun l r => BoundJoin.mergeAll l (f r)) left) :
    ∃ l ∈ left, l.Extends row := by
  induction rights generalizing left with
  | nil => exact ⟨row, h, .refl row⟩
  | cons r rest ih =>
    obtain ⟨x, hx, hext⟩ := ih h
    obtain ⟨l, hl, hlx⟩ := exists_extends_of_mem_mergeAll hx
    exact ⟨l, hl, hlx.trans hext⟩

theorem extends_of_mayGive_independent {members : List Statement}
    (h : (env.independent members b).MayGive env.registry.answers row) : b.Extends row := by
  obtain ⟨results, -, h⟩ := h
  simp only at h
  split at h
  · obtain ⟨l, hl, hext⟩ := exists_extends_of_mem_foldl (f := id) h
    exact List.mem_singleton.1 hl ▸ hext
  · exact absurd h id

theorem extends_of_mayGive_passThrough {endpoint : String} {query : Query}
    (h : (env.passThrough endpoint query b).MayGive env.registry.answers row) : b.Extends row := by
  obtain ⟨m, -, h⟩ := Work.mayGive_ofExcept_iff.1 h
  obtain ⟨text, -, h⟩ := Work.mayGive_ofExcept_iff.1 h
  obtain ⟨a, ha, hrow⟩ := mayGive_fetch_iff.1 h
  exact extends_of_query ha hrow

/-! ### Joins in blocks -/

theorem exists_extends_of_mem_demultiplex {block : List Bindings} {tagged : List (Nat × Bindings)}
    (h : row ∈ BoundJoin.demultiplex block tagged) : ∃ l ∈ block, l.Extends row := by
  obtain ⟨⟨i, x⟩, -, h⟩ := List.mem_filterMap.1 h
  obtain ⟨l, hl, hrow⟩ := Option.bind_eq_some_iff.1 h
  exact ⟨l, List.mem_of_getElem? hl, Bindings.extends_left_of_merge hrow⟩

theorem mem_of_mem_confirmed {block : List Bindings} {tagged : List (Nat × Bindings)}
    (h : row ∈ BoundJoin.confirmed block tagged) : row ∈ block := by
  obtain ⟨⟨x, i⟩, hx, rfl⟩ := List.mem_map.1 h
  exact List.mem_of_getElem? (List.mk_mem_zipIdx_iff_getElem?.1 (List.mem_of_mem_filter hx))

theorem exists_extends_of_mem_combine {block : List Bindings}
    {perStatement : List (List (Nat × Bindings))}
    (h : row ∈ BoundJoin.combine block perStatement) : ∃ l ∈ block, l.Extends row := by
  obtain ⟨⟨x, i⟩, hx, h⟩ := List.mem_flatMap.1 h
  obtain ⟨l, hl, hext⟩ := exists_extends_of_mem_foldl
    (f := fun (answers : List (Nat × Bindings)) => (answers.filter fun t => t.1 == i).map (·.2)) h
  obtain rfl := List.mem_singleton.1 hl
  exact ⟨l, List.mem_of_getElem? (List.mk_mem_zipIdx_iff_getElem?.1 hx), hext⟩

/-- **Every row of a block's task extends a row of the block**, whichever task the first row of all
has chosen. -/
theorem exists_extends_of_mayGive_blockTask {answers : Answers} {right : Plan} {first : Bindings}
    {block : List Bindings} (h : (env.blockTask right first block).MayGive answers row) :
    ∃ l ∈ block, l.Extends row := by
  unfold blockTask at h
  split at h
  · obtain ⟨rows, h⟩ := exists_of_mayGive_fetchTagged h
    exact exists_extends_of_mem_demultiplex h
  · obtain ⟨rows, h⟩ := exists_of_mayGive_fetchTagged h
    exact ⟨row, mem_of_mem_confirmed h, .refl row⟩
  · next s _ =>
    rcases mayGive_silently h with h | h
    · unfold serviceBlock at h
      split at h
      · obtain ⟨m, h⟩ := exists_of_mayGive_atService h
        obtain ⟨a, -, h⟩ := mayGive_askRows_iff.1 (Work.mayGive_repairingFaults_iff.1 h)
        exact exists_extends_of_mem_demultiplex h
      · exact absurd h id
    · exact ⟨row, h, .refl row⟩
  · obtain ⟨results, -, h⟩ := h
    simp only at h
    split at h
    · exact exists_extends_of_mem_combine h
    · exact absurd h id
  · exact absurd h id

/-! ### Joins -/

/-- A join with one more argument. -/
def joinStep (env : Environment) (left : Feed Bindings) (right : Plan) : Feed Bindings :=
  if BoundTaskKind.supports right env.config.serviceAsBoundJoin then
    .boundJoin left (max env.config.boundJoinBlockSize 1)
      fun first block => env.blockTask right first block
  else .nestedJoin left fun row => env.evaluate right row

theorem joinRest_cons (right : Plan) (rest : List Plan) (left : Feed Bindings) :
    joinRest env (right :: rest) left =
      if left.isKnownEmpty then .rows [] else joinRest env rest (env.joinStep left right) := by
  rw [joinRest, joinStep]
  split
  · rfl
  · split <;> rfl

theorem mayGive_joinRest_concat {answers : Answers} {right : Plan} {pre : List Plan}
    {left : Feed Bindings} (h : (joinRest env (pre ++ [right]) left).MayGive answers row) :
    (env.joinStep (joinRest env pre left) right).MayGive answers row := by
  induction pre generalizing left with
  | nil =>
    rw [List.nil_append, joinRest_cons] at h
    split at h
    · simp [Feed.MayGive] at h
    · simpa only [joinRest] using h
  | cons a pre ih =>
    rw [List.cons_append, joinRest_cons] at h
    rw [joinRest_cons]
    split at h
    · simp [Feed.MayGive] at h
    · next hne =>
      rw [if_neg hne]
      exact ih h

/-- A row of a join in blocks or row by row is one of the right for a row of the left, or it extends
that row at least. -/
theorem exists_of_mayGive_joinStep {answers : Answers} {left : Feed Bindings} {right : Plan}
    (h : (env.joinStep left right).MayGive answers row) :
    ∃ l, left.MayGive answers l ∧ (l.Extends row ∨ (env.evaluate right l).MayGive answers row) := by
  unfold joinStep at h
  split at h
  · obtain ⟨first, block, -, hblock, h⟩ := h
    obtain ⟨l, hl, hext⟩ := exists_extends_of_mayGive_blockTask h
    exact ⟨l, hblock l hl, .inl hext⟩
  · obtain ⟨l, hl, h⟩ := h
    exact ⟨l, hl, .inr h⟩

/-- The last argument of a join is evaluated under the rows of those before it. -/
theorem exists_of_mayGive_evaluateJoin_concat {answers : Answers} {right : Plan}
    {pre : List Plan} (h : (env.evaluateJoin (pre ++ [right]) b).MayGive answers row) :
    ∃ l, (env.evaluateJoin pre b).MayGive answers l ∧
      (l.Extends row ∨ (env.evaluate right l).MayGive answers row) := by
  cases pre with
  | nil =>
    rw [List.nil_append, evaluateJoin, Work.mayGive_bind_iff] at h
    refine ⟨b, by simp [evaluateJoin, Work.MayGive, Feed.MayGive], .inr ?_⟩
    simpa only [joinRest, Work.MayGive, ← Work.mayGive_iff_mayEnd] using h
  | cons a pre =>
    rw [List.cons_append, evaluateJoin, Work.mayGive_bind_iff] at h
    obtain ⟨f, hf, h⟩ := h
    obtain ⟨l, hl, h⟩ := exists_of_mayGive_joinStep (mayGive_joinRest_concat h)
    rw [evaluateJoin]
    exact ⟨l, Work.mayGive_bind_iff.2 ⟨f, hf, hl⟩, h⟩

/-- A join keeps the bindings if every argument keeps the rows of those before it. -/
theorem extends_of_mayGive_evaluateJoin (args : List Plan)
    (h : ∀ pre a post, args = pre ++ a :: post → ∀ l,
      (env.evaluateJoin pre b).MayGive env.registry.answers l → env.KeepsBindings a l)
    (hrow : (env.evaluateJoin args b).MayGive env.registry.answers row) : b.Extends row := by
  induction args using List.reverseRecOn generalizing row with
  | nil => exact List.mem_singleton.1 hrow ▸ .refl b
  | append_singleton pre a ih =>
    obtain ⟨l, hl, hrow⟩ := exists_of_mayGive_evaluateJoin_concat hrow
    have before : b.Extends l := by
      refine ih (fun pre' a' post heq => h pre' a' (post ++ [a]) ?_) hl
      rw [heq, List.append_assoc, List.cons_append]
    rcases hrow with hrow | hrow
    · exact before.trans hrow
    · exact before.trans (h pre a [] rfl l hl row hrow)

/-! ### Projections -/

/-- No variable of a projection is put back with another term than it is bound to. -/
def InAccord (vars : List String) (inserted b : Bindings) : Prop :=
  ∀ v ∈ vars, ∀ t, inserted.get? v = some t → b.get? v = none ∨ b.get? v = some t

/-- The row that a projection makes before the bindings are added. -/
def putBack (vars : List String) (inserted row : Bindings) : Bindings :=
  (Plan.insertAll row inserted).project vars

theorem get?_putBack (vars : List String) (inserted row : Bindings) (v : String) :
    (putBack vars inserted row).get? v =
      if v ∈ vars then (inserted.get? v).or (row.get? v) else none := by
  rw [putBack, Bindings.get?_project, Plan.get?_insertAll]

theorem projectOnto_eq_getD (vars : List String) (inserted b row : Bindings) :
    projectOnto vars inserted b row =
      (b.merge? (putBack vars inserted row)).getD (putBack vars inserted row) :=
  rfl

/-- A projection in accord with the bindings keeps them. -/
theorem extends_projectOnto {vars : List String} {inserted : Bindings}
    (h : InAccord vars inserted b) (hrow : b.Extends row) :
    b.Extends (projectOnto vars inserted b row) := by
  have agrees : b.Agrees (putBack vars inserted row) := by
    intro v s t hs ht
    rw [get?_putBack] at ht
    split at ht
    · next hv =>
      rcases Option.or_eq_some_iff.1 ht with hi | ⟨-, hr⟩
      · simpa [hs] using h v hv t hi
      · exact Option.some.inj ((hrow v s hs).symm.trans hr)
    · simp at ht
  obtain ⟨x, hx⟩ := agrees.exists_merge
  rw [projectOnto_eq_getD, hx, Option.getD_some]
  exact Bindings.extends_left_of_merge hx

/-- A projection that puts back another term loses the one before. -/
theorem inAccord_of_extends_projectOnto {vars : List String} {inserted : Bindings}
    (h : b.Extends (projectOnto vars inserted b row)) : InAccord vars inserted b := by
  intro v hv t ht
  cases hb : b.get? v with
  | none => exact .inl rfl
  | some s =>
    have put : (putBack vars inserted row).get? v = some t := by
      rw [get?_putBack, if_pos hv, ht, Option.some_or]
    have kept := h v s hb
    rw [projectOnto_eq_getD] at kept
    cases hm : b.merge? (putBack vars inserted row) with
    | none =>
      rw [hm, Option.getD_none, put] at kept
      exact .inr kept.symm
    | some x => exact .inr (congrArg some (Bindings.agrees_of_merge hm v s t hb put))

/-! ### Parts of a plan and what they are evaluated under -/

/-- Evaluating the first plan under the first binding set, the second plan may be evaluated under the
second one. -/
inductive Evaluates (env : Environment) : Plan → Bindings → Plan → Bindings → Prop
  | self (p : Plan) (b : Bindings) : Evaluates env p b p b
  | argument {args : List Plan} {vars : List String} {pre post : List Plan} {a q : Plan}
      {b l c : Bindings} (split : args = pre ++ a :: post)
      (left : (env.evaluateJoin pre b).MayGive env.registry.answers l)
      (inner : Evaluates env a l q c) : Evaluates env (.join args vars) b q c
  | branch {args : List Plan} {a q : Plan} {b c : Bindings} (mem : a ∈ args)
      (inner : Evaluates env a b q c) : Evaluates env (.union args) b q c
  | filtered {condition : Expr} {a q : Plan} {b c : Bindings} (inner : Evaluates env a b q c) :
      Evaluates env (.filter condition a) b q c
  | required {l r q : Plan} {condition : Option Expr} {b c : Bindings}
      (inner : Evaluates env l b q c) : Evaluates env (.leftJoin l r condition) b q c
  | optional {l r q : Plan} {condition : Option Expr} {b x c : Bindings}
      (left : (env.evaluate l b).MayGive env.registry.answers x)
      (inner : Evaluates env r x q c) : Evaluates env (.leftJoin l r condition) b q c
  | projected {vars : List String} {inserted : Bindings} {a q : Plan} {b c : Bindings}
      (inner : Evaluates env a b q c) : Evaluates env (.project vars inserted a) b q c
  | sliced {offset : Nat} {limit : Option Nat} {a q : Plan} {b c : Bindings}
      (inner : Evaluates env a b q c) : Evaluates env (.slice offset limit a) b q c
  | distinct {a q : Plan} {b c : Bindings} (inner : Evaluates env a b q c) :
      Evaluates env (.distinct a) b q c

/-- Every projection that may be evaluated and has a row is in accord with the bindings. -/
def AllInAccord (env : Environment) (p : Plan) (b : Bindings) : Prop :=
  ∀ vars inserted a c, env.Evaluates p b (.project vars inserted a) c →
    (∃ row, (env.evaluate a c).MayGive env.registry.answers row) → InAccord vars inserted c

theorem mayGive_evaluateAll {args : List Plan}
    (h : BranchesMayGive env.registry.answers (evaluateAll env args b) row) :
    ∃ a ∈ args, (env.evaluate a b).MayGive env.registry.answers row := by
  induction args with
  | nil => exact absurd h id
  | cons a rest ih =>
    rcases h with h | h
    · exact ⟨a, List.mem_cons_self, h⟩
    · obtain ⟨a', ha', h⟩ := ih h
      exact ⟨a', List.mem_cons_of_mem _ ha', h⟩

mutual

/-- The induction is on the plan: each part keeps the bindings because the parts in it do. -/
theorem AllInAccord.keepsBindings : ∀ (p : Plan) {b : Bindings}, env.AllInAccord p b →
    env.KeepsBindings p b
  | .statement s, b, _, row, hrow => by
    rw [evaluate] at hrow
    exact extends_of_mayGive_statement (mayGive_guarded_iff.1 hrow)
  | .group g, b, _, row, hrow => by
    rw [evaluate] at hrow
    exact extends_of_mayGive_group (mayGive_guarded_iff.1 hrow)
  | .service s, b, _, row, hrow => by
    rw [evaluate] at hrow
    exact extends_of_mayGive_service (mayGive_guarded_iff.1 hrow)
  | .independent members, b, _, row, hrow => by
    rw [evaluate] at hrow
    exact extends_of_mayGive_independent (mayGive_guarded_iff.1 hrow)
  | .passThrough endpoint query, b, _, row, hrow => by
    rw [evaluate] at hrow
    exact extends_of_mayGive_passThrough (mayGive_guarded_iff.1 hrow)
  | .empty, b, _, row, hrow => by
    rw [evaluate] at hrow
    simpa [Work.MayGive, Feed.MayGive] using mayGive_guarded_iff.1 hrow
  | .join args vars, b, h, row, hrow => by
    rw [evaluate] at hrow
    refine extends_of_mayGive_evaluateJoin args (fun pre a post hsplit l hl => ?_)
      (mayGive_guarded_iff.1 hrow)
    exact keepsBindings_of_mem args (hsplit ▸ by simp) fun vars' inserted a' c he =>
      h vars' inserted a' c (.argument hsplit hl he)
  | .union args, b, h, row, hrow => by
    rw [evaluate] at hrow
    obtain ⟨a, ha, hrow⟩ := mayGive_evaluateAll (mayGive_guarded_iff.1 hrow)
    exact keepsBindings_of_mem args ha (fun vars inserted a' c he =>
      h vars inserted a' c (.branch ha he)) row hrow
  | .filter condition a, b, h, row, hrow => by
    rw [evaluate] at hrow
    obtain ⟨f, hf, hx, -⟩ := Work.mayGive_mapFeed_iff.1 (mayGive_guarded_iff.1 hrow)
    exact AllInAccord.keepsBindings a (fun vars inserted a' c he =>
      h vars inserted a' c (.filtered he)) row (Work.mayGive_iff_mayEnd.2 ⟨f, hf, hx⟩)
  | .leftJoin l r condition, b, h, row, hrow => by
    rw [evaluate] at hrow
    obtain ⟨f, hf, x, hx, hrow⟩ := Work.mayGive_mapFeed_iff.1 (mayGive_guarded_iff.1 hrow)
    have hleft := Work.mayGive_iff_mayEnd.2 ⟨f, hf, hx⟩
    have kept : b.Extends x := AllInAccord.keepsBindings l (fun vars inserted a' c he =>
      h vars inserted a' c (.required he)) x hleft
    rcases hrow with rfl | ⟨hrow, -⟩
    · exact kept
    · exact kept.trans (AllInAccord.keepsBindings r (fun vars inserted a' c he =>
        h vars inserted a' c (.optional hleft he)) row hrow)
  | .project vars inserted a, b, h, row, hrow => by
    rw [evaluate] at hrow
    obtain ⟨f, hf, x, hx, rfl⟩ := Work.mayGive_mapFeed_iff.1 (mayGive_guarded_iff.1 hrow)
    have hinner := Work.mayGive_iff_mayEnd.2 ⟨f, hf, hx⟩
    refine extends_projectOnto (h vars inserted a b (.self _ b) ⟨x, hinner⟩) ?_
    exact AllInAccord.keepsBindings a (fun vars' inserted' a' c he =>
      h vars' inserted' a' c (.projected he)) x hinner
  | .slice offset limit a, b, h, row, hrow => by
    rw [evaluate] at hrow
    obtain ⟨f, hf, hx⟩ := Work.mayGive_mapFeed_iff.1 (mayGive_guarded_iff.1 hrow)
    exact AllInAccord.keepsBindings a (fun vars inserted a' c he =>
      h vars inserted a' c (.sliced he)) row (Work.mayGive_iff_mayEnd.2 ⟨f, hf, hx⟩)
  | .distinct a, b, h, row, hrow => by
    rw [evaluate] at hrow
    obtain ⟨f, hf, hx⟩ := Work.mayGive_mapFeed_iff.1 (mayGive_guarded_iff.1 hrow)
    exact AllInAccord.keepsBindings a (fun vars inserted a' c he =>
      h vars inserted a' c (.distinct he)) row (Work.mayGive_iff_mayEnd.2 ⟨f, hf, hx⟩)

theorem keepsBindings_of_mem : ∀ (args : List Plan) {a : Plan}, a ∈ args → ∀ {b : Bindings},
    env.AllInAccord a b → env.KeepsBindings a b
  | [], _, ha, _, _ => absurd ha List.not_mem_nil
  | a :: rest, a', ha, b, h => by
    by_cases heq : a' = a
    · exact heq ▸ AllInAccord.keepsBindings a (heq ▸ h)
    · exact keepsBindings_of_mem rest ((List.mem_cons.1 ha).resolve_left heq) h

end

theorem Evaluates.trans {d : Bindings} {r : Plan} (h : env.Evaluates p b q c)
    (h' : env.Evaluates q c r d) : env.Evaluates p b r d := by
  induction h with
  | self => exact h'
  | argument split left _ ih => exact .argument split left (ih h')
  | branch mem _ ih => exact .branch mem (ih h')
  | filtered _ ih => exact .filtered (ih h')
  | required _ ih => exact .required (ih h')
  | optional left _ ih => exact .optional left (ih h')
  | projected _ ih => exact .projected (ih h')
  | sliced _ ih => exact .sliced (ih h')
  | distinct _ ih => exact .distinct (ih h')

/-- **All parts of a plan keep the bindings they are evaluated under exactly if no projection among
them that has a row puts back another term for a variable that is bound.** -/
theorem keepsBindings_iff_inAccord (env : Environment) (p : Plan) (b : Bindings) :
    (∀ q c, env.Evaluates p b q c → env.KeepsBindings q c) ↔
      env.AllInAccord p b := by
  constructor
  · rintro h vars inserted a c he ⟨x, hx⟩
    refine inAccord_of_extends_projectOnto (h _ c he (projectOnto vars inserted c x) ?_)
    rw [evaluate, mayGive_guarded_iff, Work.mayGive_mapFeed_iff]
    obtain ⟨f, hf, hx⟩ := Work.mayGive_iff_mayEnd.1 hx
    exact ⟨f, hf, x, hx, rfl⟩
  · intro h q c he
    exact AllInAccord.keepsBindings q fun vars inserted a d hd => h vars inserted a d (he.trans hd)

/-- Rows that arrive extend the bindings if all projections are in accord with theirs. -/
theorem extends_of_mem_arrivals (h : env.AllInAccord p b)
    (hrow : .ok row ∈ Arrivals.ofResult ((env.evaluate p b).arrivals env.registry.answers)) :
    b.Extends row :=
  h.keepsBindings p row (Work.mayGive_of_mem_arrivals _ _ hrow)

mutual

/-- No projection of the plan puts anything back, as before filters are moved. -/
def InsertsNothing : Plan → Prop
  | .project _ inserted a => inserted = ∅ ∧ InsertsNothing a
  | .join args _ => AllInsertNothing args
  | .union args => AllInsertNothing args
  | .filter _ a => InsertsNothing a
  | .leftJoin l r _ => InsertsNothing l ∧ InsertsNothing r
  | .slice _ _ a => InsertsNothing a
  | .distinct a => InsertsNothing a
  | _ => True

/-- No projection of the plans puts anything back. -/
def AllInsertNothing : List Plan → Prop
  | [] => True
  | a :: rest => InsertsNothing a ∧ AllInsertNothing rest

end

theorem insertsNothing_of_mem {args : List Plan} {a : Plan} (h : AllInsertNothing args)
    (ha : a ∈ args) : InsertsNothing a := by
  induction args with
  | nil => exact absurd ha List.not_mem_nil
  | cons a' rest ih =>
    rcases List.mem_cons.1 ha with rfl | ha
    · exact h.1
    · exact ih h.2 ha

theorem Evaluates.insertsNothing (h : env.Evaluates p b q c) (hp : InsertsNothing p) :
    InsertsNothing q := by
  induction h with
  | self => exact hp
  | argument split _ _ ih => exact ih (insertsNothing_of_mem hp (split ▸ by simp))
  | branch mem _ ih => exact ih (insertsNothing_of_mem hp mem)
  | filtered _ ih => exact ih hp
  | required _ ih => exact ih hp.1
  | optional _ _ ih => exact ih hp.2
  | projected _ ih => exact ih hp.2
  | sliced _ ih => exact ih hp
  | distinct _ ih => exact ih hp

/-- **A plan whose projections put nothing back keeps the bindings.** -/
theorem keepsBindings_of_insertsNothing (hp : InsertsNothing p) (b : Bindings) :
    env.KeepsBindings p b := by
  refine AllInAccord.keepsBindings p fun vars inserted a c he _ v _ t ht => ?_
  rw [(he.insertsNothing hp).1] at ht
  simp at ht

/-! ### A projection that puts back another term -/

/-- The objects of the only triple of `lone` that are the resource `o`. -/
def objectsThatAreO : Plan :=
  .project ["y"] ∅ (.filter (.compare .eq (.var "y") (.const (.iri "o")))
    (.statement { subjects with pattern := ⟨.var "x", .const (.iri "p"), .var "y"⟩ }))

/-- **A fixed term that is put back overrides the binding**: asked for a row with another object, the
sub-select has none before its filter is moved, and one with the wrong object afterwards. -/
theorem project_overrides_binding :
    (lone.evaluate objectsThatAreO (.single "y" (.iri "a"))).arrivals lone.registry.answers =
        .ok [] ∧
      ∃ row, .ok row ∈ Arrivals.ofResult
          ((lone.evaluate objectsThatAreO.pushFilters (.single "y" (.iri "a"))).arrivals
            lone.registry.answers) ∧
        ¬ (Bindings.single "y" (.iri "a")).Extends row := by
  refine ⟨by decide +kernel, .single "y" (.iri "o"), by decide +kernel, fun h => ?_⟩
  have kept : (Bindings.single "y" (.iri "o")).get? "y" = some (.iri "a") := h "y" (.iri "a") rfl
  revert kept
  decide

end FederatedSparql.Environment
