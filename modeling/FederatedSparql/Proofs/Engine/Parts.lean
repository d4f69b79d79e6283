import FederatedSparql.Proofs.Endpoint.Registry
import FederatedSparql.Proofs.Engine.Brings

/-!
What statements and groups come to, row by row and in blocks.

Under members that answer and sources that are registered, each once, a statement yields the
solutions of its pattern over the triples of all of its sources that extend the binding set and meet
its condition (`Environment.statement_comes`), whichever way they are asked for: as rows or, without
variables left, as an existence check.  A group yields those of all its patterns
(`Environment.group_comes`), and independent statements the product of what each yields
(`Environment.independent_comes`).  For a block of rows the same comes back row by row
(`Environment.boundTask_comes`, `Environment.independentBlock_comes`), but for a check, which
gives back rows as they are (`Environment.checkTask_comes`).
-/

namespace FederatedSparql

/-! ### Rows of statements and groups -/

namespace Statement

/-- The rows of a statement that extend a binding set, with all variables. -/
def rows (r : Registry) (s : Statement) (b : Bindings) : Rows :=
  Store.filteredRows (r.triplesOf s.sources) [s.effectivePattern] s.filter b

/-- The rows of a statement without the variables that endpoints may leave out. -/
def wantedRows (r : Registry) (s : Statement) (b : Bindings) : Rows :=
  (s.rows r b).map
    (Store.projectRow (Environment.wanted (s.effectivePattern.freeVars b) s.localVars) b)

/-- What several statements yield together under a binding set, with all variables. -/
def joinedRows (r : Registry) (members : List Statement) (b : Bindings) : Rows :=
  {b} * (members.map fun s => s.rows r b).prod

end Statement

namespace ExclusiveGroup

/-- The rows of a group that extend a binding set, with all variables. -/
def rows (r : Registry) (g : ExclusiveGroup) (b : Bindings) : Rows :=
  Store.filteredRows (r.triplesOf [g.owner]) g.patterns g.filter b

/-- The variables of a group that a binding set leaves free. -/
def freeVarsUnder (g : ExclusiveGroup) (b : Bindings) : List String :=
  ((g.patterns.map (·.bind b)).flatMap (·.vars)).eraseDups

/-- The rows of a group without the variables that endpoints may leave out. -/
def wantedRows (r : Registry) (g : ExclusiveGroup) (b : Bindings) : Rows :=
  (g.rows r b).map (Store.projectRow (Environment.wanted (g.freeVarsUnder b) g.localVars) b)

end ExclusiveGroup

variable {env : Environment} {s : Statement} {g : ExclusiveGroup} {b c : Bindings} {v : String}
  {r : Registry}

/-- A binding set keeps all it binds under a projection. -/
theorem Store.projectRow_self (projection : Option (List String)) (b : Bindings) :
    Store.projectRow projection b b = b := by
  cases projection with
  | none => rfl
  | some vars =>
    refine Bindings.ext_get? fun v => ?_
    rw [Store.projectRow, Bindings.get?_project]
    split
    · rfl
    · next hv =>
      rw [List.mem_append, not_or, Bindings.mem_names_iff] at hv
      exact (Bindings.contains_eq_false_iff.1 (by simpa using hv.2)).symm

/-- Without a projection rows stay as they are. -/
theorem Store.map_projectRow_none (b : Bindings) (X : Rows) :
    X.map (Store.projectRow none b) = X :=
  Multiset.map_id X

theorem Statement.wantedRows_of_localVars_eq_nil (h : s.localVars = []) (b : Bindings) :
    s.wantedRows r b = s.rows r b := by
  rw [Statement.wantedRows, Environment.wanted, h]
  exact Store.map_projectRow_none b _

theorem ExclusiveGroup.wantedRows_of_localVars_eq_nil (h : g.localVars = []) (b : Bindings) :
    g.wantedRows r b = g.rows r b := by
  rw [ExclusiveGroup.wantedRows, Environment.wanted, h]
  exact Store.map_projectRow_none b _

theorem Statement.extends_of_mem_rows (h : c ∈ s.rows r b) : b.Extends c :=
  Store.extends_of_mem_filteredRows h

theorem Statement.contains_of_mem_rows (h : c ∈ s.rows r b) (v : String) :
    c.contains v = true ↔ b.contains v = true ∨ v ∈ s.effectivePattern.vars := by
  simpa using Store.contains_of_mem_filteredRows h v

/-- Without variables left, a statement gives back the binding set or nothing. -/
theorem Statement.rows_of_bound (hr : r.Sound) (hs : r.Registers s.sources)
    (hb : s.hasFreeVarsFor b = false) :
    s.rows r b = if Expr.acceptsAll s.filter b &&
      Store.hasMatch (r.triplesOf s.sources) s.effectivePattern b then {b} else 0 := by
  rw [Statement.rows, Store.filteredRows_of_bound (Registry.nodup_triplesOf hr hs)]
  · simp
  · simpa [Statement.hasFreeVarsFor] using hb

theorem Statement.wantedRows_of_bound (hr : r.Sound) (hs : r.Registers s.sources)
    (hb : s.hasFreeVarsFor b = false) : s.wantedRows r b = s.rows r b := by
  rw [Statement.wantedRows, Statement.rows_of_bound hr hs hb]
  split
  · rw [Multiset.map_singleton, Store.projectRow_self]
  · rfl

namespace Environment

open Work.Comes

/-! ### Requests -/

section Member

variable {m : Member} (hm : env.registry.Serves m)

include hm

theorem fetch_get_comes (ps : List TriplePattern) (b : Bindings) (f : Option Expr)
    (projection : Option (List String)) :
    (fetch m.id (.get ps b f projection)).Comes env.registry.answers
      ((Store.filteredRows m.triples ps f b).map (Store.projectRow projection b)) := by
  rw [← Store.coe_solutions]
  refine request ?_
  rw [hm.answers_get]
  exact Work.Comes.rows _

theorem fetch_bound_comes (ps : List TriplePattern) (block : List Bindings) (f : Option Expr) :
    (fetch m.id (.bound ps block f)).Comes env.registry.answers
      ↑(Store.boundSolutions m.triples ps block f) := by
  refine request ?_
  rw [hm.answers_bound]
  exact Work.Comes.rows _

theorem confirm_fetches (p : TriplePattern) (b : Bindings) :
    (confirm m.id p b).Fetches env.registry.answers fun xs =>
      (xs : Rows) = if Store.hasMatch m.triples p b then {b} else 0 := by
  show Work.Fetches _ (Work.ofExcept _ _) _
  rw [hm.answers_has]
  simp only [Work.ofExcept, Answer.isFound]
  cases Store.hasMatch m.triples p b with
  | true => exact Multiset.coe_singleton b
  | false => exact Multiset.coe_nil

theorem confirmAll_comes (onFailure : FedError → Work Bindings) (under b : Bindings)
    (ps : List TriplePattern) :
    (confirmAll m.id onFailure under b ps).Comes env.registry.answers
      (if ps.all fun p => Store.hasMatch m.triples p under then {b} else 0) := by
  induction ps with
  | nil => exact Work.Comes.rows [b]
  | cons p rest ih =>
    refine request ?_
    rw [hm.answers_has]
    simp only [Answer.isFound, List.all_cons]
    by_cases hp : Store.hasMatch m.triples p under = true
    · simpa only [hp, if_true, Bool.true_and] using ih
    · simp only [hp, Bool.false_and, Bool.false_eq_true, if_false]
      exact Work.Comes.rows []

end Member

/-! ### Statements -/

section Statements

variable (hr : env.registry.Sound) (hs : env.registry.Registers s.sources)

/-- The sum of the rows at all members is those over the triples of all of them. -/
theorem sum_filteredRows (ms : List Member) (p : TriplePattern) (f : Option Expr) (b : Bindings) :
    (ms.map fun m => Store.filteredRows m.triples [p] f b).sum =
      Store.filteredRows (ms.flatMap (·.triples)) [p] f b := by
  induction ms with
  | nil => simp [Store.filteredRows_nil]
  | cons m ms ih => rw [List.map_cons, List.sum_cons, ih, List.flatMap_cons,
      Store.filteredRows_append]

include hr hs

theorem fetchStatement_comes :
    (env.fetchStatement s b).Comes env.registry.answers (s.wantedRows env.registry b) := by
  let projection := wanted (s.effectivePattern.freeVars b) s.localVars
  have each : ∀ m ∈ env.registry.membersAt s.sources,
      (fetch m.id (.get [s.effectivePattern] b s.filter projection)).Comes env.registry.answers
        ((Store.filteredRows m.triples [s.effectivePattern] s.filter b).map
          (Store.projectRow projection b)) :=
    fun m hm => fetch_get_comes (hr.serves (Registry.get?_of_mem_membersAt hm)) ..
  unfold fetchStatement
  rw [Registry.membersOf_eq_ok env hs]
  simp only [Work.ofExcept]
  have total : s.wantedRows env.registry b =
      ((env.registry.membersAt s.sources).map fun m =>
        (Store.filteredRows m.triples [s.effectivePattern] s.filter b).map
          (Store.projectRow projection b)).sum := by
    rw [Statement.wantedRows, Statement.rows, Registry.triplesOf, ← sum_filteredRows]
    induction env.registry.membersAt s.sources with
    | nil => rfl
    | cons m ms ih => simp only [List.map_cons, List.sum_cons, Multiset.map_add, ih]; rfl
  rw [total]
  split
  · next m hms =>
    rw [hms, List.map_singleton, List.sum_singleton]
    exact each m (by simp [hms])
  · refine Work.Comes.done (.union ?_)
    rw [List.forall₂_map_left_iff, List.forall₂_map_right_iff, List.forall₂_same]
    exact fun m hm => repairingFaults (each m hm)

theorem checkStatement_comes (hb : s.hasFreeVarsFor b = false)
    (hf : Expr.acceptsAll s.filter b = true) :
    (env.checkStatement s b).Comes env.registry.answers (s.rows env.registry b) := by
  have each : ∀ m ∈ env.registry.membersAt s.sources,
      (confirm m.id s.effectivePattern b).Fetches env.registry.answers fun xs =>
        (xs : Rows) = if Store.hasMatch m.triples s.effectivePattern b then {b} else 0 :=
    fun m hm => confirm_fetches (hr.serves (Registry.get?_of_mem_membersAt hm)) ..
  unfold checkStatement
  rw [Registry.membersOf_eq_ok env hs, Statement.rows_of_bound hr hs hb]
  simp only [Work.ofExcept, hf, Bool.true_and, Registry.triplesOf]
  split
  · next m hms =>
    simpa [hms, Work.Comes] using (each m (by simp [hms])).brings
  · let Ms := (env.registry.membersAt s.sources).map fun m =>
      if Store.hasMatch m.triples s.effectivePattern b then ({b} : Rows) else 0
    have found : (if Store.hasMatch ((env.registry.membersAt s.sources).flatMap (·.triples))
        s.effectivePattern b = true then ({b} : Rows) else 0) = if {b} ∈ Ms then {b} else 0 := by
      have any : Store.hasMatch ((env.registry.membersAt s.sources).flatMap (·.triples))
          s.effectivePattern b = true ↔ {b} ∈ Ms := by
        simp only [Store.hasMatch, List.any_flatMap, List.any_eq_true, Ms, List.mem_map]
        refine exists_congr fun m => and_congr_right fun _ => ?_
        split <;> simp_all
      simp only [any]
    rw [found]
    have branches : List.Forall₂ (fun branch M => branch.2.Fetches env.registry.answers fun xs =>
        (xs : Rows) = M) ((env.registry.membersAt s.sources).map fun m => ("ExistenceCheck @" ++ m.id,
          (confirm m.id s.effectivePattern b).repairingFaults)) Ms := by
      rw [List.forall₂_map_left_iff, List.forall₂_map_right_iff, List.forall₂_same]
      exact fun m hm => (each m hm).handle _
    refine Work.Comes.done (.slice (.unionFirst branches ?_) ?_)
    · intro M hM
      obtain ⟨m, -, rfl⟩ := List.mem_map.1 hM
      split <;> simp
    · rintro n ⟨⟩
      split <;> simp

/-- **A statement yields its rows**, without the variables that endpoints may leave out. -/
theorem statement_comes :
    (env.statement s b).Comes env.registry.answers (s.wantedRows env.registry b) := by
  unfold Environment.statement
  split
  · next hempty =>
    have none_left : s.wantedRows env.registry b = 0 := by
      rw [List.isEmpty_iff] at hempty
      simp [Statement.wantedRows, Statement.rows, hempty, Registry.triplesOf, Registry.membersAt,
        Store.filteredRows_nil]
    rw [none_left]
    exact Work.Comes.rows []
  · split
    · exact fetchStatement_comes hr hs
    · next hfree =>
      have hb : s.hasFreeVarsFor b = false := by simpa [Statement.hasFreeVarsFor] using hfree
      rw [Statement.wantedRows_of_bound hr hs hb]
      split
      · next hf => exact checkStatement_comes hr hs hb hf
      · next hf =>
        rw [Statement.rows_of_bound hr hs hb]
        simp only [hf, Bool.false_and, Bool.false_eq_true, if_false]
        exact Work.Comes.rows []

end Statements

/-! ### Groups -/

/-- Asking for a bound pattern under nothing is asking for the pattern under the binding set. -/
theorem hasMatch_bind (triples : List Triple) (p : TriplePattern) (b : Bindings) :
    Store.hasMatch triples (p.bind b) ∅ = Store.hasMatch triples p b := by
  simp only [Store.hasMatch, TriplePattern.bind_empty]

theorem hasFreeVars_bind (p : TriplePattern) (b : Bindings) :
    (p.bind b).hasFreeVars ∅ = p.hasFreeVars b := by
  rw [Bool.eq_iff_iff, TriplePattern.hasFreeVars_iff, TriplePattern.hasFreeVars_iff]
  simp only [TriplePattern.mem_vars_bind, ← Bindings.contains_eq_false_iff]
  constructor
  · rintro ⟨v, ⟨hv, hb⟩, -⟩
    exact ⟨v, hv, hb⟩
  · rintro ⟨v, hv, hb⟩
    exact ⟨v, ⟨hv, hb⟩, rfl⟩

theorem triplesOf_owner {m : Member} (hm : r.get? g.owner.endpoint = some m) :
    r.triplesOf [g.owner] = m.triples := by
  simp [Registry.triplesOf, Registry.membersAt, hm]

/-- **A group yields its rows**, without the variables that endpoints may leave out. -/
theorem group_comes (hr : env.registry.Sound) {m : Member}
    (hm : env.registry.get? g.owner.endpoint = some m) :
    (env.group g b).Comes env.registry.answers (g.wantedRows env.registry b) := by
  have owner := triplesOf_owner hm
  unfold Environment.group
  rw [Registry.get_eq_ok hm]
  simp only [Work.ofExcept, List.all_map, Function.comp_def, hasFreeVars_bind]
  split
  · next hbound =>
    have bound : ∀ p ∈ g.patterns, p.hasFreeVars b = false := by simpa using hbound
    have rows_eq : g.wantedRows env.registry b = if Expr.acceptsAll g.filter b &&
        g.patterns.all fun p => Store.hasMatch m.triples p b then {b} else 0 := by
      rw [ExclusiveGroup.wantedRows, ExclusiveGroup.rows, owner,
        Store.filteredRows_of_bound (Registry.nodup_triples hr hm) bound]
      split
      · rw [Multiset.map_singleton, Store.projectRow_self]
      · rfl
    rw [rows_eq]
    split
    · next hf =>
      have confirmed := confirmAll_comes (hr.serves hm) Work.failRepairing ∅ b
        (g.patterns.map (·.bind b))
      simpa only [hf, Bool.true_and, List.all_map, Function.comp_def, hasMatch_bind] using confirmed
    · next hf =>
      simp only [hf, Bool.false_and, Bool.false_eq_true, if_false]
      exact Work.Comes.rows []
  · rw [ExclusiveGroup.wantedRows, ExclusiveGroup.rows, owner]
    exact fetch_get_comes (hr.serves hm) ..

/-! ### Independent statements -/

theorem mapM_id_ok {β : Type} (xss : List β) :
    (xss.map Except.ok : List (Except FedError β)).mapM id = .ok xss := by
  induction xss with
  | nil => rfl
  | cons xs xss ih => rw [List.map_cons, List.mapM_cons, ih]; rfl

/-- **Independent statements yield the product of what each yields.** -/
theorem independent_comes (hr : env.registry.Sound) {members : List Statement}
    (hs : ∀ s ∈ members, env.registry.Registers s.sources) :
    (env.independent members b).Comes env.registry.answers
      ({b} * (members.map fun s => s.wantedRows env.registry b).prod) := by
  refine gather (members.map fun s => s.wantedRows env.registry b) ?_ ?_
  · rw [List.forall₂_map_left_iff, List.forall₂_map_right_iff, List.forall₂_same]
    exact fun s hmem => check (repairingFaults (statement_comes hr (hs s hmem)))
  · intro xss hxss
    rw [mapM_id_ok]
    have product := BoundJoin.coe_foldl_mergeAll xss [b]
    rw [show (xss.map fun p : List Bindings => (p : Rows)) = _ from hxss] at product
    rw [Multiset.coe_singleton] at product
    rw [← product]
    exact Work.Comes.rows _

/-! ### Blocks -/

section Blocks

variable (hr : env.registry.Sound) {block : List Bindings}

/-- What makes the numbers of a block come back: there are not too many rows, and neither they nor a
pattern use the variable that carries the number. -/
structure Numbered (block : List Bindings) (s : Statement) : Prop where
  length : block.length ≤ Tag.numberLimit
  rows : ∀ b ∈ block, b.contains Tag.indexVar = false
  pattern : Tag.indexVar ∉ s.effectivePattern.vars

theorem sum_boundSolutions (ms : List Member) (p : TriplePattern) (block : List Bindings)
    (f : Option Expr) :
    (ms.map fun m => (Store.boundSolutions m.triples [p] block f : Rows)).sum =
      ↑(Store.boundSolutions (ms.flatMap (·.triples)) [p] block f) := by
  induction ms with
  | nil => simp [Store.coe_boundSolutions, Store.filteredRows_nil]
  | cons m ms ih => rw [List.map_cons, List.sum_cons, ih, List.flatMap_cons,
      Store.coe_boundSolutions_append]

theorem joinResponses_ok (k : List Bindings → Work Bindings) (soFar : List Bindings)
    (xss : List (List Bindings)) :
    joinResponses k soFar (xss.map .ok) = k (soFar ++ xss.flatten) := by
  induction xss generalizing soFar with
  | nil => simp [joinResponses]
  | cons xs xss ih => rw [List.map_cons, joinResponses, ih, List.flatten_cons, List.append_assoc]

/-- The responses of all sources to a block are those over the triples of all of them. -/
theorem fetchTagged_comes (hs : env.registry.Registers s.sources)
    {k : List Bindings → Work Bindings} {M : Rows}
    (hr : env.registry.Sound)
    (hk : ∀ rows : List Bindings, (rows : Rows) = ↑(Store.boundSolutions
      (env.registry.triplesOf s.sources) [s.effectivePattern] block s.filter) →
        (k rows).Comes env.registry.answers M) :
    (env.fetchTagged s block k).Comes env.registry.answers M := by
  unfold fetchTagged
  rw [Registry.membersOf_eq_ok env hs]
  refine gather ((env.registry.membersAt s.sources).map fun m =>
    (Store.boundSolutions m.triples [s.effectivePattern] block s.filter : Rows)) ?_ ?_
  · rw [List.forall₂_map_left_iff, List.forall₂_map_right_iff, List.forall₂_same]
    exact fun m hm =>
      fetch_bound_comes (hr.serves (Registry.get?_of_mem_membersAt hm)) ..
  · intro xss hxss
    rw [joinResponses_ok, List.nil_append]
    refine hk _ ?_
    rw [coe_flatten, hxss, sum_boundSolutions, Registry.triplesOf]

/-- What comes back for a block belongs to its rows, under their numbers. -/
theorem numbered_of_responses (hn : Numbered block s) {rows : List Bindings}
    (h : (rows : Rows) = ↑(Store.boundSolutions (r.triplesOf s.sources) [s.effectivePattern] block
      s.filter)) :
    ((rows.filterMap Tag.untagRow? : List (Nat × Bindings)) : Multiset (Nat × Bindings)) =
      Store.numberedRows block (s.rows r) := by
  rw [← Multiset.filterMap_coe, h, Store.filterMap_untagRow?_boundSolutions hn.length hn.rows]
  · rfl
  · simpa using hn.pattern

include hr

/-- **A bound join gives the rows of the statement for every row of a block.** -/
theorem boundTask_comes (hs : env.registry.Registers s.sources) (hn : Numbered block s)
    {first : Bindings} (hfirst : s.hasFreeVarsFor first = true) :
    (env.blockTask (.statement s) first block).Comes env.registry.answers
      ((block : Rows).bind (s.rows env.registry)) := by
  simp only [blockTask, BoundTaskKind.choose?, hfirst, if_true]
  refine fetchTagged_comes hs hr fun rows hrows => ?_
  rw [← BoundJoin.coe_demultiplex (numbered_of_responses hn hrows)]
  · exact Work.Comes.rows _
  · exact fun b _ c hc => Statement.extends_of_mem_rows hc

/-- **A check gives back the rows of a block for which the statement has any row.** -/
theorem checkTask_comes (hs : env.registry.Registers s.sources) (hn : Numbered block s)
    {first : Bindings} (hfirst : s.hasFreeVarsFor first = false) :
    (env.blockTask (.statement s) first block).Comes env.registry.answers
      ((block : Rows).bind fun b =>
        if Multiset.card (s.rows env.registry b) = 0 then 0 else {b}) := by
  simp only [blockTask, BoundTaskKind.choose?, hfirst, Bool.false_eq_true, if_false]
  refine fetchTagged_comes hs hr fun rows hrows => ?_
  rw [← BoundJoin.coe_confirmed (numbered_of_responses hn hrows)]
  exact Work.Comes.rows _

/-- Rows that leave no variable of a statement free are checked as they are joined. -/
theorem rows_of_check (hs : env.registry.Registers s.sources) {b : Bindings}
    (hb : s.hasFreeVarsFor b = false) :
    (if Multiset.card (s.rows env.registry b) = 0 then 0 else {b}) = s.rows env.registry b := by
  rw [Statement.rows_of_bound hr hs hb]
  split <;> simp_all

/-- **A block of rows is joined row by row**, if with its first row all of them leave no variable
of the statement free. -/
theorem statementTask_comes (hs : env.registry.Registers s.sources) (hn : Numbered block s)
    {first : Bindings}
    (heven : s.hasFreeVarsFor first = false → ∀ b ∈ block, s.hasFreeVarsFor b = false) :
    (env.blockTask (.statement s) first block).Comes env.registry.answers
      ((block : Rows).bind (s.rows env.registry)) := by
  cases hfirst : s.hasFreeVarsFor first with
  | true => exact boundTask_comes hr hs hn hfirst
  | false =>
    have checked := checkTask_comes hr hs hn hfirst
    rwa [Multiset.bind_congr fun b hb => rows_of_check hr hs (heven hfirst b hb)] at checked

/-- **Independent statements give the product of their rows for every row of a block.** -/
theorem independentBlock_comes {members : List Statement}
    (hs : ∀ s ∈ members, env.registry.Registers s.sources ∧ Numbered block s) (first : Bindings) :
    (env.blockTask (.independent members) first block).Comes env.registry.answers
      ((block : Rows).bind (Statement.joinedRows env.registry members)) := by
  simp only [blockTask, BoundTaskKind.choose?, independentBlock]
  refine gather (members.map fun s => (Store.boundSolutions
    (env.registry.triplesOf s.sources) [s.effectivePattern] block s.filter : Rows)) ?_ ?_
  · rw [List.forall₂_map_left_iff, List.forall₂_map_right_iff, List.forall₂_same]
    intro s hmem
    refine fetchTagged_comes (hs s hmem).1 hr fun rows hrows => ?_
    rw [← hrows]
    exact Work.Comes.rows _
  · intro xss hxss
    rw [mapM_id_ok]
    have parts : List.Forall₂ (fun (tagged : List (Nat × Bindings)) (rows : Bindings → Rows) =>
        (tagged : Multiset (Nat × Bindings)) = Store.numberedRows block rows)
        (xss.map (·.filterMap Tag.untagRow?)) (members.map (Statement.rows env.registry)) := by
      rw [List.forall₂_map_left_iff, List.forall₂_map_right_iff]
      induction members generalizing xss with
      | nil => simp_all
      | cons s members ih =>
        cases xss with
        | nil => simp at hxss
        | cons xs xss =>
          rw [List.map_cons, List.map_cons, List.cons.injEq] at hxss
          refine .cons (numbered_of_responses (hs s List.mem_cons_self).2 hxss.1) ?_
          exact ih (fun t ht => hs t (List.mem_cons_of_mem s ht)) xss hxss.2
    have combined := BoundJoin.coe_combine parts
    simp only [List.map_map, Function.comp_def] at combined
    change _ = (block : Rows).bind (Statement.joinedRows env.registry members) at combined
    rw [← combined]
    exact Work.Comes.rows _

end Blocks

end Environment

end FederatedSparql
