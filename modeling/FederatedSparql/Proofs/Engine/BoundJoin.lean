import FederatedSparql.Proofs.Engine.Parts

/-!
Joins in blocks beside joins row by row.

How the blocks of a join are evaluated is decided once, by the first row of the left side.  A row by
row join decides for each row anew.

* `Environment.boundJoin_agrees_iff`: both yield the same rows exactly if the first row leaves a
  variable of the statement free, or no row that does so has any answer.
* `Environment.boundJoin_disagrees`: a first row that leaves nothing free, before one that does.
-/

namespace FederatedSparql.Environment

variable {env : Environment} {s : Statement} {left : List Bindings}

/-- Joins rows with a statement in blocks. -/
def boundJoinOf (env : Environment) (s : Statement) (left : List Bindings) : Feed Bindings :=
  .boundJoin (.rows left) (max env.config.boundJoinBlockSize 1)
    fun first block => env.blockTask (.statement s) first block

/-- Joins rows with a statement one by one. -/
def nestedJoinOf (env : Environment) (s : Statement) (left : List Bindings) : Feed Bindings :=
  .nestedJoin (.rows left) fun row => env.evaluate (.statement s) row

/-- The rows of the left that have an answer. -/
def confirmedRows (r : Registry) (s : Statement) (b : Bindings) : Rows :=
  if Multiset.card (s.rows r b) = 0 then 0 else {b}

section Join

variable (hr : env.registry.Sound) (hs : env.registry.Registers s.sources)
  (hlocal : s.localVars = [])
  (hrows : ∀ b ∈ left, b.contains Tag.indexVar = false)
  (hpattern : Tag.indexVar ∉ s.effectivePattern.vars)
  (hsize : left.length ≤ Tag.numberLimit ∨ env.config.boundJoinBlockSize ≤ Tag.numberLimit)

include hr hs hlocal

theorem evaluate_statement_comes (b : Bindings) :
    (env.evaluate (.statement s) b).Comes env.registry.answers (s.rows env.registry b) := by
  rw [← Statement.wantedRows_of_localVars_eq_nil hlocal]
  exact Work.Comes.check (Work.Comes.repairingFaults (statement_comes hr hs))

theorem nestedJoinOf_comes :
    (env.nestedJoinOf s left).Comes env.registry.answers
      ((left : Rows).bind (s.rows env.registry)) :=
  .nestedJoin (.rows left) fun b _ => evaluate_statement_comes hr hs hlocal b

omit hr hs hlocal in
include hrows hpattern hsize in
/-- Blocks of the left are small enough for their rows to be numbered. -/
theorem numbered_block {block : List Bindings} (hsub : (block : Rows) ≤ left)
    (hlen : block.length ≤ max BoundJoin.smallBlockSize (max env.config.boundJoinBlockSize 1)) :
    Numbered block s where
  length := by
    have card : block.length ≤ left.length := by simpa using Multiset.card_le_card hsub
    have three : BoundJoin.smallBlockSize ≤ Tag.numberLimit := by
      simp only [BoundJoin.smallBlockSize, Tag.numberLimit]
      omega
    simp only [BoundJoin.smallBlockSize] at hlen three
    omega
  rows := fun b hb => hrows b (Multiset.mem_coe.1 (Multiset.mem_of_le hsub (Multiset.mem_coe.2 hb)))
  pattern := hpattern

omit hlocal in
include hrows hpattern hsize in
/-- A first row that leaves a variable free makes the join in blocks the one row by row. -/
theorem boundJoinOf_comes_rows {first : Bindings} (hhead : left.head? = some first)
    (hfirst : s.hasFreeVarsFor first = true) :
    (env.boundJoinOf s left).Comes env.registry.answers
      ((left : Rows).bind (s.rows env.registry)) := by
  refine .boundJoinFirst (f := .rows left) rfl fun first' hf block hsub hlen => ?_
  obtain rfl : first = first' := by simpa [hhead] using hf
  exact boundTask_comes hr hs (numbered_block hrows hpattern hsize hsub hlen) hfirst

omit hlocal in
include hrows hpattern hsize in
/-- A first row that leaves no variable free makes the join in blocks a check of all rows. -/
theorem boundJoinOf_comes_confirmed {first : Bindings} (hhead : left.head? = some first)
    (hfirst : s.hasFreeVarsFor first = false) :
    (env.boundJoinOf s left).Comes env.registry.answers
      ((left : Rows).bind (confirmedRows env.registry s)) := by
  refine .boundJoinFirst (f := .rows left) rfl fun first' hf block hsub hlen => ?_
  obtain rfl : first = first' := by simpa [hhead] using hf
  exact checkTask_comes hr hs (numbered_block hrows hpattern hsize hsub hlen) hfirst

omit hlocal in
/-- A check gives what the join gives if and only if no row with a free variable is confirmed. -/
theorem bind_confirmedRows_eq_iff :
    (left : Rows).bind (confirmedRows env.registry s) =
        (left : Rows).bind (s.rows env.registry) ↔
      ∀ b ∈ left, s.hasFreeVarsFor b = true → s.rows env.registry b = 0 := by
  constructor
  · intro heq b hb hfree
    by_contra hne
    -- The row itself is confirmed, so it would have to be a joined row.
    have confirmed : b ∈ (left : Rows).bind (confirmedRows env.registry s) := by
      refine Multiset.mem_bind.2 ⟨b, Multiset.mem_coe.2 hb, ?_⟩
      rw [confirmedRows, if_neg (by simpa using hne)]
      exact Multiset.mem_singleton_self b
    rw [heq] at confirmed
    obtain ⟨b', -, hmem⟩ := Multiset.mem_bind.1 confirmed
    obtain ⟨v, hv, hb⟩ := TriplePattern.hasFreeVars_iff.1 hfree
    have bound := (Statement.contains_of_mem_rows hmem v).2 (.inr hv)
    rw [hb] at bound
    exact absurd bound (by simp)
  · intro h
    refine Multiset.bind_congr fun b hb => ?_
    cases hfree : s.hasFreeVarsFor b with
    | false => exact rows_of_check hr hs hfree
    | true => simp [confirmedRows, h b (Multiset.mem_coe.1 hb) hfree]

include hrows hpattern hsize in
/-- **A join in blocks agrees with the one row by row** exactly if the first row leaves a variable
of the statement free, or no row that does so has any answer. -/
theorem boundJoin_agrees_iff :
    ∃ M N, (env.boundJoinOf s left).Yields env.registry.answers M ∧
      (env.nestedJoinOf s left).Yields env.registry.answers N ∧
      (M = N ↔ (∃ first, left.head? = some first ∧ s.hasFreeVarsFor first = true) ∨
        ∀ b ∈ left, s.hasFreeVarsFor b = true →
          (env.evaluate (.statement s) b).Yields env.registry.answers 0) := by
  have rowwise : (env.nestedJoinOf s left).Yields env.registry.answers _ :=
    (nestedJoinOf_comes hr hs hlocal).yields
  have unanswered : ∀ b, (env.evaluate (.statement s) b).Yields env.registry.answers 0 ↔
      s.rows env.registry b = 0 := by
    intro b
    have h := (evaluate_statement_comes hr hs hlocal b).yields
    exact ⟨fun h0 => h.unique h0, fun h0 => h0 ▸ h⟩
  simp only [unanswered]
  cases hhead : left.head? with
  | none =>
    obtain rfl : left = [] := List.head?_eq_none_iff.1 hhead
    have nothing : (env.boundJoinOf s []).Comes env.registry.answers
        ((([] : List Bindings) : Rows).bind (s.rows env.registry)) :=
      .boundJoinFirst (f := .rows []) rfl fun first hf => by simp at hf
    exact ⟨_, _, nothing.yields, rowwise, by simp⟩
  | some first =>
    cases hfirst : s.hasFreeVarsFor first with
    | true =>
      have blockwise := boundJoinOf_comes_rows hr hs hrows hpattern hsize hhead hfirst
      exact ⟨_, _, blockwise.yields, rowwise, by simp [hfirst]⟩
    | false =>
      have blockwise := boundJoinOf_comes_confirmed hr hs hrows hpattern hsize hhead hfirst
      refine ⟨_, _, blockwise.yields, rowwise, ?_⟩
      rw [bind_confirmedRows_eq_iff hr hs]
      simp [hfirst]

end Join

/-! ### A first row that leaves nothing free -/

/-- A federation of one member that holds one triple. -/
def lone : Environment := ⟨.single [⟨.iri "s", .iri "p", .iri "o"⟩], {}⟩

/-- Asks that member for subjects. -/
def subjects : Statement :=
  { id := 0, pattern := ⟨.var "x", .const (.iri "p"), .const (.iri "o")⟩,
    sources := [Registry.onlySource] }

theorem lone_sound : lone.registry.Sound := Registry.single_sound (List.nodup_singleton _)

theorem index_not_in_subjects : Tag.indexVar ∉ subjects.effectivePattern.vars := by decide

/-- Rows of which the first one binds the variable of `subjects` and the second one does not. -/
def boundThenFree : List Bindings := [.single "x" (.iri "s"), ∅]

/-- A row that leaves the variable free comes first, so both joins agree. -/
theorem boundJoin_agrees_on_free_first :
    ∃ M N, (lone.boundJoinOf subjects boundThenFree.reverse).Yields lone.registry.answers M ∧
      (lone.nestedJoinOf subjects boundThenFree.reverse).Yields lone.registry.answers N ∧
      (M = N ↔ (∃ first, boundThenFree.reverse.head? = some first ∧
          subjects.hasFreeVarsFor first = true) ∨
        ∀ b ∈ boundThenFree.reverse, subjects.hasFreeVarsFor b = true →
          (lone.evaluate (.statement subjects) b).Yields lone.registry.answers 0) :=
  boundJoin_agrees_iff lone_sound (Registry.single_registers _) rfl (by decide) index_not_in_subjects
    (.inr (by decide))

/-- **A first row that leaves nothing free spoils the join in blocks**: the row behind it, which
leaves a variable free, comes back as it is and not as its answers. -/
theorem boundJoin_disagrees :
    ∃ M N, (lone.boundJoinOf subjects boundThenFree).Yields lone.registry.answers M ∧
      (lone.nestedJoinOf subjects boundThenFree).Yields lone.registry.answers N ∧ M ≠ N := by
  refine ⟨{.single "x" (.iri "s"), ∅}, {.single "x" (.iri "s"), .single "x" (.iri "s")},
    ⟨boundThenFree, by decide +kernel, rfl⟩,
    ⟨[.single "x" (.iri "s"), .single "x" (.iri "s")], by decide +kernel, rfl⟩, ?_⟩
  decide

end FederatedSparql.Environment
