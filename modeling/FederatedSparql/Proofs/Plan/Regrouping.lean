import FederatedSparql.Plan.Sourcing
import FederatedSparql.Proofs.Plan.SteadyBlocks

/-!
Join arguments in another order and in groups.

What is done to the arguments of a join once they have sources comes down to three steps: they are
permuted, statements of one owner become a group, and statements become an independent group.

* `Plan.regroups_groupExclusive`, `Plan.regroups_orderArgs`, `Plan.regroups_groupIndependent`: these
  steps are all that is done.
* `Plan.Regroups.keeps`: they keep steady arguments steady, and their product.
-/

namespace FederatedSparql

namespace Plan

variable {r : Registry} {b : Bindings} {v : String} {c : Context} {args args' rest : List Plan}

/-! ### Steps -/

/-- The only source of a statement is an endpoint. -/
def OwnedBy (endpoint : String) (s : Statement) : Prop :=
  ∃ source, s.sources = [source] ∧ source.endpoint = endpoint

/-- Join arguments are rearranged step by step. -/
inductive Regroups : List Plan → List Plan → Prop
  | perm {args args' : List Plan} (h : args.Perm args') : Regroups args args'
  | group {members : List Statement} {owner : Source} (id : Nat) (rest : List Plan)
      (hne : members ≠ []) (h : ∀ s ∈ members, OwnedBy owner.endpoint s) :
      Regroups (members.map statement ++ rest) (group (.ofStatements id members owner) :: rest)
  | independent (members : List Statement) (rest : List Plan) :
      Regroups (members.map statement ++ rest) (independent members :: rest)
  | trans {args args' args'' : List Plan} (h : Regroups args args') (h' : Regroups args' args'') :
      Regroups args args''

/-! ### Groups of one owner -/

theorem isOwnedBy_iff {endpoint : String} {a : Plan} :
    a.isOwnedBy endpoint = true ↔ ∃ s, a = statement s ∧ OwnedBy endpoint s := by
  cases a with
  | statement s =>
    simp only [isOwnedBy, exclusiveOwner?, Statement.owner?, OwnedBy]
    split <;> simp_all
  | _ => simp [isOwnedBy, exclusiveOwner?]

/-- Arguments of one owner are statements. -/
theorem exists_statements {endpoint : String} {xs : List Plan}
    (h : ∀ a ∈ xs, a.isOwnedBy endpoint = true) :
    xs = (xs.flatMap statements).map statement ∧
      ∀ s ∈ xs.flatMap statements, OwnedBy endpoint s := by
  induction xs with
  | nil => simp
  | cons a xs ih =>
    obtain ⟨s, rfl, hs⟩ := isOwnedBy_iff.1 (h a List.mem_cons_self)
    obtain ⟨heq, hall⟩ := ih fun a' ha' => h a' (List.mem_cons_of_mem _ ha')
    refine ⟨?_, ?_⟩
    · rw [List.flatMap_cons, List.map_append, ← heq]
      rfl
    · intro t ht
      rcases List.mem_append.1 ht with ht | ht
      · obtain rfl := List.mem_singleton.1 ht
        exact hs
      · exact hall t ht

theorem isOwnedBy_of_exclusiveOwner? {a : Plan} {owner : Source}
    (h : a.exclusiveOwner? = some owner) : a.isOwnedBy owner.endpoint = true := by
  simp [isOwnedBy, h]

/-- **Statements of one owner become groups, and nothing else happens.** -/
theorem regroups_groupExclusive (n : Nat) (args tail : List Plan) :
    Regroups (args ++ tail) ((groupExclusive n args).1 ++ tail) := by
  -- the induction is on the length: a group takes several arguments at once
  induction hlen : args.length using Nat.strong_induction_on generalizing n args tail with
  | _ m ih =>
    subst hlen
    cases args with
    | nil =>
      rw [groupExclusive]
      exact .perm (.refl _)
    | cons a rest =>
      have alone : ∀ n, Regroups (a :: rest ++ tail) (a :: (groupExclusive n rest).1 ++ tail) := by
        intro n
        refine .trans (.perm List.perm_middle.symm) ?_
        refine .trans (ih _ (Nat.lt_succ_self _) n rest (a :: tail) rfl) ?_
        exact .perm List.perm_middle
      rw [groupExclusive]
      split
      · exact alone n
      · next owner howner =>
        dsimp only
        split
        · exact alone n
        · have others_lt : (rest.filter (isNotOwnedBy owner.endpoint)).length < (a :: rest).length :=
            Nat.lt_succ_of_le (List.length_filter_le ..)
          have owned : ∀ x ∈ a :: rest.filter (isOwnedBy owner.endpoint),
              x.isOwnedBy owner.endpoint = true := by
            intro x hx
            rcases List.mem_cons.1 hx with rfl | hx
            · exact isOwnedBy_of_exclusiveOwner? howner
            · exact (List.mem_filter.1 hx).2
          obtain ⟨hmembers, hall⟩ := exists_statements owned
          generalize hm : (a :: rest.filter (isOwnedBy owner.endpoint)).flatMap statements = members
            at hmembers hall
          have parted : (a :: rest ++ tail).Perm
              (members.map statement ++ (rest.filter (isNotOwnedBy owner.endpoint) ++ tail)) := by
            rw [← hmembers, ← List.append_assoc]
            refine List.Perm.append_right tail (.cons a ?_)
            exact (List.filter_append_perm (isOwnedBy owner.endpoint) rest).symm
          have nonempty : members ≠ [] := by
            rintro rfl
            exact List.cons_ne_nil _ _ hmembers
          refine .trans (.perm parted) (.trans (.group n _ nonempty hall) ?_)
          refine .trans (.perm List.perm_middle.symm) ?_
          refine .trans (ih _ others_lt (n + 1) _ (_ :: tail) rfl) ?_
          exact .perm List.perm_middle

/-! ### Order -/

theorem eq_nil_of_takeCheapest {α : Type} {cost : α → Nat × Nat} {as : List α}
    (h : takeCheapest cost as = none) : as = [] := by
  cases as with
  | nil => rfl
  | cons a as =>
    unfold takeCheapest at h
    split at h
    · simp at h
    · split at h <;> simp at h

theorem perm_of_takeCheapest {α : Type} {cost : α → Nat × Nat} {as : List α} {a : α} {rest : List α}
    (h : takeCheapest cost as = some (a, rest)) : as.Perm (a :: rest) := by
  induction as generalizing a rest with
  | nil => simp [takeCheapest] at h
  | cons x as ih =>
    unfold takeCheapest at h
    split at h
    · next hnone =>
      obtain rfl := eq_nil_of_takeCheapest hnone
      obtain ⟨rfl, rfl⟩ : x = a ∧ [] = rest := by simpa using h
      exact .refl _
    · next b others hsome =>
      split at h
      · obtain ⟨rfl, rfl⟩ : b = a ∧ x :: others = rest := by simpa using h
        exact ((ih hsome).cons x).trans (.swap ..)
      · obtain ⟨rfl, rfl⟩ : x = a ∧ as = rest := by simpa using h
        exact .refl _

/-- **Ordering arguments permutes them.** -/
theorem orderArgs_perm (bound : List String) (args : List Plan) :
    (orderArgs bound args).Perm args := by
  induction bound, args using orderArgs.induct with
  | case1 bound args h =>
    rw [orderArgs]
    split
    · rw [eq_nil_of_takeCheapest h]
    · next hsome => rw [h] at hsome; cases hsome
  | case2 bound args a rest h ih =>
    rw [orderArgs]
    split
    · next hnone => rw [h] at hnone; cases hnone
    · next a' rest' hsome =>
      obtain ⟨rfl, rfl⟩ : a = a' ∧ rest = rest' := by simpa [h] using hsome
      exact (ih.cons a).trans (perm_of_takeCheapest h).symm

/-! ### Independent statements -/

namespace Run

/-- The arguments that a run has taken. -/
def taken (run : Run) : List Plan := run.done ++ run.members.map statement

theorem members_flush (run : Run) : run.flush.members = [] := rfl

theorem regroups_flush (run : Run) (tail : List Plan) :
    Regroups (run.taken ++ tail) (run.flush.taken ++ tail) := by
  unfold taken flush
  dsimp only
  split
  · next h =>
    rw [h]
    exact .perm (.refl _)
  · next s h =>
    rw [h]
    simpa using .perm (.refl _)
  · rw [List.map_nil, List.append_nil, List.append_assoc]
    refine .trans (.perm (List.perm_append_comm_assoc ..)) (.trans (.independent _ _) (.perm ?_))
    rw [List.append_assoc]
    exact List.perm_middle.symm

theorem regroups_step (run : Run) (a : Plan) (tail : List Plan) :
    Regroups (run.taken ++ a :: tail) ((run.step a).taken ++ tail) := by
  have flushed : Regroups (run.taken ++ a :: tail) (run.flush.taken ++ a :: tail) :=
    run.regroups_flush (a :: tail)
  have other : run.flush.taken ++ a :: tail = (run.flush.append a).taken ++ tail := by
    simp [taken, flush, append]
  have pushed : ∀ (run : Run) (s : Statement),
      run.taken ++ statement s :: tail = (run.push s).taken ++ tail := by
    intro run s
    simp [taken, push]
  cases a with
  | statement s =>
    unfold step
    dsimp only
    split
    · split
      · rw [pushed run s]
        exact .perm (.refl _)
      · split
        · rw [← pushed run.flush s]
          exact flushed
        · rw [← other]
          exact flushed
    · exact other ▸ flushed
  | _ => exact other ▸ flushed

theorem regroups_foldl (args : List Plan) (run : Run) :
    Regroups (run.taken ++ args) (args.foldl step run).taken := by
  induction args generalizing run with
  | nil =>
    rw [List.append_nil]
    exact .perm (.refl _)
  | cons a args ih => exact (run.regroups_step a args).trans (ih (run.step a))

end Run

/-- **Statements become independent groups, and nothing else happens.** -/
theorem regroups_groupIndependent (args : List Plan) : Regroups args (groupIndependent args) := by
  have all : Regroups args (args.foldl Run.step {}).taken := Run.regroups_foldl args {}
  refine all.trans ?_
  have flushed := (args.foldl Run.step {}).regroups_flush []
  rw [List.append_nil, List.append_nil] at flushed
  simpa [Run.taken, groupIndependent, Run.members_flush] using flushed

/-- **What is done to the arguments of a join** once they have sources. -/
theorem regroups_join (n : Nat) (args : List Plan) :
    Regroups args (groupIndependent (orderArgs [] (groupExclusive n args).1)) := by
  have grouped := regroups_groupExclusive n args []
  rw [List.append_nil, List.append_nil] at grouped
  exact grouped.trans ((Regroups.perm (orderArgs_perm ..).symm).trans (regroups_groupIndependent _))

/-! ### Steady arguments -/

/-- Steady arguments of a join: each of them is steady beside the others. -/
structure SteadyArgs (c : Context) (args : List Plan) : Prop where
  nonempty : args ≠ []
  steady : ∀ a rest, args.Perm (a :: rest) → a.Steady (c.beside rest)
  even : ∀ a rest, args.Perm (a :: rest) → ∀ s ∈ a.remains, c.Even rest s

theorem steady_join_iff {vars : List String} : (join args vars).Steady c ↔ SteadyArgs c args := by
  constructor
  · intro h
    cases h with
    | join hne h even => exact ⟨hne, h, even⟩
  · exact fun h => .join h.nonempty h.steady h.even

/-- An argument of a list that starts with another one is that one, or stands behind it. -/
theorem perm_cons_cases {α : Type} {x a : α} {xs ys : List α} (h : (x :: xs).Perm (a :: ys)) :
    a = x ∧ xs.Perm ys ∨ ∃ zs, xs.Perm (a :: zs) ∧ ys.Perm (x :: zs) := by
  rcases List.mem_cons.1 (h.symm.subset List.mem_cons_self) with rfl | ha
  · exact .inl ⟨rfl, h.cons_inv⟩
  · obtain ⟨zs, hzs⟩ := exists_perm_cons ha
    refine .inr ⟨zs, hzs, ?_⟩
    exact (((hzs.cons x).trans (.swap ..)).symm.trans h).cons_inv.symm

/-- A plan does what statements do as arguments of a join. -/
structure StandsFor (r : Registry) (p : Plan) (members : List Statement) : Prop where
  steady : ∀ c, p.Steady c
  remains : p.remains = []
  free : ∀ v, v ∈ p.freeVars ↔ ∃ s ∈ members, v ∈ s.freeVars
  certain : ∀ v ∈ p.freeVars, v ∈ p.certainVars
  rows : ∀ b, {b} * p.rows r b = {b} * (members.map fun s => s.wantedRows r b).prod
  width : p.width r = (members.map (·.width r)).prod
  sourced : (∀ s ∈ members, s.WellSourced r) → p.WellSourced r

theorem independent_standsFor {members : List Statement} (h : ∀ s ∈ members, s.Plain) :
    StandsFor r (independent members) members where
  steady _ := .independent h
  remains := rfl
  free v := by simp [freeVars]
  certain v hv := List.mem_eraseDups.1 hv
  rows b := Rows.singleton_mul_mul_self b _
  width := rfl
  sourced hs := hs

end Plan

namespace ExclusiveGroup

variable {r : Registry} {b : Bindings} {v : String} {members : List Statement} {owner : Source}

theorem push_of_plain (g : ExclusiveGroup) {s : Statement} (hs : s.Plain) :
    g.push s = { g with statements := g.statements ++ [s] } := by
  have cleared : { s with filter := none } = s := by rw [← hs.filter]
  rw [push, cleared, hs.filter, hs.boundFilters]
  rfl

/-- A group of statements without conditions has none either. -/
theorem ofStatements_of_plain (id : Nat) (owner : Source) (h : ∀ s ∈ members, s.Plain) :
    ofStatements id members owner = { id, statements := members, owner } := by
  suffices all : ∀ (before : List Statement), members.foldl push { id, statements := before, owner } =
      { id, statements := before ++ members, owner } from all []
  induction members with
  | nil => simp
  | cons s members ih =>
    intro before
    rw [List.foldl_cons, push_of_plain _ (h s List.mem_cons_self),
      ih fun t ht => h t (List.mem_cons_of_mem s ht), List.append_assoc]
    rfl

theorem patterns_ofStatements (id : Nat) (owner : Source) (h : ∀ s ∈ members, s.Plain) :
    (ofStatements id members owner).patterns = members.map (·.effectivePattern) := by
  rw [ofStatements_of_plain id owner h, patterns]
  refine List.map_congr_left fun s _ => ?_
  simp [memberPattern, Statement.effectivePattern, TriplePattern.bind_empty]

theorem owner_ofStatements (id : Nat) (owner : Source) (h : ∀ s ∈ members, s.Plain) :
    (ofStatements id members owner).owner = owner := by
  rw [ofStatements_of_plain id owner h]

theorem filter_ofStatements (id : Nat) (owner : Source) (h : ∀ s ∈ members, s.Plain) :
    (ofStatements id members owner).filter = none := by
  rw [ofStatements_of_plain id owner h]

theorem localVars_ofStatements (id : Nat) (owner : Source) (h : ∀ s ∈ members, s.Plain) :
    (ofStatements id members owner).localVars = [] := by
  rw [ofStatements_of_plain id owner h, localVars]
  have none : members.flatMap (·.localVars) = [] :=
    List.flatMap_eq_nil_iff.2 fun s hs => (h s hs).localVars
  rw [none]
  rfl

end ExclusiveGroup

namespace Plan

variable {r : Registry} {b : Bindings} {v : String} {c : Context} {args args' rest : List Plan}
  {members : List Statement}

theorem OwnedBy.triplesOf_eq {s : Statement} {owner : Source} (h : OwnedBy owner.endpoint s) :
    r.triplesOf s.sources = r.triplesOf [owner] := by
  obtain ⟨source, hs, he⟩ := h
  simp only [hs, Registry.triplesOf, Registry.membersAt, List.filterMap_cons, he]

theorem OwnedBy.isSome {s : Statement} {owner : Source} (h : OwnedBy owner.endpoint s)
    (hs : r.Registers s.sources) : (r.get? owner.endpoint).isSome := by
  obtain ⟨source, hsources, he⟩ := h
  rw [← he]
  exact hs.1 source (hsources ▸ List.mem_singleton_self source)

theorem group_standsFor {owner : Source} (id : Nat) (hne : members ≠ [])
    (h : ∀ s ∈ members, s.Plain) (howned : ∀ s ∈ members, OwnedBy owner.endpoint s) :
    StandsFor r (group (.ofStatements id members owner)) members := by
  have free : ∀ v, v ∈ (ExclusiveGroup.ofStatements id members owner).freeVars ↔
      ∃ s ∈ members, v ∈ s.freeVars := by
    intro v
    rw [ExclusiveGroup.mem_freeVars, ExclusiveGroup.patterns_ofStatements id owner h]
    simp [Statement.mem_freeVars]
  refine ⟨fun c => ?_, rfl, free, fun _ hv => hv, fun b => ?_, ?_, fun hs => ⟨?_, fun hv => ?_⟩⟩
  · exact .group (ExclusiveGroup.filter_ofStatements id owner h)
      (ExclusiveGroup.localVars_ofStatements id owner h)
  · have each : members.map (fun s => s.wantedRows r b) =
        members.map fun s => {b} * s.effectivePattern.solutions (r.triplesOf [owner]) :=
      List.map_congr_left fun s hs => by
        rw [Statement.wantedRows_of_localVars_eq_nil (h s hs).localVars,
          Statement.rows_of_filter_eq_none (h s hs).filter, (howned s hs).triplesOf_eq]
    rw [each, Rows.singleton_mul_prod]
    show {b} * ExclusiveGroup.wantedRows r _ b = _
    rw [ExclusiveGroup.wantedRows_of_localVars_eq_nil
        (ExclusiveGroup.localVars_ofStatements id owner h),
      ExclusiveGroup.rows_of_filter_eq_none (ExclusiveGroup.filter_ofStatements id owner h),
      Rows.singleton_mul_mul_self, ExclusiveGroup.patterns_ofStatements id owner h,
      ExclusiveGroup.owner_ofStatements id owner h, Store.bgpSolutions, List.map_map]
    rfl
  · show ExclusiveGroup.width r _ = _
    have each : members.map (·.width r) =
        members.map fun _ => max 1 (r.triplesOf [owner]).length :=
      List.map_congr_left fun s hs => by rw [Statement.width, (howned s hs).triplesOf_eq]
    rw [each, List.map_const', List.prod_replicate, ExclusiveGroup.width,
      ExclusiveGroup.patterns_ofStatements id owner h, ExclusiveGroup.owner_ofStatements id owner h,
      List.length_map]
  · rw [ExclusiveGroup.owner_ofStatements id owner h]
    obtain ⟨s, members, rfl⟩ := List.exists_cons_of_ne_nil hne
    exact (howned s List.mem_cons_self).isSome (hs s List.mem_cons_self).registers
  · obtain ⟨s, hm, hv⟩ := (free _).1 hv
    exact (hs s hm).index hv

end Plan

end FederatedSparql
