import FederatedSparql.Proofs.Plan.Regrouping

/-!
The arguments of joins, once they have been grouped and ordered.

A plan is arranged (`Plan.Arranged`) if nothing in it has no solutions, its groups are statements of
one owner, its joins and unions have something to put together, and independent statements stand
where they depend on earlier arguments only.

* `Plan.arranged_groupExclusive`, `Plan.apart_groupExclusive`: grouping leaves no two statements of
  one owner.
* `Plan.Run.Tidy`: what holds while runs of independent statements are collected; `Run.Tidy.step`:
  every argument keeps it.
* `Plan.arranged_joinOf`: so the join of arranged arguments is arranged.
-/

namespace FederatedSparql

/-! ### Arranged plans -/

/-- An endpoint is the same source wherever it occurs. -/
def SourcesAgree (sources : Nat → List Source) : Prop :=
  ∀ i j, ∀ x ∈ sources i, ∀ y ∈ sources j, x.endpoint = y.endpoint → x = y

/-- A statement has the sources that belong to its number, at least one, and nothing else has been
done to it. -/
structure Statement.Placed (sources : Nat → List Source) (s : Statement) : Prop where
  plain : s.Plain
  sources_eq : s.sources = sources s.id
  nonempty : s.sources ≠ []

/-- A group puts several statements together that only the endpoint of its owner can answer.  If
endpoints are the same sources everywhere, the owner is their only source. -/
structure ExclusiveGroup.Exclusive (sources : Nat → List Source) (g : ExclusiveGroup) : Prop where
  two : 2 ≤ g.statements.length
  placed : ∀ s ∈ g.statements, s.Placed sources
  owned : ∀ s ∈ g.statements, Plan.OwnedBy g.owner.endpoint s
  owner : SourcesAgree sources → ∀ s ∈ g.statements, s.sources = [g.owner]

namespace Plan

/-- Whether the plan is an independent group. -/
def isIndependent : Plan → Bool
  | independent _ => true
  | _ => false

/-- Whether the plan is a statement or a group of statements of one kind or the other. -/
def isStatements : Plan → Bool
  | statement _ => true
  | group _ => true
  | independent _ => true
  | _ => false

/-- The statements that a join argument stands for by itself or as an independent group. -/
def loose : Plan → List Statement
  | statement s => [s]
  | independent members => members
  | _ => []

/-- Two statements are not owned by one endpoint. -/
def Apart (s t : Statement) : Prop := ∀ endpoint, OwnedBy endpoint s → ¬ OwnedBy endpoint t

/-- An independent group stands behind statements and groups only.  Each member is connected to
them and binds something new, and what two members share is bound by them. -/
structure IndependentBehind (before : List Plan) (members : List Statement) : Prop where
  two : 2 ≤ members.length
  notFirst : before ≠ []
  preceded : ∀ a ∈ before, a.isStatements = true
  connected : ∀ s ∈ members, ∃ v ∈ s.freeVars, v ∈ freeVarsAll before
  fresh : ∀ s ∈ members, ∃ v ∈ s.freeVars, v ∉ freeVarsAll before
  shared : members.Pairwise fun s t => ∀ v ∈ s.freeVars, v ∈ t.freeVars → v ∈ freeVarsAll before

/-- Every independent group among join arguments depends on the arguments before it only. -/
def Settled (args : List Plan) : Prop :=
  ∀ before members after, args = before ++ independent members :: after →
    IndependentBehind before members

/-- A plan whose statements have sources and whose joins are arranged around them. -/
inductive Arranged (sources : Nat → List Source) : Plan → Prop
  | statement {s : Statement} (h : s.Placed sources) : Arranged sources (statement s)
  | group {g : ExclusiveGroup} (h : g.Exclusive sources) : Arranged sources (group g)
  | join {args : List Plan} (vars : List String) (two : 2 ≤ args.length)
      (each : ∀ a ∈ args, a.isIndependent = false → Arranged sources a)
      (apart : (args.flatMap loose).Pairwise Apart) (settled : Settled args) :
      Arranged sources (join args vars)
  | union {args : List Plan} (two : 2 ≤ args.length) (each : ∀ a ∈ args, Arranged sources a) :
      Arranged sources (union args)
  | leftJoin {l r : Plan} (condition : Option Expr) (hl : Arranged sources l)
      (hr : Arranged sources r) : Arranged sources (leftJoin l r condition)
  | filter (condition : Expr) {a : Plan} (ha : Arranged sources a) :
      Arranged sources (filter condition a)
  | project (vars : List String) (inserted : Bindings) {a : Plan} (ha : Arranged sources a) :
      Arranged sources (project vars inserted a)
  | slice (offset : Nat) (limit : Option Nat) {a : Plan} (ha : Arranged sources a) :
      Arranged sources (slice offset limit a)
  | distinct {a : Plan} (ha : Arranged sources a) : Arranged sources (distinct a)
  | service (s : Service) : Arranged sources (service s)

variable {sources : Nat → List Source} {args : List Plan} {n : Nat}

theorem Arranged.isIndependent_eq {p : Plan} (h : p.Arranged sources) : p.isIndependent = false := by
  cases h <;> rfl

theorem Arranged.isEmpty_eq {p : Plan} (h : p.Arranged sources) : p.isEmpty = false := by
  cases h <;> rfl

theorem Apart.symm {s t : Statement} (h : Apart s t) : Apart t s :=
  fun endpoint ht hs => h endpoint hs ht

/-! ### Groups of one owner -/

theorem Arranged.placed {s : Statement} (h : (Plan.statement s).Arranged sources) :
    s.Placed sources := by
  cases h with
  | statement h => exact h

/-- **Statements of one owner make an exclusive group.** -/
theorem exclusive_ofStatements {members : List Statement} {owner : Source} (id : Nat)
    (two : 2 ≤ members.length) (placed : ∀ s ∈ members, s.Placed sources)
    (owned : ∀ s ∈ members, OwnedBy owner.endpoint s)
    (howner : ∃ s ∈ members, s.sources = [owner]) :
    (ExclusiveGroup.ofStatements id members owner).Exclusive sources := by
  rw [ExclusiveGroup.ofStatements_of_plain id owner fun s hs => (placed s hs).plain]
  refine ⟨two, placed, owned, fun agree s hs => ?_⟩
  obtain ⟨t, ht, hsources⟩ := howner
  obtain ⟨x, hx, hendpoint⟩ := owned s hs
  have mem_owner : owner ∈ sources t.id := by
    rw [← (placed t ht).sources_eq, hsources]
    exact List.mem_singleton_self owner
  have mem_x : x ∈ sources s.id := by
    rw [← (placed s hs).sources_eq, hx]
    exact List.mem_singleton_self x
  rw [hx, agree s.id t.id x mem_x owner mem_owner hendpoint]

/-- What grouping makes of some arguments: each stays where it is, unless there are others of its
owner behind it. -/
inductive Grouped : List Plan → List Plan → Prop
  | nil : Grouped [] []
  | alone {a : Plan} {rest out : List Plan}
      (h : ∀ endpoint, a.isOwnedBy endpoint = true → ∀ b ∈ rest, b.isOwnedBy endpoint = false)
      (hrest : Grouped rest out) : Grouped (a :: rest) (a :: out)
  | group {a : Plan} {rest out : List Plan} {owner : Source} (id : Nat)
      (howner : a.exclusiveOwner? = some owner)
      (hmates : rest.filter (isOwnedBy owner.endpoint) ≠ [])
      (hothers : Grouped (rest.filter (isNotOwnedBy owner.endpoint)) out) :
      Grouped (a :: rest) (Plan.group (.ofStatements id
        ((a :: rest.filter (isOwnedBy owner.endpoint)).flatMap statements) owner) :: out)

theorem grouped_groupExclusive (n : Nat) (args : List Plan) :
    Grouped args (groupExclusive n args).1 := by
  -- the induction is on the length: a group takes several arguments at once
  induction hlen : args.length using Nat.strong_induction_on generalizing n args with
  | _ m ih =>
    subst hlen
    cases args with
    | nil =>
      rw [groupExclusive]
      exact .nil
    | cons a rest =>
      have behind : ∀ n, Grouped rest (groupExclusive n rest).1 := fun n =>
        ih _ (Nat.lt_succ_self _) n rest rfl
      rw [groupExclusive]
      split
      · next hnone =>
        refine .alone (fun endpoint ha => ?_) (behind n)
        simp [isOwnedBy, hnone] at ha
      · next owner howner =>
        dsimp only
        split
        · next hempty =>
          refine .alone (fun endpoint ha b hb => ?_) (behind n)
          have same : owner.endpoint = endpoint := by simpa [isOwnedBy, howner] using ha
          subst same
          simpa using List.filter_eq_nil_iff.1 (List.isEmpty_iff.1 hempty) b hb
        · next hmates =>
          apply Grouped.group n howner (by simpa using hmates)
          exact ih _ (Nat.lt_succ_of_le (List.length_filter_le ..)) (n + 1) _ rfl

/-- An argument that stays was there before. -/
theorem Grouped.mem_of_statement {out : List Plan} (h : Grouped args out) {s : Statement}
    (hs : statement s ∈ out) : statement s ∈ args := by
  induction h with
  | nil => exact hs
  | alone _ _ ih =>
    rcases List.mem_cons.1 hs with rfl | hs
    · exact List.mem_cons_self
    · exact List.mem_cons_of_mem _ (ih hs)
  | group _ _ _ _ ih =>
    rcases List.mem_cons.1 hs with heq | hs
    · cases heq
    · exact List.mem_cons_of_mem _ (List.mem_of_mem_filter (ih hs))

/-- Arguments of one owner, all of them arranged, make an exclusive group. -/
theorem exclusive_of_isOwnedBy {a : Plan} {mates : List Plan} {owner : Source} (id : Nat)
    (howner : a.exclusiveOwner? = some owner) (hne : mates ≠ [])
    (hmates : ∀ b ∈ mates, b.isOwnedBy owner.endpoint = true)
    (h : ∀ b ∈ a :: mates, b.Arranged sources) :
    (ExclusiveGroup.ofStatements id ((a :: mates).flatMap statements) owner).Exclusive sources := by
  have owned : ∀ b ∈ a :: mates, b.isOwnedBy owner.endpoint = true := by
    intro b hb
    rcases List.mem_cons.1 hb with rfl | hb
    · exact isOwnedBy_of_exclusiveOwner? howner
    · exact hmates b hb
  obtain ⟨hmembers, hall⟩ := exists_statements owned
  have mem_of : ∀ s ∈ (a :: mates).flatMap statements, statement s ∈ a :: mates := by
    intro s hs
    rw [hmembers]
    exact List.mem_map_of_mem hs
  apply exclusive_ofStatements id
  · have length := congrArg List.length hmembers
    rw [List.length_map] at length
    rw [← length, List.length_cons]
    exact Nat.succ_le_succ (List.length_pos_iff.2 hne)
  · exact fun s hs => (h _ (mem_of s hs)).placed
  · exact hall
  · obtain ⟨s, rfl, -⟩ := isOwnedBy_iff.1 (isOwnedBy_of_exclusiveOwner? howner)
    refine ⟨s, List.mem_append_left _ (List.mem_singleton_self s), ?_⟩
    simp only [exclusiveOwner?, Statement.owner?] at howner
    split at howner
    · next source hsource =>
      cases howner
      exact hsource
    · cases howner

/-- **Grouping keeps arguments arranged.** -/
theorem Grouped.arranged {out : List Plan} (hg : Grouped args out)
    (h : ∀ a ∈ args, a.Arranged sources) : ∀ a ∈ out, a.Arranged sources := by
  induction hg with
  | nil => exact h
  | alone _ _ ih =>
    intro b hb
    rcases List.mem_cons.1 hb with rfl | hb
    · exact h b List.mem_cons_self
    · exact ih (fun c hc => h c (List.mem_cons_of_mem _ hc)) b hb
  | @group a rest out owner id howner hmates _ ih =>
    intro b hb
    rcases List.mem_cons.1 hb with rfl | hb
    · apply Arranged.group
      apply exclusive_of_isOwnedBy id howner hmates
      · exact fun c hc => (List.mem_filter.1 hc).2
      · intro c hc
        rcases List.mem_cons.1 hc with rfl | hc
        · exact h c List.mem_cons_self
        · exact h c (List.mem_cons_of_mem _ (List.mem_of_mem_filter hc))
    · exact ih (fun c hc => h c (List.mem_cons_of_mem _ (List.mem_of_mem_filter hc))) b hb

/-- Loose statements of arranged arguments are arguments. -/
theorem exists_of_mem_loose (h : ∀ a ∈ args, a.isIndependent = false) {s : Statement}
    (hs : s ∈ args.flatMap loose) : statement s ∈ args := by
  obtain ⟨a, ha, hs⟩ := List.mem_flatMap.1 hs
  have := h a ha
  cases a with
  | statement t =>
    obtain rfl := List.mem_singleton.1 hs
    exact ha
  | independent _ => cases this
  | _ => cases hs

/-- **Grouping leaves no two statements of one owner.** -/
theorem Grouped.apart {out : List Plan} (hg : Grouped args out)
    (h : ∀ a ∈ out, a.isIndependent = false) : (out.flatMap loose).Pairwise Apart := by
  induction hg with
  | nil => exact .nil
  | @alone a rest out hapart hrest ih =>
    have rest_apart := ih fun b hb => h b (List.mem_cons_of_mem a hb)
    rw [List.flatMap_cons]
    refine List.pairwise_append.2 ⟨?_, rest_apart, ?_⟩
    · have := h a List.mem_cons_self
      cases a with
      | statement s => exact List.pairwise_singleton ..
      | independent _ => cases this
      | _ => exact .nil
    · intro s hs t ht endpoint hse hte
      have hsa : statement s ∈ [a] := exists_of_mem_loose (by simpa using h a List.mem_cons_self)
        (by simpa using hs)
      obtain rfl := List.mem_singleton.1 hsa
      have hta := hrest.mem_of_statement
        (exists_of_mem_loose (fun b hb => h b (List.mem_cons_of_mem _ hb)) ht)
      have apart := hapart endpoint (isOwnedBy_iff.2 ⟨s, rfl, hse⟩) _ hta
      rw [isOwnedBy_iff.2 ⟨t, rfl, hte⟩] at apart
      cases apart
  | group _ _ _ _ ih => exact ih fun b hb => h b (List.mem_cons_of_mem _ hb)

/-! ### Independent statements -/

theorem settled_nil : Settled [] := by
  intro before members after h
  simp at h

/-- An argument at the end settles if it is no independent group, or stands where it may. -/
theorem Settled.concat (h : Settled args) {a : Plan}
    (ha : ∀ members, a = independent members → IndependentBehind args members) :
    Settled (args ++ [a]) := by
  intro before members after heq
  rcases List.eq_nil_or_concat after with rfl | ⟨after, b, rfl⟩
  · obtain ⟨rfl, hlast⟩ := List.append_inj' heq rfl
    exact ha members (List.singleton_inj.1 hlast)
  · rw [List.concat_eq_append, ← List.cons_append, ← List.append_assoc] at heq
    exact h before members after (List.append_inj' heq rfl).1

namespace Run

variable {run : Run} {s : Statement} {a : Plan}

/-- The argument that the members of a run become, if there are any. -/
def ended : List Statement → List Plan
  | [] => []
  | [s] => [statement s]
  | members => [independent members]

theorem ended_cases (members : List Statement) :
    (members = [] ∧ ended members = []) ∨
      (∃ s, members = [s] ∧ ended members = [statement s]) ∨
        2 ≤ members.length ∧ ended members = [independent members] := by
  rcases members with _ | ⟨s, _ | ⟨t, rest⟩⟩
  · exact .inl ⟨rfl, rfl⟩
  · exact .inr (.inl ⟨s, rfl, rfl⟩)
  · exact .inr (.inr ⟨Nat.succ_le_succ (Nat.succ_le_succ (Nat.zero_le _)), rfl⟩)

theorem done_flush (run : Run) : run.flush.done = run.done ++ ended run.members := by
  unfold flush
  rcases run.members with _ | ⟨s, _ | ⟨t, rest⟩⟩
  · exact (List.append_nil _).symm
  · rfl
  · rfl

theorem flatMap_loose_ended (members : List Statement) :
    (ended members).flatMap Plan.loose = members := by
  rcases ended_cases members with ⟨rfl, h⟩ | ⟨s, rfl, h⟩ | ⟨-, h⟩
  · rfl
  · rfl
  · rw [h, List.flatMap_singleton, Plan.loose]

theorem mem_freeVarsAll_ended {members : List Statement} {v : String} :
    v ∈ freeVarsAll (ended members) ↔ ∃ s ∈ members, v ∈ s.freeVars := by
  rcases ended_cases members with ⟨rfl, h⟩ | ⟨s, rfl, h⟩ | ⟨-, h⟩
  · simp [h, freeVarsAll]
  · simp [h, freeVarsAll, freeVars]
  · simp [h, freeVarsAll, freeVars]

theorem isStatements_of_mem_ended {members : List Statement} {a : Plan} (ha : a ∈ ended members) :
    a.isStatements = true := by
  rcases ended_cases members with ⟨-, h⟩ | ⟨s, -, h⟩ | ⟨-, h⟩
  all_goals rw [h] at ha
  · cases ha
  · rw [List.mem_singleton.1 ha]
    rfl
  · rw [List.mem_singleton.1 ha]
    rfl

theorem exists_of_mem_ended {members : List Statement} {a : Plan} (ha : a ∈ ended members)
    (hindependent : a.isIndependent = false) : ∃ s ∈ members, a = statement s := by
  rcases ended_cases members with ⟨-, h⟩ | ⟨s, rfl, h⟩ | ⟨-, h⟩
  all_goals rw [h] at ha
  · cases ha
  · exact ⟨s, List.mem_singleton_self s, List.mem_singleton.1 ha⟩
  · rw [List.mem_singleton.1 ha] at hindependent
    cases hindependent

/-- What holds while runs are collected, when some arguments have been taken. -/
structure Tidy (args : List Plan) (run : Run) : Prop where
  taken : run.done.flatMap Plan.loose ++ run.members = args.flatMap Plan.loose
  kept : ∀ a ∈ run.done, a.isIndependent = false → a ∈ args
  members : ∀ s ∈ run.members, statement s ∈ args
  bound : ∀ v, v ∈ run.bound ↔ v ∈ freeVarsAll run.done
  introduced : ∀ v, v ∈ run.introduced ↔ v ∉ run.bound ∧ ∃ s ∈ run.members, v ∈ s.freeVars
  reliable : run.reliable = true → ∀ a ∈ run.done, a.isStatements = true
  running : run.members ≠ [] → run.done ≠ [] ∧ run.reliable = true
  connected : ∀ s ∈ run.members, ∃ v ∈ s.freeVars, v ∈ run.bound
  fresh : ∀ s ∈ run.members, ∃ v ∈ s.freeVars, v ∉ run.bound
  shared : run.members.Pairwise fun s t => ∀ v ∈ s.freeVars, v ∈ t.freeVars → v ∈ run.bound
  settled : Settled run.done

theorem tidy_start : Tidy [] {} where
  taken := rfl
  kept _ ha := absurd ha List.not_mem_nil
  members _ hs := absurd hs List.not_mem_nil
  bound _ := Iff.rfl
  introduced v := by simp
  reliable _ _ ha := absurd ha List.not_mem_nil
  running hne := absurd rfl hne
  connected _ hs := absurd hs List.not_mem_nil
  fresh _ hs := absurd hs List.not_mem_nil
  shared := .nil
  settled := settled_nil

/-- The members of a run may stand as an independent group where the run is. -/
theorem Tidy.independentBehind (h : Tidy args run) (two : 2 ≤ run.members.length) :
    IndependentBehind run.done run.members := by
  have hne : run.members ≠ [] := List.ne_nil_of_length_pos (Nat.lt_of_lt_of_le Nat.zero_lt_two two)
  obtain ⟨done_ne, reliable⟩ := h.running hne
  refine ⟨two, done_ne, h.reliable reliable, ?_, ?_, ?_⟩
  · intro s hs
    obtain ⟨v, hv, hb⟩ := h.connected s hs
    exact ⟨v, hv, (h.bound v).1 hb⟩
  · intro s hs
    obtain ⟨v, hv, hb⟩ := h.fresh s hs
    exact ⟨v, hv, fun hv' => hb ((h.bound v).2 hv')⟩
  · exact h.shared.imp fun hst v hs ht => (h.bound v).1 (hst v hs ht)

/-- **Ending a run leaves everything tidy**: its members become an argument behind those that are
done. -/
theorem Tidy.flush (h : Tidy args run) : Tidy args run.flush where
  taken := by
    rw [done_flush, members_flush, List.append_nil, List.flatMap_append, flatMap_loose_ended]
    exact h.taken
  kept a ha hindependent := by
    rw [done_flush] at ha
    rcases List.mem_append.1 ha with ha | ha
    · exact h.kept a ha hindependent
    · obtain ⟨s, hs, rfl⟩ := exists_of_mem_ended ha hindependent
      exact h.members s hs
  members s hs := absurd hs List.not_mem_nil
  bound v := by
    rw [done_flush, freeVarsAll_append, List.mem_append, mem_freeVarsAll_ended, ← h.bound]
    show v ∈ run.bound ++ run.introduced ↔ _
    rw [List.mem_append, h.introduced]
    by_cases hv : v ∈ run.bound <;> simp [hv]
  introduced v := by simp [Run.flush]
  reliable hreliable a ha := by
    rw [done_flush] at ha
    rcases List.mem_append.1 ha with ha | ha
    · exact h.reliable hreliable a ha
    · exact isStatements_of_mem_ended ha
  running hne := absurd (members_flush run) hne
  connected s hs := absurd hs List.not_mem_nil
  fresh s hs := absurd hs List.not_mem_nil
  shared := .nil
  settled := by
    rw [done_flush]
    rcases ended_cases run.members with ⟨-, hended⟩ | ⟨s, -, hended⟩ | ⟨two, hended⟩
    all_goals rw [hended]
    · rw [List.append_nil]
      exact h.settled
    · apply h.settled.concat
      intro members heq
      cases heq
    · apply h.settled.concat
      intro members heq
      cases heq
      exact h.independentBehind two

/-- **Taking an argument that is not in a run** leaves everything tidy. -/
theorem Tidy.append (h : Tidy args run) (hrun : run.members = []) (ha : a.isIndependent = false)
    (hreliable : run.reliable = true → a.isStatements = true) :
    Tidy (args ++ [a]) (run.append a) where
  taken := by
    have taken := h.taken
    rw [hrun, List.append_nil] at taken
    simp [Run.append, hrun, taken]
  kept b hb hindependent := by
    rcases List.mem_append.1 hb with hb | hb
    · exact List.mem_append_left _ (h.kept b hb hindependent)
    · exact List.mem_append_right _ hb
  members s hs := List.mem_append_left _ (h.members s hs)
  bound v := by
    show v ∈ run.bound ++ a.freeVars ↔ v ∈ freeVarsAll (run.done ++ [a])
    rw [freeVarsAll_append, List.mem_append, List.mem_append, h.bound]
    simp [freeVarsAll]
  introduced v := by
    have none : v ∉ run.introduced := by
      rw [h.introduced, hrun]
      simp
    simp [Run.append, hrun, none]
  reliable hrel b hb := by
    rcases List.mem_append.1 hb with hb | hb
    · exact h.reliable hrel b hb
    · rw [List.mem_singleton.1 hb]
      exact hreliable hrel
  running hne := absurd hrun hne
  connected s hs := absurd (hrun ▸ hs) List.not_mem_nil
  fresh s hs := absurd (hrun ▸ hs) List.not_mem_nil
  shared := by
    show run.members.Pairwise _
    rw [hrun]
    exact .nil
  settled := by
    apply h.settled.concat
    intro members heq
    rw [heq] at ha
    cases ha

/-- What it takes for a statement to join a run. -/
theorem accepts_iff : run.accepts s = true ↔
    (∃ v ∈ s.freeVars, v ∈ run.bound) ∧ (∃ v ∈ s.freeVars, v ∉ run.bound) ∧
      ∀ v ∈ s.freeVars, v ∉ run.bound → v ∉ run.introduced := by
  unfold accepts
  simp only [Bool.and_eq_true, Bool.not_eq_true', List.any_eq_true, List.contains_eq_mem,
    decide_eq_true_eq, List.all_filter, List.all_eq_true, List.isEmpty_eq_false_iff_exists_mem,
    List.mem_filter, and_assoc, decide_eq_false_iff_not, Bool.or_eq_true, Bool.not_eq_false',
    or_iff_not_imp_left]

/-- **Taking a statement into the run** leaves everything tidy. -/
theorem Tidy.push (h : Tidy args run) (hdone : run.done ≠ []) (hreliable : run.reliable = true)
    (haccepts : run.accepts s = true) : Tidy (args ++ [statement s]) (run.push s) := by
  obtain ⟨connected, fresh, apart⟩ := accepts_iff.1 haccepts
  constructor
  case taken =>
    show run.done.flatMap Plan.loose ++ (run.members ++ [s]) = _
    rw [← List.append_assoc, h.taken, List.flatMap_append]
    rfl
  case kept => exact fun a ha hi => List.mem_append_left _ (h.kept a ha hi)
  case members =>
    intro t ht
    rcases List.mem_append.1 ht with ht | ht
    · exact List.mem_append_left _ (h.members t ht)
    · rw [List.mem_singleton.1 ht]
      exact List.mem_append_right _ (List.mem_singleton_self _)
  case bound => exact h.bound
  case introduced =>
    intro v
    show v ∈ run.introduced ++ s.freeVars.filter (fun v => !run.bound.contains v) ↔
      v ∉ run.bound ∧ ∃ t ∈ run.members ++ [s], v ∈ t.freeVars
    simp only [List.mem_append, List.mem_filter, h.introduced, List.mem_singleton, or_and_right,
      exists_or, exists_eq_left, Bool.not_eq_true', List.contains_eq_mem, decide_eq_false_iff_not,
      and_or_left, and_comm]
  case reliable => exact h.reliable
  case running => exact fun _ => ⟨hdone, hreliable⟩
  case connected =>
    intro t ht
    rcases List.mem_append.1 ht with ht | ht
    · exact h.connected t ht
    · rw [List.mem_singleton.1 ht]
      exact connected
  case fresh =>
    intro t ht
    rcases List.mem_append.1 ht with ht | ht
    · exact h.fresh t ht
    · rw [List.mem_singleton.1 ht]
      exact fresh
  case shared =>
    refine List.pairwise_append.2 ⟨h.shared, List.pairwise_singleton .., ?_⟩
    intro t ht t' ht' v hv hv'
    rw [List.mem_singleton.1 ht'] at hv'
    by_contra hb
    exact apart v hv' hb ((h.introduced v).2 ⟨hb, t, ht, hv⟩)
  case settled => exact h.settled

/-- Between runs it may turn out that arguments leave variables unbound. -/
theorem Tidy.doubt (h : Tidy args run) (hrun : run.members = []) {reliable : Bool}
    (hr : reliable = true → run.reliable = true) : Tidy args { run with reliable } :=
  { h with
    reliable := fun hreliable => h.reliable (hr hreliable)
    running := fun hne => absurd hrun hne }

theorem isStatements_of_isReliable (h : isReliable a = true) : a.isStatements = true := by
  cases a <;> first | rfl | cases h

/-- **Every argument leaves everything tidy.** -/
theorem Tidy.step (h : Tidy args run) (ha : a.isIndependent = false) :
    Tidy (args ++ [a]) (run.step a) := by
  have other : Tidy (args ++ [a])
      ({ run.flush with reliable := run.flush.reliable && isReliable a }.append a) := by
    have less : (run.flush.reliable && isReliable a) = true → run.flush.reliable = true :=
      fun hr => (Bool.and_eq_true_iff.1 hr).1
    apply (h.flush.doubt (members_flush run) less).append (members_flush run) ha
    intro hr
    exact isStatements_of_isReliable (Bool.and_eq_true_iff.1 hr).2
  cases a with
  | statement s =>
    unfold Run.step
    dsimp only
    split
    · next hguard =>
      obtain ⟨hreliable, hstarted⟩ := Bool.and_eq_true_iff.1 hguard
      have hdone : run.done ≠ [] := by
        intro hdone
        have hmembers : run.members ≠ [] := by simpa [hdone] using hstarted
        exact (h.running hmembers).1 hdone
      by_cases hfirst : run.accepts s = true
      · rw [if_pos hfirst, if_pos hfirst]
        exact h.push hdone hreliable hfirst
      · rw [if_neg hfirst]
        have hflushed : run.flush.done ≠ [] := by
          rw [done_flush]
          exact List.append_ne_nil_of_left_ne_nil hdone _
        split
        · next hagain => exact h.flush.push hflushed hreliable hagain
        · exact h.flush.append (members_flush run) rfl fun _ => rfl
    · exact other
  | _ => exact other

theorem Tidy.foldl {rest : List Plan} (h : Tidy args run)
    (hrest : ∀ a ∈ rest, a.isIndependent = false) :
    Tidy (args ++ rest) (rest.foldl Run.step run) := by
  induction rest generalizing args run with
  | nil => rwa [List.append_nil]
  | cons a rest ih =>
    have next := ih (h.step (hrest a List.mem_cons_self)) fun b hb =>
      hrest b (List.mem_cons_of_mem a hb)
    rwa [List.append_assoc] at next

end Run

/-- **What bringing independent statements together makes of arguments.** -/
theorem tidy_groupIndependent (h : ∀ a ∈ args, a.isIndependent = false) :
    (groupIndependent args).flatMap loose = args.flatMap loose ∧
      (∀ a ∈ groupIndependent args, a.isIndependent = false → a ∈ args) ∧
        Settled (groupIndependent args) := by
  have tidy := (Run.tidy_start.foldl h).flush
  rw [List.nil_append] at tidy
  refine ⟨?_, tidy.kept, tidy.settled⟩
  have taken := tidy.taken
  rwa [Run.members_flush, List.append_nil] at taken

/-! ### Joins -/

/-- Rearranging leaves something of join arguments, if there are any. -/
theorem Regroups.ne_nil {args' : List Plan} (h : Regroups args args') (hne : args ≠ []) :
    args' ≠ [] := by
  induction h with
  | perm h =>
    rintro rfl
    exact hne (List.perm_nil.1 h)
  | group _ _ _ _ => exact List.cons_ne_nil _ _
  | independent _ _ => exact List.cons_ne_nil _ _
  | trans _ _ ih ih' => exact ih' (ih hne)

/-- **A join of arranged arguments is arranged** once these have been grouped and ordered. -/
theorem arranged_joinOf (n : Nat) (hne : args ≠ []) (h : ∀ a ∈ args, a.Arranged sources) :
    (joinOf (groupIndependent (orderArgs [] (groupExclusive n args).1))).Arranged sources := by
  have some_left := (regroups_join n args).ne_nil hne
  have grouped := grouped_groupExclusive n args
  have ordered := orderArgs_perm [] (groupExclusive n args).1
  generalize orderArgs [] (groupExclusive n args).1 = out at ordered some_left ⊢
  have each : ∀ a ∈ out, a.Arranged sources := fun a ha =>
    grouped.arranged h a (ordered.subset ha)
  have none : ∀ a ∈ out, a.isIndependent = false := fun a ha => (each a ha).isIndependent_eq
  obtain ⟨loose_eq, kept, settled⟩ := tidy_groupIndependent none
  have apart : ((groupIndependent out).flatMap loose).Pairwise Apart := by
    rw [loose_eq]
    have before := grouped.apart fun a ha => (grouped.arranged h a ha).isIndependent_eq
    exact ((ordered.flatMap_right loose).pairwise_iff fun h => h.symm).2 before
  have all : ∀ a ∈ groupIndependent out, a.isIndependent = false → a.Arranged sources :=
    fun a ha hi => each a (kept a ha hi)
  generalize groupIndependent out = done at all apart settled some_left ⊢
  rcases done with _ | ⟨a, _ | ⟨b, rest⟩⟩
  · exact absurd rfl some_left
  · have alone : a.isIndependent = false := by
      cases a with
      | independent members => exact absurd rfl (settled [] members [] rfl).notFirst
      | _ => rfl
    exact all a (List.mem_singleton_self a) alone
  · exact .join _ (Nat.succ_le_succ (Nat.succ_le_succ (Nat.zero_le _))) all apart settled

end Plan

end FederatedSparql
