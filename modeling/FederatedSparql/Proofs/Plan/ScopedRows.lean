import FederatedSparql.Proofs.Engine.Framing
import FederatedSparql.Proofs.Endpoint.Registry

/-!
The rows of a plan whose local variables endpoints leave out.

Scoping takes a variable for local if one argument of a join alone mentions it.  It counts the variables
of patterns and of conditions above joins, but not those of conditions inside the parts that it does not
enter, nor of conditions that a statement has been given.

* `Plan.overlooked`: the variables that a plan looks at where scoping does not see it.
* `Plan.scopeVars_agrees`: the same rows arrive with and without scoping if no variable that it drops is
  overlooked, whatever the members hold and whether or not they fail.
* `Plan.scopeVars_disagrees`: the condition of an OPTIONAL part asks for a variable that is dropped, and
  rows get lost.
-/

namespace FederatedSparql

variable {env : Environment} {b b' : Bindings} {v : String} {isLocal : String → Bool}

/-! ### What scoping does not see -/

/-- The variables that a statement looks at and does not mention in its pattern. -/
def Statement.overlooked (s : Statement) : List String :=
  s.reads.filter fun v => !s.freeVars.contains v

/-- The variables that a group looks at and does not mention in its patterns. -/
def ExclusiveGroup.overlooked (g : ExclusiveGroup) : List String :=
  g.reads.filter fun v => !g.freeVars.contains v

namespace Plan

/-- The variables that an opaque part looks at and that are not taken to be mentioned there. -/
def unlisted (p : Plan) : List String := p.reads.filter fun v => !p.mentionedVars.contains v

mutual

/-- The variables that a plan looks at where scoping does not see it.  The Boolean tells whether only
modifiers stand above it. -/
def overlooked (top : Bool) : Plan → List String
  | statement s => s.overlooked
  | group g => g.overlooked
  | independent members => members.flatMap (·.overlooked)
  | join args _ => overlookedAll args
  | filter _ a => a.overlooked false
  | project vars inserted a =>
    if top then a.overlooked false else (project vars inserted a).unlisted
  | slice offset limit a => if top then a.overlooked true else (slice offset limit a).unlisted
  | distinct a => if top then a.overlooked true else (distinct a).unlisted
  | empty => []
  | union args => (union args).unlisted
  | leftJoin l r condition => (leftJoin l r condition).unlisted
  | service s => (service s).unlisted
  | passThrough endpoint query => (passThrough endpoint query).unlisted

/-- The same for the arguments of a join. -/
def overlookedAll : List Plan → List String
  | [] => []
  | a :: rest => a.overlooked false ++ overlookedAll rest

end

/-- Whether scoping leaves a variable out of the rows of some statement. -/
def drops (p : Plan) (v : String) : Bool :=
  match p.topProjection? with
  | some kept => ((p.mentions true).localTo? kept v).isSome
  | none => false

/-- Statements as they are before scoping, the mentions that it counts, and what it overlooks: local
variables are neither needed nor overlooked, and no two arguments share one. -/
structure Sees (isLocal : String → Bool) (statements : List Statement) (m : Mentions)
    (overlooked : List String) : Prop where
  unmarked : ∀ s ∈ statements, s.localVars = []
  apart : m.args.Pairwise (Apart isLocal)
  needed : ∀ v ∈ m.needed, isLocal v = false
  overlooked : ∀ v ∈ overlooked, isLocal v = false

namespace Sees

variable {ss ts : List Statement} {m n : Mentions} {os us : List String}

theorem left (h : Sees isLocal (ss ++ ts) (m.append n) (os ++ us)) : Sees isLocal ss m os where
  unmarked s hs := h.unmarked s (List.mem_append_left _ hs)
  apart := (List.pairwise_append.1 h.apart).1
  needed v hv := h.needed v (List.mem_append_left _ hv)
  overlooked v hv := h.overlooked v (List.mem_append_left _ hv)

theorem right (h : Sees isLocal (ss ++ ts) (m.append n) (os ++ us)) : Sees isLocal ts n us where
  unmarked s hs := h.unmarked s (List.mem_append_right _ hs)
  apart := (List.pairwise_append.1 h.apart).2.1
  needed v hv := h.needed v (List.mem_append_right _ hv)
  overlooked v hv := h.overlooked v (List.mem_append_right _ hv)

end Sees

/-! ### Variables that rows still agree on -/

/-- All variables but the local ones that earlier arguments may have left out. -/
def keptAfter (isLocal : String → Bool) (earlier : List String) : Set String :=
  {v | isLocal v = true → v ∉ earlier}

section KeptAfter

variable {earlier more : List String}

theorem mem_keptAfter_of_not_local (h : isLocal v = false) : v ∈ keptAfter isLocal earlier :=
  fun hv => absurd (h.symm.trans hv) Bool.false_ne_true

theorem keptAfter_append_subset : keptAfter isLocal (earlier ++ more) ⊆ keptAfter isLocal earlier :=
  fun _ hv hl he => hv hl (List.mem_append_left _ he)

theorem mem_keptAfter_of_mention
    (h : ∀ v ∈ earlier, v ∈ more → isLocal v = false) (hv : v ∈ more) :
    v ∈ keptAfter isLocal earlier :=
  fun hl he => absurd ((h v he hv).symm.trans hl) Bool.false_ne_true

/-- What is kept behind an argument is none of its own local variables. -/
theorem not_mem_of_keptAfter {vs : List String} (hv : v ∈ keptAfter isLocal (earlier ++ vs))
    (hm : v ∈ vs) : isLocal v = false :=
  Bool.eq_false_iff.2 fun hl => hv hl (List.mem_append_right _ hm)

end KeptAfter

/-- Earlier arguments share no local variable with any of these. -/
abbrev Cross (isLocal : String → Bool) (earlier : List String) (entries : List (List String)) : Prop :=
  ∀ vs ∈ entries, Apart isLocal earlier vs

/-! ### Marked arguments -/

section Arguments

variable {localTo? : String → Option Nat} {earlier : List String}

/-- The statements of an independent group beside their new local variables. -/
theorem exists_keys {members members' : List Statement}
    (h : List.Forall₂ (Statement.Marks isLocal) members members') :
    ∃ keys : List (Statement × List String), keys.map (·.1) = members ∧
      (keys.map fun k => { k.1 with localVars := k.2 }) = members' ∧
        ∀ k ∈ keys, ∀ v ∈ k.2, isLocal v = true := by
  induction h with
  | nil => exact ⟨[], rfl, rfl, fun k hk => absurd hk List.not_mem_nil⟩
  | @cons s s' _ _ hs _ ih =>
    obtain ⟨keys, rfl, rfl, hk⟩ := ih
    refine ⟨(s, s'.localVars) :: keys, rfl, ?_, List.forall_mem_cons.2 ⟨hs.marked, hk⟩⟩
    rw [List.map_cons, ← hs.same]

theorem mem_mentioned_or_unlisted {p : Plan} (hv : v ∈ p.reads) :
    v ∈ p.mentionedVars ∨ v ∈ p.unlisted := by
  by_cases hm : v ∈ p.mentionedVars
  · exact .inl hm
  · exact .inr (List.mem_filter.2 ⟨hv, by simpa using hm⟩)

/-- Tasks for blocks leave nothing out, so marking does not change them. -/
theorem blockTask_of_marks {p p' : Plan} (h : Marks isLocal p p')
    (hs : BoundTaskKind.supports p env.config.serviceAsBoundJoin = true) :
    env.blockTask p' = env.blockTask p := by
  cases h with
  | refl => rfl
  | @statement s s' h =>
    funext first block
    rw [h.same]
    unfold Environment.blockTask
    simp only [BoundTaskKind.choose?]
    cases hfree : s.hasFreeVarsFor first with
    | true =>
      have free : { s with localVars := s'.localVars }.hasFreeVarsFor first = true := hfree
      rw [free]
      rfl
    | false =>
      have free : { s with localVars := s'.localVars }.hasFreeVarsFor first = false := hfree
      rw [free]
      rfl
  | independent h =>
    obtain ⟨keys, rfl, rfl, -⟩ := exists_keys h
    funext first block
    show env.independentBlock _ block = env.independentBlock _ block
    unfold Environment.independentBlock
    rw [List.map_map, List.map_map]
    rfl
  | _ => simp [BoundTaskKind.supports] at hs

theorem supports_of_marks {p p' : Plan} (h : Marks isLocal p p') :
    BoundTaskKind.supports p' env.config.serviceAsBoundJoin =
      BoundTaskKind.supports p env.config.serviceAsBoundJoin := by
  cases h <;> rfl

/-- One more argument of a join, which leaves out some variables. -/
theorem joinStep_of_marks {p p' : Plan} {D E : Set String} {f f' : Feed Bindings}
    (h : Marks isLocal p p') (hsize : env.config.boundJoinBlockSize ≤ Tag.numberLimit)
    (hp : p.Plain false) (hr : ∀ v ∈ p.reads, v ∈ D) (hED : E ⊆ D)
    (hright : ∀ x x', Bindings.EqOn D x x' →
      (env.evaluate p x).Related env.registry.answers (Bindings.EqOn E) (env.evaluate p' x'))
    (hf : f.Related env.registry.answers (Bindings.EqOn D) f') :
    (env.joinStep f p).Related env.registry.answers (Bindings.EqOn E) (env.joinStep f' p') := by
  unfold Environment.joinStep
  rw [supports_of_marks h]
  split
  · next hs =>
    rw [blockTask_of_marks h hs]
    have inBlocks := Environment.joinStep_related hsize hp hr
      (fun x x' hx => Environment.evaluate_related hsize p hp hr hx) hf
    unfold Environment.joinStep at inBlocks
    rw [if_pos hs, if_pos hs] at inBlocks
    exact inBlocks.imp fun _ _ hx => hx.mono hED
  · exact hf.nestedJoin hright

mutual

/-- Whatever a plan looks at is mentioned by an argument, needed or overlooked. -/
theorem mem_of_mem_reads : ∀ (p : Plan), p.Plain false → v ∈ p.reads →
    (∃ vs ∈ p.entries, v ∈ vs) ∨ v ∈ (p.mentions false).needed ∨ v ∈ p.overlooked false
  | statement s, _, hv => by
    by_cases hf : v ∈ s.freeVars
    · exact .inl ⟨_, List.mem_singleton_self _, hf⟩
    · exact .inr (.inr (List.mem_filter.2 ⟨hv, by simpa using hf⟩))
  | group g, _, hv => by
    by_cases hf : v ∈ g.freeVars
    · exact .inl ⟨_, List.mem_singleton_self _, hf⟩
    · exact .inr (.inr (List.mem_filter.2 ⟨hv, by simpa using hf⟩))
  | independent members, _, hv => by
    obtain ⟨s, hs, hv⟩ := List.mem_flatMap.1 hv
    by_cases hf : v ∈ s.freeVars
    · exact .inl ⟨_, List.mem_map_of_mem hs, hf⟩
    · exact .inr (.inr (List.mem_flatMap.2 ⟨s, hs, List.mem_filter.2 ⟨hv, by simpa using hf⟩⟩))
  | join args _, hp, hv => mem_of_mem_readsAll args hp hv
  | filter condition a, hp, hv => by
    rcases List.mem_append.1 hv with hv | hv
    · exact .inr (.inl (List.mem_append_left _ hv))
    · rcases mem_of_mem_reads a hp hv with h | h | h
      · exact .inl h
      · exact .inr (.inl (List.mem_append_right _ h))
      · exact .inr (.inr h)
  | union args, _, hv => .inr (mem_mentioned_or_unlisted hv)
  | leftJoin l r condition, _, hv => .inr (mem_mentioned_or_unlisted hv)
  | service s, _, hv => .inr (mem_mentioned_or_unlisted hv)
  | project vars inserted a, _, hv => .inr (mem_mentioned_or_unlisted hv)
  | slice offset limit a, _, hv => .inr (mem_mentioned_or_unlisted hv)
  | distinct a, hp, _ => absurd hp.1 Bool.false_ne_true
  | empty, _, hv => absurd hv List.not_mem_nil

theorem mem_of_mem_readsAll : ∀ (args : List Plan), PlainAll args → v ∈ readsAll args →
    (∃ vs ∈ entriesAll args, v ∈ vs) ∨ v ∈ (mentionsAll args).needed ∨ v ∈ overlookedAll args
  | [], _, hv => absurd hv List.not_mem_nil
  | a :: rest, hp, hv => by
    rw [entriesAll_cons]
    rcases List.mem_append.1 hv with hv | hv
    · rcases mem_of_mem_reads a hp.1 hv with ⟨vs, hvs, h⟩ | h | h
      · exact .inl ⟨vs, List.mem_append_left _ hvs, h⟩
      · exact .inr (.inl (List.mem_append_left _ h))
      · exact .inr (.inr (List.mem_append_left _ h))
    · rcases mem_of_mem_readsAll rest hp.2 hv with ⟨vs, hvs, h⟩ | h | h
      · exact .inl ⟨vs, List.mem_append_right _ hvs, h⟩
      · exact .inr (.inl (List.mem_append_right _ h))
      · exact .inr (.inr (List.mem_append_right _ h))

end

/-- **Nothing that a plan looks at is left out before it.** -/
theorem reads_kept {p : Plan} (hp : p.Plain false)
    (h : Sees isLocal p.statements (p.mentions false) (p.overlooked false))
    (hc : Cross isLocal earlier p.entries) : ∀ v ∈ p.reads, v ∈ keptAfter isLocal earlier := by
  intro v hv
  rcases mem_of_mem_reads p hp hv with ⟨vs, hvs, hm⟩ | hm | hm
  · exact mem_keptAfter_of_mention (hc vs hvs) hm
  · exact mem_keptAfter_of_not_local (h.needed v hm)
  · exact mem_keptAfter_of_not_local (h.overlooked v hm)

/-- A part that scoping does not enter. -/
theorem evaluate_unmarked_related {p : Plan} (hsize : env.config.boundJoinBlockSize ≤ Tag.numberLimit)
    (hp : p.Plain false) (h : Sees isLocal p.statements (p.mentions false) (p.overlooked false))
    (hc : Cross isLocal earlier p.entries) (hb : Bindings.EqOn (keptAfter isLocal earlier) b b') :
    (env.evaluate p b).Related env.registry.answers
      (Bindings.EqOn (keptAfter isLocal (earlier ++ p.entries.flatten))) (env.evaluate p b') :=
  (Environment.evaluate_related hsize p hp (reads_kept hp h hc) hb).imp
    fun _ _ hx => hx.mono keptAfter_append_subset

theorem Cross.append (es fs : List (List String)) (h : Cross isLocal earlier (es ++ fs))
    (hp : (es ++ fs).Pairwise (Apart isLocal)) :
    Cross isLocal earlier es ∧ Cross isLocal (earlier ++ es.flatten) fs := by
  refine ⟨fun vs hvs => h vs (List.mem_append_left _ hvs), fun vs hvs v hv hm => ?_⟩
  rcases List.mem_append.1 hv with hv | hv
  · exact h vs (List.mem_append_right _ hvs) v hv hm
  · obtain ⟨us, hu, hv⟩ := List.mem_flatten.1 hv
    exact (List.pairwise_append.1 hp).2.2 us hu vs hvs v hv hm

mutual

/-- **A plan with marked statements has the rows of the plan**, but for local variables. -/
theorem evaluate_markLocals_related (hsize : env.config.boundJoinBlockSize ≤ Tag.numberLimit) :
    ∀ (p : Plan) (n : Nat) {earlier : List String} {b b' : Bindings}, p.Plain false →
      Sees (fun v => (localTo? v).isSome) p.statements (p.mentions false) (p.overlooked false) →
      Cross (fun v => (localTo? v).isSome) earlier p.entries →
      Bindings.EqOn (keptAfter (fun v => (localTo? v).isSome) earlier) b b' →
        (env.evaluate p b).Related env.registry.answers
          (Bindings.EqOn (keptAfter (fun v => (localTo? v).isSome) (earlier ++ p.entries.flatten)))
          (env.evaluate ((markLocals localTo? false p).run n).1 b')
  | statement s, n, earlier, b, b', hp, h, hc, hb => by
    have marks : s.Marks (fun v => (localTo? v).isSome) ((markStatement localTo? s).run n).1 :=
      markStatement_marks s n
    have unmarked := h.unmarked s (List.mem_singleton_self s)
    show (env.evaluate _ b).Related _ _ (env.evaluate (statement ((markStatement localTo? s).run n).1) b')
    rw [marks.same, Environment.evaluate, Environment.evaluate]
    refine Environment.guarded_related ((Environment.statement_related (reads_kept hp h hc)
      (fun v hv => ⟨keptAfter_append_subset hv, fun hm => ?_⟩) hb).imp fun _ _ hx => hx.eqOn)
    have hl := not_mem_of_keptAfter hv (List.mem_flatten.2 ⟨_, List.mem_singleton_self _, hm⟩)
    rw [unmarked]
    exact ⟨fun h => absurd h List.not_mem_nil,
      fun h => absurd (hl.symm.trans (marks.marked v h)) Bool.false_ne_true⟩
  | group g, n, earlier, b, b', hp, h, hc, hb => by
    have marks : List.Forall₂ (Statement.Marks fun v => (localTo? v).isSome) g.statements
        (markMembers (fun v => localTo? v == some n) g [] g.statements) :=
      markMembers_marks g (fun v hv => by rw [beq_iff_eq.1 hv]; rfl) [] g.statements
    have unmarked : g.localVars = [] := by
      have none_marked : g.statements.flatMap (·.localVars) = [] :=
        List.flatMap_eq_nil_iff.2 h.unmarked
      rw [ExclusiveGroup.localVars, none_marked]
      rfl
    show (env.evaluate _ b).Related _ _ (env.evaluate (group { g with
      statements := markMembers (fun v => localTo? v == some n) g [] g.statements }) b')
    rw [Environment.evaluate, Environment.evaluate]
    refine Environment.guarded_related (Environment.group_related rfl rfl
      (ExclusiveGroup.patterns_of_marks marks) (reads_kept hp h hc)
      (fun v hv => ⟨keptAfter_append_subset hv, fun hm => ?_⟩) hb)
    have hl := not_mem_of_keptAfter hv (List.mem_flatten.2 ⟨_, List.mem_singleton_self _, hm⟩)
    rw [unmarked]
    exact ⟨fun h => absurd h List.not_mem_nil, fun h => absurd
      (hl.symm.trans (ExclusiveGroup.mem_localVars_of_marks marks h)) Bool.false_ne_true⟩
  | independent members, n, earlier, b, b', hp, h, hc, hb => by
    have kept := reads_kept hp h hc
    have marks : List.Forall₂ (Statement.Marks fun v => (localTo? v).isSome) members
        ((members.mapM (markStatement localTo?)).run n).1 := mapM_markStatement_marks members n
    obtain ⟨keys, hkeys, hmarked, hlocal⟩ := exists_keys marks
    have ofMember : ∀ k ∈ keys, k.1 ∈ members := fun k hk => hkeys ▸ List.mem_map_of_mem hk
    show (env.evaluate _ b).Related _ _
      (env.evaluate (independent ((members.mapM (markStatement localTo?)).run n).1) b')
    rw [← hmarked, Environment.evaluate, Environment.evaluate]
    have own : ∀ k ∈ keys, ∀ v ∈ k.1.freeVars, v ∈ (independent members).entries.flatten :=
      fun k hk v hv => List.mem_flatten.2 ⟨_, List.mem_map_of_mem (ofMember k hk), hv⟩
    have related := Environment.independent_related env keys
      (D := keptAfter (fun v => (localTo? v).isSome) earlier)
      (E := keptAfter (fun v => (localTo? v).isSome)
        (earlier ++ (independent members).entries.flatten))
      (fun k hk v hv => kept v (List.mem_flatMap.2 ⟨k.1, ofMember k hk, hv⟩))
      (fun k hk v hv => ⟨keptAfter_append_subset hv, fun hm => ?_⟩) ?_ keptAfter_append_subset hb
    · rw [hkeys] at related
      exact Environment.guarded_related related
    · have hl := not_mem_of_keptAfter hv (own k hk v hm)
      rw [h.unmarked k.1 (ofMember k hk)]
      exact ⟨fun h => absurd h List.not_mem_nil,
        fun h => absurd (hl.symm.trans (hlocal k hk v h)) Bool.false_ne_true⟩
    · have apart : (members.map (·.freeVars)).Pairwise (Apart fun v => (localTo? v).isSome) := h.apart
      rw [← hkeys, List.map_map, List.pairwise_map] at apart
      exact apart.imp fun hjk v hj hk => mem_keptAfter_of_not_local (hjk v hj hk)
  | join [] vars, n, earlier, b, b', hp, h, hc, hb => by
    show (env.evaluate _ b).Related _ _ (env.evaluate (join [] vars) b')
    rw [Environment.evaluate, Environment.evaluate]
    exact Environment.guarded_related (.rows (.cons (hb.mono keptAfter_append_subset) .nil))
  | join (first :: rest) vars, n, earlier, b, b', hp, h, hc, hb => by
    have hc := Cross.append first.entries (entriesAll rest) hc h.apart
    show (env.evaluate _ b).Related _ _ (env.evaluate (join
      (((markLocals localTo? false first).run n).1 ::
        ((markLocalsAll localTo? rest).run ((markLocals localTo? false first).run n).2).1) vars) b')
    have flat : (join (first :: rest) vars).entries.flatten =
        first.entries.flatten ++ (entriesAll rest).flatten := List.flatten_append
    rw [Environment.evaluate, Environment.evaluate, Environment.evaluateJoin,
      Environment.evaluateJoin, flat, ← List.append_assoc]
    refine Environment.guarded_related ((evaluate_markLocals_related hsize first n hp.1 h.left hc.1
      hb).bind fun f f' hf => .done ?_)
    exact joinRest_markLocals_related hsize rest _ hp.2 h.right hc.2 hf
  | filter condition a, n, earlier, b, b', hp, h, hc, hb => by
    have inner : Sees (fun v => (localTo? v).isSome) a.statements (a.mentions false)
        (a.overlooked false) :=
      ⟨h.unmarked, h.apart, fun v hv => h.needed v (List.mem_append_right _ hv), h.overlooked⟩
    show (env.evaluate _ b).Related _ _
      (env.evaluate (filter condition ((markLocals localTo? false a).run n).1) b')
    rw [Environment.evaluate, Environment.evaluate]
    refine Environment.guarded_related ((evaluate_markLocals_related hsize a n hp inner hc hb).mapFeed
      fun f f' hf => hf.filter fun x x' hx => ?_)
    exact Expr.accepts_congr fun v hv =>
      hx (mem_keptAfter_of_not_local (h.needed v (List.mem_append_left _ hv)))
  | union _, _, _, _, _, hp, h, hc, hb => evaluate_unmarked_related hsize hp h hc hb
  | leftJoin .., _, _, _, _, hp, h, hc, hb => evaluate_unmarked_related hsize hp h hc hb
  | service _, _, _, _, _, hp, h, hc, hb => evaluate_unmarked_related hsize hp h hc hb
  | project .., _, _, _, _, hp, h, hc, hb => evaluate_unmarked_related hsize hp h hc hb
  | slice .., _, _, _, _, hp, h, hc, hb => evaluate_unmarked_related hsize hp h hc hb
  | empty, _, _, _, _, hp, h, hc, hb => evaluate_unmarked_related hsize hp h hc hb
  | distinct _, _, _, _, _, hp, _, _, _ => absurd hp.1 Bool.false_ne_true

/-- The same for arguments that rows are joined with, one after another. -/
theorem joinRest_markLocals_related (hsize : env.config.boundJoinBlockSize ≤ Tag.numberLimit) :
    ∀ (args : List Plan) (n : Nat) {earlier : List String} {f f' : Feed Bindings}, PlainAll args →
      Sees (fun v => (localTo? v).isSome) (statementsAll args) (mentionsAll args)
        (overlookedAll args) →
      Cross (fun v => (localTo? v).isSome) earlier (entriesAll args) →
      f.Related env.registry.answers
        (Bindings.EqOn (keptAfter (fun v => (localTo? v).isSome) earlier)) f' →
        (Environment.joinRest env args f).Related env.registry.answers
          (Bindings.EqOn
            (keptAfter (fun v => (localTo? v).isSome) (earlier ++ (entriesAll args).flatten)))
          (Environment.joinRest env ((markLocalsAll localTo? args).run n).1 f')
  | [], n, earlier, f, f', hp, h, hc, hf => by
    show (Environment.joinRest env [] f).Related _ _ (Environment.joinRest env [] f')
    rw [Environment.joinRest, Environment.joinRest]
    exact hf.imp fun _ _ hx => hx.mono keptAfter_append_subset
  | a :: rest, n, earlier, f, f', hp, h, hc, hf => by
    have hc := Cross.append a.entries (entriesAll rest) hc h.apart
    have marks : Marks (fun v => (localTo? v).isSome) a ((markLocals localTo? false a).run n).1 :=
      markLocals_marks false a n
    show (Environment.joinRest env (a :: rest) f).Related _ _
      (Environment.joinRest env (((markLocals localTo? false a).run n).1 ::
        ((markLocalsAll localTo? rest).run ((markLocals localTo? false a).run n).2).1) f')
    rw [Environment.joinRest_cons, Environment.joinRest_cons, hf.isKnownEmpty_eq, entriesAll_cons,
      List.flatten_append, ← List.append_assoc]
    split
    · exact .rows .nil
    · refine joinRest_markLocals_related hsize rest _ hp.2 h.right hc.2 ?_
      exact joinStep_of_marks marks hsize hp.1 (reads_kept hp.1 h.left hc.1) keptAfter_append_subset
        (fun x x' hx => evaluate_markLocals_related hsize a n hp.1 h.left hc.1 hx) hf

end

end Arguments

/-! ### Whole plans -/

theorem Mentions.not_local_of_needed {m : Mentions} {kept : List String} (h : v ∈ m.needed) :
    (m.localTo? kept v).isSome = false := by
  unfold Mentions.localTo?
  simp only
  split
  · rw [if_pos (by simp [h])]
    rfl
  · rfl

/-- Below a projection that keeps none of them, leaving out local variables changes nothing. -/
theorem evaluate_markLocals_top {localTo? : String → Option Nat} {kept : List String}
    (hsize : env.config.boundJoinBlockSize ≤ Tag.numberLimit)
    (hkept : ∀ v ∈ kept, (localTo? v).isSome = false) :
    ∀ (p : Plan) (n : Nat), p.topProjection? = some kept → p.Plain true →
      Sees (fun v => (localTo? v).isSome) p.statements (p.mentions true) (p.overlooked true) →
      ∀ b, (env.evaluate p b).Related env.registry.answers (· = ·)
        (env.evaluate ((markLocals localTo? true p).run n).1 b)
  | project vars inserted a, n, htop, hp, h, b => by
    obtain rfl := Option.some.inj htop
    show (env.evaluate _ b).Related _ _
      (env.evaluate (project vars inserted ((markLocals localTo? false a).run n).1) b)
    rw [Environment.evaluate, Environment.evaluate]
    have hc : Cross (fun v => (localTo? v).isSome) [] a.entries :=
      fun _ _ v hv => absurd hv List.not_mem_nil
    refine Environment.guarded_related ((evaluate_markLocals_related hsize a n hp h hc
      (Set.eqOn_refl _ _)).mapFeed fun f f' hf => hf.map fun x x' hx => ?_)
    have same : Environment.putBack vars inserted x = Environment.putBack vars inserted x' := by
      refine Bindings.ext_get? fun v => ?_
      rw [Environment.get?_putBack, Environment.get?_putBack]
      split
      · next hv => rw [hx (mem_keptAfter_of_not_local (hkept v hv))]
      · rfl
    rw [Environment.projectOnto_eq_getD, Environment.projectOnto_eq_getD, same]
  | slice offset limit a, n, htop, hp, h, b => by
    show (env.evaluate _ b).Related _ _
      (env.evaluate (slice offset limit ((markLocals localTo? true a).run n).1) b)
    rw [Environment.evaluate, Environment.evaluate]
    exact Environment.guarded_related ((evaluate_markLocals_top hsize hkept a n htop hp h b).mapFeed
      fun f f' hf => hf.slice offset limit)
  | distinct a, n, htop, hp, h, b => by
    show (env.evaluate _ b).Related _ _
      (env.evaluate (distinct ((markLocals localTo? true a).run n).1) b)
    rw [Environment.evaluate, Environment.evaluate]
    exact Environment.guarded_related ((evaluate_markLocals_top hsize hkept a n htop hp.2 h b).mapFeed
      fun f f' hf => hf.distinct)
  | statement _, _, htop, _, _, _ | group _, _, htop, _, _, _ | independent _, _, htop, _, _, _
  | join .., _, htop, _, _, _ | union _, _, htop, _, _, _ | filter .., _, htop, _, _, _
  | leftJoin .., _, htop, _, _, _ | service _, _, htop, _, _, _
  | passThrough .., _, htop, _, _, _ | empty, _, htop, _, _, _ => nomatch htop

theorem eq_of_sameOutcome {a b : Except FedError (Arrivals Bindings)}
    (h : SameOutcome (Arrivals.Related (· = ·)) a b) : a = b := by
  cases h with
  | ok h => rw [Arrivals.related_eq_iff.1 h]
  | error e => rfl

/-- **Scoping keeps the rows of a plan if no variable that it drops is overlooked.**  It does so
whatever the members hold, and it keeps their failures as well. -/
theorem scopeVars_agrees {p : Plan} (hsize : env.config.boundJoinBlockSize ≤ Tag.numberLimit)
    (hplain : p.Plain true) (hunmarked : ∀ s ∈ p.statements, s.localVars = [])
    (hseen : ∀ v ∈ p.overlooked true, p.drops v = false) (b : Bindings) :
    (env.evaluate p.scopeVars b).arrivals env.registry.answers =
      (env.evaluate p b).arrivals env.registry.answers := by
  unfold drops at hseen
  unfold scopeVars
  cases htop : p.topProjection? with
  | none => rfl
  | some kept =>
    simp only [htop] at hseen ⊢
    split
    · refine (eq_of_sameOutcome (Work.Related.arrivals ?_)).symm
      exact evaluate_markLocals_top hsize (fun v hv => Bool.eq_false_iff.2 fun hl =>
        (Mentions.of_isSome_localTo? hl).2 hv) p 0 htop hplain
        ⟨hunmarked, Mentions.pairwise_apart _ kept, fun v hv => Mentions.not_local_of_needed hv, hseen⟩ b
    · rfl

/-! ### A variable that is overlooked -/

/-- A federation of one member, which knows four things about one subject. -/
def fourFacts : Environment :=
  ⟨.single [⟨.iri "s", .iri "p", .iri "b"⟩, ⟨.iri "s", .iri "q", .iri "c"⟩,
    ⟨.iri "s", .iri "r", .iri "d"⟩, ⟨.iri "s", .iri "r", .iri "e"⟩], {}⟩

/-- Asks that member for the objects of a predicate. -/
def objectsOf (id : Nat) (predicate object : String) : Plan :=
  statement
    { id, pattern := ⟨.var "s", .const (.iri predicate), .var object⟩,
      sources := [Registry.onlySource] }

/-- An OPTIONAL part whose condition asks for a variable that a statement before it binds. -/
def conditionOutside (kept : List String) : Plan :=
  project kept ∅ (join [objectsOf 0 "p" "b", objectsOf 1 "q" "x",
    leftJoin (objectsOf 2 "q" "c") (objectsOf 3 "r" "d") (some (.bound "b"))] ["s"])

/-- The variable of the condition is kept, so that another one alone is dropped. -/
theorem scopeVars_agrees_where_kept :
    (conditionOutside ["s", "b"]).drops "x" = true ∧
      (fourFacts.evaluate (conditionOutside ["s", "b"]).scopeVars ∅).arrivals
          fourFacts.registry.answers =
        (fourFacts.evaluate (conditionOutside ["s", "b"]) ∅).arrivals fourFacts.registry.answers :=
  ⟨by decide, scopeVars_agrees (p := conditionOutside ["s", "b"]) (by decide)
    ⟨trivial, trivial, ⟨trivial, trivial⟩, trivial⟩ (by decide) (by decide) ∅⟩

/-- **A condition inside an OPTIONAL part spoils the rows** if it asks for a variable that is dropped:
projecting fewer variables, there is one row instead of two. -/
theorem scopeVars_disagrees :
    fourFacts.registry.Sound ∧ (∀ s ∈ (conditionOutside ["s"]).statements, s.localVars = []) ∧
      ∃ M N, (fourFacts.evaluate (conditionOutside ["s"]).scopeVars ∅).Yields
          fourFacts.registry.answers M ∧
        (fourFacts.evaluate (conditionOutside ["s"]) ∅).Yields fourFacts.registry.answers N ∧
        Multiset.card M = 1 ∧ Multiset.card N = 2 := by
  refine ⟨Registry.single_sound (by decide), by decide, {.single "s" (.iri "s")},
    {.single "s" (.iri "s"), .single "s" (.iri "s")},
    ⟨[.single "s" (.iri "s")], by decide +kernel, rfl⟩,
    ⟨[.single "s" (.iri "s"), .single "s" (.iri "s")], by decide +kernel, rfl⟩, rfl, rfl⟩

end Plan

end FederatedSparql
