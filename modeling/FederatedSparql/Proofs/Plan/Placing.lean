import FederatedSparql.Plan.Pushdown
import FederatedSparql.Proofs.Engine.Evaluation

/-!
Conditions placed next to the pattern that binds their variables.

Placing a condition changes one statement or one group, which binds all variables of the condition,
and nothing else (`Plan.Added`).

* `Plan.added_of_place?`: that is all that placing does.
* `Plan.Added.rows`: the plan then has those of its rows that the condition accepts.
* `Plan.Pushable.wellSourced`, `Plan.Pushable.takesBlocks`: plans of the shape that conditions are
  moved in can be evaluated.
-/

namespace FederatedSparql

variable {r : Registry} {b c : Bindings} {v : String} {e : Expr} {size : Nat}

namespace Plan

/-! ### The shape of plans -/

mutual

/-- Statements and groups with sources, which endpoints answer in full, under joins and filters. -/
def Conjunctive (r : Registry) : Plan → Prop
  | statement s => s.WellSourced r ∧ s.localVars = []
  | group g => (r.get? g.owner.endpoint).isSome ∧ Tag.indexVar ∉ g.freeVars ∧ g.localVars = []
  | independent members => ∀ s ∈ members, s.WellSourced r ∧ s.localVars = []
  | join args _ => ConjunctiveAll r args
  | filter _ a => a.Conjunctive r
  | _ => False

/-- Plans of that shape only. -/
def ConjunctiveAll (r : Registry) : List Plan → Prop
  | [] => True
  | a :: rest => a.Conjunctive r ∧ ConjunctiveAll r rest

end

/-- A plan of statements and groups, or optional parts behind such a plan, one after another. -/
inductive Pushable (r : Registry) : Plan → Prop
  | conjunctive {p : Plan} (hp : p.Conjunctive r) : Pushable r p
  | leftJoin {left right : Plan} {condition : Option Expr} (hl : Pushable r left)
      (hr : right.Conjunctive r) : Pushable r (leftJoin left right condition)

theorem conjunctiveAll_append {xs ys : List Plan} :
    ConjunctiveAll r (xs ++ ys) ↔ ConjunctiveAll r xs ∧ ConjunctiveAll r ys := by
  induction xs with
  | nil => simp [ConjunctiveAll]
  | cons a xs ih => simp only [List.cons_append, ConjunctiveAll, ih, and_assoc]

mutual

theorem Conjunctive.wellSourced : ∀ {p : Plan}, p.Conjunctive r → p.WellSourced r
  | statement _, h => h.1
  | group _, h => ⟨h.1, h.2.1⟩
  | independent _, h => fun s hs => (h s hs).1
  | join args _, h => ConjunctiveAll.wellSourced (l := args) h
  | filter _ a, h => Conjunctive.wellSourced (p := a) h

theorem ConjunctiveAll.wellSourced :
    ∀ {l : List Plan}, ConjunctiveAll r l → WellSourcedAll r l
  | [], _ => trivial
  | _ :: _, h => ⟨h.1.wellSourced, h.2.wellSourced⟩

end

mutual

theorem Conjunctive.uniform : ∀ {p : Plan}, p.Conjunctive r → p.Uniform
  | statement _, _ => trivial
  | group _, _ => trivial
  | independent _, _ => trivial
  | join args _, h => ConjunctiveAll.uniform (l := args) h
  | filter _ a, h => Conjunctive.uniform (p := a) h

theorem ConjunctiveAll.uniform : ∀ {l : List Plan}, ConjunctiveAll r l → UniformAll l
  | [], _ => trivial
  | _ :: _, h => ⟨h.1.uniform, h.2.uniform⟩

end

theorem Pushable.wellSourced {p : Plan} (h : p.Pushable r) : p.WellSourced r := by
  induction h with
  | conjunctive hp => exact hp.wellSourced
  | leftJoin _ hr ih => exact ⟨ih, hr.wellSourced⟩

theorem Pushable.takesBlocks {p : Plan} (h : p.Pushable r) (hf : p.Fits r size) (b : Bindings) :
    p.TakesBlocks r size b := by
  induction h generalizing b with
  | conjunctive hp => exact takesBlocks_of_uniform _ hp.uniform hf b
  | @leftJoin left right condition _ hr ih =>
    refine ⟨ih (hf.mono (Nat.le_mul_of_pos_right _ (width_pos right))) b, fun x _ => ?_⟩
    exact takesBlocks_of_uniform _ hr.uniform
      (hf.mono (Nat.le_mul_of_pos_left _ (width_pos left))) x

/-- Plans of this shape can be evaluated. -/
theorem Pushable.evaluate_comes {env : Environment} {p : Plan} (hr : env.registry.Sound)
    (h : p.Pushable env.registry) (hf : p.Fits env.registry env.config.boundJoinBlockSize) :
    (env.evaluate p ∅).Comes env.registry.answers (p.rows env.registry ∅) :=
  Environment.evaluate_comes hr p h.wellSourced rfl (h.takesBlocks hf ∅)

/-! ### Joins -/

/-- Nothing is left out, wherever in a join an argument stands. -/
theorem Conjunctive.rightRows_eq {a : Plan} (h : a.Conjunctive r) (b : Bindings) :
    a.rightRows r b = a.rows r b := by
  cases a with
  | statement s => exact (Statement.wantedRows_of_localVars_eq_nil h.2 b).symm
  | independent members =>
    have all : members.map (fun s => s.wantedRows r b) = members.map fun s => s.rows r b :=
      List.map_congr_left fun s hs => Statement.wantedRows_of_localVars_eq_nil (h s hs).2 b
    exact congrArg (fun Xs : List Rows => {b} * Xs.prod) all.symm
  | _ => rfl

theorem restRows_cons_of_conjunctive {a : Plan} (h : a.Conjunctive r) (rest : List Plan)
    (X : Rows) : restRows r (a :: rest) X = restRows r rest (X.bind (a.rows r)) := by
  rw [restRows_cons, Multiset.bind_congr fun x _ => h.rightRows_eq x]

/-- The first argument of a join is joined as all others are. -/
theorem rows_join {args : List Plan} {vars : List String} (h : ConjunctiveAll r args)
    (b : Bindings) : (join args vars).rows r b = restRows r args {b} := by
  cases args with
  | nil => rfl
  | cons first rest =>
    rw [restRows_cons_of_conjunctive h.1, Multiset.singleton_bind]
    rfl

theorem restRows_append (xs ys : List Plan) (X : Rows) :
    restRows r (xs ++ ys) X = restRows r ys (restRows r xs X) := by
  induction xs generalizing X with
  | nil => rfl
  | cons a xs ih => rw [List.cons_append, restRows_cons, restRows_cons, ih]

/-- A condition on the variables of rows may be asked before joining them with further arguments. -/
theorem filter_restRows {X : Rows} (hX : ∀ x ∈ X, ∀ v ∈ e.vars, x.contains v = true)
    (args : List Plan) :
    (restRows r args X).filter (e.accepts · = true) =
      restRows r args (X.filter (e.accepts · = true)) := by
  induction args generalizing X with
  | nil => rfl
  | cons a rest ih =>
    have grown : ∀ x ∈ X, ∀ c ∈ a.rightRows r x, x.Grows a.freeVars c := fun x _ c hc =>
      grows_of_mem_rightRows (grows_of_mem_rows a) hc
    rw [restRows_cons, restRows_cons, ih, Rows.filter_bind_left]
    · intro x hx c hc
      rw [Expr.accepts_of_extends (grown x hx c hc).extended (hX x hx)]
    · intro c hc v hv
      obtain ⟨x, hx, hc⟩ := Multiset.mem_bind.1 hc
      exact (grown x hx c hc).extended.contains (hX x hx v hv)

/-! ### Placing a condition -/

/-- The second plan is the first one with a condition on a statement or a group that binds all
variables of the condition. -/
inductive Added (e : Expr) : Plan → Plan → Prop
  | statement {s : Statement} (h : ∀ v ∈ e.vars, v ∈ s.freeVars) :
    Added e (statement s) (statement (s.addFilter e))
  | group {g : ExclusiveGroup} (h : ∀ v ∈ e.vars, v ∈ g.freeVars) :
    Added e (group g) (group (g.addFilter e))
  | independent {pre post : List Statement} {s : Statement} (h : ∀ v ∈ e.vars, v ∈ s.freeVars) :
    Added e (independent (pre ++ s :: post)) (independent (pre ++ s.addFilter e :: post))
  | join {pre post : List Plan} {vars : List String} {a a' : Plan} (h : Added e a a') :
    Added e (join (pre ++ a :: post) vars) (join (pre ++ a' :: post) vars)
  | filter {condition : Expr} {a a' : Plan} (h : Added e a a') :
    Added e (filter condition a) (filter condition a')
  | leftJoin {left left' right : Plan} {condition : Option Expr} (h : Added e left left') :
    Added e (leftJoin left right condition) (leftJoin left' right condition)

theorem covers_iff {free vars : List String} :
    covers free vars = true ↔ ∀ v ∈ vars, v ∈ free := by
  simp [covers]

theorem exists_of_placeInMembers? {members members' : List Statement}
    (h : placeInMembers? e members = some members') :
    ∃ pre s post, members = pre ++ s :: post ∧ members' = pre ++ s.addFilter e :: post ∧
      ∀ v ∈ e.vars, v ∈ s.freeVars := by
  induction members generalizing members' with
  | nil => simp [placeInMembers?] at h
  | cons s rest ih =>
    unfold placeInMembers? at h
    split at h
    · next hc =>
      obtain rfl := Option.some.inj h
      exact ⟨[], s, rest, rfl, rfl, covers_iff.1 hc⟩
    · obtain ⟨rest', hrest, rfl⟩ := Option.map_eq_some_iff.1 h
      obtain ⟨pre, t, post, rfl, rfl, hv⟩ := ih hrest
      exact ⟨s :: pre, t, post, rfl, rfl, hv⟩

mutual

/-- **Placing a condition changes one statement or one group only**, which binds its variables. -/
theorem added_of_place? : ∀ (p : Plan) {p' : Plan}, p.place? e = some p' → Added e p p'
  | statement s, p', h => by
    rw [place?, Option.ite_none_right_eq_some, Option.some_inj] at h
    obtain ⟨hc, rfl⟩ := h
    exact .statement (covers_iff.1 hc)
  | group g, p', h => by
    rw [place?, Option.ite_none_right_eq_some, Option.some_inj] at h
    obtain ⟨hc, rfl⟩ := h
    exact .group (covers_iff.1 hc)
  | independent members, p', h => by
    obtain ⟨members', hm, rfl⟩ := Option.map_eq_some_iff.1 h
    obtain ⟨pre, s, post, rfl, rfl, hv⟩ := exists_of_placeInMembers? hm
    exact .independent hv
  | join args vars, p', h => by
    obtain ⟨args', hargs, rfl⟩ := Option.map_eq_some_iff.1 h
    obtain ⟨pre, a, a', post, rfl, rfl, ha⟩ := added_of_placeInFirst? args hargs
    exact .join ha
  | filter condition a, p', h => by
    obtain ⟨a', ha, rfl⟩ := Option.map_eq_some_iff.1 h
    exact .filter (added_of_place? a ha)
  | leftJoin left right condition, p', h => by
    obtain ⟨left', hl, rfl⟩ := Option.map_eq_some_iff.1 h
    exact .leftJoin (added_of_place? left hl)
  | union _, _, h => by simp [place?] at h
  | service _, _, h => by simp [place?] at h
  | passThrough .., _, h => by simp [place?] at h
  | empty, _, h => by simp [place?] at h
  | project .., _, h => by simp [place?] at h
  | slice .., _, h => by simp [place?] at h
  | distinct _, _, h => by simp [place?] at h

theorem added_of_placeInFirst? :
    ∀ (args : List Plan) {args' : List Plan}, placeInFirst? e args = some args' →
      ∃ pre a a' post, args = pre ++ a :: post ∧ args' = pre ++ a' :: post ∧ Added e a a'
  | [], _, h => by simp [placeInFirst?] at h
  | a :: rest, args', h => by
    unfold placeInFirst? at h
    split at h
    · next a' ha =>
      obtain rfl := Option.some.inj h
      exact ⟨[], a, a', rest, rfl, rfl, added_of_place? a ha⟩
    · obtain ⟨rest', hrest, rfl⟩ := Option.map_eq_some_iff.1 h
      obtain ⟨pre, x, x', post, rfl, rfl, hx⟩ := added_of_placeInFirst? rest hrest
      exact ⟨a :: pre, x, x', post, rfl, rfl, hx⟩

end

end Plan

/-! ### What a placed condition does -/

/-- The rows of a statement with a further condition are those of its rows that meet it. -/
theorem Statement.rows_addFilter (s : Statement) (e : Expr) (b : Bindings) :
    (s.addFilter e).rows r b = (s.rows r b).filter (e.accepts · = true) := by
  simp only [rows, addFilter, effectivePattern, Store.filteredRows, Expr.acceptsAll_conjoin,
    Multiset.filter_filter, Bool.and_eq_true]
  refine Multiset.filter_congr fun c _ => ?_
  exact and_comm

theorem ExclusiveGroup.rows_addFilter (g : ExclusiveGroup) (e : Expr) (b : Bindings) :
    (g.addFilter e).rows r b = (g.rows r b).filter (e.accepts · = true) := by
  simp only [rows, addFilter, patterns, Store.filteredRows, Expr.acceptsAll_conjoin,
    Multiset.filter_filter, Bool.and_eq_true]
  refine Multiset.filter_congr fun c _ => ?_
  exact and_comm

theorem Statement.WellSourced.addFilter {s : Statement} (h : s.WellSourced r) (e : Expr) :
    (s.addFilter e).WellSourced r :=
  ⟨h.registers, h.index⟩

/-- A condition on one of several statements is one on their product. -/
theorem Statement.joinedRows_addFilter {pre post : List Statement} {s : Statement}
    (h : ∀ v ∈ e.vars, v ∈ s.freeVars) (b : Bindings) :
    Statement.joinedRows r (pre ++ s.addFilter e :: post) b =
      (Statement.joinedRows r (pre ++ s :: post) b).filter (e.accepts · = true) := by
  have front : ∀ t : Statement, Statement.joinedRows r (pre ++ t :: post) b =
      {b} * ((pre ++ post).map fun s => s.rows r b).prod * t.rows r b := by
    intro t
    simp only [Statement.joinedRows, List.map_append, List.map_cons, List.prod_append,
      List.prod_cons, mul_comm, mul_left_comm]
  rw [front, front, s.rows_addFilter e b, Rows.filter_mul_right]
  intro x _ y hy c hc
  rw [Expr.accepts_of_extends (Bindings.extends_right_of_merge hc) fun v hv => ?_]
  exact (Statement.contains_of_mem_rows hy v).2 (.inr (Statement.mem_freeVars.1 (h v hv)))

namespace Plan

namespace Added

variable {p p' : Plan}

theorem conjunctive (h : Added e p p') : p.Conjunctive r → p'.Conjunctive r := by
  induction h with
  | statement _ => exact fun hp => ⟨hp.1.addFilter e, hp.2⟩
  | group _ => exact id
  | @independent pre post s _ =>
    intro hm t ht
    rcases List.mem_append.1 ht with ht | ht
    · exact hm t (List.mem_append_left _ ht)
    · rcases List.mem_cons.1 ht with rfl | ht
      · have hs := hm s (List.mem_append_right _ List.mem_cons_self)
        exact ⟨hs.1.addFilter e, hs.2⟩
      · exact hm t (List.mem_append_right _ (List.mem_cons_of_mem s ht))
  | join _ ih =>
    intro hargs
    obtain ⟨hpre, ha, hpost⟩ := conjunctiveAll_append.1 hargs
    exact conjunctiveAll_append.2 ⟨hpre, ih ha, hpost⟩
  | filter _ ih => exact ih
  | leftJoin _ _ => exact False.elim

theorem pushable (h : Added e p p') (hp : p.Pushable r) : p'.Pushable r := by
  induction hp generalizing p' with
  | conjunctive hp => exact .conjunctive (h.conjunctive hp)
  | leftJoin _ hr ih =>
    cases h with
    | leftJoin h => exact .leftJoin (ih h) hr

theorem joinWidth_append (xs ys : List Plan) :
    joinWidth r (xs ++ ys) = joinWidth r xs * joinWidth r ys := by
  induction xs with
  | nil => rw [joinWidth, one_mul, List.nil_append]
  | cons a xs ih => rw [List.cons_append, joinWidth, joinWidth, ih, mul_assoc]

theorem width_eq (h : Added e p p') : p'.width r = p.width r := by
  induction h with
  | statement _ => rfl
  | group _ =>
    simp only [width, ExclusiveGroup.width, ExclusiveGroup.patterns, List.length_map]
    rfl
  | independent _ =>
    simp only [width, List.map_append, List.map_cons]
    rfl
  | join _ ih => simp only [width, joinWidth_append, joinWidth, ih]
  | filter _ ih => exact ih
  | leftJoin _ ih => simp only [width, ih]

/-- **A plan with a placed condition has those of its rows that the condition accepts**, all of which
bind its variables. -/
theorem rows (h : Added e p p') (hp : p.Pushable r) (b : Bindings) :
    p'.rows r b = (p.rows r b).filter (e.accepts · = true) ∧
      ∀ c ∈ p.rows r b, ∀ v ∈ e.vars, c.contains v = true := by
  induction h generalizing b with
  | @statement s hv =>
    cases hp with
    | conjunctive hp =>
      have hlocal : (s.addFilter e).localVars = [] := hp.2
      simp only [Plan.rows, Statement.wantedRows_of_localVars_eq_nil hp.2,
        Statement.wantedRows_of_localVars_eq_nil hlocal]
      refine ⟨s.rows_addFilter e b, fun c hc v hve => ?_⟩
      exact (Statement.contains_of_mem_rows hc v).2 (.inr (Statement.mem_freeVars.1 (hv v hve)))
  | @group g hv =>
    cases hp with
    | conjunctive hp =>
      have hlocal : (g.addFilter e).localVars = [] := hp.2.2
      simp only [Plan.rows, ExclusiveGroup.wantedRows_of_localVars_eq_nil hp.2.2,
        ExclusiveGroup.wantedRows_of_localVars_eq_nil hlocal]
      refine ⟨g.rows_addFilter e b, fun c hc v hve => ?_⟩
      exact (ExclusiveGroup.contains_of_mem_rows hc v).2 (.inr (hv v hve))
  | @independent pre post s hv =>
    cases hp with
    | conjunctive hp =>
      have hp' : (Plan.independent (pre ++ s.addFilter e :: post)).Conjunctive r :=
        (Added.independent hv).conjunctive hp
      rw [← hp.rightRows_eq, ← hp'.rightRows_eq]
      refine ⟨Statement.joinedRows_addFilter hv b, fun c hc v hve => ?_⟩
      refine (contains_of_mem_joinedRows hc v).2 (.inr (List.mem_eraseDups.2 ?_))
      exact List.mem_flatMap.2 ⟨s, List.mem_append_right _ List.mem_cons_self, hv v hve⟩
  | @join pre post vars a a' ha ih =>
    cases hp with
    | conjunctive hp =>
      obtain ⟨hpre, hca, hpost⟩ := conjunctiveAll_append.1 hp
      have hp' : ConjunctiveAll r (pre ++ a' :: post) :=
        conjunctiveAll_append.2 ⟨hpre, ha.conjunctive hca, hpost⟩
      rw [rows_join hp, rows_join hp', restRows_append, restRows_append,
        restRows_cons_of_conjunctive hca, restRows_cons_of_conjunctive (ha.conjunctive hca)]
      have bind : ∀ c ∈ (restRows r pre {b}).bind (a.rows r), ∀ v ∈ e.vars,
          c.contains v = true := by
        intro c hc
        obtain ⟨x, -, hc⟩ := Multiset.mem_bind.1 hc
        exact (ih (.conjunctive hca) x).2 c hc
      refine ⟨?_, fun c hc v hve => ?_⟩
      · rw [filter_restRows bind, Multiset.filter_bind]
        refine congrArg _ (Multiset.bind_congr fun x _ => ?_)
        exact (ih (.conjunctive hca) x).1
      · obtain ⟨x, hx, hc⟩ := grows_of_mem_restRows post hc
        exact hc.extended.contains (bind x hx v hve)
  | @filter condition a a' _ ih =>
    cases hp with
    | conjunctive hp =>
      obtain ⟨hrows, hbind⟩ := ih (.conjunctive hp) b
      refine ⟨?_, fun c hc => hbind c (Multiset.mem_of_mem_filter hc)⟩
      rw [Plan.rows, Plan.rows, hrows, Multiset.filter_comm]
  | @leftJoin left left' right condition _ ih =>
    cases hp with
    | conjunctive hp => exact hp.elim
    | leftJoin hl hr =>
      obtain ⟨hrows, hbind⟩ := ih hl b
      have extended : ∀ x ∈ left.rows r b, ∀ c ∈ Feed.optionalRows (Expr.acceptsAll condition) x
          (right.rows r x), x.Extends c := by
        intro x _ c hc
        rcases mem_optionalRows hc with rfl | hc
        · exact .refl c
        · exact (grows_of_mem_rows right hc).extended
      refine ⟨?_, fun c hc v hve => ?_⟩
      · rw [Plan.rows, Plan.rows, hrows, Rows.filter_bind_left]
        intro x hx c hc
        rw [Expr.accepts_of_extends (extended x hx c hc) (hbind x hx)]
      · obtain ⟨x, hx, hc⟩ := Multiset.mem_bind.1 hc
        exact (extended x hx c hc).contains (hbind x hx v hve)

end Added

end Plan

end FederatedSparql
