import FederatedSparql.Proofs.Plan.NestedFilters
import Mathlib.Algebra.BigOperators.Ring.List

/-!
Plans whose rows do not depend on the order of join arguments.

Arguments of a join are evaluated one after another, each under the rows of those before it.  An
argument is steady if it does not matter for its own rows whether the others have been evaluated:
where it asks for a variable, in a condition, an optional part or a comparison of rows, and another
argument can bind the variable, then the variable is bound already or bound by the argument itself.

* `Plan.Steady.rows_of_grows`: the rows of a steady plan under a grown binding set are those under
  the binding set, joined with the grown one.
* `Plan.Steady.rows_join`: so a steady join comes to the product of its arguments.
* `Plan.Steady.mono`: a plan that is steady beside some plans is so beside fewer.
-/

namespace FederatedSparql

variable {r : Registry} {b x y z : Bindings} {v : String}

theorem Bindings.Grows.get?_of_not_mem {vars : List String} (h : b.Grows vars x) (hv : v ∉ vars) :
    x.get? v = b.get? v := by
  cases hb : b.contains v with
  | true =>
    obtain ⟨t, ht⟩ := contains_iff.1 hb
    rw [ht, h.extended v t ht]
  | false =>
    rw [contains_eq_false_iff.1 hb, ← contains_eq_false_iff]
    by_contra hx
    rcases h.within v (by simpa using hx) with hb' | hf
    · simp [hb'] at hb
    · exact hv hf

/-- A row that is merged with a grown binding set has grown likewise. -/
theorem Bindings.Grows.merge {vars : List String} (hx : b.Grows vars x) (hy : b.Extends y)
    (hz : x.merge? y = some z) : y.Grows vars z where
  extended := extends_right_of_merge hz
  within v hv := by
    rw [contains_of_merge hz, Bool.or_eq_true] at hv
    rcases hv with hv | hv
    · exact (hx.within v hv).imp_left hy.contains
    · exact .inl hv

/-- As statements stand in a query: without conditions, fixed terms or local variables. -/
structure Statement.Plain (s : Statement) : Prop where
  filter : s.filter = none
  boundFilters : s.boundFilters = ∅
  localVars : s.localVars = []

/-! ### Products with one row -/

namespace Rows

/-- Merging with a row keeps duplicates apart that are apart before. -/
theorem dedup_singleton_mul {X : Rows}
    (h : ∀ y ∈ X, ∀ z ∈ X, ∀ c, x.merge? y = some c → x.merge? z = some c → y = z) :
    ({x} * X).dedup = {x} * X.dedup := by
  have nodup : ({x} * X.dedup).Nodup := by
    have only : ({x} : Rows) * X.dedup = X.dedup.filterMap fun y => if y ∈ X then x.merge? y else none
      := by
      rw [singleton_mul]
      exact filterMap_congr fun y hy => (if_pos (Multiset.mem_dedup.1 hy)).symm
    rw [only]
    refine (Multiset.nodup_dedup X).filterMap _ fun y z c hy hz => ?_
    simp only [Option.mem_def, Option.ite_none_right_eq_some] at hy hz
    exact h y hy.1 z hz.1 c hy.2 hz.2
  refine (Multiset.Nodup.ext (Multiset.nodup_dedup _) nodup).2 fun c => ?_
  simp only [Multiset.mem_dedup, mem_singleton_mul]

theorem singleton_mul_ne_zero {X : Rows} (h : ∀ y ∈ X, x.Agrees y) (hX : X ≠ 0) :
    ({x} : Rows) * X ≠ 0 := by
  obtain ⟨y, hy⟩ := Multiset.exists_mem_of_ne_zero hX
  obtain ⟨c, hc⟩ := (h y hy).exists_merge
  intro h0
  exact Multiset.notMem_zero c (h0 ▸ mem_singleton_mul.2 ⟨y, hy, hc⟩)

/-- A row may be joined after something is made of each row of a product, instead of before. -/
theorem bind_singleton_mul_of_merge {Y : Rows} {F : Bindings → Rows}
    (hext : ∀ y ∈ Y, ∀ w ∈ F y, y.Extends w)
    (hF : ∀ y ∈ Y, ∀ z, x.merge? y = some z → F z = {z} * F y) :
    ({x} * Y).bind F = {x} * Y.bind F := by
  have each : ∀ y ∈ Y, (({x} : Rows) * {y}).bind F = {x} * F y := by
    intro y hy
    have own : {x} * F y = ofOption (x.merge? y) * F y := by
      rw [← singleton_mul_singleton, mul_assoc, singleton_mul_eq_self (hext y hy)]
    rw [own, singleton_mul_singleton]
    cases hz : x.merge? y with
    | none => rw [ofOption_none, Multiset.zero_bind, zero_mul]
    | some z => rw [ofOption_some, Multiset.singleton_bind, hF y hy z hz]
  calc ({x} * Y).bind F
      = (Y.bind fun y => ({x} : Rows) * {y}).bind F := by
        rw [← mul_bind, Multiset.bind_singleton, Multiset.map_id']
    _ = Y.bind fun y => {x} * F y := by
        rw [Multiset.bind_assoc]
        exact Multiset.bind_congr each
    _ = {x} * Y.bind F := (mul_bind ..).symm

/-- An optional part whose rows agree with the row it is for may be joined afterwards. -/
theorem optionalRows_singleton_mul {keep : Bindings → Bool} {X : Rows}
    (hyz : y.Extends z) (hag : ∀ w ∈ X, z.Agrees w)
    (hkeep : ∀ w ∈ X, ∀ c, z.merge? w = some c → keep c = keep w) :
    Feed.optionalRows keep z ({z} * X) = {z} * Feed.optionalRows keep y X := by
  have kept : ({z} * X).filter (keep · = true) = {z} * X.filter (keep · = true) := by
    refine filter_mul_right fun a ha w hw c hc => ?_
    obtain rfl := Multiset.mem_singleton.1 ha
    rw [hkeep w hw c hc]
  unfold Feed.optionalRows
  rw [kept]
  by_cases h0 : X.filter (keep · = true) = 0
  · rw [if_pos (by rw [h0, mul_zero]), if_pos h0, mul_comm, singleton_mul_of_extends hyz]
  · have apart := singleton_mul_ne_zero (fun w hw => hag w (Multiset.mem_of_mem_filter hw)) h0
    rw [if_neg apart, if_neg h0]

end Rows

namespace Plan

/-! ### Variables that are bound for certain -/

mutual

/-- The variables that a plan binds in each of its rows. -/
def certainVars : Plan → List String
  | statement s => s.freeVars
  | group g => g.freeVars
  | independent members => members.flatMap (·.freeVars)
  | join args _ => certainInJoin args
  | union args => certainInUnion args
  | filter _ a => a.certainVars
  | leftJoin left _ _ => left.certainVars
  | distinct a => a.certainVars
  | _ => []

/-- The variables that some argument of a join binds in each row. -/
def certainInJoin : List Plan → List String
  | [] => []
  | a :: rest => a.certainVars ++ certainInJoin rest

/-- The variables that all arguments of a union bind in each row. -/
def certainInUnion : List Plan → List String
  | [] => []
  | a :: rest => a.certainVars.filter fun v => rest.isEmpty || (certainInUnion rest).contains v

end

/-- The variables that some of the plans can bind and may leave free. -/
def LooseIn (args : List Plan) (v : String) : Prop :=
  ∃ a ∈ args, v ∈ a.freeVars ∧ v ∉ a.certainVars

theorem mem_freeVarsAll {args : List Plan} : v ∈ freeVarsAll args ↔ ∃ a ∈ args, v ∈ a.freeVars := by
  induction args with
  | nil => simp [freeVarsAll]
  | cons a rest ih => simp [freeVarsAll, ih]

theorem mem_certainInJoin {args : List Plan} :
    v ∈ certainInJoin args ↔ ∃ a ∈ args, v ∈ a.certainVars := by
  induction args with
  | nil => simp [certainInJoin]
  | cons a rest ih => simp [certainInJoin, ih]

theorem mem_certainInUnion {args : List Plan} :
    v ∈ certainInUnion args ↔ args ≠ [] ∧ ∀ a ∈ args, v ∈ a.certainVars := by
  induction args with
  | nil => simp [certainInUnion]
  | cons a rest ih => cases rest <;> simp_all [certainInUnion]

theorem mem_unionRows {args : List Plan} :
    x ∈ unionRows r args b ↔ ∃ a ∈ args, x ∈ a.rows r b := by
  induction args with
  | nil => simp [unionRows]
  | cons a rest ih => simp [unionRows, ih]

/-- Each argument stands beside some others. -/
theorem exists_perm_cons {α : Type} {a : α} {args : List α} (h : a ∈ args) :
    ∃ rest, args.Perm (a :: rest) := by
  obtain ⟨xs, ys, rfl⟩ := List.append_of_mem h
  exact ⟨xs ++ ys, List.perm_middle⟩

/-! ### Steadiness -/

/-- What is known of the binding sets that a plan is evaluated under: variables that the plans before
it can bind, variables that are bound for certain, and variables that may be bound or not, depending
on the order of join arguments. -/
structure Context where
  possible : List String
  certain : List String
  others : List String

namespace Context

/-- Nothing is bound. -/
def start : Context := ⟨[], [], []⟩

/-- The context of a join argument beside the others. -/
def beside (c : Context) (siblings : List Plan) : Context :=
  { c with others := c.others ++ freeVarsAll siblings }

/-- The context of an optional part. -/
def behind (c : Context) (left : Plan) : Context :=
  ⟨c.possible ++ left.freeVars, c.certain ++ left.certainVars, c.others⟩

/-- The binding set is one of these. -/
structure Admits (c : Context) (b : Bindings) : Prop where
  certain : ∀ v ∈ c.certain, b.contains v = true
  possible : ∀ v, b.contains v = true → v ∈ c.possible ∨ v ∈ c.others

/-- It does not depend on the order of join arguments what rows of the plan say of a variable. -/
def Settles (c : Context) (p : Plan) (v : String) : Prop :=
  v ∈ c.others → v ∈ c.certain ∨ v ∈ p.certainVars

/-- Beside the siblings, either every binding set leaves some variable of the statement free, or else
all of them bind the same of its variables. -/
def Even (c : Context) (siblings : List Plan) (s : Statement) : Prop :=
  (∃ v ∈ s.freeVars, v ∉ c.possible ∧ v ∉ (c.beside siblings).others) ∨
    ∀ v ∈ s.freeVars, LooseIn siblings v → v ∈ c.certain

end Context

mutual

/-- The statements that a plan may come down to when parts without sources are left out. -/
def remains : Plan → List Statement
  | statement s => [s]
  | join [a] _ => a.remains
  | union args => remainsAll args
  | leftJoin left _ _ => left.remains
  | _ => []

/-- The statements that one of the plans may come down to. -/
def remainsAll : List Plan → List Statement
  | [] => []
  | a :: rest => a.remains ++ remainsAll rest

end

theorem mem_remainsAll {s : Statement} {args : List Plan} :
    s ∈ remainsAll args ↔ ∃ a ∈ args, s ∈ a.remains := by
  induction args with
  | nil => simp [remainsAll]
  | cons a rest ih => simp [remainsAll, ih]

/-- Plans whose rows do not depend on the order of the arguments of their joins, nor on that of joins
that they are in. -/
inductive Steady : Context → Plan → Prop
  | statement {c : Context} {s : Statement} (hs : s.Plain) : Steady c (statement s)
  | group {c : Context} {g : ExclusiveGroup} (hf : g.filter = none) (hl : g.localVars = []) :
      Steady c (group g)
  | independent {c : Context} {members : List Statement} (h : ∀ s ∈ members, s.Plain) :
      Steady c (independent members)
  | empty {c : Context} : Steady c empty
  | filter {c : Context} {e : Expr} {a : Plan} (ha : Steady c a)
      (he : ∀ v ∈ e.vars, c.Settles a v) : Steady c (filter e a)
  | leftJoin {c : Context} {left right : Plan} {condition : Option Expr} (hl : Steady c left)
      (hr : Steady (c.behind left) right)
      (hv : ∀ v, v ∈ right.freeVars ∨ v ∈ Expr.varsOf condition → c.Settles left v) :
      Steady c (leftJoin left right condition)
  | union {c : Context} {args : List Plan} (h : ∀ a ∈ args, Steady c a) : Steady c (union args)
  | distinct {c : Context} {a : Plan} (ha : Steady c a) (hv : ∀ v ∈ a.freeVars, c.Settles a v) :
      Steady c (distinct a)
  | join {c : Context} {args : List Plan} {vars : List String} (hne : args ≠ [])
      (h : ∀ a rest, args.Perm (a :: rest) → Steady (c.beside rest) a)
      (even : ∀ a rest, args.Perm (a :: rest) → ∀ s ∈ a.remains, c.Even rest s) :
      Steady c (join args vars)

/-! ### Fewer plans beside -/

/-- The first context is a case of the second one: less may be bound, and more is bound for certain. -/
structure Context.Within (c d : Context) : Prop where
  possible : ∀ v ∈ c.possible, v ∈ d.possible
  certain : ∀ v ∈ d.certain, v ∈ c.certain
  others : ∀ v ∈ c.others, v ∈ d.others

theorem Context.Within.refl (c : Context) : c.Within c := ⟨fun _ h => h, fun _ h => h, fun _ h => h⟩

theorem Context.Within.beside {c d : Context} (h : c.Within d) {xs ys : List Plan}
    (free : ∀ v ∈ freeVarsAll xs, v ∈ freeVarsAll ys) : (c.beside xs).Within (d.beside ys) where
  possible := h.possible
  certain := h.certain
  others v hv := by
    rcases List.mem_append.1 hv with hv | hv
    · exact List.mem_append_left _ (h.others v hv)
    · exact List.mem_append_right _ (free v hv)

theorem Context.Within.behind {c d : Context} (h : c.Within d) {p q : Plan}
    (free : ∀ v ∈ p.freeVars, v ∈ q.freeVars) (certain : ∀ v ∈ q.certainVars, v ∈ p.certainVars) :
    (c.behind p).Within (d.behind q) where
  possible v hv := by
    rcases List.mem_append.1 hv with hv | hv
    · exact List.mem_append_left _ (h.possible v hv)
    · exact List.mem_append_right _ (free v hv)
  certain v hv := by
    rcases List.mem_append.1 hv with hv | hv
    · exact List.mem_append_left _ (h.certain v hv)
    · exact List.mem_append_right _ (certain v hv)
  others := h.others

theorem Context.Settles.mono {c d : Context} {p q : Plan} (hq : d.Settles q v) (h : c.Within d)
    (certain : v ∈ q.certainVars → v ∈ p.certainVars) : c.Settles p v := fun hv =>
  (hq (h.others v hv)).imp (h.certain v) certain

theorem Context.Even.mono {c d : Context} {s : Statement} {xs ys : List Plan} (hs : d.Even ys s)
    (h : c.Within d) (free : ∀ v ∈ freeVarsAll xs, v ∈ freeVarsAll ys)
    (loose : ∀ v, LooseIn xs v → LooseIn ys v) : c.Even xs s := by
  rcases hs with ⟨v, hv, hp, ho⟩ | he
  · exact .inl ⟨v, hv, fun h' => hp (h.possible v h'), fun h' => ho ((h.beside free).others v h')⟩
  · exact .inr fun v hv hl => h.certain v (he v hv (loose v hl))

/-- **A plan that is steady beside some plans is so beside fewer.** -/
theorem Steady.mono {c d : Context} {p : Plan} (hp : p.Steady d) (h : c.Within d) :
    p.Steady c := by
  induction hp generalizing c with
  | statement hs => exact .statement hs
  | group hf hl => exact .group hf hl
  | independent hs => exact .independent hs
  | empty => exact .empty
  | filter _ he ih => exact .filter (ih h) fun v hv => (he v hv).mono h id
  | leftJoin _ _ hv ihl ihr =>
    exact .leftJoin (ihl h) (ihr (h.behind (fun _ => id) fun _ => id))
      fun v hm => (hv v hm).mono h id
  | union _ ih => exact .union fun a ha => ih a ha h
  | distinct _ hv ih => exact .distinct (ih h) fun v hm => (hv v hm).mono h id
  | join hne _ even ih =>
    exact .join hne (fun a rest hp => ih a rest hp (h.beside fun _ => id))
      fun a rest hp s hs => (even a rest hp s hs).mono h (fun _ => id) fun _ => id

/-! ### What rows bind -/

/-- Endpoints leave nothing out. -/
theorem Steady.rightRows_eq {c : Context} {a : Plan} (h : a.Steady c) (b : Bindings) :
    a.rightRows r b = a.rows r b := by
  cases h with
  | statement hs => exact (Statement.wantedRows_of_localVars_eq_nil hs.localVars b).symm
  | @independent _ members hs =>
    have all : members.map (fun s => s.wantedRows r b) = members.map fun s => s.rows r b :=
      List.map_congr_left fun s hm => Statement.wantedRows_of_localVars_eq_nil (hs s hm).localVars b
    exact congrArg (fun Xs : List Rows => {b} * Xs.prod) all.symm
  | _ => rfl

/-- A row of a join extends a row of each of its arguments. -/
theorem exists_of_mem_restRows {args : List Plan} {a : Plan} (ha : a ∈ args) {X : Rows}
    (hx : x ∈ restRows r args X) : ∃ b, ∃ y ∈ a.rightRows r b, y.Extends x := by
  induction args generalizing X with
  | nil => exact absurd ha List.not_mem_nil
  | cons a' rest ih =>
    rw [restRows_cons] at hx
    rcases List.mem_cons.1 ha with rfl | ha
    · obtain ⟨y, hy, hyx⟩ := grows_of_mem_restRows rest hx
      obtain ⟨b, -, hy⟩ := Multiset.mem_bind.1 hy
      exact ⟨b, y, hy, hyx.extended⟩
    · exact ih ha hx

theorem exists_of_mem_rows_join {args : List Plan} {vars : List String} {a : Plan} (ha : a ∈ args)
    (hright : ∀ b, a.rightRows r b = a.rows r b) (hx : x ∈ (join args vars).rows r b) :
    ∃ b', ∃ y ∈ a.rows r b', y.Extends x := by
  cases args with
  | nil => exact absurd ha List.not_mem_nil
  | cons first rest =>
    rcases List.mem_cons.1 ha with rfl | ha
    · obtain ⟨y, hy, hyx⟩ := grows_of_mem_restRows rest hx
      exact ⟨b, y, hy, hyx.extended⟩
    · obtain ⟨b', y, hy, hyx⟩ := exists_of_mem_restRows ha hx
      exact ⟨b', y, hright b' ▸ hy, hyx⟩

/-- **The variables that are certain are bound in every row.** -/
theorem Steady.contains {c : Context} {p : Plan} (h : p.Steady c) (hx : x ∈ p.rows r b)
    (hv : v ∈ p.certainVars) : x.contains v = true := by
  induction h generalizing b x with
  | statement hs =>
    refine (Statement.contains_of_mem_wantedRows hx v).2 (.inr ⟨hv, ?_⟩)
    rw [hs.localVars]
    exact List.not_mem_nil
  | group _ hl =>
    refine (ExclusiveGroup.contains_of_mem_wantedRows hx v).2 (.inr ⟨hv, ?_⟩)
    rw [hl]
    exact List.not_mem_nil
  | independent hs =>
    obtain ⟨s, hm, hv⟩ := List.mem_flatMap.1 hv
    refine (contains_of_mem_independent hx v).2 (.inr ⟨s, hm, hv, ?_⟩)
    rw [(hs s hm).localVars]
    exact List.not_mem_nil
  | empty => exact absurd hv List.not_mem_nil
  | filter _ _ ih => exact ih (Multiset.mem_of_mem_filter hx) hv
  | leftJoin _ _ _ ihl _ =>
    obtain ⟨y, hy, hx⟩ := Multiset.mem_bind.1 hx
    rcases mem_optionalRows hx with rfl | hx
    · exact ihl hy hv
    · exact (grows_of_mem_rows _ hx).extended.contains (ihl hy hv)
  | @union _ args _ ih =>
    obtain ⟨a, ha, hx⟩ := mem_unionRows.1 hx
    exact ih a ha hx ((mem_certainInUnion.1 hv).2 a ha)
  | distinct _ _ ih => exact ih (Multiset.mem_dedup.1 hx) hv
  | @join _ args _ _ hs _ ih =>
    obtain ⟨a, ha, hv⟩ := mem_certainInJoin.1 hv
    obtain ⟨rest, hp⟩ := exists_perm_cons ha
    obtain ⟨b', y, hy, hyx⟩ := exists_of_mem_rows_join ha (hs a rest hp).rightRows_eq hx
    exact hyx.contains (ih a rest hp hy hv)

/-! ### Rows under more bindings -/

namespace Context

variable {c : Context}

theorem Admits.beside (h : c.Admits b) (siblings : List Plan) : (c.beside siblings).Admits b where
  certain := h.certain
  possible v hv := (h.possible v hv).imp_right (List.mem_append_left _)

theorem Admits.of_grows (h : c.Admits b) (hx : b.Grows c.others x) : c.Admits x where
  certain v hv := hx.extended.contains (h.certain v hv)
  possible v hv := by
    rcases hx.within v hv with hb | ho
    · exact h.possible v hb
    · exact .inr ho

theorem Admits.behind {left : Plan} (h : c.Admits b) (hl : left.Steady c)
    (hx : x ∈ left.rows r b) : (c.behind left).Admits x where
  certain v hv := by
    rcases List.mem_append.1 hv with hv | hv
    · exact (grows_of_mem_rows left hx).extended.contains (h.certain v hv)
    · exact hl.contains hx hv
  possible v hv := by
    rcases (grows_of_mem_rows left hx).within v hv with hb | hf
    · exact (h.possible v hb).imp_left (List.mem_append_left _)
    · exact .inl (List.mem_append_right _ hf)

/-- Rows agree with a grown binding set, if what they bind anew cannot have grown. -/
theorem Admits.agrees {vars : List String} (h : c.Admits b) (hx : b.Grows c.others x)
    (hy : b.Grows vars y) (hv : ∀ v ∈ vars, v ∈ c.others → v ∈ c.certain) : x.Agrees y := by
  intro v s t hs ht
  suffices hb : b.contains v = true by
    obtain ⟨u, hu⟩ := Bindings.contains_iff.1 hb
    have hxu := hx.extended v u hu
    have hyu := hy.extended v u hu
    simp_all
  rcases hx.within v (Bindings.contains_iff.2 ⟨s, hs⟩) with hb | ho
  · exact hb
  rcases hy.within v (Bindings.contains_iff.2 ⟨t, ht⟩) with hb | hf
  · exact hb
  · exact h.certain v (hv v hf ho)

/-- A row that is merged with a grown binding set keeps what it says of a variable, if it binds the
variable wherever the binding set can have grown by it. -/
theorem Admits.get?_merge (h : c.Admits b) (hx : b.Grows c.others x) (hy : b.Extends y)
    (hz : x.merge? y = some z) (hv : v ∈ c.others → v ∈ c.certain ∨ y.contains v = true) :
    z.get? v = y.get? v := by
  cases hyv : y.contains v with
  | true =>
    obtain ⟨t, ht⟩ := Bindings.contains_iff.1 hyv
    rw [ht, Bindings.extends_right_of_merge hz v t ht]
  | false =>
    have unbound : x.contains v = false := by
      by_contra hxv
      rw [Bool.not_eq_false] at hxv
      suffices hby : b.contains v = true by simp [hy.contains hby] at hyv
      rcases hx.within v hxv with hb | ho
      · exact hb
      · rcases hv ho with hc | hyv'
        · exact h.certain v hc
        · simp [hyv'] at hyv
    rw [Bindings.get?_of_merge hz, Bindings.contains_eq_false_iff.1 unbound, Option.none_or]

end Context

theorem Steady.get?_merge {c : Context} {p : Plan} (hp : p.Steady c) (h : c.Admits b)
    (hx : b.Grows c.others x) (hy : y ∈ p.rows r b) (hz : x.merge? y = some z)
    (hv : c.Settles p v) : z.get? v = y.get? v :=
  h.get?_merge hx (grows_of_mem_rows p hy).extended hz fun ho => (hv ho).imp_right (hp.contains hy)

/-- Joining with arguments whose rows may be found beforehand. -/
theorem restRows_eq_mul {args : List Plan} (done : List String) {X : Rows}
    (h : ∀ a rest, args.Perm (a :: rest) → ∀ x, b.Grows (done ++ freeVarsAll rest) x →
      a.rightRows r x = {x} * a.rows r b)
    (hX : ∀ x ∈ X, b.Grows done x) :
    restRows r args X = X * (args.map (·.rows r b)).prod := by
  induction args generalizing done X with
  | nil => rw [List.map_nil, List.prod_nil, mul_one]; rfl
  | cons a rest ih =>
    have first : X.bind (a.rightRows r) = X * a.rows r b := by
      rw [← Rows.bind_singleton_mul]
      refine Multiset.bind_congr fun x hx => ?_
      exact h a rest (.refl _) x ((hX x hx).mono fun v => List.mem_append_left _)
    rw [restRows_cons, first, List.map_cons, List.prod_cons, ← mul_assoc]
    refine ih (done ++ a.freeVars) (fun a' rest' hp x hx => ?_) fun y hy => ?_
    · refine h a' (a :: rest') ((hp.cons a).trans (.swap ..)) x (hx.mono fun v hv => ?_)
      simpa [freeVarsAll] using hv
    · rw [← Rows.bind_singleton_mul] at hy
      obtain ⟨x, hx, hy⟩ := Multiset.mem_bind.1 hy
      have hxy : x.Grows a.freeVars y := by
        rw [← h a rest (.refl _) x ((hX x hx).mono fun v => List.mem_append_left _)] at hy
        exact grows_of_mem_rightRows (grows_of_mem_rows a) hy
      exact ((hX x hx).mono fun v => List.mem_append_left _).trans
        (hxy.mono fun v => List.mem_append_right _)

/-- A join of arguments whose rows may be found beforehand, under a grown binding set. -/
theorem rows_join_eq_mul {c : Context} {args : List Plan} {vars : List String} (hne : args ≠ [])
    (hs : ∀ a rest, args.Perm (a :: rest) → a.Steady (c.beside rest))
    (h : ∀ a rest, args.Perm (a :: rest) → ∀ x, b.Grows (c.beside rest).others x →
      a.rows r x = {x} * a.rows r b)
    (hx : b.Grows c.others x) :
    (join args vars).rows r x = {x} * (args.map (·.rows r b)).prod := by
  obtain ⟨first, rest, rfl⟩ := List.exists_cons_of_ne_nil hne
  have own : first.rows r x = {x} * first.rows r b :=
    h first rest (.refl _) x (hx.mono fun v => List.mem_append_left _)
  show restRows r rest (first.rows r x) = _
  rw [List.map_cons, List.prod_cons, ← mul_assoc, ← own]
  refine restRows_eq_mul (c.others ++ first.freeVars) (fun a others hp y hy => ?_)
    fun y hy => ?_
  · have hp' : (first :: rest).Perm (a :: first :: others) := (hp.cons first).trans (.swap ..)
    rw [(hs a _ hp').rightRows_eq]
    refine h a _ hp' y (hy.mono fun v hv => ?_)
    simpa [Context.beside, freeVarsAll] using hv
  · exact (hx.mono fun v => List.mem_append_left _).trans
      ((grows_of_mem_rows first hy).mono fun v => List.mem_append_right _)

/-- **The rows of a steady plan may be found before other arguments of a join are evaluated**, and be
joined with theirs afterwards. -/
theorem Steady.rows_of_grows {c : Context} {p : Plan} (hp : p.Steady c) (hb : c.Admits b)
    (hx : b.Grows c.others x) : p.rows r x = {x} * p.rows r b := by
  induction hp generalizing b x with
  | statement hs =>
    simp only [rows, Statement.wantedRows_of_localVars_eq_nil hs.localVars,
      Statement.rows_of_filter_eq_none hs.filter]
    rw [Rows.singleton_mul_singleton_mul_of_extends hx.extended]
  | group hf hl =>
    simp only [rows, ExclusiveGroup.wantedRows_of_localVars_eq_nil hl,
      ExclusiveGroup.rows_of_filter_eq_none hf]
    rw [Rows.singleton_mul_singleton_mul_of_extends hx.extended]
  | @independent c members hs =>
    have whole := fun b => (Steady.independent (c := c) hs).rightRows_eq (r := r) b
    rw [← whole, ← whole]
    simp only [rightRows, Statement.joinedRows_of_filter_eq_none fun s hm => (hs s hm).filter]
    rw [Rows.singleton_mul_singleton_mul_of_extends hx.extended]
  | empty => exact (mul_zero _).symm
  | filter ha he ih =>
    rw [rows, rows, ih hb hx]
    refine Rows.filter_mul_right fun x' hx' y hy z hz => ?_
    obtain rfl := Multiset.mem_singleton.1 hx'
    rw [Expr.accepts_congr fun v hv => ha.get?_merge hb hx hy hz (he v hv)]
  | leftJoin hl hr hv ihl ihr =>
    rw [rows, rows, ihl hb hx]
    refine Rows.bind_singleton_mul_of_merge (fun y _ w hw => ?_) fun y hy z hz => ?_
    · rcases mem_optionalRows hw with rfl | hw
      · exact .refl w
      · exact (grows_of_mem_rows _ hw).extended
    have grown := hx.merge (grows_of_mem_rows _ hy).extended hz
    have admits := hb.behind hl hy
    have settled : ∀ v, v ∈ _ ∨ v ∈ _ → v ∈ _ → v ∈ _ := fun v hm ho =>
      List.mem_append.2 (hv v hm ho)
    rw [ihr admits grown]
    refine Rows.optionalRows_singleton_mul (Bindings.extends_right_of_merge hz) (fun w hw => ?_)
      fun w hw d hd => ?_
    · exact admits.agrees grown (grows_of_mem_rows _ hw) fun v hf => settled v (.inl hf)
    · refine Expr.acceptsAll_congr fun v hm => ?_
      exact admits.get?_merge grown (grows_of_mem_rows _ hw).extended hd
        fun ho => .inl (settled v (.inr hm) ho)
  | @union c args hs ih =>
    simp only [rows, unionRows_eq_sum]
    rw [List.map_congr_left fun a ha => ih a ha hb hx, List.sum_map_mul_left]
  | @distinct c a ha hv ih =>
    rw [rows, rows, ih hb hx]
    refine Rows.dedup_singleton_mul fun y hy z hz d hdy hdz => Bindings.ext_get? fun v => ?_
    by_cases hf : v ∈ a.freeVars
    · rw [← ha.get?_merge hb hx hy hdy (hv v hf), ← ha.get?_merge hb hx hz hdz (hv v hf)]
    · rw [(grows_of_mem_rows _ hy).get?_of_not_mem hf, (grows_of_mem_rows _ hz).get?_of_not_mem hf]
  | @join c args vars hne hs even ih =>
    have all : ∀ y, b.Grows c.others y →
        (Plan.join args vars).rows r y = {y} * (args.map (·.rows r b)).prod := fun y hy =>
      rows_join_eq_mul hne hs (fun a rest hp x hx => ih a rest hp (hb.beside rest) hx) hy
    rw [all x hx, all b (.refl _ b), Rows.singleton_mul_singleton_mul_of_extends hx.extended]

end Plan

end FederatedSparql
