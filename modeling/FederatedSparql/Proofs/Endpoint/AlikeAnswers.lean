import FederatedSparql.Proofs.Engine.Related
import FederatedSparql.Proofs.Plan.Agreement
import FederatedSparql.Proofs.Plan.FixedVars

/-!
Answers of a member to rows that agree on what is asked for.

* `Store.solutions_alike`: two rows that agree on the variables of patterns and of a condition have the
  same solutions, but for what is left out of either.
* `Registry.answers_get_related`, `Registry.answers_bound_related`: what is so of the triples is so of the
  member, which fails for both rows or for none.
* `Tag.filterMap_untagRow?_numbered`, `Store.boundSolutions_tagged`: numbered answers to two blocks belong
  to the same rows of both.
-/

namespace FederatedSparql

variable {D E : Set String} {vs : List String} {b b' c x x' : Bindings} {p : TriplePattern}
  {ps : List TriplePattern} {v : String}

/-! ### Patterns -/

namespace TriplePattern

theorem freeVars_congr (h : ∀ v ∈ p.vars, b.get? v = c.get? v) : p.freeVars b = p.freeVars c :=
  List.filter_congr fun v hv => by rw [Bindings.contains, Bindings.contains, h v hv]

theorem hasFreeVars_congr (h : ∀ v ∈ p.vars, b.get? v = c.get? v) :
    p.hasFreeVars b = p.hasFreeVars c := by
  rw [Bool.eq_iff_iff, hasFreeVars_iff, hasFreeVars_iff]
  refine exists_congr fun v => and_congr_right fun hv => ?_
  rw [Bindings.contains, Bindings.contains, h v hv]

end TriplePattern

/-! ### Stored triples -/

namespace Store

variable {triples : List Triple} {f : Option Expr}

variable (triples) in
theorem evaluateBgp_eqOn (hps : ∀ p ∈ ps, ∀ v ∈ p.vars, v ∈ D) (h : Bindings.EqOn D b b') :
    List.Forall₂ (Bindings.EqOn D) (evaluateBgp triples ps b) (evaluateBgp triples ps b') := by
  have extended : ∀ p ∈ ps, ∀ x x', Bindings.EqOn D x x' →
      List.Forall₂ (Bindings.EqOn D) (extend triples p x) (extend triples p x') := by
    intro p hp x x' hx
    simp only [extend, TriplePattern.match?_bind]
    refine List.rel_filterMap (R := (· = ·)) (fun t t' ht => ?_) (List.forall₂_same.2 fun _ _ => rfl)
    obtain rfl := ht
    cases hm : p.match? t with
    | none => exact .none
    | some m =>
      refine hx.merge_right fun v hv => hps p hp v ?_
      exact (TriplePattern.contains_of_mem_solutions
        (TriplePattern.mem_solutions.2 ⟨t, List.mem_singleton_self t, hm⟩) v).1 hv
  suffices ∀ xs xs', List.Forall₂ (Bindings.EqOn D) xs xs' →
      List.Forall₂ (Bindings.EqOn D) (ps.foldl (fun xs p => xs.flatMap (extend triples p)) xs)
        (ps.foldl (fun xs p => xs.flatMap (extend triples p)) xs') from
    this [b] [b'] (.cons h .nil)
  clear h
  induction ps with
  | nil => exact fun _ _ hs => hs
  | cons p ps ih =>
    rw [List.forall_mem_cons] at hps extended
    exact fun xs xs' hs => ih hps.2 extended.2 _ _ (List.rel_flatMap hs extended.1)

theorem adds_of_mem_evaluateBgp (h : c ∈ evaluateBgp triples ps b)
    (hps : ∀ p ∈ ps, ∀ v ∈ p.vars, v ∈ vs) : b.Adds vs c := by
  have hc : c ∈ bgpRows triples ps b := by
    rw [← coe_evaluateBgp]
    exact h
  refine Bindings.Grows.adds ⟨extends_of_mem_bgpRows hc, fun v hv => ?_⟩
  exact ((contains_of_mem_bgpRows hc v).1 hv).imp_right fun ⟨p, hp, hv⟩ => hps p hp v hv

/-- The solutions that meet a condition, under rows that agree on what is looked at. -/
theorem filter_evaluateBgp_alike (hps : ∀ p ∈ ps, ∀ v ∈ p.vars, v ∈ D ∧ v ∈ vs)
    (hf : ∀ v ∈ Expr.varsOf f, v ∈ D) (h : Bindings.EqOn D b b') :
    List.Forall₂ (Bindings.Alike D vs b b')
      ((evaluateBgp triples ps b).filter (Expr.acceptsAll f))
      ((evaluateBgp triples ps b').filter (Expr.acceptsAll f)) := by
  have rows := evaluateBgp_eqOn triples (fun p hp v hv => (hps p hp v hv).1) h
  have adds : ∀ {c x}, x ∈ evaluateBgp triples ps c → c.Adds vs x := fun hx =>
    adds_of_mem_evaluateBgp hx fun p hp v hv => (hps p hp v hv).2
  have both := (List.forall₂_and_left _ _).2 ⟨fun x hx => adds hx,
    ((List.forall₂_and_left _ _).2 ⟨fun x hx => adds hx, rows.flip⟩).flip⟩
  refine forall₂_filter (both.imp fun x x' hx => ⟨hx.2.2, hx.1, hx.2.1⟩) fun x x' hx => ?_
  exact Expr.acceptsAll_congr fun v hv => hx.eqOn (hf v hv)

/-- A projection to what is asked for leaves out local variables that were not bound before. -/
theorem get?_projectRow_wanted {free localVars : List String}
    (hx : ∀ v, x.contains v = true → b.contains v = true ∨ v ∈ free) (v : String) :
    (projectRow (Environment.wanted free localVars) b x).get? v =
      if v ∈ localVars ∧ b.contains v = false then none else x.get? v := by
  unfold Environment.wanted
  split
  · next hempty => simp [projectRow, List.isEmpty_iff.1 hempty]
  · rw [projectRow, Bindings.get?_project]
    simp only [List.mem_append, List.mem_filter, Bindings.mem_names_iff]
    cases hb : b.contains v with
    | true => simp
    | false =>
      by_cases hl : v ∈ localVars
      · simp [hl]
      · simp only [hl, List.contains_eq_mem, decide_false, Bool.not_false, and_true,
          Bool.false_eq_true, or_false, ↓reduceIte, ite_eq_left_iff]
        intro hf
        refine (Bindings.contains_eq_false_iff.1 (Bool.eq_false_iff.2 fun hc => ?_)).symm
        rcases hx v hc with h | h
        · rw [hb] at h
          cases h
        · exact hf h

/-- Rows that leave out different variables agree on those that both keep or both leave out. -/
theorem projectRow_alike {free l l' : List String} (hb : Bindings.EqOn D b b')
    (h : Bindings.Alike D vs b b' x x')
    (hx : ∀ v, x.contains v = true → b.contains v = true ∨ v ∈ free)
    (hx' : ∀ v, x'.contains v = true → b'.contains v = true ∨ v ∈ free)
    (hE : ∀ v ∈ E, v ∈ D ∧ (v ∈ vs → (v ∈ l ↔ v ∈ l'))) :
    Bindings.Alike E vs b b' (projectRow (Environment.wanted free l) b x)
      (projectRow (Environment.wanted free l') b' x') where
  eqOn v hv := by
    have same := h.eqOn (hE v hv).1
    rw [get?_projectRow_wanted hx, get?_projectRow_wanted hx', ← hb.contains_eq (hE v hv).1, same]
    by_cases hvs : v ∈ vs
    · simp only [(hE v hv).2 hvs]
    · -- Whatever the row binds beyond `vs` was bound before.
      cases hbv : b.contains v with
      | true => simp
      | false =>
        have unbound : x'.get? v = none := by
          rw [← same, Option.eq_none_iff_forall_ne_some]
          intro t ht
          rcases h.left v t ht with hb' | ⟨-, hm⟩
          · rw [Bindings.contains, hb'] at hbv
            cases hbv
          · exact hvs hm
        simp [unbound]
  left v t ht := by
    rw [get?_projectRow_wanted hx] at ht
    split at ht
    · simp at ht
    · exact h.left v t ht
  right v t ht := by
    rw [get?_projectRow_wanted hx'] at ht
    split at ht
    · simp at ht
    · exact h.right v t ht

/-- The answers of one request to two rows that leave out different variables. -/
theorem solutions_alike {free l l' : List String}
    (hps : ∀ p ∈ ps, ∀ v ∈ p.vars, v ∈ D ∧ v ∈ vs) (hf : ∀ v ∈ Expr.varsOf f, v ∈ D)
    (hfree : ∀ p ∈ ps, ∀ v ∈ p.vars, b.contains v = true ∨ v ∈ free)
    (hE : ∀ v ∈ E, v ∈ D ∧ (v ∈ vs → (v ∈ l ↔ v ∈ l'))) (h : Bindings.EqOn D b b') :
    List.Forall₂ (Bindings.Alike E vs b b')
      (solutions triples ps b f (Environment.wanted free l))
      (solutions triples ps b' f (Environment.wanted free l')) := by
  have within : ∀ {c : Bindings}, (∀ p ∈ ps, ∀ v ∈ p.vars, c.contains v = true ∨ v ∈ free) →
      ∀ x ∈ (evaluateBgp triples ps c).filter (Expr.acceptsAll f), ∀ v, x.contains v = true →
        c.contains v = true ∨ v ∈ free := by
    intro c hc x hx v hv
    have hmem : x ∈ bgpRows triples ps c := by
      rw [← coe_evaluateBgp]
      exact List.mem_of_mem_filter hx
    rcases (contains_of_mem_bgpRows hmem v).1 hv with hb | ⟨p, hp, hv⟩
    · exact .inl hb
    · exact hc p hp v hv
  have hfree' : ∀ p ∈ ps, ∀ v ∈ p.vars, b'.contains v = true ∨ v ∈ free := fun p hp v hv => by
    rw [← h.contains_eq (hps p hp v hv).1]
    exact hfree p hp v hv
  have rows : List.Forall₂ (Bindings.Alike D vs b b')
      ((evaluateBgp triples ps b).filter (Expr.acceptsAll f))
      ((evaluateBgp triples ps b').filter (Expr.acceptsAll f)) :=
    filter_evaluateBgp_alike hps hf h
  have both := (List.forall₂_and_left _ _).2 ⟨within hfree,
    ((List.forall₂_and_left _ _).2 ⟨within hfree', rows.flip⟩).flip⟩
  exact List.rel_map (fun x x' hx => projectRow_alike h hx.2.2 hx.1 hx.2.1 hE) both

end Store

/-! ### Answers of members -/

namespace Registry

variable {r : Registry} {endpoint : String} {f : Option Expr}

theorem answers_has_congr (h : ∀ v ∈ p.vars, b.get? v = b'.get? v) :
    r.answers endpoint (.has p b) = r.answers endpoint (.has p b') := by
  unfold answers
  split
  · simp only [Member.answer, Store.answer, Store.hasMatch, TriplePattern.bind_congr h]
    rfl
  · rfl

theorem answers_related {T : Answer → Answer → Prop} {q q' : Request}
    (h : ∀ m : Member, SameOutcome T (m.answer q) (m.answer q')) :
    SameOutcome T (r.answers endpoint q) (r.answers endpoint q') := by
  unfold answers
  split
  · next m _ => exact h m
  · exact .error _

/-- A member that fails, fails whatever bindings it is given. -/
theorem answers_get_related {R : Bindings → Bindings → Prop} {proj proj' : Option (List String)}
    (h : ∀ triples, List.Forall₂ R (Store.solutions triples ps b f proj)
      (Store.solutions triples ps b' f proj')) :
    SameOutcome (fun a a' : Answer => List.Forall₂ R a.toRows a'.toRows)
      (r.answers endpoint (.get ps b f proj)) (r.answers endpoint (.get ps b' f proj')) := by
  refine answers_related fun m => ?_
  by_cases hm : m.failRequests = true
  · have failed : ∀ c proj, m.answer (.get ps c f proj) =
        .error (.endpoint (m.failure (.get ps c f proj))) := fun _ _ => if_pos hm
    rw [failed, failed]
    exact .error _
  · have answered : ∀ c proj, m.answer (.get ps c f proj) =
        .ok (.rows (Store.solutions m.triples ps c f proj)) := fun _ _ => if_neg hm
    rw [answered, answered]
    exact .ok (h m.triples)

theorem answers_bound_related {R : Bindings → Bindings → Prop} {block block' : List Bindings}
    (h : ∀ triples, List.Forall₂ R (Store.boundSolutions triples ps block f)
      (Store.boundSolutions triples ps block' f)) :
    SameOutcome (fun a a' : Answer => List.Forall₂ R a.toRows a'.toRows)
      (r.answers endpoint (.bound ps block f)) (r.answers endpoint (.bound ps block' f)) := by
  refine answers_related fun m => ?_
  by_cases hm : m.failRequests = true
  · have failed : ∀ rows, m.answer (.bound ps rows f) =
        .error (.endpoint (m.failure (.bound ps rows f))) := fun _ => if_pos hm
    rw [failed, failed]
    exact .error _
  · have answered : ∀ rows, m.answer (.bound ps rows f) =
        .ok (.rows (Store.boundSolutions m.triples ps rows f)) := fun _ => if_neg hm
    rw [answered, answered]
    exact .ok (h m.triples)

end Registry

/-! ### Numbered answers -/

theorem forall₂_zipIdx {α : Type} {R : α → α → Prop} {xs ys : List α} (h : List.Forall₂ R xs ys) :
    List.Forall₂ (fun x y => x.2 = y.2 ∧ R x.1 y.1 ∧ xs[x.2]? = some x.1 ∧ ys[y.2]? = some y.1)
      xs.zipIdx ys.zipIdx := by
  refine List.forall₂_of_length_eq_of_get (by simp [h.length_eq]) fun i hi hj => ?_
  rw [List.length_zipIdx] at hi hj
  rw [List.get_eq_getElem, List.get_eq_getElem, List.getElem_zipIdx, List.getElem_zipIdx,
    Nat.zero_add]
  exact ⟨rfl, h.get hi hj, List.getElem?_eq_getElem hi, List.getElem?_eq_getElem hj⟩

theorem rel_of_getElem? {α : Type} {R : α → α → Prop} {xs ys : List α} (h : List.Forall₂ R xs ys)
    {i : Nat} {x y : α} (hx : xs[i]? = some x) (hy : ys[i]? = some y) : R x y := by
  obtain ⟨hi, rfl⟩ := List.getElem?_eq_some_iff.1 hx
  obtain ⟨hj, rfl⟩ := List.getElem?_eq_some_iff.1 hy
  exact h.get hi hj

namespace Tag

/-- A tag takes the place of what the row binds to its variable, and leaves nothing there. -/
theorem untagRow?_insert_erase {row : Bindings} {tag : Term} {n : Nat}
    (htag : index? (Text.trimBlanks tag.text.toList) = some n) :
    untagRow? (row.insert indexVar tag) = some (n, row.erase indexVar) := by
  have erased : (row.insert indexVar tag).erase indexVar = row.erase indexVar := by
    refine Bindings.ext_get? fun v => ?_
    simp only [Bindings.erase, Bindings.get?_restrict, Bindings.get?_insert]
    by_cases hv : v = indexVar <;> simp [hv]
  simp [untagRow?, erased, htag]

/-- Answers to the same row of either block, still with its number. -/
def Tagged (D : Set String) (vs : List String) (block block' : List Bindings)
    (row row' : Bindings) : Prop :=
  ∃ (i : Nat) (b b' x x' : Bindings), block[i]? = some b ∧ block'[i]? = some b' ∧
    row = tagRow x i ∧ row' = tagRow x' i ∧ Bindings.Alike D vs b b' x x'

/-- Answers to the same row of either block. -/
def Numbered (D : Set String) (vs : List String) (block block' : List Bindings)
    (t t' : Nat × Bindings) : Prop :=
  t.1 = t'.1 ∧ ∃ b b', block[t.1]? = some b ∧ block'[t.1]? = some b' ∧
    Bindings.Alike D vs b b' t.2 t'.2

theorem filterMap_untagRow?_numbered {block block' rows rows' : List Bindings}
    (hsize : block.length ≤ numberLimit)
    (h : List.Forall₂ (Tagged D vs block block') rows rows') :
    List.Forall₂ (Numbered D vs block block') (rows.filterMap untagRow?)
      (rows'.filterMap untagRow?) := by
  refine List.rel_filterMap (fun row row' hrow => ?_) h
  obtain ⟨i, b, b', x, x', hb, hb', rfl, rfl, hx⟩ := hrow
  have hi : i < numberLimit :=
    Nat.lt_of_lt_of_le (List.getElem?_eq_some_iff.1 hb).1 hsize
  rw [tagRow, tagRow, untagRow?_insert_erase (index?_text_ofInt hi),
    untagRow?_insert_erase (index?_text_ofInt hi)]
  exact .some ⟨rfl, b, b', hb, hb', hx.restrict (· != indexVar)⟩

end Tag

theorem Store.boundSolutions_tagged {triples : List Triple} {f : Option Expr}
    {block block' : List Bindings} (hps : ∀ p ∈ ps, ∀ v ∈ p.vars, v ∈ D ∧ v ∈ vs)
    (hf : ∀ v ∈ Expr.varsOf f, v ∈ D) (h : List.Forall₂ (Bindings.EqOn D) block block') :
    List.Forall₂ (Tag.Tagged D vs block block') (boundSolutions triples ps block f)
      (boundSolutions triples ps block' f) := by
  refine List.rel_flatMap (forall₂_zipIdx h) fun ⟨b, i⟩ ⟨b', i'⟩ hb => ?_
  obtain ⟨rfl, hab, hi, hi'⟩ := hb
  rw [List.forall₂_map_left_iff, List.forall₂_map_right_iff]
  exact (filter_evaluateBgp_alike hps hf hab).imp fun x x' hx =>
    ⟨i, b, b', x, x', hi, hi', rfl, rfl, hx⟩

end FederatedSparql
