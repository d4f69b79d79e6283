import FederatedSparql.Proofs.Plan.Steady

/-!
Steady plans may take rows in blocks.

* `Plan.Context.Even.hasFreeVarsFor`: where a statement stands evenly beside the other arguments of a
  join, all rows leave some of its variables free or none does, whichever of the others come first.
* `Plan.Steady.takesBlocks`: so a steady plan may take rows in blocks.
* `Plan.Steady.evaluate_comes`: and evaluation brings its rows.
-/

namespace FederatedSparql.Plan

variable {r : Registry} {b x y : Bindings} {v : String} {size : Nat} {c : Context}

/-- Some arguments of a join have made the row of a binding set. -/
structure Reached (b : Bindings) (done : List Plan) (x : Bindings) : Prop where
  grows : b.Grows (freeVarsAll done) x
  certain : ∀ a ∈ done, ∀ v ∈ a.certainVars, x.contains v = true

theorem Reached.append (done : List Plan) {a : Plan} {c : Context} (h : Reached b done x)
    (ha : a.Steady c) (hy : y ∈ a.rightRows r x) : Reached b (done ++ [a]) y := by
  rw [ha.rightRows_eq] at hy
  have grown := grows_of_mem_rows a hy
  refine ⟨?_, fun a' ha' v hv => ?_⟩
  · refine (h.grows.mono fun v hv => ?_).trans (grown.mono fun v hv => ?_)
    · obtain ⟨a', ha', hv⟩ := mem_freeVarsAll.1 hv
      exact mem_freeVarsAll.2 ⟨a', List.mem_append_left _ ha', hv⟩
    · exact mem_freeVarsAll.2 ⟨a, List.mem_append_right _ (List.mem_singleton_self a), hv⟩
  · rcases List.mem_append.1 ha' with hd | hs
    · exact grown.extended.contains (h.certain a' hd v hv)
    · obtain rfl := List.mem_singleton.1 hs
      exact ha.contains hy hv

/-- Rows bind the same variables but for those that some argument may leave free. -/
theorem Reached.contains_eq {done siblings : List Plan} (hdone : ∀ a ∈ done, a ∈ siblings)
    (hb : c.Admits b) (hx : Reached b done x) (hy : Reached b done y)
    (hv : LooseIn siblings v → v ∈ c.certain) : x.contains v = y.contains v := by
  by_cases hf : v ∈ freeVarsAll done
  · obtain ⟨a, ha, hf⟩ := mem_freeVarsAll.1 hf
    by_cases hc : v ∈ a.certainVars
    · rw [hx.certain a ha v hc, hy.certain a ha v hc]
    · have bound := hb.certain v (hv ⟨a, hdone a ha, hf, hc⟩)
      rw [hx.grows.extended.contains bound, hy.grows.extended.contains bound]
  · rw [Bindings.contains, Bindings.contains, hx.grows.get?_of_not_mem hf,
      hy.grows.get?_of_not_mem hf]

/-- **Beside the other arguments of a join, all rows leave some variable of an even statement free or
none does.** -/
theorem Context.Even.hasFreeVarsFor {s : Statement} {done siblings : List Plan}
    (h : c.Even siblings s) (hdone : ∀ a ∈ done, a ∈ siblings) (hb : c.Admits b)
    (hx : Reached b done x) (hy : Reached b done y) :
    s.hasFreeVarsFor x = s.hasFreeVarsFor y := by
  rcases h with ⟨v, hv, hp, ho⟩ | he
  · have free : ∀ {z}, Reached b done z → s.hasFreeVarsFor z = true := by
      intro z hz
      refine TriplePattern.hasFreeVars_iff.2 ⟨v, Statement.mem_freeVars.1 hv, ?_⟩
      by_contra hz'
      rcases hz.grows.within v (by simpa using hz') with hbv | hf
      · rcases hb.possible v hbv with hp' | ho'
        · exact hp hp'
        · exact ho (List.mem_append_left _ ho')
      · obtain ⟨a, ha, hf⟩ := mem_freeVarsAll.1 hf
        exact ho (List.mem_append_right _ (mem_freeVarsAll.2 ⟨a, hdone a ha, hf⟩))
    rw [free hx, free hy]
  · rw [Bool.eq_iff_iff, Statement.hasFreeVarsFor, Statement.hasFreeVarsFor,
      TriplePattern.hasFreeVars_iff, TriplePattern.hasFreeVars_iff]
    refine exists_congr fun v => and_congr_right fun hv => ?_
    rw [hx.contains_eq hdone hb hy (he v (Statement.mem_freeVars.2 hv))]

/-- Further arguments of a join may take the rows that those before them have made. -/
theorem restTakesBlocks_of_steady (done : List Plan) {args : List Plan} {X : Rows} (hb : c.Admits b)
    (hs : ∀ a rest, (done ++ args).Perm (a :: rest) → a.Steady (c.beside rest))
    (even : ∀ a rest, (done ++ args).Perm (a :: rest) → ∀ s ∈ a.remains, c.Even rest s)
    (takes : ∀ a rest, (done ++ args).Perm (a :: rest) → ∀ x, a.Fits r size →
      (c.beside rest).Admits x → a.TakesBlocks r size x)
    (hX : ∀ x ∈ X, Reached b done x) (hf : RestFits r size args X) :
    RestTakesBlocks r size args X := by
  induction args generalizing done X with
  | nil => trivial
  | cons a args ih =>
    have place : (done ++ a :: args).Perm (a :: (done ++ args)) := List.perm_middle
    have earlier : ∀ a' ∈ done, a' ∈ done ++ args := fun a' => List.mem_append_left _
    refine ⟨?_, ?_⟩
    · cases a with
      | statement s =>
        refine ⟨hf.numberable, fun x hx y hy => ?_⟩
        exact (even _ _ place s (List.mem_singleton_self s)).hasFreeVarsFor earlier hb (hX x hx)
          (hX y hy)
      | independent members => exact hf.numberable
      | _ =>
        refine fun x hx => takes _ _ place x (hf.fits hx) ((hb.beside _).of_grows ?_)
        refine (hX x hx).grows.mono fun v hv => List.mem_append_right _ ?_
        obtain ⟨a', ha', hv⟩ := mem_freeVarsAll.1 hv
        exact mem_freeVarsAll.2 ⟨a', earlier a' ha', hv⟩
    · rw [List.append_cons] at hs even takes
      refine ih (done ++ [a]) hs even takes (fun y hy => ?_) hf.tail
      obtain ⟨x, hx, hy⟩ := Multiset.mem_bind.1 hy
      exact .append done (hX x hx) (hs a (done ++ args) (List.append_cons .. ▸ place)) hy

theorem unionTakesBlocks_of_forall {args : List Plan}
    (hf : size ≤ Tag.numberLimit ∨ unionWidth r args ≤ Tag.numberLimit)
    (h : ∀ a ∈ args, a.Fits r size → a.TakesBlocks r size b) :
    UnionTakesBlocks r size args b := by
  induction args with
  | nil => trivial
  | cons a rest ih =>
    refine ⟨h a List.mem_cons_self (hf.imp_right fun hw => le_trans (Nat.le_add_right ..) hw), ?_⟩
    exact ih (hf.imp_right fun hw => le_trans (Nat.le_add_left ..) hw)
      fun a' ha' => h a' (List.mem_cons_of_mem a ha')

/-- **A steady plan may take rows in blocks.** -/
theorem Steady.takesBlocks {p : Plan} (hp : p.Steady c) (hf : p.Fits r size) (hb : c.Admits b) :
    p.TakesBlocks r size b := by
  induction hp generalizing b with
  | statement => trivial
  | group => trivial
  | independent => trivial
  | empty => trivial
  | filter _ _ ih => exact ih hf hb
  | @leftJoin _ left right _ hl _ _ ihl ihr =>
    refine ⟨ihl (hf.mono (Nat.le_mul_of_pos_right _ (width_pos right))) hb, fun x hx => ?_⟩
    exact ihr (hf.mono (Nat.le_mul_of_pos_left _ (width_pos left))) (hb.behind hl hx)
  | union _ ih => exact unionTakesBlocks_of_forall hf fun a ha hfa => ih a ha hfa hb
  | distinct _ _ ih => exact ih hf hb
  | @join c args vars hne hs even ih =>
    obtain ⟨first, rest, rfl⟩ := List.exists_cons_of_ne_nil hne
    refine ⟨ih first rest (.refl _) hf.head (hb.beside rest), ?_⟩
    refine restTakesBlocks_of_steady [first] hb hs even
      (fun a rest hp x hfa hx => ih a rest hp hfa hx) (fun x hx => ?_) (hf.behind b)
    have own := hs first rest (.refl _)
    refine .append (r := r) [] ⟨.refl _ b, fun _ h => absurd h List.not_mem_nil⟩ own ?_
    rwa [own.rightRows_eq]

theorem Context.start_admits : Context.start.Admits ∅ where
  certain _ hv := absurd hv List.not_mem_nil
  possible v hv := by
    obtain ⟨t, ht⟩ := Bindings.contains_iff.1 hv
    simp at ht

/-- **Evaluating a steady plan brings its rows.** -/
theorem Steady.evaluate_comes {env : Environment} {p : Plan} (hp : p.Steady .start)
    (hr : env.registry.Sound) (hw : p.WellSourced env.registry)
    (hf : p.Fits env.registry env.config.boundJoinBlockSize) :
    (env.evaluate p ∅).Comes env.registry.answers (p.rows env.registry ∅) :=
  Environment.evaluate_comes hr p hw rfl (hp.takesBlocks hf Context.start_admits)

end FederatedSparql.Plan
