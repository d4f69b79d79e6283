import FederatedSparql.Algebra.TriplePattern
import FederatedSparql.Proofs.Rdf.Rows

/-!
What it means for a solution to match a triple.

A solution matches if every position of the pattern resolves to the term of the triple.  Nothing
else is said about matching in what follows: binding a pattern first and merging afterwards is the
same as matching the pattern as it stands (`TriplePattern.match?_bind`), and a pattern without
variables has one solution at most (`TriplePattern.solutions_of_vars_eq_nil`).
-/

namespace FederatedSparql

namespace PatternTerm

variable {p : PatternTerm} {t : Term} {b c : Bindings}

/-- Meeting a term binds the variable at the position, if there is one, and nothing else. -/
theorem meet?_eq_some_iff :
    p.meet? t b = some c ↔
      p.resolve? c = some t ∧
        ∀ v, c.get? v = (b.get? v).or (if p = .var v then some t else none) := by
  cases p with
  | const u =>
    by_cases hu : u = t
    · simp only [meet?, hu, ↓reduceIte, Option.some.injEq, resolve?, reduceCtorEq,
        Option.or_none, true_and]
      exact ⟨fun h v => by rw [h], fun h => Bindings.ext_get? fun v => (h v).symm⟩
    · simp [meet?, resolve?, hu]
  | var n =>
    simp only [meet?, resolve?, Bindings.addEntry?_eq_some_iff, PatternTerm.var.injEq]
    constructor
    · rintro ⟨hn, hc⟩
      refine ⟨?_, fun v => by simp only [hc, eq_comm]⟩
      cases hb : b.get? n with
      | none => simp [hc, hb]
      | some s => simp [hc, hb, hn s hb]
    · rintro ⟨hn, hc⟩
      refine ⟨fun s hs => ?_, fun v => by simp only [hc, eq_comm]⟩
      simpa [hc, hs] using hn

theorem resolve?_of_extends (h : b.Extends c) (hp : p.resolve? b = some t) :
    p.resolve? c = some t := by
  cases p with
  | const u => exact hp
  | var n => exact h n t hp

theorem resolve?_congr (h : ∀ v, p = .var v → b.get? v = c.get? v) :
    p.resolve? b = p.resolve? c := by
  cases p with
  | const u => rfl
  | var n => exact h n rfl

/-- A position resolves as before once what a smaller mapping binds has been put into it. -/
theorem resolve?_bind (h : b.Extends c) : (p.bind b).resolve? c = p.resolve? c := by
  cases p with
  | const u => rfl
  | var n =>
    cases hb : b.get? n with
    | none => simp [bind, hb]
    | some s => simp [bind, resolve?, hb, h n s hb]

theorem bind_eq_var_iff {v : String} : p.bind b = .var v ↔ p = .var v ∧ b.get? v = none := by
  cases p with
  | const u => simp [bind]
  | var n =>
    cases hb : b.get? n with
    | none =>
      simp only [bind, hb, var.injEq]
      exact ⟨fun h => ⟨h, h ▸ hb⟩, fun h => h.1⟩
    | some s =>
      simp only [bind, hb, reduceCtorEq, var.injEq, false_iff, not_and]
      rintro rfl
      simp [hb]

end PatternTerm

namespace TriplePattern

variable {p : TriplePattern} {t : Triple} {b c d : Bindings} {v : String}

/-! ### Variables -/

theorem mem_vars :
    v ∈ p.vars ↔ p.subject = .var v ∨ p.predicate = .var v ∨ p.object = .var v := by
  have var?_iff : ∀ q : PatternTerm, q.var? = some v ↔ q = .var v := by
    intro q
    cases q <;> simp [PatternTerm.var?]
  simp only [vars, terms, List.mem_eraseDups, List.mem_filterMap, List.mem_cons, List.not_mem_nil,
    or_false, exists_eq_or_imp, exists_eq_left, var?_iff]

theorem mem_freeVars : v ∈ p.freeVars b ↔ v ∈ p.vars ∧ b.contains v = false := by
  simp [freeVars]

theorem hasFreeVars_iff : p.hasFreeVars b = true ↔ ∃ v ∈ p.vars, b.contains v = false := by
  have any_iff : ∀ q : PatternTerm, (q.var?.any fun v => !b.contains v) = true ↔
      ∃ v, q = .var v ∧ b.contains v = false := by
    intro q
    cases q <;> simp [PatternTerm.var?]
  simp only [hasFreeVars, terms, List.any_cons, List.any_nil, Bool.or_false, Bool.or_eq_true,
    any_iff, mem_vars]
  constructor
  · rintro (⟨v, h, hv⟩ | ⟨v, h, hv⟩ | ⟨v, h, hv⟩)
    · exact ⟨v, .inl h, hv⟩
    · exact ⟨v, .inr (.inl h), hv⟩
    · exact ⟨v, .inr (.inr h), hv⟩
  · rintro ⟨v, h | h | h, hv⟩
    · exact .inl ⟨v, h, hv⟩
    · exact .inr (.inl ⟨v, h, hv⟩)
    · exact .inr (.inr ⟨v, h, hv⟩)

theorem hasFreeVars_eq_false_iff :
    p.hasFreeVars b = false ↔ ∀ v ∈ p.vars, b.contains v = true := by
  rw [← Bool.not_eq_true, hasFreeVars_iff]
  simp

theorem bind_empty (p : TriplePattern) : p.bind ∅ = p := by
  obtain ⟨s, q, o⟩ := p
  cases s <;> cases q <;> cases o <;> rfl

/-- The variables that remain after binding are those that are not bound. -/
theorem mem_vars_bind : v ∈ (p.bind b).vars ↔ v ∈ p.vars ∧ b.get? v = none := by
  simp only [mem_vars, bind, PatternTerm.bind_eq_var_iff]
  tauto

/-! ### Matches -/

/-- Every position resolves to the term of the triple. -/
def Matches (p : TriplePattern) (b : Bindings) (t : Triple) : Prop :=
  p.subject.resolve? b = some t.subject ∧ p.predicate.resolve? b = some t.predicate ∧
    p.object.resolve? b = some t.object

theorem Matches.of_extends (h : b.Extends c) (hp : p.Matches b t) : p.Matches c t :=
  ⟨PatternTerm.resolve?_of_extends h hp.1, PatternTerm.resolve?_of_extends h hp.2.1,
    PatternTerm.resolve?_of_extends h hp.2.2⟩

theorem Matches.congr (h : ∀ v ∈ p.vars, b.get? v = c.get? v) (hp : p.Matches b t) :
    p.Matches c t := by
  obtain ⟨hs, hq, ho⟩ := hp
  refine ⟨?_, ?_, ?_⟩
  · rwa [← PatternTerm.resolve?_congr fun v hv => h v (mem_vars.2 (.inl hv))]
  · rwa [← PatternTerm.resolve?_congr fun v hv => h v (mem_vars.2 (.inr (.inl hv)))]
  · rwa [← PatternTerm.resolve?_congr fun v hv => h v (mem_vars.2 (.inr (.inr hv)))]

/-- A match binds every variable of the pattern. -/
theorem Matches.contains (hp : p.Matches b t) (hv : v ∈ p.vars) : b.contains v = true := by
  rw [Bindings.contains_iff]
  rcases mem_vars.1 hv with h | h | h
  · exact ⟨_, by simpa [h, PatternTerm.resolve?] using hp.1⟩
  · exact ⟨_, by simpa [h, PatternTerm.resolve?] using hp.2.1⟩
  · exact ⟨_, by simpa [h, PatternTerm.resolve?] using hp.2.2⟩

theorem matches_bind_iff (h : b.Extends c) : (p.bind b).Matches c t ↔ p.Matches c t := by
  simp only [Matches, bind, PatternTerm.resolve?_bind h]

/-- **The solution that a triple yields matches it and binds the variables of the pattern only.** -/
theorem match?_eq_some_iff :
    p.match? t = some c ↔ p.Matches c t ∧ ∀ v, c.contains v = true → v ∈ p.vars := by
  have opened : p.match? t = some c ↔ ∃ b₁, p.subject.meet? t.subject ∅ = some b₁ ∧
      ∃ b₂, p.predicate.meet? t.predicate b₁ = some b₂ ∧ p.object.meet? t.object b₂ = some c := by
    simp only [match?, Option.bind_eq_bind, Option.bind_eq_some_iff]
  rw [opened]
  simp only [PatternTerm.meet?_eq_some_iff]
  constructor
  · rintro ⟨b₁, ⟨hs, h₁⟩, b₂, ⟨hq, h₂⟩, ho, h₃⟩
    have e₂ : b₂.Extends c := fun v t ht => by simp [h₃, ht]
    have e₁ : b₁.Extends c := .trans (fun v t ht => by simp [h₂, ht]) e₂
    refine ⟨⟨PatternTerm.resolve?_of_extends e₁ hs, PatternTerm.resolve?_of_extends e₂ hq, ho⟩, ?_⟩
    intro v hv
    obtain ⟨u, hu⟩ := Bindings.contains_iff.1 hv
    rw [h₃, h₂, h₁] at hu
    rw [mem_vars]
    by_contra hn
    simp only [not_or] at hn
    simp [hn] at hu
  · rintro ⟨⟨hs, hq, ho⟩, hc⟩
    -- The two partial solutions are what the whole one binds at the positions so far.
    have at_position : ∀ {q : PatternTerm} {u : Term}, q.resolve? c = some u →
        ∀ v, q = .var v → c.get? v = some u := by
      rintro q u hqu v rfl
      exact hqu
    refine ⟨c.restrict fun v => p.subject = .var v, ⟨?_, fun v => ?_⟩,
      c.restrict fun v => p.subject = .var v ∨ p.predicate = .var v, ⟨?_, fun v => ?_⟩, ho,
      fun v => ?_⟩
    · rwa [PatternTerm.resolve?_congr (c := c)]
      intro v hv
      simp [Bindings.get?_restrict, hv]
    · by_cases h₁ : p.subject = .var v
      · simp [Bindings.get?_restrict, h₁, at_position hs v h₁]
      · simp [Bindings.get?_restrict, h₁]
    · rwa [PatternTerm.resolve?_congr (c := c)]
      intro v hv
      simp [Bindings.get?_restrict, hv]
    · by_cases h₁ : p.subject = .var v <;> by_cases h₂ : p.predicate = .var v
      · simp [Bindings.get?_restrict, h₁, at_position hs v h₁]
      · simp [Bindings.get?_restrict, h₁, h₂]
      · simp [Bindings.get?_restrict, h₁, h₂, at_position hq v h₂]
      · simp [Bindings.get?_restrict, h₁, h₂]
    · by_cases h₃ : p.object = .var v
      · simp only [Bindings.get?_restrict, h₃, ↓reduceIte, at_position ho v h₃]
        split <;> simp
      · by_cases hv : p.subject = .var v ∨ p.predicate = .var v
        · simp [Bindings.get?_restrict, hv, h₃]
        · have : c.get? v = none := by
            rw [← Bindings.contains_eq_false_iff, Bool.eq_false_iff]
            intro hcv
            rcases mem_vars.1 (hc v hcv) with h | h | h
            · exact hv (.inl h)
            · exact hv (.inr h)
            · exact h₃ h
          simp [Bindings.get?_restrict, hv, h₃, this]

/-- The solutions that extend a binding set by a match of a triple. -/
theorem match?_bind_merge?_eq_some_iff :
    (p.match? t).bind b.merge? = some d ↔
      b.Extends d ∧ p.Matches d t ∧ ∀ v, d.contains v = true → b.contains v = true ∨ v ∈ p.vars := by
  rw [Option.bind_eq_some_iff]
  constructor
  · rintro ⟨c, hc, hd⟩
    rw [match?_eq_some_iff] at hc
    refine ⟨Bindings.extends_left_of_merge hd, hc.1.of_extends (Bindings.extends_right_of_merge hd),
      fun v hv => ?_⟩
    rw [Bindings.contains_of_merge hd, Bool.or_eq_true] at hv
    exact hv.imp id (hc.2 v)
  · rintro ⟨hb, hp, hd⟩
    refine ⟨d.restrict fun v => v ∈ p.vars, match?_eq_some_iff.2 ⟨?_, fun v hv => ?_⟩,
      Bindings.merge?_eq_some_iff.2 ⟨fun v s u hs hu => ?_, fun v => ?_⟩⟩
    · exact hp.congr fun v hv => by simp [Bindings.get?_restrict, hv]
    · obtain ⟨u, hu⟩ := Bindings.contains_iff.1 hv
      rw [Bindings.get?_restrict] at hu
      by_contra hn
      simp [hn] at hu
    · rw [Bindings.get?_restrict] at hu
      split at hu
      · have := hb v s hs
        simp_all
      · simp at hu
    · rw [Bindings.get?_restrict]
      cases hbv : b.get? v with
      | some s => simp [hb v s hbv]
      | none =>
        by_cases hv : v ∈ p.vars
        · simp [hv]
        · have : d.get? v = none := by
            rw [← Bindings.contains_eq_false_iff, Bool.eq_false_iff]
            intro hdv
            rcases hd v hdv with h | h
            · simp [Bindings.contains, hbv] at h
            · exact hv h
          simp [hv, this]

/-- **Binding a pattern before it is matched is merging afterwards.** -/
theorem match?_bind (p : TriplePattern) (b : Bindings) (t : Triple) :
    ((p.bind b).match? t).bind b.merge? = (p.match? t).bind b.merge? := by
  refine Option.ext fun d => ?_
  rw [match?_bind_merge?_eq_some_iff, match?_bind_merge?_eq_some_iff]
  refine and_congr_right fun hb => and_congr (matches_bind_iff hb) (forall_congr' fun v => ?_)
  refine imp_congr_right fun _ => ?_
  rw [mem_vars_bind, ← Bindings.contains_eq_false_iff]
  cases b.contains v <;> simp

/-! ### Solutions -/

/-- The solutions that triples yield. -/
def solutions (triples : List Triple) (p : TriplePattern) : Rows := triples.filterMap p.match?

variable {triples : List Triple}

theorem mem_solutions : c ∈ p.solutions triples ↔ ∃ t ∈ triples, p.match? t = some c := by
  simp [solutions]

/-- A solution binds exactly the variables of the pattern. -/
theorem contains_of_mem_solutions (h : c ∈ p.solutions triples) (v : String) :
    c.contains v = true ↔ v ∈ p.vars := by
  obtain ⟨t, -, ht⟩ := mem_solutions.1 h
  rw [match?_eq_some_iff] at ht
  exact ⟨ht.2 v, ht.1.contains⟩

theorem solutions_append (xs ys : List Triple) (p : TriplePattern) :
    p.solutions (xs ++ ys) = p.solutions xs + p.solutions ys := by
  simp [solutions]

/-- Joining with a binding set and with the solutions of a pattern bound by it is joining with those
of the pattern as it stands. -/
theorem singleton_mul_solutions_bind (b : Bindings) (triples : List Triple) (p : TriplePattern) :
    {b} * (p.bind b).solutions triples = {b} * p.solutions triples := by
  simp only [Rows.singleton_mul, solutions, Multiset.filterMap_coe, List.filterMap_filterMap,
    match?_bind]

theorem match?_of_vars_eq_nil (hp : p.vars = []) (h : p.match? t = some c) : c = ∅ := by
  have hc := (match?_eq_some_iff.1 h).2
  refine Bindings.ext_get? fun v => ?_
  rw [Bindings.get?_empty, ← Bindings.contains_eq_false_iff, Bool.eq_false_iff]
  intro hv
  simpa [hp] using hc v hv

/-- A pattern without variables matches one triple only. -/
theorem triple_eq_of_vars_eq_nil {t' : Triple} (hp : p.vars = []) (h : p.match? t = some c)
    (h' : p.match? t' = some d) : t = t' := by
  have hm := (match?_eq_some_iff.1 h).1
  have hm' := (match?_eq_some_iff.1 h').1
  rw [match?_of_vars_eq_nil hp h] at hm
  rw [match?_of_vars_eq_nil hp h'] at hm'
  obtain ⟨s, q, o⟩ := t
  obtain ⟨s', q', o'⟩ := t'
  simp_all [Matches]

/-- **A pattern without variables has one solution at most**, if no triple occurs twice. -/
theorem solutions_of_vars_eq_nil (hp : p.vars = []) (hd : triples.Nodup) :
    p.solutions triples = if triples.any fun t => (p.match? t).isSome then 1 else 0 := by
  induction triples with
  | nil => rfl
  | cons t rest ih =>
    have hrest := List.nodup_cons.1 hd
    cases ht : p.match? t with
    | none =>
      have skipped : p.solutions (t :: rest) = p.solutions rest := by simp [solutions, ht]
      rw [skipped, ih hrest.2]
      simp [ht]
    | some c =>
      have alone : p.solutions rest = 0 := by
        rw [ih hrest.2, if_neg]
        simp only [List.any_eq_true, not_exists, not_and]
        intro t' ht' hm
        obtain ⟨d, hd⟩ := Option.isSome_iff_exists.1 hm
        exact hrest.1 (triple_eq_of_vars_eq_nil hp ht hd ▸ ht')
      have first : p.solutions (t :: rest) = {c} + p.solutions rest := by
        simp [solutions, ht]
      rw [first, alone, match?_of_vars_eq_nil hp ht]
      simp [ht, Rows.one_def]

end TriplePattern

end FederatedSparql
