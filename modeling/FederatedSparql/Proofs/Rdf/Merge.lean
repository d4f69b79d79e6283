import FederatedSparql.Rdf.Bindings

/-!
Merging solution mappings.

* `Bindings.merge?_eq_some_iff`: two mappings merge exactly if they give the same term to every
  variable that both bind, and the result binds what either binds.
* `Bindings.merge?_comm`, `Bindings.merge?_assoc`, `Bindings.merge?_self`, `Bindings.merge?_empty`:
  merging is a partial commutative idempotent monoid.
* `Bindings.merge?_of_extends`: merging into a mapping that extends the other one changes nothing.
* `Bindings.get?_overriding`: of two mappings, merged or not, one may take precedence.
* `Bindings.merge_exact`: the laws of merging together, and of leaving out variables.
-/

namespace FederatedSparql.Bindings

variable {a b c : Bindings} {v : String} {t : Term}

/-! ### Agreement and extension -/

/-- Two mappings agree if they give the same term to every variable that both bind. -/
def Agrees (a b : Bindings) : Prop :=
  ∀ v s t, a.get? v = some s → b.get? v = some t → s = t

/-- The second mapping binds whatever the first one binds, to the same terms. -/
def Extends (a b : Bindings) : Prop := ∀ v t, a.get? v = some t → b.get? v = some t

theorem Agrees.symm (h : Agrees a b) : Agrees b a := fun v s t hs ht => (h v t s ht hs).symm

theorem Agrees.refl (a : Bindings) : Agrees a a := fun v s t hs ht => by simp_all

theorem Extends.refl (a : Bindings) : Extends a a := fun _ _ h => h

theorem Extends.trans (hab : Extends a b) (hbc : Extends b c) : Extends a c :=
  fun v t h => hbc v t (hab v t h)

theorem Extends.agrees (h : Extends a b) : Agrees a b := by
  intro v s t hs ht
  have := h v s hs
  simp_all

theorem Extends.empty (a : Bindings) : Extends ∅ a := fun v t h => by simp at h

theorem contains_iff : a.contains v = true ↔ ∃ t, a.get? v = some t := by
  simp [contains, Option.isSome_iff_exists]

theorem contains_eq_false_iff : a.contains v = false ↔ a.get? v = none := by
  simp [contains]

theorem Extends.contains (h : Extends a b) (hv : a.contains v = true) : b.contains v = true := by
  obtain ⟨t, ht⟩ := contains_iff.1 hv
  exact contains_iff.2 ⟨t, h v t ht⟩

/-! ### Entries -/

theorem lookupEntry_of_mem {es : List (String × Term)}
    (h : es.Pairwise fun x y => x.1 < y.1) {e : String × Term} (he : e ∈ es) :
    lookupEntry e.1 es = some e.2 := by
  induction es with
  | nil => simp at he
  | cons x rest ih =>
    obtain ⟨n, t⟩ := x
    have hx := List.pairwise_cons.1 h
    rcases List.mem_cons.1 he with rfl | he
    · simp [lookupEntry]
    · have hne : n ≠ e.1 := fun heq => String.lt_irrefl n (by simpa [heq] using hx.1 e he)
      simpa [lookupEntry, hne] using ih hx.2 he

theorem mem_of_lookupEntry {es : List (String × Term)} (h : lookupEntry v es = some t) :
    (v, t) ∈ es := by
  induction es with
  | nil => simp [lookupEntry] at h
  | cons x rest ih =>
    obtain ⟨n, u⟩ := x
    by_cases hn : n = v
    · simp_all [lookupEntry]
    · exact List.mem_cons_of_mem _ (ih (by simpa [lookupEntry, hn] using h))

/-- A name before all entries has none. -/
theorem lookupEntry_eq_none_of_lt {es : List (String × Term)} (h : ∀ e ∈ es, v < e.1) :
    lookupEntry v es = none := by
  cases hl : lookupEntry v es with
  | none => rfl
  | some t => exact absurd (h _ (mem_of_lookupEntry hl)) (String.lt_irrefl v)

/-- The entries of a mapping are its lookups. -/
theorem mem_entries_iff : (v, t) ∈ a.entries ↔ a.get? v = some t :=
  ⟨fun h => lookupEntry_of_mem a.ascending h, mem_of_lookupEntry⟩

/-- The names of a mapping are the variables it binds. -/
theorem mem_names_iff : v ∈ a.names ↔ a.contains v = true := by
  rw [contains_iff]
  constructor
  · intro h
    obtain ⟨⟨w, t⟩, he, rfl⟩ := List.mem_map.1 h
    exact ⟨t, mem_entries_iff.1 he⟩
  · rintro ⟨t, ht⟩
    exact List.mem_map.2 ⟨(v, t), mem_entries_iff.2 ht, rfl⟩

theorem addEntry?_eq_some_iff {e : String × Term} :
    a.addEntry? e = some c ↔
      (∀ s, a.get? e.1 = some s → s = e.2) ∧
        ∀ v, c.get? v = (a.get? v).or (if v = e.1 then some e.2 else none) := by
  unfold addEntry?
  cases h : a.get? e.1 with
  | none =>
    simp only [Option.some.injEq, reduceCtorEq, false_implies, implies_true, true_and]
    constructor
    · rintro rfl v
      by_cases hv : v = e.1 <;> simp [hv, h]
    · intro hc
      refine ext_get? fun v => ?_
      by_cases hv : v = e.1 <;> simp [hv, h, hc]
  | some s =>
    by_cases hs : s = e.2
    · simp only [hs, ↓reduceIte, Option.some.injEq, forall_eq', true_and]
      have same : ∀ v, (a.get? v).or (if v = e.1 then some e.2 else none) = a.get? v := by
        intro v
        by_cases hv : v = e.1
        · simp [hv, h, hs]
        · simp [hv]
      simp only [same]
      exact ⟨fun h v => by rw [h], fun h => ext_get? fun v => (h v).symm⟩
    · simp [hs]

theorem foldlM_addEntry?_eq_some_iff {es : List (String × Term)}
    (hes : es.Pairwise fun x y => x.1 < y.1) :
    es.foldlM addEntry? a = some c ↔
      (∀ v s t, a.get? v = some s → lookupEntry v es = some t → s = t) ∧
        ∀ v, c.get? v = (a.get? v).or (lookupEntry v es) := by
  induction es generalizing a with
  | nil =>
    simp only [List.foldlM_nil, lookupEntry, reduceCtorEq, false_implies, implies_true,
      true_and, Option.or_none]
    exact ⟨fun h v => by cases h; rfl, fun h => congrArg some (ext_get? fun v => (h v).symm)⟩
  | cons e rest ih =>
    obtain ⟨n, u⟩ := e
    have hx := List.pairwise_cons.1 hes
    have fresh : lookupEntry n rest = none := lookupEntry_eq_none_of_lt hx.1
    rw [List.foldlM_cons, Option.bind_eq_bind, Option.bind_eq_some_iff]
    simp only [ih hx.2, addEntry?_eq_some_iff, lookupEntry]
    constructor
    · rintro ⟨d, ⟨hn, hd⟩, hag, hc⟩
      constructor
      · intro v s t hs ht
        by_cases hv : n = v
        · subst hv
          exact (hn s hs).trans (by simpa using ht)
        · exact hag v s t (by simp [hd, hs]) (by simpa [hv] using ht)
      · intro v
        rw [hc, hd]
        by_cases hv : n = v
        · subst hv; simp [fresh]
        · simp [hv, Ne.symm hv]
    · rintro ⟨hag, hc⟩
      have hn : ∀ s, a.get? n = some s → s = u := fun s hs => hag n s u hs (by simp)
      obtain ⟨d, hd⟩ : ∃ d, a.addEntry? (n, u) = some d := by
        unfold addEntry?
        cases ha : a.get? n with
        | none => simp
        | some s => simp [hn s ha]
      have hd' := addEntry?_eq_some_iff.1 hd
      refine ⟨d, hd', ?_, ?_⟩
      · intro v s t hs ht
        have hv : n ≠ v := by rintro rfl; simp [fresh] at ht
        exact hag v s t (by simpa [hd'.2, Ne.symm hv] using hs) (by simpa [hv] using ht)
      · intro v
        rw [hc, hd'.2]
        by_cases hv : n = v
        · subst hv; simp [fresh]
        · simp [hv, Ne.symm hv]

/-! ### Merging -/

/-- **Two mappings merge exactly if they agree**, and the result binds what either binds. -/
theorem merge?_eq_some_iff :
    a.merge? b = some c ↔ Agrees a b ∧ ∀ v, c.get? v = (a.get? v).or (b.get? v) :=
  foldlM_addEntry?_eq_some_iff b.ascending

/-- Mappings that agree have a merge. -/
theorem Agrees.exists_merge (h : Agrees a b) : ∃ c, a.merge? b = some c := by
  suffices ∀ (es : List (String × Term)) (a : Bindings),
      es.Pairwise (fun x y => x.1 < y.1) →
      (∀ v s t, a.get? v = some s → lookupEntry v es = some t → s = t) →
      ∃ c, es.foldlM addEntry? a = some c from this b.entries a b.ascending h
  intro es
  induction es with
  | nil => exact fun a _ _ => ⟨a, rfl⟩
  | cons e rest ih =>
    obtain ⟨n, u⟩ := e
    intro a hes hag
    have hx := List.pairwise_cons.1 hes
    obtain ⟨d, hd⟩ : ∃ d, a.addEntry? (n, u) = some d := by
      unfold addEntry?
      cases ha : a.get? n with
      | none => simp
      | some s => simp [hag n s u ha (by simp [lookupEntry])]
    obtain ⟨c, hc⟩ := ih d hx.2 fun v s t hs ht => by
      have hv : n ≠ v := by
        rintro rfl
        exact String.lt_irrefl n (hx.1 _ (mem_of_lookupEntry ht))
      refine hag v s t ?_ (by simpa [lookupEntry, hv] using ht)
      simpa [(addEntry?_eq_some_iff.1 hd).2, Ne.symm hv] using hs
    exact ⟨c, by rw [List.foldlM_cons, hd]; exact hc⟩

theorem agrees_of_merge (h : a.merge? b = some c) : Agrees a b := (merge?_eq_some_iff.1 h).1

theorem get?_of_merge (h : a.merge? b = some c) (v : String) :
    c.get? v = (a.get? v).or (b.get? v) :=
  (merge?_eq_some_iff.1 h).2 v

theorem merge?_isSome_iff : (a.merge? b).isSome ↔ Agrees a b := by
  rw [Option.isSome_iff_exists]
  exact ⟨fun ⟨_, h⟩ => agrees_of_merge h, Agrees.exists_merge⟩

theorem merge?_eq_none_iff : a.merge? b = none ↔ ¬ Agrees a b := by
  rw [← merge?_isSome_iff, Option.not_isSome_iff_eq_none]

/-- A merge binds what either mapping binds. -/
theorem contains_of_merge (h : a.merge? b = some c) (v : String) :
    c.contains v = (a.contains v || b.contains v) := by
  simp [contains, get?_of_merge h]

/-- What is looked up in a merge, seen from the second mapping. -/
theorem get?_of_merge' (h : a.merge? b = some c) (v : String) :
    c.get? v = (b.get? v).or (a.get? v) := by
  rw [get?_of_merge h]
  have hag := agrees_of_merge h v
  cases ha : a.get? v with
  | none => simp
  | some s =>
    cases hb : b.get? v with
    | none => simp
    | some t => simp [hag s t ha hb]

/-- What a merge binds is what one of the two mappings binds. -/
theorem get?_of_merge_eq_some_iff (h : a.merge? b = some c) :
    c.get? v = some t ↔ a.get? v = some t ∨ b.get? v = some t := by
  constructor
  · intro hc
    rw [get?_of_merge h] at hc
    exact (Option.or_eq_some_iff.1 hc).imp id And.right
  · rintro (ha | hb)
    · rw [get?_of_merge h, ha, Option.some_or]
    · rw [get?_of_merge' h, hb, Option.some_or]

theorem extends_left_of_merge (h : a.merge? b = some c) : Extends a c := by
  intro v t ht
  simp [get?_of_merge h, ht]

theorem extends_right_of_merge (h : a.merge? b = some c) : Extends b c := by
  intro v t ht
  simp [get?_of_merge' h, ht]

/-- Merging into a mapping that extends the other one changes nothing. -/
theorem merge?_of_extends (h : Extends b a) : a.merge? b = some a := by
  refine merge?_eq_some_iff.2 ⟨h.agrees.symm, fun v => ?_⟩
  cases hb : b.get? v with
  | none => simp
  | some t => simp [h v t hb]

theorem merge?_self (a : Bindings) : a.merge? a = some a := merge?_of_extends (.refl a)

theorem merge?_empty (a : Bindings) : a.merge? ∅ = some a := merge?_of_extends (.empty a)

theorem merge?_comm (a b : Bindings) : a.merge? b = b.merge? a := by
  refine Option.ext fun c => ?_
  rw [merge?_eq_some_iff, merge?_eq_some_iff]
  constructor
  · rintro ⟨hag, hc⟩
    exact ⟨hag.symm, get?_of_merge' (merge?_eq_some_iff.2 ⟨hag, hc⟩)⟩
  · rintro ⟨hag, hc⟩
    exact ⟨hag.symm, get?_of_merge' (merge?_eq_some_iff.2 ⟨hag, hc⟩)⟩

theorem empty_merge? (a : Bindings) : Bindings.merge? ∅ a = some a := by
  rw [merge?_comm, merge?_empty]

/-- A mapping that agrees with a merge agrees with both parts, and conversely. -/
theorem agrees_merge_iff {d : Bindings} (h : a.merge? b = some d) :
    Agrees d c ↔ Agrees a c ∧ Agrees b c := by
  constructor
  · intro hd
    exact ⟨fun v s t hs ht => hd v s t (extends_left_of_merge h v s hs) ht,
      fun v s t hs ht => hd v s t (extends_right_of_merge h v s hs) ht⟩
  · rintro ⟨ha, hb⟩ v s t hs ht
    rw [get?_of_merge h] at hs
    rcases Option.or_eq_some_iff.1 hs with hs | ⟨-, hs⟩
    · exact ha v s t hs ht
    · exact hb v s t hs ht

/-- Three mappings merge from the left as they merge from the right. -/
theorem merge?_assoc (a b c : Bindings) :
    (a.merge? b).bind (·.merge? c) = (b.merge? c).bind a.merge? := by
  refine Option.ext fun e => ?_
  simp only [Option.bind_eq_some_iff]
  constructor
  · rintro ⟨d, hd, he⟩
    have hag := (agrees_merge_iff hd).1 (agrees_of_merge he)
    obtain ⟨f, hf⟩ := hag.2.exists_merge
    refine ⟨f, hf, merge?_eq_some_iff.2 ⟨?_, fun v => ?_⟩⟩
    · exact ((agrees_merge_iff hf).2 ⟨(agrees_of_merge hd).symm, hag.1.symm⟩).symm
    · rw [get?_of_merge he, get?_of_merge hd, get?_of_merge hf, Option.or_assoc]
  · rintro ⟨f, hf, he⟩
    have hag := (agrees_merge_iff hf).1 (agrees_of_merge he).symm
    obtain ⟨d, hd⟩ := hag.1.symm.exists_merge
    refine ⟨d, hd, merge?_eq_some_iff.2 ⟨?_, fun v => ?_⟩⟩
    · exact (agrees_merge_iff hd).2 ⟨hag.2.symm, agrees_of_merge hf⟩
    · rw [get?_of_merge he, get?_of_merge hd, get?_of_merge hf, Option.or_assoc]

/-! ### Precedence -/

theorem get?_foldl_insert {es : List (String × Term)} (hes : es.Pairwise fun x y => x.1 < y.1)
    (b : Bindings) (v : String) :
    (es.foldl (fun b e => b.insert e.1 e.2) b).get? v = (lookupEntry v es).or (b.get? v) := by
  induction es generalizing b with
  | nil => rfl
  | cons e es ih =>
    obtain ⟨hlt, hes⟩ := List.pairwise_cons.1 hes
    rw [List.foldl_cons, ih hes, get?_insert, lookupEntry]
    by_cases hv : e.1 = v
    · subst hv
      have later : lookupEntry e.1 es = none := lookupEntry_eq_none_of_lt hlt
      simp [later]
    · simp [hv, Ne.symm hv]

/-- The mapping that binds what either binds, and what both bind as the first one does. -/
def overriding (a b : Bindings) : Bindings := a.entries.foldl (fun c e => c.insert e.1 e.2) b

@[simp] theorem get?_overriding (a b : Bindings) (v : String) :
    (a.overriding b).get? v = (a.get? v).or (b.get? v) :=
  get?_foldl_insert a.ascending b v

/-! ### Leaving out variables -/

/-- Leaving out variables before a merge leaves them out of the merge. -/
theorem restrict_merge {d : Bindings} (keep : String → Bool) (h : a.merge? b = some d) :
    (a.restrict keep).merge? (b.restrict keep) = some (d.restrict keep) := by
  refine merge?_eq_some_iff.2 ⟨?_, fun v => ?_⟩
  · intro v s t hs ht
    rw [get?_restrict] at hs ht
    split at hs
    · next hk => exact agrees_of_merge h v s t hs (by simpa [hk] using ht)
    · simp at hs
  · simp only [get?_restrict, get?_of_merge h]
    split <;> simp

/-! ### The laws together -/

/-- **Merging is a partial commutative idempotent monoid.**  Two mappings merge exactly if they give
the same term to every variable that both bind, and then bind what either binds.  The order and the
grouping of mappings are of no importance, also where there is no merge.  The empty mapping is
neutral, a mapping merges with itself to itself, and variables may be left out before or after a
merge. -/
theorem merge_exact (a b c : Bindings) (vars : List String) :
    ((a.merge? b).isSome = true ↔ Agrees a b) ∧
      (∀ m, a.merge? b = some m →
        (∀ v t, m.get? v = some t ↔ a.get? v = some t ∨ b.get? v = some t) ∧
        (a.project vars).merge? (b.project vars) = some (m.project vars)) ∧
      a.merge? b = b.merge? a ∧
      (a.merge? b).bind (·.merge? c) = (b.merge? c).bind a.merge? ∧
      (a.merge? ∅ = some a ∧ Bindings.merge? ∅ a = some a) ∧
      a.merge? a = some a := by
  refine ⟨merge?_isSome_iff, fun m merged => ⟨fun v t => ?_, ?_⟩, merge?_comm a b,
    merge?_assoc a b c, ⟨merge?_empty a, empty_merge? a⟩, merge?_self a⟩
  · exact get?_of_merge_eq_some_iff merged
  · exact restrict_merge vars.contains merged

end FederatedSparql.Bindings
