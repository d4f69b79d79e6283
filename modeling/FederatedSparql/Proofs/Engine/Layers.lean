import FederatedSparql.Proofs.Algebra.Repetitions

/-!
Slices of rows and distinct rows, one upon another.

A layer changes the rows of the layers below it.  Some stacks of layers come to a single slice, of
the distinct rows or of all: no limit may be below an offset (`OffsetsFirst`), and rows have to be
made distinct before anything is cut off (`DistinctFirst`).

* `applyAll_eq_windowOf`: layers in that order are the slice that their offset and limit say.
* `head?_applyAll_of_offset`, `eq_of_mem_applyAll_of_limit`: layers that leave out repeated rows too
  late have lost other rows by then.
-/

namespace FederatedSparql

/-- A layer of a query that is no projection. -/
inductive Layer where
  | slice (offset : Nat) (limit : Option Nat)
  | distinct
deriving DecidableEq, Repr, Inhabited

variable {α β : Type}

/-- Leaves out the first items and all behind a number of them. -/
def window (offset : Nat) (limit : Option Nat) (xs : List α) : List α :=
  match limit with
  | some n => (xs.drop offset).take n
  | none => xs.drop offset

namespace Layer

/-- What a layer makes of the rows below it. -/
def apply [BEq α] : Layer → List α → List α
  | slice offset limit, xs => window offset limit xs
  | distinct, xs => xs.eraseDups

/-- The number of rows that are left out in front, unless there are none. -/
def offset? : Layer → Option Nat
  | slice offset _ => if offset = 0 then none else some offset
  | distinct => none

/-- The number of rows that may remain. -/
def limit? : Layer → Option Nat
  | slice _ limit => limit
  | distinct => none

/-- What layers make of rows; the outermost layer is the first of them. -/
def applyAll [BEq α] (layers : List Layer) (xs : List α) : List α := layers.foldr apply xs

/-- The offsets of layers. -/
def offsets (layers : List Layer) : List Nat := layers.filterMap offset?

/-- The limits of layers. -/
def limits (layers : List Layer) : List Nat := layers.filterMap limit?

/-- What layers would make of rows if they were one slice: their offset and their limit. -/
def windowOf (layers : List Layer) (xs : List α) : List α :=
  window ((offsets layers).headD 0) (limits layers).head? xs

/-- Nothing is cut off. -/
def Uncut (layers : List Layer) : Prop := offsets layers = [] ∧ limits layers = []

/-- There is no limit below an offset. -/
def OffsetsFirst : List Layer → Prop
  | [] => True
  | l :: rest => (l.offset? ≠ none → limits rest = []) ∧ OffsetsFirst rest

/-- Rows are made distinct by a layer below which nothing is cut off. -/
def DistinctFirst : List Layer → Prop
  | [] => False
  | l :: rest => (l = distinct ∧ Uncut rest) ∨ DistinctFirst rest

/-- At most one offset and at most one limit. -/
structure Single (layers : List Layer) : Prop where
  offset : (offsets layers).length ≤ 1
  limit : (limits layers).length ≤ 1

variable {l : Layer} {layers rest : List Layer} {xs : List α} {n offset limit : Nat}

/-! ### Offsets and limits -/

@[simp] theorem offsets_distinct : offsets (distinct :: rest) = offsets rest := rfl

@[simp] theorem limits_distinct : limits (distinct :: rest) = limits rest := rfl

@[simp] theorem offsets_slice_zero (limit : Option Nat) :
    offsets (slice 0 limit :: rest) = offsets rest := rfl

@[simp] theorem offsets_slice_succ (n : Nat) (limit : Option Nat) :
    offsets (slice (n + 1) limit :: rest) = (n + 1) :: offsets rest := rfl

@[simp] theorem limits_slice_none : limits (slice offset none :: rest) = limits rest := rfl

@[simp] theorem limits_slice_some : limits (slice offset (some n) :: rest) = n :: limits rest := rfl

theorem offsets_append (above rest : List Layer) :
    offsets (above ++ rest) = offsets above ++ offsets rest := List.filterMap_append

theorem limits_append (above rest : List Layer) :
    limits (above ++ rest) = limits above ++ limits rest := List.filterMap_append

theorem uncut_append {above : List Layer} :
    Uncut (above ++ rest) ↔ Uncut above ∧ Uncut rest := by
  unfold Uncut
  rw [offsets_append, limits_append, List.append_eq_nil_iff, List.append_eq_nil_iff]
  constructor
  · rintro ⟨⟨ha, hr⟩, ha', hr'⟩
    exact ⟨⟨ha, ha'⟩, hr, hr'⟩
  · rintro ⟨⟨ha, ha'⟩, hr, hr'⟩
    exact ⟨⟨ha, hr⟩, ha', hr'⟩

theorem Single.tail (h : Single (l :: rest)) : Single rest := by
  have fewer := List.sublist_cons_self l rest
  constructor
  · exact Nat.le_trans (fewer.filterMap _).length_le h.offset
  · exact Nat.le_trans (fewer.filterMap _).length_le h.limit

theorem Single.offsets_rest {limit : Option Nat} (h : Single (slice (n + 1) limit :: rest)) :
    offsets rest = [] := by
  have single := h.offset
  rw [offsets_slice_succ, List.length_cons] at single
  exact List.eq_nil_of_length_eq_zero (by omega)

theorem Single.limits_rest (h : Single (slice offset (some n) :: rest)) : limits rest = [] := by
  have single := h.limit
  rw [limits_slice_some, List.length_cons] at single
  exact List.eq_nil_of_length_eq_zero (by omega)

theorem eq_nil_or_singleton {ns : List Nat} (h : ns.length ≤ 1) : ns = [] ∨ ∃ n, ns = [n] := by
  cases ns with
  | nil => exact .inl rfl
  | cons n rest =>
    rw [List.length_cons] at h
    rw [List.eq_nil_of_length_eq_zero (l := rest) (by omega)]
    exact .inr ⟨n, rfl⟩

theorem Single.limits_cases (h : Single layers) :
    limits layers = [] ∨ ∃ n, limits layers = [n] := eq_nil_or_singleton h.limit

/-- An offset that counts is not zero. -/
theorem Single.offsets_cases (h : Single layers) :
    offsets layers = [] ∨ ∃ n, offsets layers = [n + 1] := by
  rcases eq_nil_or_singleton h.offset with none | ⟨n, some⟩
  · exact .inl none
  · right
    obtain ⟨l, -, hl⟩ := List.mem_filterMap.1 (some ▸ List.mem_singleton_self n : n ∈ offsets layers)
    cases l with
    | distinct => cases hl
    | slice offset limit =>
      cases offset with
      | zero => cases hl
      | succ k =>
        obtain rfl : k + 1 = n := Option.some.inj hl
        exact ⟨k, some⟩

/-- No limit is below an offset. -/
theorem OffsetsFirst.limits_rest {limit : Option Nat}
    (h : OffsetsFirst (slice (n + 1) limit :: rest)) : limits rest = [] := h.1 nofun

theorem Uncut.of_slice {limit : Option Nat} (h : Uncut (slice offset limit :: rest)) :
    offset = 0 ∧ limit = none ∧ Uncut rest := by
  obtain ⟨hoffsets, hlimits⟩ := h
  cases offset with
  | succ offset => cases hoffsets
  | zero =>
    cases limit with
    | none => exact ⟨rfl, rfl, hoffsets, hlimits⟩
    | some n => cases hlimits

/-- The layers that are slices. -/
def slices (layers : List Layer) : List Layer := layers.filter fun l => decide (l ≠ distinct)

theorem distinct_not_mem_slices (layers : List Layer) : distinct ∉ slices layers := by
  simp [slices]

theorem slices_of_not_mem (h : distinct ∉ layers) : slices layers = layers := by
  apply List.filter_eq_self.2
  intro l hl
  exact decide_eq_true fun heq => h (heq ▸ hl)

theorem offsets_slices (layers : List Layer) : offsets (slices layers) = offsets layers := by
  induction layers with
  | nil => rfl
  | cons l rest ih =>
    cases l with
    | distinct => exact ih
    | slice offset limit =>
      cases offset with
      | zero => exact ih
      | succ n => exact congrArg ((n + 1) :: ·) ih

theorem limits_slices (layers : List Layer) : limits (slices layers) = limits layers := by
  induction layers with
  | nil => rfl
  | cons l rest ih =>
    cases l with
    | distinct => exact ih
    | slice offset limit =>
      cases limit with
      | none => exact ih
      | some n => exact congrArg (n :: ·) ih

/-! ### One slice -/

theorem window_eq_window_drop (offset : Nat) (limit : Option Nat) (xs : List α) :
    window offset limit xs = window 0 limit (xs.drop offset) := by
  cases limit <;> rfl

theorem window_sublist (offset : Nat) (limit : Option Nat) (xs : List α) :
    (window offset limit xs).Sublist xs := by
  unfold window
  split
  · exact (List.take_sublist _ _).trans (List.drop_sublist _ _)
  · exact List.drop_sublist _ _

theorem map_window (f : α → β) (offset : Nat) (limit : Option Nat) (xs : List α) :
    (window offset limit xs).map f = window offset limit (xs.map f) := by
  unfold window
  split
  · rw [List.map_take, List.map_drop]
  · rw [List.map_drop]

theorem head?_window_zero {limit : Option Nat} (h : limit ≠ some 0) (xs : List α) :
    (window 0 limit xs).head? = xs.head? := by
  cases limit with
  | none => rfl
  | some n =>
    cases n with
    | zero => exact absurd rfl h
    | succ n => cases xs <;> rfl

theorem windowOf_of_uncut (h : Uncut layers) (xs : List α) : windowOf layers xs = xs := by
  rw [windowOf, h.1, h.2]
  rfl

variable [DecidableEq α] [DecidableEq β]

theorem applyAll_cons (l : Layer) (rest : List Layer) (xs : List α) :
    applyAll (l :: rest) xs = l.apply (applyAll rest xs) := rfl

theorem applyAll_append (above rest : List Layer) (xs : List α) :
    applyAll (above ++ rest) xs = applyAll above (applyAll rest xs) := List.foldr_append

theorem apply_sublist (l : Layer) (xs : List α) : (l.apply xs).Sublist xs := by
  cases l with
  | slice offset limit => exact window_sublist offset limit xs
  | distinct => exact eraseDups_sublist xs

theorem applyAll_sublist (layers : List Layer) (xs : List α) :
    (applyAll layers xs).Sublist xs := by
  induction layers with
  | nil => exact .refl xs
  | cons l rest ih => exact (apply_sublist l _).trans ih

/-- A layer above one slice, in order: again one slice. -/
theorem apply_windowOf (single : Single (l :: rest)) (ordered : OffsetsFirst (l :: rest))
    (hdistinct : l = distinct → xs.Nodup) :
    l.apply (windowOf rest xs) = windowOf (l :: rest) xs := by
  cases l with
  | distinct => exact eraseDups_of_nodup ((hdistinct rfl).sublist (window_sublist _ _ xs))
  | slice offset limit =>
    rw [apply, windowOf, windowOf]
    cases offset with
    | zero =>
      rw [offsets_slice_zero]
      cases limit with
      | none => rfl
      | some n =>
        rw [single.limits_rest, limits_slice_some]
        rfl
    | succ offset =>
      rw [single.offsets_rest, ordered.limits_rest, offsets_slice_succ]
      cases limit with
      | none =>
        rw [limits_slice_none, ordered.limits_rest]
        rfl
      | some n => rfl

/-- **Layers in order are one slice.**  Leaving out repeated rows changes nothing if there are
none. -/
theorem applyAll_eq_windowOf (single : Single layers) (ordered : OffsetsFirst layers)
    (hdistinct : distinct ∈ layers → xs.Nodup) : applyAll layers xs = windowOf layers xs := by
  induction layers with
  | nil => rfl
  | cons l rest ih =>
    rw [applyAll_cons, ih single.tail ordered.2 fun h => hdistinct (List.mem_cons_of_mem l h)]
    apply apply_windowOf single ordered
    rintro rfl
    exact hdistinct List.mem_cons_self

theorem mem_of_distinctFirst (h : DistinctFirst layers) : distinct ∈ layers := by
  induction layers with
  | nil => exact absurd h id
  | cons l rest ih =>
    rcases h with ⟨rfl, -⟩ | h
    · exact List.mem_cons_self
    · exact List.mem_cons_of_mem l (ih h)

/-- Layers that leave out no repeated rows may as well be applied to mapped rows. -/
theorem map_applyAll (f : α → β) (h : distinct ∉ layers) (xs : List α) :
    (applyAll layers xs).map f = applyAll layers (xs.map f) := by
  induction layers with
  | nil => rfl
  | cons l rest ih =>
    rw [applyAll_cons, applyAll_cons, ← ih fun hrest => h (List.mem_cons_of_mem l hrest)]
    cases l with
    | distinct => exact absurd List.mem_cons_self h
    | slice offset limit => exact map_window f offset limit _

/-- Where nothing is cut off, the same distinct rows remain. -/
theorem eraseDups_applyAll (h : Uncut layers) (xs : List α) :
    (applyAll layers xs).eraseDups = xs.eraseDups := by
  induction layers with
  | nil => rfl
  | cons l rest ih =>
    cases l with
    | distinct =>
      rw [applyAll_cons, apply, eraseDups_of_nodup (nodup_eraseDups _), ih h]
    | slice offset limit =>
      obtain ⟨rfl, rfl, hrest⟩ := h.of_slice
      exact ih hrest

/-- A limit bounds the number of rows. -/
theorem length_applyAll_le (h : n ∈ limits layers) (xs : List α) :
    (applyAll layers xs).length ≤ n := by
  induction layers with
  | nil => cases h
  | cons l rest ih =>
    have fewer := (apply_sublist l (applyAll rest xs)).length_le
    rw [applyAll_cons]
    cases l with
    | distinct => exact Nat.le_trans fewer (ih h)
    | slice offset limit =>
      cases limit with
      | none => exact Nat.le_trans fewer (ih h)
      | some m =>
        rw [limits_slice_some, List.mem_cons] at h
        rcases h with rfl | h
        · exact List.length_take_le _ _
        · exact Nat.le_trans fewer (ih h)

theorem limit_ne_zero {limit : Option Nat} (h : 0 ∉ limits (slice offset limit :: rest)) :
    limit ≠ some 0 ∧ 0 ∉ limits rest := by
  cases limit with
  | none => exact ⟨nofun, h⟩
  | some n =>
    rw [limits_slice_some, List.mem_cons, not_or] at h
    refine ⟨?_, h.2⟩
    rintro ⟨⟩
    exact h.1 rfl

/-- What comes first comes first where nothing is left out in front and not all is left out. -/
theorem head?_applyAll (hoffsets : offsets layers = []) (hlimits : 0 ∉ limits layers)
    (xs : List α) : (applyAll layers xs).head? = xs.head? := by
  induction layers with
  | nil => rfl
  | cons l rest ih =>
    rw [applyAll_cons]
    cases l with
    | distinct => exact (head?_eraseDups _).trans (ih hoffsets hlimits)
    | slice offset limit =>
      cases offset with
      | succ offset => cases hoffsets
      | zero =>
        obtain ⟨hlimit, hrest⟩ := limit_ne_zero hlimits
        exact (head?_window_zero hlimit _).trans (ih hoffsets hrest)

/-- Rows that are made distinct first are cut as one slice of the distinct rows, whatever left out
repeated rows before. -/
theorem applyAll_of_distinctFirst {above : List Layer} {ys zs : List α} (none : distinct ∉ rest)
    (early : DistinctFirst (above ++ rest)) (single : Single (above ++ rest))
    (ordered : OffsetsFirst (above ++ rest)) (nodup : zs.Nodup)
    (hdistinct : Uncut rest → ys.eraseDups = zs) :
    applyAll above ys = windowOf (above ++ rest) zs := by
  induction above with
  | nil => exact absurd (mem_of_distinctFirst early) none
  | cons l above ih =>
    rw [applyAll_cons]
    rcases early with ⟨rfl, uncut⟩ | early
    · obtain ⟨habove, hrest⟩ := uncut_append.1 uncut
      have same : windowOf (above ++ rest) zs = zs := windowOf_of_uncut uncut zs
      show (applyAll above ys).eraseDups = windowOf (above ++ rest) zs
      rw [same, eraseDups_applyAll habove]
      exact hdistinct hrest
    · rw [ih early single.tail ordered.2]
      exact apply_windowOf single ordered fun _ => nodup

/-- Slices of distinct rows are all that matters. -/
theorem applyAll_slices (layers : List Layer) {xs : List α} (nodup : xs.Nodup) :
    applyAll (slices layers) xs = applyAll layers xs := by
  induction layers with
  | nil => rfl
  | cons l rest ih =>
    rw [applyAll_cons, ← ih]
    cases l with
    | distinct => exact (eraseDups_of_nodup (nodup.sublist (applyAll_sublist _ _))).symm
    | slice offset limit => rfl

/-! ### Layers out of order -/

variable {a b : α}

/-- Where nothing is cut off and no repeated rows are left out, all rows remain. -/
theorem applyAll_of_uncut (h : Uncut layers) (late : ¬ DistinctFirst layers) (xs : List α) :
    applyAll layers xs = xs := by
  induction layers with
  | nil => rfl
  | cons l rest ih =>
    have lateRest : ¬ DistinctFirst rest := fun hrest => late (.inr hrest)
    cases l with
    | distinct => exact absurd (.inl ⟨rfl, h⟩) late
    | slice offset limit =>
      obtain ⟨rfl, rfl, hrest⟩ := h.of_slice
      exact ih hrest lateRest

theorem offsetsFirst_of_offsets_eq_nil (h : offsets layers = []) : OffsetsFirst layers := by
  induction layers with
  | nil => trivial
  | cons l rest ih =>
    obtain ⟨hl, hrest⟩ := List.forall_mem_cons.1 (List.filterMap_eq_nil_iff.1 h)
    exact ⟨fun hne => absurd hl hne, ih (List.filterMap_eq_nil_iff.2 hrest)⟩

theorem offsetsFirst_of_limits_eq_nil (h : limits layers = []) : OffsetsFirst layers := by
  induction layers with
  | nil => trivial
  | cons l rest ih =>
    obtain ⟨-, hrest⟩ := List.forall_mem_cons.1 (List.filterMap_eq_nil_iff.1 h)
    have below : limits rest = [] := List.filterMap_eq_nil_iff.2 hrest
    exact ⟨fun _ => below, ih below⟩

/-- If a limit is below the offset, the offset takes away from what the limit has left. -/
theorem length_applyAll_le_sub (hoffsets : offsets layers = [offset])
    (hlimits : limits layers = [n]) (unordered : ¬ OffsetsFirst layers) (xs : List α) :
    (applyAll layers xs).length ≤ n - offset := by
  induction layers with
  | nil => exact absurd trivial unordered
  | cons l rest ih =>
    have fewer := (apply_sublist l (applyAll rest xs)).length_le
    rw [applyAll_cons]
    cases l with
    | distinct =>
      have below : ¬ OffsetsFirst rest := fun h => unordered ⟨fun hne => absurd rfl hne, h⟩
      exact Nat.le_trans fewer (ih hoffsets hlimits below)
    | slice offset' limit' =>
      have limited : limits rest ≠ [] := fun h =>
        unordered ⟨fun _ => h, offsetsFirst_of_limits_eq_nil h⟩
      cases limit' with
      | some m => exact absurd (List.cons.inj hlimits).2 limited
      | none =>
        cases offset' with
        | zero =>
          have below : ¬ OffsetsFirst rest := fun h => unordered ⟨fun hne => absurd rfl hne, h⟩
          exact Nat.le_trans fewer (ih hoffsets hlimits below)
        | succ k =>
          have first : k + 1 = offset := (List.cons.inj hoffsets).1
          have limited : n ∈ limits rest := hlimits ▸ List.mem_singleton_self n
          have left := length_applyAll_le limited xs
          rw [← first, apply, window, List.length_drop]
          omega

/-- If repeated rows are left out after an offset only, one of them is the first that remains. -/
theorem head?_applyAll_of_offset (hoffsets : offsets layers = [offset])
    (hlimits : 0 ∉ limits layers) (ordered : OffsetsFirst layers) (late : ¬ DistinctFirst layers) :
    (applyAll layers (List.replicate (offset + 1) a ++ [b])).head? = some a := by
  induction layers with
  | nil => cases hoffsets
  | cons l rest ih =>
    have lateRest : ¬ DistinctFirst rest := fun hrest => late (.inr hrest)
    rw [applyAll_cons]
    cases l with
    | distinct => exact (head?_eraseDups _).trans (ih hoffsets hlimits ordered.2 lateRest)
    | slice offset' limit =>
      obtain ⟨hlimit, hrest⟩ := limit_ne_zero hlimits
      cases offset' with
      | zero => exact (head?_window_zero hlimit _).trans (ih hoffsets hrest ordered.2 lateRest)
      | succ k =>
        obtain ⟨rfl, none⟩ := List.cons.inj hoffsets
        rw [applyAll_of_uncut ⟨none, ordered.limits_rest⟩ lateRest]
        have left : (List.replicate (k + 1 + 1) a ++ [b]).drop (k + 1) = [a, b] := by
          rw [List.drop_append_of_le_length (by simp), List.drop_replicate, Nat.add_sub_cancel_left]
          rfl
        rw [apply, window_eq_window_drop, left, head?_window_zero hlimit]
        rfl

/-- If repeated rows are left out after a limit only, nothing else has remained by then. -/
theorem eq_of_mem_applyAll_of_limit (hoffsets : offsets layers = []) (hlimits : limits layers = [n])
    (late : ¬ DistinctFirst layers) {x : α}
    (hx : x ∈ applyAll layers (List.replicate n a ++ [b])) : x = a := by
  induction layers with
  | nil => cases hlimits
  | cons l rest ih =>
    have lateRest : ¬ DistinctFirst rest := fun hrest => late (.inr hrest)
    rw [applyAll_cons] at hx
    cases l with
    | distinct => exact ih hoffsets hlimits lateRest (List.mem_eraseDups.1 hx)
    | slice offset limit =>
      cases offset with
      | succ k => cases hoffsets
      | zero =>
        cases limit with
        | none => exact ih hoffsets hlimits lateRest hx
        | some m =>
          obtain ⟨rfl, none⟩ := List.cons.inj hlimits
          have uncut : Uncut rest := ⟨hoffsets, none⟩
          rw [applyAll_of_uncut uncut lateRest] at hx
          have taken : window 0 (some m) (List.replicate m a ++ [b]) = List.replicate m a := by
            rw [window, List.drop_zero, List.take_append_of_le_length (by simp), List.take_replicate,
              Nat.min_self]
          rw [apply, taken] at hx
          exact List.eq_of_mem_replicate hx

end Layer

end FederatedSparql
