import FederatedSparql.Endpoint.Tag
import FederatedSparql.Proofs.Rdf.Merge

/-!
The number of a binding set comes back with the row that answers it.

Numbers are written as signed 64-bit integers and read as unsigned ones, so this holds of those
below `2 ^ 63` (`Tag.untagRow?_tagRow`).
-/

namespace FederatedSparql.Tag

/-! ### Digits -/

theorem digitsValue_toDigits (n : Nat) :
    Text.Binary64.digitsValue (Nat.toDigits 10 n) = n := by
  have step : (fun n (d : Char) => n * 10 + (d.toNat - '0'.toNat)) =
      fun n d => 10 * n + (d.toNat - '0'.toNat) := by
    funext n d
    rw [Nat.mul_comm]
  rw [Text.Binary64.digitsValue, step, ← Nat.ofDigitChars_eq_foldl, Nat.ofDigitChars_ten_toDigits]

theorem isDigit_of_mem_toDigits {n : Nat} {c : Char} (h : c ∈ Nat.toDigits 10 n) :
    c.isDigit = true :=
  Nat.isDigit_of_mem_toDigits (by decide) (by decide) h

theorem isBlank_of_isDigit {c : Char} (h : c.isDigit = true) : Text.isBlank c = false := by
  simp only [Char.isDigit, Bool.and_eq_true, decide_eq_true_eq, ge_iff_le, UInt32.le_iff_toNat_le]
    at h
  have low : 48 ≤ c.toNat := h.1
  have high : c.toNat ≤ 57 := h.2
  simp only [Text.isBlank, Bool.or_eq_false_iff, Bool.and_eq_false_iff, decide_eq_false_iff_not,
    beq_eq_false_iff_ne]
  omega

theorem trimBlanks_of_not_blank {cs : List Char} (h : ∀ c ∈ cs, Text.isBlank c = false) :
    Text.trimBlanks cs = cs := by
  have keep : ∀ {ds : List Char}, (∀ c ∈ ds, Text.isBlank c = false) →
      ds.dropWhile Text.isBlank = ds := by
    intro ds hds
    cases ds with
    | nil => rfl
    | cons d ds => simp [hds d List.mem_cons_self]
  rw [Text.trimBlanks, keep h, keep (by simpa using h), List.reverse_reverse]

/-! ### Numbers -/

theorem index?_toDigits {n : Nat} (h : n < wordCount) : index? (Nat.toDigits 10 n) = some n := by
  unfold index?
  split
  · next ds hds =>
    have := isDigit_of_mem_toDigits (n := n) (c := '+') (by rw [hds]; simp)
    simp [Char.isDigit] at this
  · simp only [digitsValue_toDigits]
    rw [if_pos]
    exact ⟨Nat.toDigits_ne_nil, List.all_eq_true.2 fun c hc => isDigit_of_mem_toDigits hc, h⟩

/-- The first number that does not come back. -/
def numberLimit : Nat := 0x8000000000000000

theorem text_ofInt {n : Nat} (h : n < numberLimit) :
    (Term.ofInt ((n : Int).bmod wordCount)).text = n.repr := by
  have small : (n : Int).bmod wordCount = n := by
    rw [numberLimit] at h
    rw [wordCount, Int.bmod_eq_of_le] <;> omega
  rw [small]
  simp [Term.ofInt, Term.typed, Term.text, Int.repr_eq_if]

theorem index?_text_ofInt {n : Nat} (h : n < numberLimit) :
    index? (Text.trimBlanks (Term.ofInt ((n : Int).bmod wordCount)).text.toList) = some n := by
  rw [text_ofInt h, Nat.toList_repr, trimBlanks_of_not_blank fun c hc =>
    isBlank_of_isDigit (isDigit_of_mem_toDigits hc)]
  refine index?_toDigits ?_
  rw [numberLimit] at h
  rw [wordCount]
  omega

/-- A row under some tag is the row and the number that the tag says. -/
theorem untagRow?_insert {row : Bindings} {tag : Term} {n : Nat}
    (hrow : row.contains indexVar = false)
    (htag : index? (Text.trimBlanks tag.text.toList) = some n) :
    untagRow? (row.insert indexVar tag) = some (n, row) := by
  have erased : (row.insert indexVar tag).erase indexVar = row := by
    refine Bindings.ext_get? fun v => ?_
    simp only [Bindings.erase, Bindings.get?_restrict, Bindings.get?_insert]
    by_cases hv : v = indexVar
    · simp [hv, Bindings.contains_eq_false_iff.1 hrow]
    · simp [hv]
  simp [untagRow?, erased, htag]

/-- **The number of a row comes back with the row.** -/
theorem untagRow?_tagRow {row : Bindings} {n : Nat} (hrow : row.contains indexVar = false)
    (h : n < numberLimit) : untagRow? (tagRow row n) = some (n, row) :=
  untagRow?_insert hrow (index?_text_ofInt h)

end FederatedSparql.Tag
