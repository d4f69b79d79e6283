import FederatedSparql.Engine.BoundTask
import Mathlib.Algebra.Order.Floor.Div

/-!
How large the blocks of a join are, and how many there are.

* `BoundJoin.Full`: blocks that all hold as many rows as they are to hold.
* `BoundJoin.Cut`: all rows in blocks, of which the last one holds what is left.
* `BoundJoin.Filled`: the blocks that some rows fill, with what is left over.
* `BoundJoin.Full.cut`: full blocks and what is left behind them cut the rows, and there are as many
  of them as `BoundJoin.blockCount` says.
-/

namespace FederatedSparql.BoundJoin

variable {α : Type} {size : Nat} {blocks : List (List α)} {block : List α}

/-! ### Full blocks -/

/-- How many rows the block behind some others is to hold: the first holds one row, and then blocks
are small until more than ten rows are on their way. -/
def wanted (size : Nat) : List (List α) → Nat
  | [] => 1
  | blocks => if blocks.flatten.length ≤ 10 then 3 else size

/-- Every block holds as many rows as it is to hold. -/
inductive Full (size : Nat) : List (List α) → Prop
  | nil : Full size []
  | snoc {blocks : List (List α)} {block : List α} (h : Full size blocks)
      (hblock : block.length = wanted size blocks) : Full size (blocks ++ [block])

theorem wanted_of_ne_nil (h : blocks ≠ []) :
    wanted size blocks = if blocks.flatten.length ≤ 10 then 3 else size := by
  cases blocks with
  | nil => exact absurd rfl h
  | cons block blocks => rfl

/-- Behind the first block the size is the one of the engine. -/
theorem nextBlockSize_eq_wanted (size : Nat) (h : blocks ≠ []) :
    nextBlockSize size blocks.flatten.length = wanted size blocks := by
  rw [wanted_of_ne_nil h]
  rfl

theorem one_le_nextBlockSize (hsize : 1 ≤ size) (total : Nat) : 1 ≤ nextBlockSize size total := by
  rw [nextBlockSize, smallBlockSize]
  split <;> omega

theorem wanted_pos (hsize : 1 ≤ size) (blocks : List (List α)) : 1 ≤ wanted size blocks := by
  cases blocks with
  | nil => exact Nat.le_refl 1
  | cons block blocks =>
    rw [wanted_of_ne_nil (List.cons_ne_nil block blocks)]
    split <;> omega

namespace Full

/-- How large each of some full blocks is. -/
theorem length_eq (h : Full size blocks) {before behind : List (List α)}
    (hblocks : blocks = before ++ block :: behind) : block.length = wanted size before := by
  induction h generalizing behind with
  | nil => simp at hblocks
  | @snoc blocks last h hlast ih =>
    rcases List.eq_nil_or_concat behind with rfl | ⟨behind, last', rfl⟩
    · obtain ⟨rfl, rfl⟩ := List.append_singleton_inj.mp hblocks
      exact hlast
    · rw [List.concat_eq_append, ← List.cons_append, ← List.append_assoc] at hblocks
      obtain ⟨rfl, -⟩ := List.append_singleton_inj.mp hblocks
      exact ih rfl

/-- There are no more full blocks than rows in them. -/
theorem length_le (h : Full size blocks) (hsize : 1 ≤ size) :
    blocks.length ≤ blocks.flatten.length := by
  induction h with
  | nil => exact Nat.le_refl 0
  | @snoc blocks block h hblock ih =>
    have hpos := wanted_pos hsize blocks
    simp only [List.length_append, List.length_singleton, List.flatten_append,
      List.flatten_singleton, hblock]
    omega

/-- Full blocks hold one row, then three rows each until there are thirteen, and then `size` rows
each. -/
theorem length_flatten (h : Full size blocks) (hne : blocks ≠ []) :
    (blocks.length ≤ 4 ∧ blocks.flatten.length + 2 = 3 * blocks.length) ∨
      ∃ k, blocks.length = 5 + k ∧ blocks.flatten.length = 13 + k * size := by
  induction h with
  | nil => exact absurd rfl hne
  | @snoc blocks block h hblock ih =>
    simp only [List.length_append, List.length_singleton, List.flatten_append,
      List.flatten_singleton, hblock]
    rcases eq_or_ne blocks [] with rfl | hsome
    · exact .inl ⟨Nat.le_add_left 1 3, rfl⟩
    rw [wanted_of_ne_nil hsome]
    rcases ih hsome with ⟨hfew, hrows⟩ | ⟨k, hmany, hrows⟩
    · rw [if_pos (by omega)]
      by_cases hlast : blocks.length = 4
      · right
        refine ⟨0, ?_, ?_⟩ <;> omega
      · left
        constructor <;> omega
    · rw [if_neg (by omega)]
      right
      refine ⟨k + 1, by omega, ?_⟩
      rw [hrows, Nat.succ_mul, Nat.add_assoc]

end Full

/-! ### Rows in blocks -/

/-- The number of blocks for so many rows. -/
def blockCount (size rows : Nat) : Nat :=
  if rows = 0 then 0
  else if rows ≤ 13 then 1 + (rows - 1) ⌈/⌉ 3
  else 5 + (rows - 13) ⌈/⌉ size

/-- Rows in blocks: the first block holds one row, the blocks between the first and the last hold
three while at most ten rows come before them, and else `size`. -/
structure Cut (size : Nat) (rows : List α) (blocks : List (List α)) : Prop where
  flatten : blocks.flatten = rows
  ne_nil : ∀ block ∈ blocks, block ≠ []
  first : ∀ block ∈ blocks.head?, block.length = 1
  between : ∀ before block behind, blocks = before ++ block :: behind → before ≠ [] →
    behind ≠ [] → block.length = if before.flatten.length ≤ 10 then 3 else size
  count : blocks.length = blockCount size rows.length

/-- The blocks that some rows fill: the rows behind them are too few for one more. -/
structure Filled (size : Nat) (rows : List α) (blocks : List (List α)) : Prop where
  full : Full size blocks
  rest : ∃ rest, blocks.flatten ++ rest = rows ∧ rest.length < wanted size blocks

theorem Cut.nil (size : Nat) : Cut size ([] : List α) [] where
  flatten := rfl
  ne_nil := nofun
  first := nofun
  between before block behind hblocks := by simp at hblocks
  count := rfl

/-- So many rows need one more block than `k` full ones hold. -/
theorem ceilDiv_eq_succ {k rows : Nat} (hpos : 0 < rows) (hle : rows ≤ size) :
    (k * size + rows) ⌈/⌉ size = k + 1 := by
  have hsplit : k * size + rows + size - 1 = rows - 1 + (k + 1) * size := by
    rw [Nat.succ_mul]
    omega
  rw [Nat.ceilDiv_eq_add_pred_div, hsplit, Nat.add_mul_div_right _ _ (by omega),
    Nat.div_eq_of_lt (by omega), Nat.zero_add]

namespace Full

/-- Full blocks and one more behind them are as many as there are to be. -/
theorem length_succ (h : Full size blocks) (hne : block ≠ [])
    (hle : block.length ≤ wanted size blocks) :
    blocks.length + 1 = blockCount size (blocks.flatten.length + block.length) := by
  have hpos := List.length_pos_of_ne_nil hne
  rcases eq_or_ne blocks [] with rfl | hsome
  · have hone : block.length = 1 := le_antisymm hle hpos
    simp [hone, blockCount]
  rw [wanted_of_ne_nil hsome] at hle
  rw [blockCount, if_neg (by omega)]
  rcases h.length_flatten hsome with ⟨hfew, hrows⟩ | ⟨k, hmany, hrows⟩
  · rw [if_pos (by omega)] at hle
    rw [if_pos (by omega), Nat.ceilDiv_eq_add_pred_div]
    omega
  · rw [if_neg (by omega)] at hle
    have hbehind : blocks.flatten.length + block.length - 13 = k * size + block.length := by omega
    rw [if_neg (by omega), hbehind, ceilDiv_eq_succ hpos hle, hmany, Nat.add_assoc]

/-- **Full blocks and what is left behind them cut the rows.** -/
theorem cut_append (h : Full size blocks) (hsize : 1 ≤ size) (hne : block ≠ [])
    (hle : block.length ≤ wanted size blocks) :
    Cut size (blocks.flatten ++ block) (blocks ++ [block]) where
  flatten := by rw [List.flatten_append, List.flatten_singleton]
  ne_nil b hb := by
    rcases List.mem_append.mp hb with hb | hb
    · obtain ⟨before, behind, hblocks⟩ := List.append_of_mem hb
      apply List.ne_nil_of_length_pos
      rw [h.length_eq hblocks]
      exact wanted_pos hsize before
    · obtain rfl := List.mem_singleton.mp hb
      exact hne
  first b hb := by
    cases blocks with
    | nil =>
      obtain rfl : block = b := Option.some.inj hb
      exact le_antisymm hle (List.length_pos_of_ne_nil hne)
    | cons first blocks =>
      obtain rfl : first = b := Option.some.inj hb
      have hblocks : first :: blocks = [] ++ first :: blocks := rfl
      exact h.length_eq hblocks
  between before b behind hblocks hbefore hbehind := by
    rcases List.eq_nil_or_concat behind with rfl | ⟨behind, last, rfl⟩
    · exact absurd rfl hbehind
    · rw [List.concat_eq_append, ← List.cons_append, ← List.append_assoc] at hblocks
      obtain ⟨hfull, -⟩ := List.append_singleton_inj.mp hblocks
      rw [h.length_eq hfull, wanted_of_ne_nil hbefore]
  count := by
    rw [List.length_append, List.length_append]
    exact h.length_succ hne hle

/-- **Full blocks cut the rows in them.** -/
theorem cut (h : Full size blocks) (hsize : 1 ≤ size) : Cut size blocks.flatten blocks := by
  cases h with
  | nil => exact Cut.nil size
  | @snoc blocks block h hblock =>
    rw [List.flatten_append, List.flatten_singleton]
    apply h.cut_append hsize
    · apply List.ne_nil_of_length_pos
      rw [hblock]
      exact wanted_pos hsize blocks
    · exact hblock.le

end Full

end FederatedSparql.BoundJoin
