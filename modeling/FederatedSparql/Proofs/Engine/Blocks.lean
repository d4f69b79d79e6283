import FederatedSparql.Engine.BoundTask
import FederatedSparql.Proofs.Endpoint.Store

/-!
Blocks of rows, and what comes back for them.

* `BoundJoin.flatten_blocks`: the blocks are the rows, in order.
* `BoundJoin.coe_demultiplex`, `BoundJoin.coe_confirmed`, `BoundJoin.coe_combine`: the rows that
  numbered answers come to, row by row of the block.
-/

namespace FederatedSparql.BoundJoin

/-! ### Partition -/

section Partition

variable {α : Type} (configured : Nat)

theorem flatten_blocksFrom (total : Nat) (rows : List α) :
    (blocksFrom configured total rows).flatten = rows := by
  fun_induction blocksFrom configured total rows with
  | case1 => rfl
  | case2 total row rest size ih =>
    rw [List.flatten_cons, ih, List.cons_append, List.take_append_drop]

/-- **The blocks are the rows, in order.** -/
theorem flatten_blocks (rows : List α) : (blocks configured rows).flatten = rows := by
  cases rows with
  | nil => rfl
  | cons row rest => simp [blocks, flatten_blocksFrom]

theorem length_of_mem_blocksFrom {total : Nat} {rows block : List α}
    (h : block ∈ blocksFrom configured total rows) :
    block ≠ [] ∧ block.length ≤ max smallBlockSize configured := by
  fun_induction blocksFrom configured total rows with
  | case1 => simp at h
  | case2 total row rest size ih =>
    rcases List.mem_cons.1 h with rfl | h
    · refine ⟨by simp, ?_⟩
      have : size ≤ max smallBlockSize (max configured 1) := by
        simp only [size, nextBlockSize]
        split <;> omega
      simp only [List.length_cons, List.length_take, smallBlockSize] at this ⊢
      omega
    · exact ih h

/-- No block is empty, and none is larger than the settings say. -/
theorem length_of_mem_blocks {rows block : List α} (h : block ∈ blocks configured rows) :
    block ≠ [] ∧ block.length ≤ max smallBlockSize configured := by
  cases rows with
  | nil => simp [blocks] at h
  | cons row rest =>
    rcases List.mem_cons.1 h with rfl | h
    · refine ⟨by simp, ?_⟩
      simp only [List.length_singleton, smallBlockSize]
      omega
    · exact length_of_mem_blocksFrom configured h

/-- Giving up the last block leaves the others as they are. -/
theorem mem_blocks_of_mem_filledBlocks {rows block : List α}
    (h : block ∈ filledBlocks configured rows) : block ∈ blocks configured rows := by
  unfold filledBlocks at h
  simp only at h
  split at h
  · exact h
  · split at h
    · exact h
    · exact List.mem_of_mem_dropLast h

end Partition

/-! ### Answers -/

variable {block : List Bindings} {rows : Bindings → Rows} {tagged : List (Nat × Bindings)}

theorem coe_mergeAll (left right : List Bindings) :
    (mergeAll left right : Rows) = (left : Rows) * (right : Rows) := by
  rw [mergeAll, ← Multiset.coe_bind, Rows.mul_def]
  rfl

theorem coe_foldl_mergeAll (parts : List (List Bindings)) (start : List Bindings) :
    (↑(parts.foldl mergeAll start) : Rows) =
      ↑start * (parts.map fun p : List Bindings => (p : Rows)).prod := by
  induction parts generalizing start with
  | nil => simp
  | cons p parts ih => rw [List.foldl_cons, ih, coe_mergeAll]; simp [mul_assoc]

theorem mem_numberedRows {i : Nat} {row : Bindings} :
    (i, row) ∈ Store.numberedRows block rows ↔ ∃ b, block[i]? = some b ∧ row ∈ rows b := by
  simp only [Store.numberedRows, Multiset.mem_bind, Multiset.mem_coe, Multiset.mem_map,
    Prod.mk.injEq]
  constructor
  · rintro ⟨⟨b, j⟩, hb, r, hr, rfl, rfl⟩
    exact ⟨b, List.mk_mem_zipIdx_iff_getElem?.1 hb, hr⟩
  · rintro ⟨b, hb, hr⟩
    exact ⟨(b, i), List.mk_mem_zipIdx_iff_getElem?.2 hb, row, hr, rfl, rfl⟩

/-- **Answers that extend the rows they belong to are the rows of the block.** -/
theorem coe_demultiplex (ht : (tagged : Multiset (Nat × Bindings)) = Store.numberedRows block rows)
    (hext : ∀ b ∈ block, ∀ c ∈ rows b, b.Extends c) :
    (demultiplex block tagged : Rows) = (block : Rows).bind rows := by
  have merged : ∀ t ∈ (tagged : Multiset (Nat × Bindings)),
      ((block[t.1]?).bind fun b => b.merge? t.2) = some t.2 := by
    rintro ⟨i, row⟩ hmem
    rw [ht, mem_numberedRows] at hmem
    obtain ⟨b, hb, hrow⟩ := hmem
    have hbm := List.mem_of_getElem? hb
    simp only [hb, Option.bind_some]
    rw [Bindings.merge?_comm, Bindings.merge?_of_extends (hext b hbm row hrow)]
  have all : (demultiplex block tagged : Rows) =
      (tagged : Multiset (Nat × Bindings)).map (·.2) := by
    rw [demultiplex, ← Multiset.filterMap_coe, Rows.filterMap_congr (g := some ∘ (·.2)) merged,
      Multiset.filterMap_eq_map]
  rw [all, ht, Store.numberedRows, Multiset.map_bind]
  simp only [Multiset.map_map, Function.comp_def, Multiset.map_id']
  rw [← Multiset.bind_map (block.zipIdx : Multiset (Bindings × Nat)) rows (·.1), Multiset.map_coe,
    List.zipIdx_map_fst]

/-- **The confirmed rows of a block are those that have an answer**, each once. -/
theorem coe_confirmed (ht : (tagged : Multiset (Nat × Bindings)) = Store.numberedRows block rows) :
    (confirmed block tagged : Rows) =
      (block : Rows).bind fun b => if Multiset.card (rows b) = 0 then 0 else {b} := by
  have answered : ∀ x ∈ block.zipIdx,
      (tagged.any fun t => t.1 == x.2) = !decide (Multiset.card (rows x.1) = 0) := by
    rintro ⟨b, i⟩ hx
    have hb := List.mk_mem_zipIdx_iff_getElem?.1 hx
    rw [Bool.eq_iff_iff]
    simp only [List.any_eq_true, beq_iff_eq, Bool.not_eq_true', decide_eq_false_iff_not,
      Multiset.card_eq_zero]
    constructor
    · rintro ⟨⟨j, row⟩, hmem, rfl⟩ hzero
      rw [← Multiset.mem_coe, ht, mem_numberedRows] at hmem
      obtain ⟨b', hb', hrow⟩ := hmem
      obtain rfl : b = b' := by simpa [hb] using hb'
      simp [hzero] at hrow
    · intro hne
      obtain ⟨row, hrow⟩ := Multiset.exists_mem_of_ne_zero hne
      refine ⟨(i, row), ?_, rfl⟩
      rw [← Multiset.mem_coe, ht, mem_numberedRows]
      exact ⟨b, hb, hrow⟩
  rw [confirmed, List.filter_congr answered, ← Multiset.map_coe, Rows.coe_filter]
  have kept : (Multiset.filter (fun x : Bindings × Nat =>
      (!decide (Multiset.card (rows x.1) = 0)) = true) ↑block.zipIdx).map (·.1) =
      (block : Rows).filter fun b => Multiset.card (rows b) ≠ 0 := by
    rw [← List.zipIdx_map_fst 0 block, ← Multiset.map_coe, Multiset.filter_map]
    simp
  rw [kept, Multiset.filter_eq_bind]
  refine Multiset.bind_congr fun b _ => ?_
  split <;> simp_all

/-- The answers to one row of a block. -/
theorem answers_of_row (ht : (tagged : Multiset (Nat × Bindings)) = Store.numberedRows block rows)
    {b : Bindings} {i : Nat} (hb : block[i]? = some b) :
    (↑((tagged.filter fun t => t.1 == i).map (·.2)) : Rows) = rows b := by
  have others : ∀ x ∈ (block.zipIdx : Multiset (Bindings × Nat)),
      ((rows x.1).map (Prod.mk x.2)).filter (fun t => (t.1 == i) = true) =
        if x = (b, i) then (rows b).map (Prod.mk i) else 0 := by
    rintro ⟨c, j⟩ hx
    have hc := List.mk_mem_zipIdx_iff_getElem?.1 (Multiset.mem_coe.1 hx)
    by_cases hj : j = i
    · subst hj
      obtain rfl : c = b := by simpa [hc] using hb
      rw [if_pos rfl, Multiset.filter_eq_self]
      simp
    · rw [if_neg (by simp [hj]), Multiset.filter_eq_nil]
      simp [hj]
  have hmem : (b, i) ∈ block.zipIdx := List.mk_mem_zipIdx_iff_getElem?.2 hb
  have once : (block.zipIdx : Multiset (Bindings × Nat)).filter (· = (b, i)) = {(b, i)} := by
    have nodup : block.zipIdx.Nodup := by
      refine List.Nodup.of_map (·.2) ?_
      rw [List.zipIdx_map_snd]
      exact List.nodup_range' ..
    rw [Multiset.filter_eq', Multiset.count_eq_one_of_mem (Multiset.coe_nodup.2 nodup) hmem]
    rfl
  rw [← Multiset.map_coe, Rows.coe_filter, ht, Store.numberedRows, Multiset.filter_bind,
    Multiset.bind_congr others, ← Multiset.bind_filter, once, Multiset.singleton_bind,
    Multiset.map_map]
  simp

/-- **Every row of a block is joined with its answers from all statements.** -/
theorem coe_combine {perStatement : List (List (Nat × Bindings))} {parts : List (Bindings → Rows)}
    (h : List.Forall₂ (fun (tagged : List (Nat × Bindings)) (rows : Bindings → Rows) =>
      (tagged : Multiset (Nat × Bindings)) = Store.numberedRows block rows) perStatement parts) :
    (combine block perStatement : Rows) =
      (block : Rows).bind fun b => {b} * (parts.map fun rows => rows b).prod := by
  have perRow : ∀ x ∈ (block.zipIdx : Multiset (Bindings × Nat)),
      (↑(perStatement.foldl (fun partials answers =>
        mergeAll partials ((answers.filter fun t => t.1 == x.2).map (·.2))) [x.1]) : Rows) =
          {x.1} * (parts.map fun rows => rows x.1).prod := by
    rintro ⟨b, i⟩ hx
    have hb := List.mk_mem_zipIdx_iff_getElem?.1 (Multiset.mem_coe.1 hx)
    have answers : (perStatement.map fun answers =>
        (↑((answers.filter fun t => t.1 == i).map (·.2)) : Rows)) =
          parts.map fun rows => rows b := by
      induction h with
      | nil => rfl
      | cons ht _ ih => rw [List.map_cons, List.map_cons, ih, answers_of_row ht hb]
    rw [← List.foldl_map (f := fun answers : List (Nat × Bindings) =>
        (answers.filter fun t => t.1 == i).map (·.2)) (g := mergeAll), coe_foldl_mergeAll,
      List.map_map]
    exact congrArg (({b} : Rows) * ·.prod) answers
  rw [combine, ← Multiset.coe_bind, Multiset.bind_congr perRow]
  conv_rhs => rw [← List.zipIdx_map_fst 0 block, ← Multiset.map_coe, Multiset.bind_map]

end FederatedSparql.BoundJoin
