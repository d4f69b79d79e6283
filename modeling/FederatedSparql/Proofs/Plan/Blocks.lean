import FederatedSparql.Proofs.Plan.Denotation

/-!
Plans whose joins may take rows in blocks.

How a join takes rows in blocks is decided by the first of them, so all of them have to leave some
variable of a statement free, or none of them; and there must be enough numbers for the rows of a
block (`Plan.TakesBlocks`).

* `Plan.sameVars_of_mem_rows`: in plans of statements and groups under joins and filters all rows
  bind the same variables.
* `Plan.takesBlocks_of_uniform`: so such plans may take rows in blocks, whatever is bound before.
-/

namespace FederatedSparql.Plan

variable {r : Registry} {b c x y : Bindings} {v : String} {size : Nat}

/-! ### Rows that bind the same variables -/

/-- Both mappings bind the same variables. -/
def SameVars (a b : Bindings) : Prop := ∀ v, a.contains v = b.contains v

mutual

/-- Plans all rows of which bind the same variables. -/
def Uniform : Plan → Prop
  | statement _ => True
  | group _ => True
  | independent _ => True
  | empty => True
  | join args _ => UniformAll args
  | filter _ a => a.Uniform
  | distinct a => a.Uniform
  | _ => False

/-- All rows of each of the plans bind the same variables. -/
def UniformAll : List Plan → Prop
  | [] => True
  | a :: rest => a.Uniform ∧ UniformAll rest

end

/-- What is bound besides the binding set is the same for binding sets that bind the same. -/
theorem SameVars.of_contains {P : String → Prop} (h : SameVars b c)
    (hx : ∀ v, x.contains v = true ↔ b.contains v = true ∨ P v)
    (hy : ∀ v, y.contains v = true ↔ c.contains v = true ∨ P v) : SameVars x y := by
  intro v
  rw [Bool.eq_iff_iff, hx, hy, h v]

theorem sameVars_of_mem_rightRows {a : Plan} (h : SameVars b c)
    (ha : x ∈ a.rows r b → y ∈ a.rows r c → SameVars x y) (hx : x ∈ a.rightRows r b)
    (hy : y ∈ a.rightRows r c) : SameVars x y := by
  cases a with
  | statement s =>
    exact h.of_contains (Statement.contains_of_mem_rows hx) (Statement.contains_of_mem_rows hy)
  | independent members =>
    exact h.of_contains (contains_of_mem_joinedRows hx) (contains_of_mem_joinedRows hy)
  | _ => exact ha hx hy

mutual

/-- **The rows of a uniform plan bind the same variables.** -/
theorem sameVars_of_mem_rows : ∀ (p : Plan), p.Uniform → ∀ {b c x y : Bindings}, SameVars b c →
    x ∈ p.rows r b → y ∈ p.rows r c → SameVars x y
  | statement s, _, b, c, x, y, h, hx, hy =>
    h.of_contains (Statement.contains_of_mem_wantedRows hx)
      (Statement.contains_of_mem_wantedRows hy)
  | group g, _, b, c, x, y, h, hx, hy =>
    h.of_contains (ExclusiveGroup.contains_of_mem_wantedRows hx)
      (ExclusiveGroup.contains_of_mem_wantedRows hy)
  | independent members, _, b, c, x, y, h, hx, hy =>
    h.of_contains (contains_of_mem_independent hx) (contains_of_mem_independent hy)
  | empty, _, _, _, _, _, _, hx, _ => by simp [rows] at hx
  | join args _, hu, b, c, x, y, h, hx, hy => by
    cases args with
    | nil =>
      obtain rfl := Multiset.mem_singleton.1 hx
      obtain rfl := Multiset.mem_singleton.1 hy
      exact h
    | cons first rest =>
      refine sameVars_of_mem_restRows rest hu.2 (fun x hx y hy => ?_) hx hy
      exact sameVars_of_mem_rows first hu.1 h hx hy
  | filter _ a, hu, b, c, x, y, h, hx, hy =>
    sameVars_of_mem_rows a hu h (Multiset.mem_of_mem_filter hx) (Multiset.mem_of_mem_filter hy)
  | distinct a, hu, b, c, x, y, h, hx, hy =>
    sameVars_of_mem_rows a hu h (Multiset.mem_dedup.1 hx) (Multiset.mem_dedup.1 hy)

theorem sameVars_of_mem_restRows : ∀ (args : List Plan), UniformAll args → ∀ {X Y : Rows},
    (∀ x ∈ X, ∀ y ∈ Y, SameVars x y) → ∀ {x y : Bindings}, x ∈ restRows r args X →
      y ∈ restRows r args Y → SameVars x y
  | [], _, X, Y, h, x, y, hx, hy => h x hx y hy
  | a :: rest, hu, X, Y, h, x, y, hx, hy => by
    rw [restRows_cons] at hx hy
    refine sameVars_of_mem_restRows rest hu.2 (fun x hx y hy => ?_) hx hy
    obtain ⟨b, hb, hx⟩ := Multiset.mem_bind.1 hx
    obtain ⟨c, hc, hy⟩ := Multiset.mem_bind.1 hy
    have hbc := h b hb c hc
    exact sameVars_of_mem_rightRows hbc (fun hx hy => sameVars_of_mem_rows a hu.1 hbc hx hy) hx hy

end

/-! ### Rows in blocks -/

/-- There are enough numbers for the rows of a block: blocks are not too large, or else there are not
too many rows. -/
def Numberable (size : Nat) (X : Rows) : Prop :=
  size ≤ Tag.numberLimit ∨ Multiset.card X ≤ Tag.numberLimit

mutual

/-- Wherever a join takes rows in blocks of a size, there are enough numbers for them, and with a
statement either all rows leave some of its variables free or none does. -/
def TakesBlocks (r : Registry) (size : Nat) : Plan → Bindings → Prop
  | join args _, b => JoinTakesBlocks r size args b
  | union args, b => UnionTakesBlocks r size args b
  | filter _ a, b => a.TakesBlocks r size b
  | leftJoin left right _, b =>
    left.TakesBlocks r size b ∧ ∀ x ∈ left.rows r b, right.TakesBlocks r size x
  | distinct a, b => a.TakesBlocks r size b
  | _, _ => True

/-- The same for the arguments of a join, the first of which stands alone. -/
def JoinTakesBlocks (r : Registry) (size : Nat) : List Plan → Bindings → Prop
  | [], _ => True
  | first :: rest, b =>
    first.TakesBlocks r size b ∧ RestTakesBlocks r size rest (first.rows r b)

/-- The same for further arguments of a join. -/
def RestTakesBlocks (r : Registry) (size : Nat) : List Plan → Rows → Prop
  | [], _ => True
  | a :: rest, X =>
    (match a with
      | statement s =>
        Numberable size X ∧ ∀ x ∈ X, ∀ y ∈ X, s.hasFreeVarsFor x = s.hasFreeVarsFor y
      | independent _ => Numberable size X
      | _ => ∀ x ∈ X, a.TakesBlocks r size x) ∧
    RestTakesBlocks r size rest (X.bind (a.rightRows r))

/-- The same for the arguments of a union. -/
def UnionTakesBlocks (r : Registry) (size : Nat) : List Plan → Bindings → Prop
  | [], _ => True
  | a :: rest, b => a.TakesBlocks r size b ∧ UnionTakesBlocks r size rest b

end

/-- Whatever its rows are, a plan has enough numbers for them: blocks are not too large, or else
there are not too many triples. -/
def Fits (r : Registry) (size : Nat) (p : Plan) : Prop :=
  size ≤ Tag.numberLimit ∨ p.width r ≤ Tag.numberLimit

theorem Fits.mono {p q : Plan} (h : p.Fits r size) (hw : q.width r ≤ p.width r) : q.Fits r size :=
  h.imp_right hw.trans

theorem Numberable.of_card {X : Rows} {n : Nat} (h : size ≤ Tag.numberLimit ∨ n ≤ Tag.numberLimit)
    (hX : Multiset.card X ≤ n) : Numberable size X :=
  h.imp_right hX.trans

/-- Then there are enough for every block that is cut from the rows. -/
theorem Numberable.length_le {X : Rows} (h : Numberable size X) {block : List Bindings}
    (hsub : (block : Rows) ≤ X)
    (hlen : block.length ≤ max BoundJoin.smallBlockSize (max size 1)) :
    block.length ≤ Tag.numberLimit := by
  have card : block.length ≤ Multiset.card X := by simpa using Multiset.card_le_card hsub
  simp only [Numberable, BoundJoin.smallBlockSize, Tag.numberLimit] at hlen h ⊢
  omega

/-- The same for arguments of a join that rows have still to be joined with. -/
def RestFits (r : Registry) (size : Nat) (args : List Plan) (X : Rows) : Prop :=
  size ≤ Tag.numberLimit ∨ Multiset.card X * joinWidth r args ≤ Tag.numberLimit

section RestFits

variable {a : Plan} {rest : List Plan} {X : Rows}

theorem RestFits.numberable {args : List Plan} (h : RestFits r size args X) : Numberable size X :=
  .of_card h (Nat.le_mul_of_pos_right _ (joinWidth_pos args))

theorem RestFits.fits (h : RestFits r size (a :: rest) X) (hx : x ∈ X) : a.Fits r size := by
  refine h.imp_right fun hw => le_trans ?_ hw
  have pos : 0 < Multiset.card X := Multiset.card_pos_iff_exists_mem.2 ⟨x, hx⟩
  rw [joinWidth, ← Nat.mul_assoc, Nat.mul_comm _ (a.width r), Nat.mul_assoc]
  exact Nat.le_mul_of_pos_right _ (Nat.mul_pos pos (joinWidth_pos rest))

theorem RestFits.tail (h : RestFits r size (a :: rest) X) :
    RestFits r size rest (X.bind (a.rightRows r)) := by
  refine h.imp_right fun hw => le_trans ?_ hw
  rw [joinWidth, ← Nat.mul_assoc]
  exact Nat.mul_le_mul_right _
    (Rows.card_bind_le fun x _ => card_rightRows_le (card_rows_le_width a x))

theorem Fits.head {vars : List String} (h : (join (a :: rest) vars).Fits r size) :
    a.Fits r size :=
  h.mono (Nat.le_mul_of_pos_right _ (joinWidth_pos rest))

theorem Fits.behind {vars : List String} (h : (join (a :: rest) vars).Fits r size) (b : Bindings) :
    RestFits r size rest (a.rows r b) :=
  h.imp_right fun hw => le_trans (Nat.mul_le_mul_right _ (card_rows_le_width a b)) hw

end RestFits

theorem SameVars.hasFreeVarsFor (h : SameVars x y) (s : Statement) :
    s.hasFreeVarsFor x = s.hasFreeVarsFor y := by
  rw [Bool.eq_iff_iff, Statement.hasFreeVarsFor, Statement.hasFreeVarsFor,
    TriplePattern.hasFreeVars_iff, TriplePattern.hasFreeVars_iff]
  simp only [h _]

theorem sameVars_of_mem_bind {a : Plan} (ha : a.Uniform) {X : Rows}
    (h : ∀ x ∈ X, ∀ y ∈ X, SameVars x y) (hx : x ∈ X.bind (a.rightRows r))
    (hy : y ∈ X.bind (a.rightRows r)) : SameVars x y := by
  obtain ⟨b, hb, hx⟩ := Multiset.mem_bind.1 hx
  obtain ⟨c, hc, hy⟩ := Multiset.mem_bind.1 hy
  have hbc := h b hb c hc
  exact sameVars_of_mem_rightRows hbc (fun hx hy => sameVars_of_mem_rows a ha hbc hx hy) hx hy

mutual

/-- **Plans of statements and groups under joins and filters may take rows in blocks.** -/
theorem takesBlocks_of_uniform :
    ∀ (p : Plan), p.Uniform → p.Fits r size → ∀ b, p.TakesBlocks r size b
  | statement _, _, _, _ => trivial
  | group _, _, _, _ => trivial
  | independent _, _, _, _ => trivial
  | empty, _, _, _ => trivial
  | join [] _, _, _, _ => trivial
  | join (first :: rest) _, hu, hf, b =>
    ⟨takesBlocks_of_uniform first hu.1 hf.head b,
      restTakesBlocks_of_uniform rest hu.2 (hf.behind b) fun _ hx _ hy =>
        sameVars_of_mem_rows first hu.1 (fun _ => rfl) hx hy⟩
  | filter _ a, hu, hf, b => takesBlocks_of_uniform a hu hf b
  | distinct a, hu, hf, b => takesBlocks_of_uniform a hu hf b

theorem restTakesBlocks_of_uniform : ∀ (args : List Plan), UniformAll args → ∀ {X : Rows},
    RestFits r size args X → (∀ x ∈ X, ∀ y ∈ X, SameVars x y) → RestTakesBlocks r size args X
  | [], _, _, _, _ => trivial
  | a :: rest, hu, X, hf, h => by
    refine ⟨?_, restTakesBlocks_of_uniform rest hu.2 hf.tail fun x hx y hy =>
      sameVars_of_mem_bind hu.1 h hx hy⟩
    cases a with
    | statement s => exact ⟨hf.numberable, fun x hx y hy => (h x hx y hy).hasFreeVarsFor s⟩
    | independent members => exact hf.numberable
    | _ => exact fun x hx => takesBlocks_of_uniform _ hu.1 (hf.fits hx) x

end

end FederatedSparql.Plan
