import FederatedSparql.Proofs.Engine.Yields

/-!
Programs and feeds whose items are related one by one.

`Work.Related` and `Feed.Related` compare two programs or feeds that differ in the items at hand, but
not in what is done with them: as many items and failures arrive from both, in the same order, and
each item from the one is related to the item from the other.  There is one rule for each way to make
a program or a feed.

* `Feed.Related.nestedJoin`, `Feed.Related.boundJoin`, `Feed.Related.optional`: joins are related if
  their right sides are for related rows of the left, and for blocks of such rows.
* `Work.Related.bind`, `Work.Related.gather`: programs are put together from related ones.
-/

namespace FederatedSparql

variable {α β γ : Type}

/-! ### Outcomes -/

/-- Both fail the same way, or both come to values that are related. -/
inductive SameOutcome {ε : Type} (R : α → β → Prop) : Except ε α → Except ε β → Prop
  | ok {x : α} {y : β} (h : R x y) : SameOutcome R (.ok x) (.ok y)
  | error (e : ε) : SameOutcome R (.error e) (.error e)

namespace SameOutcome

variable {ε : Type} {R S : α → α → Prop} {a b : Except ε α}

theorem imp (h : ∀ x y, R x y → S x y) (hab : SameOutcome R a b) : SameOutcome S a b := by
  cases hab with
  | ok hxy => exact .ok (h _ _ hxy)
  | error e => exact .error e

/-- The items of a result, if there are any. -/
def itemsOf : Except ε (List α) → List α
  | .ok xs => xs
  | .error _ => []

/-- Results that are related one by one all are items, or one of them fails first on both sides. -/
theorem mapM_id {κ : Type} {keys : List κ} {T : κ → List α → List α → Prop}
    {g g' : κ → Except ε (List α)} (h : ∀ k ∈ keys, SameOutcome (T k) (g k) (g' k)) :
    (∃ e, (keys.map g).mapM id = .error e ∧ (keys.map g').mapM id = .error e) ∨
      (keys.map g).mapM id = .ok (keys.map fun k => itemsOf (g k)) ∧
        (keys.map g').mapM id = .ok (keys.map fun k => itemsOf (g' k)) ∧
          ∀ k ∈ keys, T k (itemsOf (g k)) (itemsOf (g' k)) := by
  induction keys with
  | nil => exact .inr ⟨rfl, rfl, fun k hk => absurd hk List.not_mem_nil⟩
  | cons k keys ih =>
    rw [List.forall_mem_cons] at h
    obtain ⟨hk, hs⟩ := h
    simp only [List.map_cons, List.mapM_cons, List.forall_mem_cons]
    generalize g k = a at hk ⊢
    generalize g' k = b at hk ⊢
    cases hk with
    | error e => exact .inl ⟨e, rfl, rfl⟩
    | ok hxy =>
      rcases ih hs with ⟨e, he, he'⟩ | ⟨hg, hg', hT⟩
      · exact .inl ⟨e, by rw [he]; rfl, by rw [he']; rfl⟩
      · exact .inr ⟨by rw [hg]; rfl, by rw [hg']; rfl, hxy, hT⟩

end SameOutcome

/-! ### Lists and blocks -/

/-- What treats all lists alike takes related lists to related lists of lists. -/
theorem forall₂_of_natural {f : ∀ {τ : Type}, List τ → List (List τ)}
    (natural : ∀ {τ σ : Type} (g : τ → σ) (xs : List τ), f (xs.map g) = (f xs).map (List.map g))
    {R : α → β → Prop} {xs : List α} {ys : List β} (h : List.Forall₂ R xs ys) :
    List.Forall₂ (List.Forall₂ R) (f xs) (f ys) := by
  obtain ⟨zs, rfl, rfl⟩ : ∃ zs : List {z : α × β // R z.1 z.2},
      zs.map (·.1.1) = xs ∧ zs.map (·.1.2) = ys := by
    induction h with
    | nil => exact ⟨[], rfl, rfl⟩
    | @cons x y xs ys hxy _ ih =>
      obtain ⟨zs, hx, hy⟩ := ih
      exact ⟨⟨(x, y), hxy⟩ :: zs, by rw [List.map_cons, hx], by rw [List.map_cons, hy]⟩
  rw [natural, natural, List.forall₂_map_left_iff, List.forall₂_map_right_iff, List.forall₂_same]
  intro block _
  rw [List.forall₂_map_left_iff, List.forall₂_map_right_iff, List.forall₂_same]
  exact fun z _ => z.2

/-- Related lists stay so if the same places are left out of both. -/
theorem forall₂_filter {R : α → β → Prop} {xs : List α} {ys : List β} {p : α → Bool} {q : β → Bool}
    (h : List.Forall₂ R xs ys) (hp : ∀ x y, R x y → p x = q y) :
    List.Forall₂ R (xs.filter p) (ys.filter q) :=
  List.rel_filter (fun x y hxy => Bool.eq_iff_iff.1 (hp x y hxy)) h

namespace BoundJoin

variable (configured : Nat) (g : α → β)

theorem blocksFrom_map (total : Nat) (rows : List α) :
    blocksFrom configured total (rows.map g) = (blocksFrom configured total rows).map (List.map g) := by
  fun_induction blocksFrom configured total rows with
  | case1 => simp [blocksFrom]
  | case2 total row rest size ih =>
    rw [List.map_cons, blocksFrom, List.map_cons, ← ih]
    simp [size, List.map_take, List.map_drop]

theorem blocks_map (rows : List α) :
    blocks configured (rows.map g) = (blocks configured rows).map (List.map g) := by
  cases rows with
  | nil => rfl
  | cons row rest => simp [blocks, blocksFrom_map]

theorem filledBlocks_map (rows : List α) :
    filledBlocks configured (rows.map g) = (filledBlocks configured rows).map (List.map g) := by
  unfold filledBlocks
  simp only [blocks_map, ← List.map_tail, List.getLast?_map, List.length_map]
  cases (blocks configured rows).tail.getLast? with
  | none => rfl
  | some last =>
    simp only [Option.map_some, List.length_map]
    split
    · rfl
    · rw [List.map_dropLast]

end BoundJoin

/-! ### Arrivals -/

namespace Arrivals

variable {R S : α → α → Prop} {as bs : Arrivals α}

/-- As many items and failures arrive, in the same order, and items are related. -/
abbrev Related (R : α → α → Prop) : Arrivals α → Arrivals α → Prop :=
  List.Forall₂ (SameOutcome R)

theorem Related.ofList {xs ys : List α} (h : List.Forall₂ R xs ys) :
    Related R (.ofList xs) (.ofList ys) := by
  rw [Related, Arrivals.ofList, Arrivals.ofList, List.forall₂_map_left_iff,
    List.forall₂_map_right_iff]
  exact h.imp fun _ _ => .ok

theorem Related.items (h : Related R as bs) : List.Forall₂ R as.items bs.items := by
  induction h with
  | nil => exact .nil
  | cons hab _ ih =>
    cases hab with
    | ok hxy => exact .cons hxy ih
    | error e => exact .nil

theorem Related.failure?_eq (h : Related R as bs) : as.failure? = bs.failure? := by
  induction h with
  | nil => rfl
  | cons hab _ ih =>
    cases hab with
    | ok hxy => exact ih
    | error e => rfl

theorem related_errors (e? : Option FedError) :
    Related R (e?.toList.map .error) (e?.toList.map .error) := by
  cases e? with
  | none => exact .nil
  | some e => exact .cons (.error e) .nil

theorem Related.upToFailure (h : Related R as bs) : Related R as.upToFailure bs.upToFailure := by
  rw [Arrivals.upToFailure, Arrivals.upToFailure, h.failure?_eq]
  exact List.rel_append (Related.ofList h.items) (related_errors _)

theorem Related.collect (h : Related R as bs) :
    SameOutcome (List.Forall₂ R) as.collect bs.collect := by
  unfold Arrivals.collect
  rw [h.failure?_eq]
  cases bs.failure? with
  | none => exact .ok h.items
  | some e => exact .error e

theorem Related.ofResult {a b : Except FedError (Arrivals α)} (h : SameOutcome (Related R) a b) :
    Related R (.ofResult a) (.ofResult b) := by
  cases h with
  | ok h => exact h
  | error e => exact .cons (.error e) .nil

theorem Related.ofTasks {ass bss : List (Arrivals α)} (h : List.Forall₂ (Related R) ass bss) :
    Related R (.ofTasks ass) (.ofTasks bss) :=
  Related.upToFailure (List.rel_flatten h)

theorem Related.ofJoin {ass bss : List (Arrivals α)} (h : Related S as bs)
    (hs : List.Forall₂ (Related R) ass bss) : Related R (.ofJoin as ass) (.ofJoin bs bss) := by
  refine Related.ofTasks (List.rel_append hs ?_)
  rw [h.failure?_eq]
  exact .cons (related_errors _) .nil

theorem Related.map {f g : α → α} (h : Related R as bs) (hf : ∀ x y, R x y → S (f x) (g y)) :
    Related S (as.map f) (bs.map g) := by
  refine List.rel_map (fun a b hab => ?_) h
  cases hab with
  | ok hxy => exact .ok (hf _ _ hxy)
  | error e => exact .error e

theorem Related.filter {p q : α → Bool} (h : Related R as bs) (hp : ∀ x y, R x y → p x = q y) :
    Related R (as.filter p) (bs.filter q) := by
  induction h with
  | nil => exact .nil
  | @cons a b as bs hab _ ih =>
    rw [Arrivals.filter, Arrivals.filter, List.filter_cons, List.filter_cons]
    cases hab with
    | error e => exact .cons (.error e) ih
    | @ok x y hxy =>
      simp only [hp x y hxy]
      split
      · exact .cons (.ok hxy) ih
      · exact ih

theorem Related.slice (offset : Nat) (limit : Option Nat) (h : Related R as bs) :
    Related R (as.slice offset limit) (bs.slice offset limit) := by
  cases limit with
  | none => exact List.forall₂_drop _ h
  | some n => exact List.forall₂_take _ (List.forall₂_drop _ h)

theorem Related.blocks (configured : Nat) (h : Related R as bs) :
    List.Forall₂ (List.Forall₂ R) (as.blocks configured) (bs.blocks configured) := by
  unfold Arrivals.blocks
  rw [h.failure?_eq]
  cases bs.failure? with
  | none => exact forall₂_of_natural (BoundJoin.blocks_map configured) h.items
  | some e => exact forall₂_of_natural (BoundJoin.filledBlocks_map configured) h.items

theorem Related.optional {x y : α} {p q : α → Bool} (hxy : R x y) (hp : ∀ x y, R x y → p x = q y)
    (h : Related R as bs) : Related R (Arrivals.optional x p as) (Arrivals.optional y q bs) := by
  have hc := h.collect
  unfold Arrivals.optional
  generalize as.collect = a at hc ⊢
  generalize bs.collect = b at hc ⊢
  cases hc with
  | error e => exact .cons (.error e) .nil
  | @ok xs ys hs =>
    have kept := forall₂_filter hs hp
    simp only
    generalize xs.filter p = xs' at kept ⊢
    generalize ys.filter q = ys' at kept ⊢
    cases kept with
    | nil => exact .cons (.ok hxy) .nil
    | cons hk hks => exact Related.ofList (.cons hk hks)

theorem related_eq_iff : Related (· = ·) as bs ↔ as = bs := by
  constructor
  · intro h
    induction h with
    | nil => rfl
    | cons hab _ ih =>
      cases hab with
      | ok hxy => rw [hxy, ih]
      | error e => rw [ih]
  · rintro rfl
    refine List.forall₂_same.2 fun a _ => ?_
    cases a with
    | ok x => exact .ok rfl
    | error e => exact .error e

end Arrivals

/-! ### How programs end -/

namespace Work

variable [DecidableEq α]

/-- The feed or the failure that a program ends in; none if it breaks off. -/
def ending (answers : Answers) : Work α → Except (Option FedError) (Feed α)
  | done feed => .ok feed
  | fail e => .error (some e)
  | panic => .error none
  | sleep _ next => next.ending answers
  | request endpoint r next => (next (answers endpoint r)).ending answers
  | repair _ next => next.ending answers
  | check next => next.ending answers
  | gather parts next => (next (collectedOf answers parts)).ending answers
termination_by structural w => w

theorem settle_eq_ending (answers : Answers) :
    ∀ w : Work α, w.settle answers = (w.ending answers).mapError
      fun e? => e?.getD (.internalScheduling (.taskPanicked "evaluation"))
  | done _ => rfl
  | fail _ => rfl
  | panic => rfl
  | sleep _ next => settle_eq_ending answers next
  | request endpoint r next => settle_eq_ending answers (next (answers endpoint r))
  | repair _ next => settle_eq_ending answers next
  | check next => settle_eq_ending answers next
  | gather parts next => settle_eq_ending answers (next (collectedOf answers parts))

theorem ending_bind (answers : Answers) (k : Feed α → Work α) :
    ∀ w : Work α, (w.bind k).ending answers = (w.ending answers).bind fun f => (k f).ending answers
  | done _ => rfl
  | fail _ => rfl
  | panic => rfl
  | sleep _ next => ending_bind answers k next
  | request endpoint r next => ending_bind answers k (next (answers endpoint r))
  | repair _ next => ending_bind answers k next
  | check next => ending_bind answers k next
  | gather parts next => ending_bind answers k (next (collectedOf answers parts))

/-- A handler goes on with a failure, not with a program that breaks off. -/
theorem ending_handle (answers : Answers) (h : FedError → Work α) :
    ∀ w : Work α, (w.handle h).ending answers =
      match w.ending answers with
      | .error (some e) => (h e).ending answers
      | other => other
  | done _ => rfl
  | fail _ => rfl
  | panic => rfl
  | sleep _ next => ending_handle answers h next
  | request endpoint r next => ending_handle answers h (next (answers endpoint r))
  | repair _ next => ending_handle answers h next
  | check next => ending_handle answers h next
  | gather parts next => ending_handle answers h (next (collectedOf answers parts))

end Work

/-! ### Feeds -/

section Feeds

variable [DecidableEq α] {answers : Answers} {R S : α → α → Prop}

/-- What is at hand is related, and so is what arrives. -/
structure Feed.Related (answers : Answers) (R : α → α → Prop) (f f' : Feed α) : Prop where
  buffered : Option.Rel (List.Forall₂ R) f.buffered? f'.buffered?
  arrivals : Arrivals.Related R (f.arrivals answers) (f'.arrivals answers)

/-- Both programs fail or break off the same way, or both end in feeds that are related. -/
def Work.Related (answers : Answers) (R : α → α → Prop) (w w' : Work α) : Prop :=
  SameOutcome (Feed.Related answers R) (w.ending answers) (w'.ending answers)

theorem Work.Related.arrivals {w w' : Work α} (h : w.Related answers R w') :
    SameOutcome (Arrivals.Related R) (w.arrivals answers) (w'.arrivals answers) := by
  rw [Work.arrivals_eq_settle, Work.arrivals_eq_settle, Work.settle_eq_ending,
    Work.settle_eq_ending]
  unfold Work.Related at h
  generalize w.ending answers = a at h
  generalize w'.ending answers = b at h
  cases h with
  | ok h => exact .ok h.arrivals
  | error e? => exact .error _

theorem collectedOf_map {κ : Type} (keys : List κ) (f : κ → Work α) :
    collectedOf answers (keys.map f) =
      keys.map fun k => Arrivals.collect (.ofResult ((f k).arrivals answers)) := by
  induction keys with
  | nil => rfl
  | cons k keys ih => rw [List.map_cons, List.map_cons, ← ih]; rfl

theorem collectedOf_related {parts parts' : List (Work α)}
    (h : List.Forall₂ (Work.Related answers R) parts parts') :
    List.Forall₂ (SameOutcome (List.Forall₂ R)) (collectedOf answers parts)
      (collectedOf answers parts') := by
  induction h with
  | nil => exact .nil
  | cons hw _ ih => exact .cons (Arrivals.Related.ofResult hw.arrivals).collect ih

namespace Feed.Related

variable {f f' : Feed α}

theorem imp (h : f.Related answers R f') (hRS : ∀ x y, R x y → S x y) : f.Related answers S f' where
  buffered := by
    have hb := h.buffered
    generalize f.buffered? = a at hb ⊢
    generalize f'.buffered? = b at hb ⊢
    cases hb with
    | none => exact .none
    | some hs => exact .some (hs.imp hRS)
  arrivals := h.arrivals.imp fun _ _ => SameOutcome.imp hRS

theorem isKnownEmpty_eq (h : f.Related answers R f') : f.isKnownEmpty = f'.isKnownEmpty := by
  have hb := h.buffered
  unfold isKnownEmpty
  generalize f.buffered? = a at hb ⊢
  generalize f'.buffered? = b at hb ⊢
  cases hb with
  | none => rfl
  | some hs => cases hs <;> rfl

theorem rows {xs ys : List α} (h : List.Forall₂ R xs ys) :
    (Feed.rows xs).Related answers R (.rows ys) :=
  ⟨.some h, .ofList h⟩

theorem filter {p q : α → Bool} (h : f.Related answers R f') (hp : ∀ x y, R x y → p x = q y) :
    (Feed.filter p f).Related answers R (.filter q f') where
  buffered := by
    have hb := h.buffered
    simp only [buffered?]
    generalize f.buffered? = a at hb ⊢
    generalize f'.buffered? = b at hb ⊢
    cases hb with
    | none => exact .none
    | some hs => exact .some (forall₂_filter hs hp)
  arrivals := h.arrivals.filter hp

theorem map {g g' : α → α} (h : f.Related answers R f') (hg : ∀ x y, R x y → S (g x) (g' y)) :
    (Feed.map g f).Related answers S (.map g' f') where
  buffered := by
    have hb := h.buffered
    simp only [buffered?]
    generalize f.buffered? = a at hb ⊢
    generalize f'.buffered? = b at hb ⊢
    cases hb with
    | none => exact .none
    | some hs => exact .some (List.rel_map hg hs)
  arrivals := h.arrivals.map hg

theorem slice (offset : Nat) (limit : Option Nat) (h : f.Related answers R f') :
    (Feed.slice offset limit f).Related answers R (.slice offset limit f') :=
  ⟨.none, h.arrivals.slice offset limit⟩

/-- Repetitions are left out alike where the same items arrive. -/
theorem distinct (h : f.Related answers (· = ·) f') :
    (Feed.distinct f).Related answers (· = ·) (.distinct f') where
  buffered := by
    have hb := h.buffered
    simp only [buffered?]
    generalize f.buffered? = a at hb ⊢
    generalize f'.buffered? = b at hb ⊢
    cases hb with
    | none => exact .none
    | some hs =>
      rw [List.forall₂_eq_eq_eq] at hs ⊢
      exact .some (congrArg List.eraseDups hs)
  arrivals := by
    rw [arrivals_distinct, arrivals_distinct, Arrivals.related_eq_iff.1 h.arrivals]
    exact Arrivals.related_eq_iff.2 rfl

theorem branchArrivals_related {branches branches' : List (String × Work α)}
    (h : List.Forall₂ (fun b b' => b.2.Related answers R b'.2) branches branches') :
    List.Forall₂ (Arrivals.Related R) (branchArrivals answers branches)
      (branchArrivals answers branches') := by
  induction h with
  | nil => exact .nil
  | @cons b b' _ _ hb _ ih =>
    obtain ⟨name, w⟩ := b
    obtain ⟨name', w'⟩ := b'
    exact .cons (.ofResult hb.arrivals) ih

theorem union (firstOnly : Bool) {branches branches' : List (String × Work α)}
    (h : List.Forall₂ (fun b b' => b.2.Related answers R b'.2) branches branches') :
    (Feed.union firstOnly branches).Related answers R (.union firstOnly branches') := by
  have hs := branchArrivals_related h
  refine ⟨.none, ?_⟩
  cases firstOnly with
  | false => exact .ofTasks hs
  | true =>
    rw [arrivals_unionFirst, arrivals_unionFirst]
    refine .ofTasks ?_
    generalize branchArrivals answers branches = ass at hs ⊢
    generalize branchArrivals answers branches' = bss at hs ⊢
    induction hs with
    | nil => exact .nil
    | cons hab _ ih =>
      cases hab with
      | nil => exact ih
      | cons ha has => exact .cons (.cons ha has) .nil

theorem nestedJoin {right right' : α → Work α} (h : f.Related answers R f')
    (hr : ∀ x y, R x y → (right x).Related answers S (right' y)) :
    (Feed.nestedJoin f right).Related answers S (.nestedJoin f' right') := by
  refine ⟨.none, h.arrivals.ofJoin (List.rel_map (fun x y hxy => ?_) h.arrivals.items)⟩
  exact .ofResult (hr x y hxy).arrivals

/-- Blocks of a join hold no more rows than the settings say. -/
theorem boundJoin {size : Nat} {right right' : α → List α → Work α} (h : f.Related answers R f')
    (hr : ∀ x y, R x y → ∀ block block', List.Forall₂ R block block' →
      block.length ≤ max BoundJoin.smallBlockSize size →
        (right x block).Related answers S (right' y block')) :
    (Feed.boundJoin f size right).Related answers S (.boundJoin f' size right') := by
  refine ⟨.none, ?_⟩
  rw [arrivals_boundJoin, arrivals_boundJoin]
  refine h.arrivals.ofJoin ?_
  have small : ∀ block ∈ (f.arrivals answers).blocks size,
      block.length ≤ max BoundJoin.smallBlockSize size := fun block hb =>
    (BoundJoin.length_of_mem_blocks size (Arrivals.mem_blocks_items hb)).2
  have sent := (List.forall₂_and_left _ _).2 ⟨small, h.arrivals.blocks size⟩
  have hi := h.arrivals.items
  generalize (f.arrivals answers).items = xs at hi ⊢
  generalize (f'.arrivals answers).items = ys at hi ⊢
  cases hi with
  | nil => exact .nil
  | @cons x y _ _ hxy _ =>
    refine List.rel_map (fun block block' hb => ?_) sent
    exact .ofResult (hr x y hxy block block' hb.2 hb.1).arrivals

theorem optional {right right' : α → Work α} {p q : α → Bool} (h : f.Related answers R f')
    (hr : ∀ x y, R x y → (right x).Related answers R (right' y)) (hp : ∀ x y, R x y → p x = q y) :
    (Feed.optional f right p).Related answers R (.optional f' right' q) := by
  refine ⟨.none, ?_⟩
  rw [arrivals_optional, arrivals_optional]
  refine List.rel_flatMap h.arrivals fun a b hab => ?_
  cases hab with
  | error e => exact .cons (.error e) .nil
  | ok hxy => exact Arrivals.Related.optional hxy hp (.ofResult (hr _ _ hxy).arrivals)

end Feed.Related

/-! ### Programs -/

namespace Work.Related

variable {w w' : Work α}

theorem imp (h : w.Related answers R w') (hRS : ∀ x y, R x y → S x y) : w.Related answers S w' :=
  SameOutcome.imp (fun _ _ hf => hf.imp hRS) h

theorem done {f f' : Feed α} (h : f.Related answers R f') :
    (Work.done f).Related answers R (.done f') := .ok h

theorem rows {xs ys : List α} (h : List.Forall₂ R xs ys) :
    (Work.done (.rows xs)).Related answers R (.done (.rows ys)) := done (.rows h)

theorem fail (e : FedError) : (Work.fail e : Work α).Related answers R (.fail e) := .error (some e)

theorem check (h : w.Related answers R w') : (Work.check w).Related answers R (.check w') := h

theorem gather {parts parts' : List (Work α)} {next next' : List (Except FedError (List α)) → Work α}
    (h : List.Forall₂ (Work.Related answers S) parts parts')
    (hn : ∀ results results', List.Forall₂ (SameOutcome (List.Forall₂ S)) results results' →
      (next results).Related answers R (next' results')) :
    (Work.gather parts next).Related answers R (.gather parts' next') :=
  hn _ _ (collectedOf_related h)

/-- The same where each of the programs has items of its own kind. -/
theorem gatherEach {κ : Type} {keys : List κ} {f f' : κ → Work α} {T : κ → α → α → Prop}
    {next next' : List (Except FedError (List α)) → Work α}
    (h : ∀ k ∈ keys, (f k).Related answers (T k) (f' k))
    (hn : ∀ g g' : κ → Except FedError (List α),
      (∀ k ∈ keys, SameOutcome (List.Forall₂ (T k)) (g k) (g' k)) →
        (next (keys.map g)).Related answers R (next' (keys.map g'))) :
    (Work.gather (keys.map f) next).Related answers R (.gather (keys.map f') next') := by
  unfold Work.Related
  rw [Work.ending, Work.ending, collectedOf_map, collectedOf_map]
  exact hn _ _ fun k hk => (Arrivals.Related.ofResult (h k hk).arrivals).collect

theorem ofExcept {r r' : Except FedError β} {T : β → β → Prop} {k k' : β → Work α}
    (h : SameOutcome T r r') (hk : ∀ x y, T x y → (k x).Related answers R (k' y)) :
    (Work.ofExcept r k).Related answers R (.ofExcept r' k') := by
  cases h with
  | ok hxy => exact hk _ _ hxy
  | error e => exact fail e

theorem ofExcept_same {r : Except FedError β} {k k' : β → Work α}
    (hk : ∀ x, (k x).Related answers R (k' x)) :
    (Work.ofExcept r k).Related answers R (.ofExcept r k') := by
  cases r with
  | ok x => exact hk x
  | error e => exact fail e

theorem bind {k k' : Feed α → Work α} (h : w.Related answers R w')
    (hk : ∀ f f', f.Related answers R f' → (k f).Related answers S (k' f')) :
    (w.bind k).Related answers S (w'.bind k') := by
  unfold Work.Related at h ⊢
  rw [ending_bind, ending_bind]
  generalize w.ending answers = a at h ⊢
  generalize w'.ending answers = b at h ⊢
  cases h with
  | ok hf => exact hk _ _ hf
  | error e => exact .error e

theorem handle {k k' : FedError → Work α} (h : w.Related answers R w')
    (hk : ∀ e, (k e).Related answers R (k' e)) :
    (w.handle k).Related answers R (w'.handle k') := by
  unfold Work.Related at h ⊢
  rw [ending_handle, ending_handle]
  generalize w.ending answers = a at h ⊢
  generalize w'.ending answers = b at h ⊢
  cases h with
  | ok hf => exact .ok hf
  | error e? =>
    cases e? with
    | none => exact .error none
    | some e => exact hk e

theorem failRepairing (e : FedError) :
    (Work.failRepairing e : Work α).Related answers R (.failRepairing e) := by
  unfold Work.failRepairing
  split
  · exact .error _
  · exact .error _

theorem repairingFaults (h : w.Related answers R w') :
    w.repairingFaults.Related answers R w'.repairingFaults :=
  h.handle failRepairing

theorem mapFeed {g g' : Feed α → Feed α} (h : w.Related answers R w')
    (hg : ∀ f f', f.Related answers R f' → (g f).Related answers S (g' f')) :
    (w.mapFeed g).Related answers S (w'.mapFeed g') :=
  h.bind fun f f' hf => done (hg f f' hf)

end Work.Related

end Feeds

end FederatedSparql
