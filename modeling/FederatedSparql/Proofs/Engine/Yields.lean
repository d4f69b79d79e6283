import Mathlib.Data.Multiset.Dedup
import FederatedSparql.Engine.Arrivals
import FederatedSparql.Proofs.Engine.Blocks

/-!
Programs and feeds that come to a multiset of items without a failure.

`Work.Yields` and `Feed.Yields` say which items arrive, as a multiset, when all tasks run in turn: in
which order the items do is left open.  The rules for joins and unions ask nothing of the order of the
items of their parts; for joins they ask what the right side yields for whatever comes from the left,
in blocks of whatever shape.
-/

namespace FederatedSparql

variable {α : Type} {answers : Answers}

section Definitions

variable [DecidableEq α]

/-- All items of a feed arrive, without a failure. -/
def Feed.Yields (answers : Answers) (f : Feed α) (M : Multiset α) : Prop :=
  ∃ xs, f.arrivals answers = .ofList xs ∧ (xs : Multiset α) = M

/-- A program ends in a feed all items of which arrive, without a failure. -/
def Work.Yields (answers : Answers) (w : Work α) (M : Multiset α) : Prop :=
  ∃ xs, w.arrivals answers = .ok (.ofList xs) ∧ (xs : Multiset α) = M

/-- What the right has for an item of the left and is to be kept, or else the item. -/
def Feed.optionalRows (keep : α → Bool) (x : α) (matched : Multiset α) : Multiset α :=
  if matched.filter (keep · = true) = 0 then {x} else matched.filter (keep · = true)

end Definitions

/-! ### Arrivals without failures -/

namespace Arrivals

theorem map_ofList (f : α → α) (xs : List α) : (ofList xs).map f = ofList (xs.map f) := by
  simp [ofList, map, Except.map]

theorem filter_ofList (keep : α → Bool) (xs : List α) :
    (ofList xs).filter keep = ofList (xs.filter keep) := by
  induction xs with
  | nil => rfl
  | cons x xs ih =>
    simp only [ofList, filter, List.map_cons, List.filter_cons] at ih ⊢
    split <;> simp [ih]

theorem distinct_ofList [DecidableEq α] (seen xs : List α) :
    ∃ ys, (ofList xs).distinct seen = ofList ys ∧ ys.Nodup ∧
      ∀ y, y ∈ ys ↔ y ∈ xs ∧ y ∉ seen := by
  induction xs generalizing seen with
  | nil => exact ⟨[], rfl, List.nodup_nil, by simp⟩
  | cons x xs ih =>
    by_cases hx : x ∈ seen
    · obtain ⟨ys, he, hn, hm⟩ := ih seen
      refine ⟨ys, ?_, hn, fun y => ?_⟩
      · simpa [ofList, distinct, hx] using he
      · rw [hm, List.mem_cons]
        constructor
        · rintro ⟨hy, hs⟩
          exact ⟨.inr hy, hs⟩
        · rintro ⟨rfl | hy, hs⟩
          · exact absurd hx hs
          · exact ⟨hy, hs⟩
    · obtain ⟨ys, he, hn, hm⟩ := ih (x :: seen)
      refine ⟨x :: ys, ?_, List.nodup_cons.2 ⟨fun h => ?_, hn⟩, fun y => ?_⟩
      · simpa [ofList, distinct, hx] using he
      · exact ((hm x).1 h).2 List.mem_cons_self
      · simp only [List.mem_cons, hm, not_or]
        constructor
        · rintro (rfl | ⟨hy, -, hs⟩)
          · exact ⟨.inl rfl, hx⟩
          · exact ⟨.inr hy, hs⟩
        · rintro ⟨rfl | hy, hs⟩
          · exact .inl rfl
          · by_cases hyx : y = x
            · exact .inl hyx
            · exact .inr ⟨hy, hyx, hs⟩

theorem ofTasks_ofList (xss : List (List α)) : ofTasks (xss.map ofList) = ofList xss.flatten := by
  have flat : (xss.map ofList).flatten = ofList xss.flatten := by
    induction xss with
    | nil => rfl
    | cons xs xss ih => rw [List.map_cons, List.flatten_cons, ih]; simp [ofList]
  rw [ofTasks, flat, upToFailure]
  simp

theorem ofJoin_ofList (left : List α) (xss : List (List α)) :
    ofJoin (ofList left) (xss.map ofList) = ofList xss.flatten := by
  have last : xss.map ofList ++ [(ofList left).failure?.toList.map Except.error] =
      (xss ++ [[]]).map ofList := by
    rw [failure?_ofList, List.map_append]
    rfl
  rw [ofJoin, last, ofTasks_ofList]
  simp

/-- Whether or not a failure comes behind them, rows that arrive are sent in their blocks. -/
theorem mem_blocks_items {as : Arrivals α} {configured : Nat} {block : List α}
    (h : block ∈ as.blocks configured) : block ∈ BoundJoin.blocks configured as.items := by
  unfold blocks at h
  split at h
  · exact h
  · exact BoundJoin.mem_blocks_of_mem_filledBlocks configured h

end Arrivals

/-! ### What arrives from each form of feed -/

namespace Feed

variable [DecidableEq α] (f : Feed α)

theorem arrivals_map (g : α → α) : (map g f).arrivals answers = (f.arrivals answers).map g := rfl

theorem arrivals_filter (keep : α → Bool) :
    (filter keep f).arrivals answers = (f.arrivals answers).filter keep := rfl

theorem arrivals_distinct : (distinct f).arrivals answers = (f.arrivals answers).distinct [] := rfl

theorem arrivals_slice (offset : Nat) (limit : Option Nat) :
    (slice offset limit f).arrivals answers = (f.arrivals answers).slice offset limit := rfl

theorem arrivals_union (branches : List (String × Work α)) :
    (union false branches).arrivals answers = .ofTasks (branchArrivals answers branches) := rfl

theorem arrivals_unionFirst (branches : List (String × Work α)) :
    (union true branches).arrivals answers =
      .ofTasks ((branchArrivals answers branches).find? fun as => !as.isEmpty).toList := rfl

theorem arrivals_nestedJoin (right : α → Work α) :
    (nestedJoin f right).arrivals answers = .ofJoin (f.arrivals answers)
      ((f.arrivals answers).items.map fun row => .ofResult ((right row).arrivals answers)) := rfl

theorem arrivals_boundJoin (size : Nat) (right : α → List α → Work α) :
    (boundJoin f size right).arrivals answers = .ofJoin (f.arrivals answers)
      (match (f.arrivals answers).items with
        | [] => []
        | first :: _ => ((f.arrivals answers).blocks size).map fun block =>
            .ofResult ((right first block).arrivals answers)) := rfl

theorem arrivals_optional (right : α → Work α) (keep : α → Bool) :
    (optional f right keep).arrivals answers = (f.arrivals answers).flatMap fun
      | .error e => [.error e]
      | .ok row => Arrivals.optional row keep (.ofResult ((right row).arrivals answers)) := rfl

theorem arrivals_deferred (w : Work α) :
    (deferred w).arrivals answers = .ofResult (w.arrivals answers) := rfl

end Feed

/-! ### Lists of lists -/

theorem coe_flatten (xss : List (List α)) :
    (xss.flatten : Multiset α) = (xss.map Multiset.ofList).sum := by
  induction xss with
  | nil => rfl
  | cons xs xss ih => rw [List.flatten_cons, ← Multiset.coe_add, ih, List.map_cons, List.sum_cons]

theorem bind_coe_flatten {β : Type} (R : α → Multiset β) (xss : List (List α)) :
    ((xss : Multiset (List α)).bind fun xs => (xs : Multiset α).bind R) =
      (xss.flatten : Multiset α).bind R := by
  induction xss with
  | nil => rfl
  | cons xs xss ih =>
    rw [← Multiset.cons_coe, Multiset.cons_bind, ih, List.flatten_cons, ← Multiset.coe_add,
      Multiset.add_bind]

/-! ### Feeds -/

namespace Feed.Yields

variable [DecidableEq α]

variable {M : Multiset α} {f : Feed α}

/-- What a feed yields is determined. -/
theorem unique {N : Multiset α} (h : f.Yields answers M) (h' : f.Yields answers N) : M = N := by
  obtain ⟨xs, hx, rfl⟩ := h
  obtain ⟨ys, hy, rfl⟩ := h'
  have := congrArg Arrivals.items (hx.symm.trans hy)
  rw [Arrivals.items_ofList, Arrivals.items_ofList] at this
  rw [this]

theorem rows (xs : List α) : (Feed.rows xs).Yields answers (xs : Multiset α) := ⟨xs, rfl, rfl⟩

/-- What arrives from branches each of which yields something. -/
theorem branchArrivals_eq {branches : List (String × Work α)} {Ms : List (Multiset α)}
    (h : List.Forall₂ (fun branch M => branch.2.Yields answers M) branches Ms) :
    ∃ xss : List (List α), branchArrivals answers branches = xss.map .ofList ∧
      xss.map Multiset.ofList = Ms := by
  induction h with
  | nil => exact ⟨[], rfl, rfl⟩
  | @cons branch M branches Ms hb _ ih =>
    obtain ⟨xs, hx, rfl⟩ := hb
    obtain ⟨xss, hxss, rfl⟩ := ih
    obtain ⟨name, work⟩ := branch
    have arrived : branchArrivals answers ((name, work) :: branches) = (xs :: xss).map .ofList := by
      show Arrivals.ofResult (work.arrivals answers) :: branchArrivals answers branches = _
      rw [hx, hxss]
      rfl
    exact ⟨xs :: xss, arrived, rfl⟩

/-- Of branches that can have one item only, whichever comes first gives it. -/
theorem unionFirst {branches : List (String × Work α)} {Ms : List (Multiset α)} {x : α}
    (h : List.Forall₂ (fun branch M => branch.2.Yields answers M) branches Ms)
    (hx : ∀ M ∈ Ms, M = 0 ∨ M = {x}) :
    (Feed.union true branches).Yields answers (if {x} ∈ Ms then {x} else 0) := by
  obtain ⟨xss, hxss, rfl⟩ := branchArrivals_eq h
  have single : ∀ xs ∈ xss, xs = [] ∨ xs = [x] := by
    intro xs hxs
    rcases hx xs (List.mem_map_of_mem hxs) with h0 | h1
    · exact .inl ((Multiset.coe_eq_zero xs).1 h0)
    · exact .inr (Multiset.coe_eq_singleton.1 h1)
  cases hf : xss.find? fun xs => !xs.isEmpty with
  | none =>
    refine ⟨[], ?_, ?_⟩
    · rw [arrivals_unionFirst, hxss, List.find?_map]
      have none_found : xss.find? ((fun as : Arrivals α => !as.isEmpty) ∘ Arrivals.ofList) =
          none := by
        simpa [Function.comp_def, Arrivals.ofList] using hf
      rw [none_found]
      exact Arrivals.ofTasks_ofList []
    · rw [if_neg]
      · rfl
      · intro hmem
        obtain ⟨xs, hxs, he⟩ := List.mem_map.1 hmem
        have := List.find?_eq_none.1 hf xs hxs
        simp only [Bool.not_eq_true, Bool.not_eq_false', List.isEmpty_iff] at this
        simp [this] at he
  | some xs =>
    have hxs := List.mem_of_find?_eq_some hf
    have hne : xs = [x] := (single xs hxs).resolve_left fun h0 => by
      have := List.find?_some hf
      simp [h0] at this
    refine ⟨xs, ?_, ?_⟩
    · rw [arrivals_unionFirst, hxss, List.find?_map]
      have found : xss.find? ((fun as : Arrivals α => !as.isEmpty) ∘ Arrivals.ofList) =
          some xs := by
        simpa [Function.comp_def, Arrivals.ofList] using hf
      rw [found]
      simpa using Arrivals.ofTasks_ofList [xs]
    · rw [if_pos]
      · rw [hne]; rfl
      · exact List.mem_map.2 ⟨xs, hxs, by rw [hne]; rfl⟩

/-- The lists of items that tasks for some inputs come to. -/
theorem exists_arrivals {β : Type} {inputs : List β} {task : β → Work α} {R : β → Multiset α}
    (h : ∀ x ∈ inputs, (task x).Yields answers (R x)) :
    ∃ xss : List (List α),
      (inputs.map fun x => Arrivals.ofResult ((task x).arrivals answers)) = xss.map .ofList ∧
        (xss.flatten : Multiset α) = (inputs : Multiset β).bind R := by
  induction inputs with
  | nil => exact ⟨[], rfl, rfl⟩
  | cons x inputs ih =>
    obtain ⟨xss, hxss, hflat⟩ := ih fun y hy => h y (List.mem_cons_of_mem x hy)
    obtain ⟨xs, hx, hR⟩ := h x List.mem_cons_self
    refine ⟨xs :: xss, by rw [List.map_cons, hxss, hx]; rfl, ?_⟩
    rw [List.flatten_cons, ← Multiset.coe_add, hflat, hR, ← Multiset.cons_coe, Multiset.cons_bind]

theorem nestedJoin {right : α → Work α} {R : α → Multiset α} (h : f.Yields answers M)
    (hr : ∀ x ∈ M, (right x).Yields answers (R x)) :
    (Feed.nestedJoin f right).Yields answers (M.bind R) := by
  obtain ⟨xs, hx, rfl⟩ := h
  obtain ⟨xss, hxss, hflat⟩ := exists_arrivals (show ∀ x ∈ xs, (right x).Yields answers (R x) from hr)
  refine ⟨xss.flatten, ?_, hflat⟩
  rw [arrivals_nestedJoin, hx]
  simp only [Arrivals.items_ofList, hxss]
  exact Arrivals.ofJoin_ofList xs xss

/-- In a join in blocks a block may be any rows of the left, not more than the settings say; the
first row of all is the same for all blocks. -/
theorem boundJoinFirst {size : Nat} {right : α → List α → Work α} {R : α → Multiset α}
    {xs : List α} (h : f.arrivals answers = .ofList xs)
    (hr : ∀ first, xs.head? = some first → ∀ block : List α, (block : Multiset α) ≤ xs →
      block.length ≤ max BoundJoin.smallBlockSize size →
      (right first block).Yields answers ((block : Multiset α).bind R)) :
    (Feed.boundJoin f size right).Yields answers ((xs : Multiset α).bind R) := by
  cases xs with
  | nil =>
    refine ⟨[], ?_, rfl⟩
    rw [arrivals_boundJoin, h]
    exact Arrivals.ofJoin_ofList [] []
  | cons first rest =>
    have parts : ∀ block ∈ BoundJoin.blocks size (first :: rest),
        (right first block).Yields answers ((block : Multiset α).bind R) := by
      intro block hb
      refine hr first rfl block ?_ (BoundJoin.length_of_mem_blocks size hb).2
      have sub := List.sublist_flatten_of_mem hb
      rw [BoundJoin.flatten_blocks] at sub
      exact Multiset.coe_le.2 sub.subperm
    obtain ⟨xss, hxss, hflat⟩ := exists_arrivals parts
    refine ⟨xss.flatten, ?_, ?_⟩
    · rw [arrivals_boundJoin, h]
      simp only [Arrivals.items_ofList, Arrivals.blocks, Arrivals.failure?_ofList, hxss]
      exact Arrivals.ofJoin_ofList _ xss
    · rw [hflat, bind_coe_flatten, BoundJoin.flatten_blocks]

/-- A join in blocks does not depend on which row of the left comes first, if no task does. -/
theorem boundJoin {size : Nat} {right : α → List α → Work α} {R : α → Multiset α}
    (h : f.Yields answers M)
    (hr : ∀ first ∈ M, ∀ block : List α, (block : Multiset α) ≤ M →
      block.length ≤ max BoundJoin.smallBlockSize size →
      (right first block).Yields answers ((block : Multiset α).bind R)) :
    (Feed.boundJoin f size right).Yields answers (M.bind R) := by
  obtain ⟨xs, hx, rfl⟩ := h
  exact boundJoinFirst hx fun first hf =>
    hr first (Multiset.mem_coe.2 (List.mem_of_head? hf))

theorem exists_optional_ofList (keep : α → Bool) (x : α) (xs : List α) :
    ∃ ys, Arrivals.optional x keep (.ofList xs) = .ofList ys ∧
      (ys : Multiset α) = optionalRows keep x xs := by
  unfold Arrivals.optional optionalRows
  rw [Arrivals.collect_ofList, ← Rows.coe_filter]
  cases hk : xs.filter keep with
  | nil => exact ⟨[x], by simp [hk, Arrivals.ofList], by simp⟩
  | cons y ys => exact ⟨y :: ys, by simp [hk], by simp⟩

theorem optional {right : α → Work α} (keep : α → Bool) {R : α → Multiset α}
    (h : f.Yields answers M) (hr : ∀ x ∈ M, (right x).Yields answers (R x)) :
    (Feed.optional f right keep).Yields answers (M.bind fun x => optionalRows keep x (R x)) := by
  obtain ⟨xs, hx, rfl⟩ := h
  have arrived : ∀ xs : List α, (∀ x ∈ xs, (right x).Yields answers (R x)) →
      ∃ ys : List α, (xs.flatMap fun row =>
          Arrivals.optional row keep (.ofResult ((right row).arrivals answers))) =
            Arrivals.ofList ys ∧
        (ys : Multiset α) = (xs : Multiset α).bind fun x => optionalRows keep x (R x) := by
    intro xs hr
    induction xs with
    | nil => exact ⟨[], rfl, rfl⟩
    | cons x xs ih =>
      obtain ⟨zs, hz, hzs⟩ := ih fun y hy => hr y (List.mem_cons_of_mem x hy)
      obtain ⟨rs, hrs, hR⟩ := hr x List.mem_cons_self
      obtain ⟨ys, hy, hys⟩ := exists_optional_ofList keep x rs
      refine ⟨ys ++ zs, ?_, ?_⟩
      · rw [List.flatMap_cons, hz, hrs, Arrivals.ofResult, hy]
        simp [Arrivals.ofList]
      · rw [← Multiset.coe_add, hys, hzs, ← Multiset.cons_coe, Multiset.cons_bind, hR]
  obtain ⟨ys, hy, hys⟩ := arrived xs hr
  refine ⟨ys, ?_, hys⟩
  rw [arrivals_optional, hx, Arrivals.ofList, List.flatMap_map]
  exact hy

end Feed.Yields

section KnownEmpty

variable [DecidableEq α]

/-- Items that are at hand are those that arrive, whether or not each arrives as often. -/
theorem Feed.mem_of_buffered? (answers : Answers) :
    ∀ {f : Feed α} {xs : List α}, f.buffered? = some xs →
      ∃ ys, f.arrivals answers = .ofList ys ∧ ∀ x, x ∈ ys ↔ x ∈ xs
  | .rows ys, xs, hb => ⟨ys, rfl, by simp_all [Feed.buffered?]⟩
  | .map g f, xs, hb => by
    obtain ⟨zs, hz, rfl⟩ := Option.map_eq_some_iff.1 (by simpa only [Feed.buffered?] using hb)
    obtain ⟨ys, hy, hm⟩ := mem_of_buffered? answers hz
    exact ⟨ys.map g, by rw [arrivals_map, hy, Arrivals.map_ofList], by simp [hm]⟩
  | .filter keep f, xs, hb => by
    obtain ⟨zs, hz, rfl⟩ := Option.map_eq_some_iff.1 (by simpa only [Feed.buffered?] using hb)
    obtain ⟨ys, hy, hm⟩ := mem_of_buffered? answers hz
    exact ⟨ys.filter keep, by rw [arrivals_filter, hy, Arrivals.filter_ofList], by simp [hm]⟩
  | .distinct f, xs, hb => by
    obtain ⟨zs, hz, rfl⟩ := Option.map_eq_some_iff.1 (by simpa only [Feed.buffered?] using hb)
    obtain ⟨ys, hy, hm⟩ := mem_of_buffered? answers hz
    obtain ⟨us, hu, -, hus⟩ := Arrivals.distinct_ofList [] ys
    exact ⟨us, by rw [arrivals_distinct, hy, hu], by simp [hus, hm]⟩
  | .outcomes _, xs, hb => by simp [Feed.buffered?] at hb
  | .union .., xs, hb => by simp [Feed.buffered?] at hb
  | .nestedJoin .., xs, hb => by simp [Feed.buffered?] at hb
  | .boundJoin .., xs, hb => by simp [Feed.buffered?] at hb
  | .slice .., xs, hb => by simp [Feed.buffered?] at hb
  | .optional .., xs, hb => by simp [Feed.buffered?] at hb
  | .deferred _, xs, hb => by simp [Feed.buffered?] at hb

/-- A feed that is known to be empty yields nothing. -/
theorem Feed.Yields.eq_zero {f : Feed α} {M : Multiset α} (h : f.Yields answers M)
    (he : f.isKnownEmpty = true) : M = 0 := by
  unfold Feed.isKnownEmpty at he
  split at he
  · next xs hb =>
    obtain ⟨ys, hy, hm⟩ := Feed.mem_of_buffered? answers hb
    obtain rfl := List.isEmpty_iff.1 he
    obtain rfl : ys = [] := List.eq_nil_iff_forall_not_mem.2 (by simpa using hm)
    exact h.unique ⟨[], hy, rfl⟩
  · simp at he

end KnownEmpty

/-! ### Programs -/

namespace Work

variable [DecidableEq α]

/-- The feed that a program ends in. -/
def settle (answers : Answers) : Work α → Except FedError (Feed α)
  | done feed => .ok feed
  | fail e => .error e
  | panic => .error (.internalScheduling (.taskPanicked "evaluation"))
  | sleep _ next => next.settle answers
  | request endpoint r next => (next (answers endpoint r)).settle answers
  | repair _ next => next.settle answers
  | check next => next.settle answers
  | gather parts next => (next (collectedOf answers parts)).settle answers
termination_by structural w => w

theorem arrivals_eq_settle (answers : Answers) :
    ∀ w : Work α, w.arrivals answers = (w.settle answers).map (·.arrivals answers)
  | done _ => rfl
  | fail _ => rfl
  | panic => rfl
  | sleep _ next => arrivals_eq_settle answers next
  | request endpoint r next => arrivals_eq_settle answers (next (answers endpoint r))
  | repair _ next => arrivals_eq_settle answers next
  | check next => arrivals_eq_settle answers next
  | gather parts next => arrivals_eq_settle answers (next (collectedOf answers parts))

theorem settle_bind (answers : Answers) (k : Feed α → Work α) :
    ∀ w : Work α, (w.bind k).settle answers = (w.settle answers).bind fun f => (k f).settle answers
  | done _ => rfl
  | fail _ => rfl
  | panic => rfl
  | sleep _ next => settle_bind answers k next
  | request endpoint r next => settle_bind answers k (next (answers endpoint r))
  | repair _ next => settle_bind answers k next
  | check next => settle_bind answers k next
  | gather parts next => settle_bind answers k (next (collectedOf answers parts))

theorem settle_handle (answers : Answers) (h : FedError → Work α) {f : Feed α} :
    ∀ {w : Work α}, w.settle answers = .ok f → (w.handle h).settle answers = .ok f
  | done _, hw => hw
  | fail _, hw => by simp [settle] at hw
  | panic, hw => by simp [settle] at hw
  | sleep _ next, hw => settle_handle (w := next) answers h hw
  | request endpoint r next, hw => settle_handle (w := next (answers endpoint r)) answers h hw
  | repair _ next, hw => settle_handle (w := next) answers h hw
  | check next, hw => settle_handle (w := next) answers h hw
  | gather parts next, hw => settle_handle (w := next (collectedOf answers parts)) answers h hw

/-- What a program yields is determined. -/
theorem Yields.unique {M N : Multiset α} {w : Work α} (h : w.Yields answers M)
    (h' : w.Yields answers N) : M = N := by
  obtain ⟨xs, hx, rfl⟩ := h
  obtain ⟨ys, hy, rfl⟩ := h'
  have := congrArg Arrivals.items (Except.ok.inj (hx.symm.trans hy))
  rw [Arrivals.items_ofList, Arrivals.items_ofList] at this
  rw [this]

end Work

end FederatedSparql
