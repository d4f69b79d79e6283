import FederatedSparql.Proofs.Machine.Collecting

/-!
Cursors with which several things are done, one after the other, and their failures.

What is done with a cursor does to its items what it does to a list, and a failure behind the items
stays behind what has become of them, with two exceptions.  A limit that the items fill ends the
cursor before its failure, as it should.  But an offset counts the failure too, so one that goes
beyond the items passes over the failure with them, and nothing is left to tell of it.

* `Pipeline.collects_promised_iff`: collecting keeps the promise of the lists exactly if no offset
  goes beyond the items in front of a failure, or a limit ends the cursor anyway.
* `Pipeline.offset_hides_failure`: a failure and an offset, and the result of collecting is a list.
-/

namespace FederatedSparql

open Machine

variable {α : Type}

/-! ### What is done with cursors -/

/-- Something that is done with a cursor. -/
inductive Stage (α : Type) where
  | map (f : α → α)
  | filter (keep : α → Bool)
  | distinct
  | slice (offset : Nat) (limit : Option Nat)
  /-- The cursor is put behind others, with the items that they give. -/
  | behind (others : List (Cursor α × List α))

namespace Stage

variable [BEq α]

/-- What is done with the cursor. -/
def cursor : Stage α → Cursor α → Cursor α
  | map f, c => c.map f
  | filter keep, c => c.filter keep
  | distinct, c => c.distinct
  | slice offset limit, c => c.slice offset limit
  | behind others, c => .chainAll (others.map (·.1) ++ [c])

/-- What is done with a list. -/
def rows : Stage α → List α → List α
  | map f, xs => xs.map f
  | filter keep, xs => xs.filter keep
  | distinct, xs => xs.eraseDups
  | slice offset none, xs => xs.drop offset
  | slice offset (some limit), xs => (xs.drop offset).take limit
  | behind others, xs => others.flatMap (·.2) ++ xs

/-- What is done with arrivals. -/
def arrivals : Stage α → Arrivals α → Arrivals α
  | map f, as => as.map f
  | filter keep, as => as.filter keep
  | distinct, as => as.distinct []
  | slice offset limit, as => as.slice offset limit
  | behind others, as => .ofList (others.flatMap (·.2)) ++ as

/-- The cursors that are pulled before. -/
def others : Stage α → List (Cursor α × List α)
  | behind others => others
  | _ => []

/-- Whether there is a limit and the items fill it. -/
def isFilledBy : Stage α → List α → Bool
  | slice offset (some limit), xs => limit ≤ (xs.drop offset).length
  | _, _ => false

/-- Whether there is an offset that goes beyond the items. -/
def goesBeyond : Stage α → List α → Bool
  | slice offset _, xs => xs.length < offset
  | _, _ => false

end Stage

namespace Pipeline

variable [BEq α]

/-- What is done with a cursor, one thing after the other. -/
def cursor (stages : List (Stage α)) (c : Cursor α) : Cursor α :=
  stages.foldl (fun c stage => stage.cursor c) c

/-- What is done with a list, one thing after the other. -/
def rows (stages : List (Stage α)) (xs : List α) : List α :=
  stages.foldl (fun xs stage => stage.rows xs) xs

/-- Something is so of a stage and the items that get there. -/
def someStage (test : Stage α → List α → Bool) : List (Stage α) → List α → Bool
  | [], _ => false
  | stage :: rest, xs => test stage xs || someStage test rest (stage.rows xs)

/-- What collecting promises for items and a failure behind them: what becomes of the list, or the
failure, unless the items fill a limit. -/
def promised (stages : List (Stage α)) (xs : List α) (failure? : Option FedError) :
    Except FedError (List α) :=
  match failure? with
  | some e => if someStage Stage.isFilledBy stages xs then .ok (rows stages xs) else .error e
  | none => .ok (rows stages xs)

/-- The cursors that are pulled before the first one, in their order. -/
def others (stages : List (Stage α)) : List (Cursor α × List α) :=
  stages.reverse.flatMap Stage.others

end Pipeline

/-- Items, and a failure behind them. -/
def Arrivals.ending (xs : List α) (failure? : Option FedError) : Arrivals α :=
  ofList xs ++ failure?.toList.map .error

theorem Arrivals.collect_ending (xs : List α) (failure? : Option FedError) :
    (ending xs failure?).collect = match failure? with
      | some e => .error e
      | none => .ok xs := by
  cases failure? <;> simp [ending, collect, failure?]

namespace Arrivals

variable {xs : List α} {n : Nat}

theorem drop_ending (failure? : Option FedError) (h : n ≤ xs.length) :
    List.drop n (ending xs failure?) = ending (xs.drop n) failure? := by
  rw [ending, List.drop_append_of_le_length (by simpa [ofList] using h), ofList, ← List.map_drop]
  rfl

/-- Whoever drops more than the items drops the failure too. -/
theorem drop_ending_of_lt (failure? : Option FedError) (h : xs.length < n) :
    List.drop n (ending xs failure?) = [] := by
  apply List.drop_eq_nil_of_le
  cases failure? <;> simp [ending, ofList] <;> omega

theorem take_ending (failure? : Option FedError) (h : n ≤ xs.length) :
    List.take n (ending xs failure?) = ending (xs.take n) none := by
  rw [ending, List.take_append_of_le_length (by simpa [ofList] using h), ofList, ← List.map_take,
    ending, Option.toList_none, List.map_nil, List.append_nil, ofList]

theorem take_ending_of_lt (failure? : Option FedError) (h : xs.length < n) :
    List.take n (ending xs failure?) = ending xs failure? := by
  apply List.take_of_length_le
  cases failure? <;> simp [ending, ofList] <;> omega

end Arrivals

/-! ### What they do to items and failures -/

section Stages

variable [BEq α] {around : Surroundings α} {me : Waker} {m : Machine α} {c : Cursor α}
  {as : Arrivals α}

/-- What is done with a cursor does to its arrivals what is done with them. -/
theorem Gives.stage (stage : Stage α)
    (h : InTurn around me (fun m => Gives around me (fun _ _ => True) m c as) stage.others m) :
    Gives around me (fun _ _ => True) m (stage.cursor c) (stage.arrivals as) := by
  cases stage with
  | map f => exact Gives.map h f
  | filter keep => exact Gives.filter h keep
  | distinct => exact Gives.distinct h
  | slice offset limit => exact Gives.slice h offset limit
  | behind others => exact h.gives_chainAll

theorem Gives.pipeline (stages : List (Stage α))
    (h : InTurn around me (fun m => Gives around me (fun _ _ => True) m c as)
      (Pipeline.others stages) m) :
    Gives around me (fun _ _ => True) m (Pipeline.cursor stages c)
      (stages.foldl (fun as stage => stage.arrivals as) as) := by
  induction stages generalizing c as with
  | nil => exact h
  | cons stage rest ih =>
    rw [Pipeline.others, List.reverse_cons, List.flatMap_append, List.flatMap_singleton,
      inTurn_append] at h
    exact ih (h.imp fun m hm => Gives.stage stage hm)

theorem Arrivals.distinct_ending (seen xs : List α) (failure? : Option FedError) :
    Arrivals.distinct seen (Arrivals.ending xs failure?) =
      Arrivals.distinct seen (Arrivals.ofList xs) ++ failure?.toList.map .error := by
  induction xs generalizing seen with
  | nil => cases failure? <;> rfl
  | cons x xs ih =>
    show Arrivals.distinct seen (.ok x :: Arrivals.ending xs failure?) =
      Arrivals.distinct seen (.ok x :: Arrivals.ofList xs) ++ _
    rw [Arrivals.distinct, Arrivals.distinct]
    split
    · exact ih seen
    · exact congrArg (.ok x :: ·) (ih (x :: seen))

/-- An offset that goes beyond the items drops the failure with them, and a limit that the items
fill ends before it. -/
theorem Stage.arrivals_slice_ending (offset : Nat) (limit : Option Nat) (xs : List α)
    (failure? : Option FedError) :
    (slice offset limit).arrivals (.ending xs failure?) = .ending ((slice offset limit).rows xs)
      (if (slice offset limit).isFilledBy xs || (slice offset limit).goesBeyond xs then none
        else failure?) := by
  by_cases hbeyond : xs.length < offset
  · have beyond : (slice offset limit).goesBeyond xs = true := decide_eq_true hbeyond
    have dropped := Arrivals.drop_ending_of_lt failure? hbeyond
    have nothing : List.drop offset xs = [] := List.drop_eq_nil_of_le hbeyond.le
    rw [beyond, Bool.or_true, if_pos rfl]
    cases limit with
    | none =>
      simp only [arrivals, Arrivals.slice, dropped, rows, nothing]
      rfl
    | some limit =>
      simp only [arrivals, Arrivals.slice, dropped, rows, nothing, List.take_nil]
      rfl
  · have beyond : (slice offset limit).goesBeyond xs = false := decide_eq_false hbeyond
    have dropped := Arrivals.drop_ending failure? (Nat.le_of_not_lt hbeyond)
    rw [beyond, Bool.or_false]
    cases limit with
    | none => exact dropped
    | some limit =>
      simp only [arrivals, Arrivals.slice, dropped, rows]
      by_cases hfilled : limit ≤ (xs.drop offset).length
      · have filled : (slice offset (some limit)).isFilledBy xs = true := decide_eq_true hfilled
        rw [filled, if_pos rfl]
        exact Arrivals.take_ending failure? hfilled
      · have unfilled : (slice offset (some limit)).isFilledBy xs = false :=
          decide_eq_false hfilled
        rw [unfilled, List.take_of_length_le (Nat.le_of_not_le hfilled)]
        exact Arrivals.take_ending_of_lt failure? (Nat.lt_of_not_le hfilled)

/-- A failure stays behind the items, unless they fill a limit or an offset goes beyond them. -/
theorem Stage.arrivals_ending (stage : Stage α) (xs : List α) (failure? : Option FedError) :
    stage.arrivals (.ending xs failure?) = .ending (stage.rows xs)
      (if stage.isFilledBy xs || stage.goesBeyond xs then none else failure?) := by
  cases stage with
  | map f =>
    show Arrivals.map f (Arrivals.ofList xs ++ _) = _
    rw [Arrivals.map, List.map_append]
    refine congrArg₂ (· ++ ·) (Arrivals.map_ofList f xs) ?_
    cases failure? <;> rfl
  | filter keep =>
    show Arrivals.filter keep (Arrivals.ofList xs ++ _) = _
    rw [Arrivals.filter, List.filter_append]
    refine congrArg₂ (· ++ ·) (Arrivals.filter_ofList keep xs) ?_
    cases failure? <;> rfl
  | distinct =>
    show Arrivals.distinct [] _ = _
    rw [Arrivals.distinct_ending, Arrivals.distinct_nil_ofList]
    rfl
  | behind others =>
    show Arrivals.ofList _ ++ _ = _
    rw [Arrivals.ending, ← List.append_assoc, Arrivals.ofList, Arrivals.ofList, ← List.map_append]
    rfl
  | slice offset limit => exact arrivals_slice_ending offset limit xs failure?

/-- **What becomes of a failure behind some items.** -/
theorem Pipeline.arrivals_ending (stages : List (Stage α)) (xs : List α)
    (failure? : Option FedError) :
    stages.foldl (fun as stage => stage.arrivals as) (Arrivals.ending xs failure?) =
      .ending (rows stages xs) (if someStage Stage.isFilledBy stages xs ||
        someStage Stage.goesBeyond stages xs then none else failure?) := by
  induction stages generalizing xs failure? with
  | nil => rfl
  | cons stage rest ih =>
    rw [List.foldl_cons, Stage.arrivals_ending, ih]
    refine congrArg (Arrivals.ending _) ?_
    simp only [someStage, Bool.or_eq_true]
    by_cases here : stage.isFilledBy xs = true ∨ stage.goesBeyond xs = true
    · rw [if_pos here, ite_self, if_pos (by tauto)]
    · rw [if_neg here]
      exact if_congr (by tauto) rfl rfl

end Stages

/-! ### Promises -/

section Promises

variable [BEq α] {around : Surroundings α} {me : Waker} {m : Machine α} {c : Cursor α}
  {xs : List α} {failure? : Option FedError} {stages : List (Stage α)}

open Pipeline

/-- Items and a failure are collected as promised, unless an offset goes beyond the items; then
there is no failure any more. -/
theorem Pipeline.collects
    (h : InTurn around me (fun m => Gives around me (fun _ _ => True) m c (.ending xs failure?))
      (others stages) m) :
    Collects around me m (cursor stages c) (if someStage Stage.goesBeyond stages xs
      then .ok (rows stages xs) else promised stages xs failure?) := by
  have collected := (Gives.pipeline stages h).collects
  rw [Pipeline.arrivals_ending, Arrivals.collect_ending] at collected
  cases failure? with
  | none => simpa [promised] using collected
  | some e =>
    cases hfilled : someStage Stage.isFilledBy stages xs <;>
      cases hbeyond : someStage Stage.goesBeyond stages xs <;>
      simpa [promised, hfilled, hbeyond] using collected

/-- **Collecting keeps its promise exactly if no offset goes beyond the items in front of a
failure**, or a limit ends the cursor anyway; and if one does, nothing tells of the failure. -/
theorem Pipeline.collects_promised_iff
    (h : InTurn around me (fun m => Gives around me (fun _ _ => True) m c (.ending xs failure?))
      (others stages) m) :
    (Collects around me m (cursor stages c) (promised stages xs failure?) ↔
      failure? = none ∨ someStage Stage.isFilledBy stages xs = true ∨
        someStage Stage.goesBeyond stages xs = false) ∧
    (someStage Stage.goesBeyond stages xs = true →
      Collects around me m (cursor stages c) (.ok (rows stages xs))) := by
  have collected := Pipeline.collects h
  constructor
  · constructor
    · intro kept
      have same := kept.unique collected
      cases failure? with
      | none => exact .inl rfl
      | some e =>
        cases hfilled : someStage Stage.isFilledBy stages xs with
        | true => exact .inr (.inl rfl)
        | false =>
          cases hbeyond : someStage Stage.goesBeyond stages xs with
          | false => exact .inr (.inr rfl)
          | true => simp [promised, hfilled, hbeyond] at same
    · rintro (rfl | hfilled | hbeyond)
      · simpa [promised] using collected
      · cases failure? <;> simpa [promised, hfilled] using collected
      · simpa [hbeyond] using collected
  · intro hbeyond
    rwa [if_pos hbeyond] at collected

/-- A failure whose text is all that is known of it. -/
def boom : FedError := .internalScheduling (.reported "boom")

/-- A filter, other cursors in front, an offset that the items in front of the failure reach, and a
limit that they do not fill: the promise is the failure, and collecting keeps it. -/
theorem Pipeline.collects_promised_before_offset :
    promised [.filter (· != (2 : Int)), .behind [(.empty, []), (.buffered [7], [7])],
        .slice 1 (some 9)] [1, 2] (some boom) = .error boom ∧
    InTurn aroundMain .main (fun m => Gives aroundMain .main (fun _ _ => True) m
        (.pipe (.outcomes [.ok 1, .ok 2, .error boom])) (.ending [1, 2] (some boom)))
      (others [.filter (· != (2 : Int)), .behind [(.empty, []), (.buffered [7], [7])],
        .slice 1 (some 9)]) {} ∧
    Collects aroundMain .main {} (cursor [.filter (· != (2 : Int)),
        .behind [(.empty, []), (.buffered [7], [7])], .slice 1 (some 9)]
        (.pipe (.outcomes [.ok 1, .ok 2, .error boom]))) (.error boom) := by
  have given : InTurn aroundMain .main (fun m => Gives aroundMain .main (fun _ _ => True) m
      (.pipe (.outcomes [.ok 1, .ok 2, .error boom])) (.ending [1, 2] (some boom)))
      (others [.filter (· != (2 : Int)), .behind [(.empty, []), (.buffered [7], [7])],
        .slice 1 (some 9)]) {} :=
    inTurn_of_atHand
      (by simp [others, Stage.others, Cursor.AtHand, Cursor.arrivals, Arrivals.ofList])
      (fun m => Cursor.AtHand.gives (c := .pipe (.outcomes [.ok 1, .ok 2, .error boom]))
        (fun _ _ _ => trivial) m trivial) {}
  exact ⟨rfl, given, (Pipeline.collects_promised_iff given).1.2 (.inr (.inr rfl))⟩

/-- An offset passes over a failure, and the result of collecting is a list without items. -/
theorem Pipeline.offset_hides_failure :
    (value (take none (cursor [.slice 1 none] (.pipe (.outcomes [.error boom]))))
        ({} : Machine Int)).map Taken.result = some (.ok []) ∧
      promised [.slice 1 none] ([] : List Int) (some boom) = .error boom := by
  have atHand : (cursor [.slice 1 none] (.pipe (.outcomes [.error boom])) : Cursor Int).AtHand :=
    trivial
  exact ⟨atHand.result_take (by decide) {}, rfl⟩

end Promises

end FederatedSparql
