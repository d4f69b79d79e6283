import FederatedSparql.Proofs.Engine.Yields

/-!
What programs and feeds bring in whatever order their tasks come to results.

Running tasks side by side leaves open in which order the items of different tasks arrive.
`Work.Brings` and `Feed.Brings` say that nevertheless no failure arrives, and that all items together
have a property; wherever an order is open the property is asked for every order.  What is brought is
also what arrives when everything runs in turn (`Work.Brings.exists_arrivals`).

`Work.Comes` and `Feed.Comes` say which items are brought, as a multiset.  There is one rule for each
way to make a program or a feed.  What a program or a feed comes to it also yields
(`Work.Comes.yields`, `Feed.Comes.yields`).
-/

namespace FederatedSparql

variable {α : Type} {answers : Answers}

/-! ### What is done with lists of items -/

namespace Feed

/-- The items that have not been there before, each once. -/
def unseen [DecidableEq α] (seen : List α) : List α → List α
  | [] => []
  | x :: xs => if x ∈ seen then unseen seen xs else x :: unseen (x :: seen) xs

/-- The items behind an offset, up to a limit. -/
def sliced (offset : Nat) (limit : Option Nat) (xs : List α) : List α :=
  match limit with
  | some n => (xs.drop offset).take n
  | none => xs.drop offset

/-- What the tasks for the blocks of a left side have, if they decide by its first item. -/
def blockRows (size : Nat) (rows : α → List α → Multiset α) (xs : List α) : Multiset α :=
  match xs with
  | [] => 0
  | first :: _ => ((BoundJoin.blocks size xs).map (rows first)).sum

end Feed

/-! ### What is brought -/

/-- A program asks members and ends in items that are at hand and have a property. -/
def Work.Fetches (answers : Answers) : Work α → (List α → Prop) → Prop
  | .done (.rows xs), Q => Q xs
  | .sleep _ next, Q => next.Fetches answers Q
  | .request endpoint r next, Q => (next (answers endpoint r)).Fetches answers Q
  | .repair _ next, Q => next.Fetches answers Q
  | .check next, Q => next.Fetches answers Q
  | _, _ => False

section Definitions

variable [DecidableEq α]

mutual

/-- In whatever order tasks come to results, a program does not fail, and the items of the feed in
which it ends have a property. -/
def Work.Brings (answers : Answers) : Work α → (List α → Prop) → Prop
  | .done feed, Q => feed.Brings answers Q
  | .fail _, _ => False
  | .panic, _ => False
  | .sleep _ next, Q => next.Brings answers Q
  | .request endpoint r next, Q => (next (answers endpoint r)).Brings answers Q
  | .repair _ next, Q => next.Brings answers Q
  | .check next, Q => next.Brings answers Q
  | .gather parts next, Q => ∃ Ms, partsBring answers parts Ms ∧
      ∀ xss : List (List α), xss.map Multiset.ofList = Ms →
        (next (xss.map .ok)).Brings answers Q
termination_by structural w => w

/-- In whatever order tasks come to results, the items of a feed arrive without a failure and have a
property. -/
def Feed.Brings (answers : Answers) : Feed α → (List α → Prop) → Prop
  | .rows xs, Q => Q xs
  | .outcomes as, Q => ∃ xs, as = Arrivals.ofList xs ∧ Q xs
  | .union false branches, Q => ∃ Ms, branchesBring answers branches Ms ∧
      ∀ ys : List α, (ys : Multiset α) = Ms.sum → Q ys
  | .union true branches, Q => ∃ Ms x,
      List.Forall₂ (fun branch M => branch.2.Fetches answers fun xs => (xs : Multiset α) = M)
        branches Ms ∧
      (∀ M ∈ Ms, M = 0 ∨ M = {x}) ∧
      ∀ ys : List α, (ys : Multiset α) = (if {x} ∈ Ms then {x} else 0) → Q ys
  | .nestedJoin left right, Q => ∃ (M : Multiset α) (R : α → Multiset α),
      (left.Brings answers fun xs =>
        (∀ x ∈ xs, (right x).Brings answers fun ys => (ys : Multiset α) = R x) ∧
          (xs : Multiset α).bind R = M) ∧
      ∀ ys : List α, (ys : Multiset α) = M → Q ys
  | .boundJoin left size right, Q =>
    ∃ (M : Multiset α) (R : α → List α → Multiset α),
      (left.Brings answers fun xs =>
        (∀ first, xs.head? = some first → R first [] = 0 ∧
          ∀ block ∈ [] :: BoundJoin.blocks size xs,
            (right first block).Brings answers fun ys => (ys : Multiset α) = R first block) ∧
          Feed.blockRows size R xs = M) ∧
      ∀ ys : List α, (ys : Multiset α) = M → Q ys
  | .map f source, Q => source.Brings answers fun xs => Q (xs.map f)
  | .filter keep source, Q => source.Brings answers fun xs => Q (xs.filter keep)
  | .distinct source, Q => source.Brings answers fun xs => Q (Feed.unseen [] xs)
  | .slice offset limit source, Q => source.Brings answers fun xs => Q (Feed.sliced offset limit xs)
  | .optional left right keep, Q => ∃ R : α → Multiset α, left.Brings answers fun xs =>
      (∀ x ∈ xs, (right x).Brings answers fun ys => (ys : Multiset α) = R x) ∧
      ∀ ys : List α,
        (ys : Multiset α) = (xs : Multiset α).bind (fun x => Feed.optionalRows keep x (R x)) → Q ys
  | .deferred work, Q => work.Brings answers Q
termination_by structural f => f

/-- Each of some branches brings items, as multisets. -/
def branchesBring (answers : Answers) : List (String × Work α) → List (Multiset α) → Prop
  | [], Ms => Ms = []
  | branch :: rest, Ms => ∃ M Ns, Ms = M :: Ns ∧ branchBrings answers branch M ∧
      branchesBring answers rest Ns
termination_by structural branches => branches

/-- A branch brings items. -/
def branchBrings (answers : Answers) : String × Work α → Multiset α → Prop
  | (_, work), M => work.Brings answers fun xs => (xs : Multiset α) = M
termination_by structural branch => branch

/-- Each of some programs brings items, as multisets. -/
def partsBring (answers : Answers) : List (Work α) → List (Multiset α) → Prop
  | [], Ms => Ms = []
  | part :: rest, Ms => ∃ M Ns, Ms = M :: Ns ∧
      (part.Brings answers fun xs => (xs : Multiset α) = M) ∧ partsBring answers rest Ns
termination_by structural parts => parts

end

/-- A program brings these items. -/
def Work.Comes (answers : Answers) (w : Work α) (M : Multiset α) : Prop :=
  w.Brings answers fun xs => (xs : Multiset α) = M

/-- A feed brings these items. -/
def Feed.Comes (answers : Answers) (f : Feed α) (M : Multiset α) : Prop :=
  f.Brings answers fun xs => (xs : Multiset α) = M

end Definitions

/-! ### Lists of items -/

namespace Feed

section Unseen

variable [DecidableEq α]

theorem distinct_ofList_eq (seen xs : List α) :
    (Arrivals.ofList xs).distinct seen = .ofList (unseen seen xs) := by
  induction xs generalizing seen with
  | nil => rfl
  | cons x xs ih =>
    by_cases hx : x ∈ seen
    · simpa [Arrivals.ofList, Arrivals.distinct, unseen, hx] using ih seen
    · simpa [Arrivals.ofList, Arrivals.distinct, unseen, hx] using ih (x :: seen)

theorem coe_unseen (xs : List α) : (unseen [] xs : Multiset α) = (xs : Multiset α).dedup := by
  obtain ⟨ys, hys, hnodup, hmem⟩ := Arrivals.distinct_ofList [] xs
  obtain rfl : ys = unseen [] xs := by
    have := congrArg Arrivals.items (hys.symm.trans (distinct_ofList_eq [] xs))
    rwa [Arrivals.items_ofList, Arrivals.items_ofList] at this
  refine Multiset.Nodup.ext (Multiset.coe_nodup.2 hnodup) (Multiset.nodup_dedup _) |>.2 fun y => ?_
  simp [hmem]

end Unseen

theorem slice_ofList_eq (offset : Nat) (limit : Option Nat) (xs : List α) :
    (Arrivals.ofList xs).slice offset limit = .ofList (sliced offset limit xs) := by
  cases limit <;> simp [Arrivals.slice, sliced, Arrivals.ofList, List.map_drop, List.map_take]

theorem sliced_zero_eq {limit : Option Nat} {xs : List α}
    (h : ∀ n, limit = some n → xs.length ≤ n) : sliced 0 limit xs = xs := by
  cases limit with
  | none => rfl
  | some n => exact List.take_of_length_le (h n rfl)

end Feed

/-! ### Weaker properties, and items that have them -/

section Consequences

variable {P Q : List α → Prop}

variable [DecidableEq α]

/-- What is fetched is what arrives. -/
theorem Work.Fetches.exists_arrivals : ∀ {w : Work α}, w.Fetches answers Q →
    ∃ xs, w.arrivals answers = .ok (.ofList xs) ∧ Q xs
  | .done (.rows xs), h => ⟨xs, rfl, h⟩
  | .sleep _ next, h => exists_arrivals (w := next) h
  | .request endpoint r next, h => exists_arrivals (w := next (answers endpoint r)) h
  | .repair _ next, h => exists_arrivals (w := next) h
  | .check next, h => exists_arrivals (w := next) h

/-- What is fetched is brought. -/
theorem Work.Fetches.brings : ∀ {w : Work α}, w.Fetches answers Q → w.Brings answers Q
  | .done (.rows _), h => h
  | .sleep _ next, h => brings (w := next) h
  | .request endpoint r next, h => brings (w := next (answers endpoint r)) h
  | .repair _ next, h => brings (w := next) h
  | .check next, h => brings (w := next) h

mutual

theorem Work.Brings.mono : ∀ {w : Work α} {P Q : List α → Prop}, (∀ xs, P xs → Q xs) →
    w.Brings answers P → w.Brings answers Q
  | .done feed, _, _, hPQ, h => Feed.Brings.mono (f := feed) hPQ h
  | .sleep _ next, _, _, hPQ, h => Work.Brings.mono (w := next) hPQ h
  | .request endpoint r next, _, _, hPQ, h =>
    Work.Brings.mono (w := next (answers endpoint r)) hPQ h
  | .repair _ next, _, _, hPQ, h => Work.Brings.mono (w := next) hPQ h
  | .check next, _, _, hPQ, h => Work.Brings.mono (w := next) hPQ h
  | .gather _ next, _, _, hPQ, ⟨Ms, hparts, hnext⟩ =>
    ⟨Ms, hparts, fun xss hxss => Work.Brings.mono (w := next (xss.map .ok)) hPQ (hnext xss hxss)⟩

theorem Feed.Brings.mono : ∀ {f : Feed α} {P Q : List α → Prop}, (∀ xs, P xs → Q xs) →
    f.Brings answers P → f.Brings answers Q
  | .rows xs, _, _, hPQ, h => hPQ xs h
  | .outcomes _, _, _, hPQ, ⟨xs, has, h⟩ => ⟨xs, has, hPQ xs h⟩
  | .union false _, _, _, hPQ, ⟨Ms, hbranches, h⟩ =>
    ⟨Ms, hbranches, fun ys hys => hPQ ys (h ys hys)⟩
  | .union true _, _, _, hPQ, ⟨Ms, x, hbranches, honly, h⟩ =>
    ⟨Ms, x, hbranches, honly, fun ys hys => hPQ ys (h ys hys)⟩
  | .nestedJoin _ _, _, _, hPQ, ⟨M, R, hleft, h⟩ => ⟨M, R, hleft, fun ys hys => hPQ ys (h ys hys)⟩
  | .boundJoin _ _ _, _, _, hPQ, ⟨M, R, hleft, h⟩ => ⟨M, R, hleft, fun ys hys => hPQ ys (h ys hys)⟩
  | .map f source, P, _, hPQ, h =>
    Feed.Brings.mono (f := source) (P := fun xs => P (xs.map f)) (fun _ => hPQ _) h
  | .filter keep source, P, _, hPQ, h =>
    Feed.Brings.mono (f := source) (P := fun xs => P (xs.filter keep)) (fun _ => hPQ _) h
  | .distinct source, P, _, hPQ, h =>
    Feed.Brings.mono (f := source) (P := fun xs => P (Feed.unseen [] xs)) (fun _ => hPQ _) h
  | .slice offset limit source, P, _, hPQ, h =>
    Feed.Brings.mono (f := source) (P := fun xs => P (Feed.sliced offset limit xs))
      (fun _ => hPQ _) h
  | .optional left right keep, P, Q, hPQ, ⟨R, h⟩ => by
    refine ⟨R, Feed.Brings.mono (f := left) ?_ h⟩
    exact fun xs hx => ⟨hx.1, fun ys hys => hPQ ys (hx.2 ys hys)⟩
  | .deferred work, _, _, hPQ, h => Work.Brings.mono (w := work) hPQ h

end

/-! ### What arrives when everything runs in turn -/

/-- The items that arrive from the tasks for some inputs. -/
theorem exists_arrivals_tasks {β : Type} {inputs : List β} {task : β → Work α}
    {R : β → Multiset α}
    (h : ∀ x ∈ inputs, ∃ xs : List α, (task x).arrivals answers = .ok (.ofList xs) ∧
      (xs : Multiset α) = R x) :
    ∃ xss : List (List α),
      (inputs.map fun x => Arrivals.ofResult ((task x).arrivals answers)) = xss.map .ofList ∧
        (xss.flatten : Multiset α) = (inputs.map R).sum := by
  obtain ⟨xss, hxss, hflat⟩ := Feed.Yields.exists_arrivals (show ∀ x ∈ inputs,
    (task x).Yields answers (R x) from h)
  refine ⟨xss, hxss, hflat.trans ?_⟩
  rw [Multiset.bind, Multiset.join, Multiset.map_coe, Multiset.sum_coe]

mutual

/-- What a program brings is what arrives from it. -/
theorem Work.Brings.exists_arrivals : ∀ {w : Work α} {Q : List α → Prop}, w.Brings answers Q →
    ∃ xs, w.arrivals answers = .ok (.ofList xs) ∧ Q xs
  | .done feed, Q, h => by
    obtain ⟨xs, hxs, hQ⟩ := Feed.Brings.exists_arrivals (f := feed) h
    exact ⟨xs, congrArg Except.ok hxs, hQ⟩
  | .sleep _ next, _, h => Work.Brings.exists_arrivals (w := next) h
  | .request endpoint r next, _, h =>
    Work.Brings.exists_arrivals (w := next (answers endpoint r)) h
  | .repair _ next, _, h => Work.Brings.exists_arrivals (w := next) h
  | .check next, _, h => Work.Brings.exists_arrivals (w := next) h
  | .gather parts next, Q, ⟨Ms, hparts, hnext⟩ => by
    obtain ⟨xss, hxss, hMs⟩ := partsBring.exists_collected hparts
    obtain ⟨xs, hxs, hQ⟩ := Work.Brings.exists_arrivals (hnext xss hMs)
    exact ⟨xs, by rw [Work.arrivals, hxss, hxs], hQ⟩

/-- What a feed brings is what arrives from it. -/
theorem Feed.Brings.exists_arrivals : ∀ {f : Feed α} {Q : List α → Prop}, f.Brings answers Q →
    ∃ xs, f.arrivals answers = .ofList xs ∧ Q xs
  | .rows xs, _, h => ⟨xs, rfl, h⟩
  | .outcomes _, _, h => h
  | .union false branches, Q, ⟨Ms, hbranches, h⟩ => by
    obtain ⟨xss, hxss, rfl⟩ := branchesBring.exists_arrivals hbranches
    refine ⟨xss.flatten, ?_, h _ (coe_flatten xss)⟩
    rw [Feed.arrivals_union, hxss, Arrivals.ofTasks_ofList]
  | .union true branches, Q, ⟨Ms, x, hbranches, honly, h⟩ => by
    have yield : List.Forall₂ (fun branch M => branch.2.Yields answers M) branches Ms :=
      hbranches.imp fun branch M hfetch => Work.Fetches.exists_arrivals hfetch
    obtain ⟨ys, hys, hM⟩ := Feed.Yields.unionFirst yield honly
    exact ⟨ys, hys, h ys hM⟩
  | .nestedJoin left right, Q, ⟨N, R, hleft, hQ⟩ => by
    obtain ⟨xs, hxs, hright, rfl⟩ := Feed.Brings.exists_arrivals (f := left) hleft
    obtain ⟨ys, hys, hM⟩ := Feed.Yields.nestedJoin ⟨xs, hxs, rfl⟩ fun x hx =>
      Work.Brings.exists_arrivals (hright x hx)
    exact ⟨ys, hys, hQ ys hM⟩
  | .boundJoin left size right, Q, ⟨N, R, hleft, hQ⟩ => by
    obtain ⟨xs, hxs, hright, rfl⟩ := Feed.Brings.exists_arrivals (f := left) hleft
    cases xs with
    | nil =>
      refine ⟨[], ?_, hQ [] rfl⟩
      rw [Feed.arrivals_boundJoin, hxs]
      exact Arrivals.ofJoin_ofList [] []
    | cons first rest =>
      obtain ⟨xss, hxss, hflat⟩ := exists_arrivals_tasks fun block hblock =>
        Work.Brings.exists_arrivals ((hright first rfl).2 block (List.mem_cons_of_mem _ hblock))
      refine ⟨xss.flatten, ?_, hQ _ hflat⟩
      rw [Feed.arrivals_boundJoin, hxs]
      simp only [Arrivals.items_ofList, Arrivals.blocks, Arrivals.failure?_ofList, hxss]
      exact Arrivals.ofJoin_ofList _ xss
  | .map f source, Q, h => by
    obtain ⟨xs, hxs, hQ⟩ := Feed.Brings.exists_arrivals (f := source) h
    exact ⟨xs.map f, by rw [Feed.arrivals_map, hxs, Arrivals.map_ofList], hQ⟩
  | .filter keep source, Q, h => by
    obtain ⟨xs, hxs, hQ⟩ := Feed.Brings.exists_arrivals (f := source) h
    exact ⟨xs.filter keep, by rw [Feed.arrivals_filter, hxs, Arrivals.filter_ofList], hQ⟩
  | .distinct source, Q, h => by
    obtain ⟨xs, hxs, hQ⟩ := Feed.Brings.exists_arrivals (f := source) h
    exact ⟨_, by rw [Feed.arrivals_distinct, hxs, Feed.distinct_ofList_eq], hQ⟩
  | .slice offset limit source, Q, h => by
    obtain ⟨xs, hxs, hQ⟩ := Feed.Brings.exists_arrivals (f := source) h
    exact ⟨_, by rw [Feed.arrivals_slice, hxs, Feed.slice_ofList_eq], hQ⟩
  | .optional left right keep, Q, ⟨R, h⟩ => by
    obtain ⟨xs, hxs, hright, hQ⟩ := Feed.Brings.exists_arrivals (f := left) h
    obtain ⟨ys, hys, hM⟩ := Feed.Yields.optional keep ⟨xs, hxs, rfl⟩ fun x hx =>
      Work.Brings.exists_arrivals (hright x hx)
    exact ⟨ys, hys, hQ ys hM⟩
  | .deferred work, Q, h => by
    obtain ⟨xs, hxs, hQ⟩ := Work.Brings.exists_arrivals (w := work) h
    exact ⟨xs, by rw [Feed.arrivals_deferred, hxs]; rfl, hQ⟩

theorem branchesBring.exists_arrivals : ∀ {branches : List (String × Work α)}
    {Ms : List (Multiset α)}, branchesBring answers branches Ms →
    ∃ xss : List (List α), branchArrivals answers branches = xss.map .ofList ∧
      xss.map Multiset.ofList = Ms
  | [], _, h => ⟨[], rfl, h.symm⟩
  | (_, work) :: rest, _, ⟨M, Ns, hMs, hbranch, hrest⟩ => by
    obtain ⟨xs, hxs, rfl⟩ := Work.Brings.exists_arrivals (w := work) hbranch
    obtain ⟨xss, hxss, rfl⟩ := branchesBring.exists_arrivals hrest
    refine ⟨xs :: xss, ?_, hMs.symm⟩
    show Arrivals.ofResult (work.arrivals answers) :: branchArrivals answers rest = _
    rw [hxs, hxss]
    rfl

theorem partsBring.exists_collected : ∀ {parts : List (Work α)} {Ms : List (Multiset α)},
    partsBring answers parts Ms → ∃ xss : List (List α),
      collectedOf answers parts = xss.map .ok ∧ xss.map Multiset.ofList = Ms
  | [], _, h => ⟨[], rfl, h.symm⟩
  | part :: rest, _, ⟨M, Ns, hMs, hpart, hrest⟩ => by
    obtain ⟨xs, hxs, rfl⟩ := Work.Brings.exists_arrivals (w := part) hpart
    obtain ⟨xss, hxss, rfl⟩ := partsBring.exists_collected hrest
    refine ⟨xs :: xss, ?_, hMs.symm⟩
    show Arrivals.collect (.ofResult (part.arrivals answers)) :: collectedOf answers rest = _
    rw [hxs, hxss, Arrivals.ofResult, Arrivals.collect_ofList, List.map_cons]

end

/-- Something can be brought. -/
theorem Work.Brings.exists_items {w : Work α} (h : w.Brings answers Q) : ∃ xs, Q xs :=
  let ⟨xs, _, hQ⟩ := h.exists_arrivals
  ⟨xs, hQ⟩

/-! ### Programs that go on -/

theorem Work.Brings.bind {k : Feed α → Work α}
    (hk : ∀ f : Feed α, f.Brings answers P → (k f).Brings answers Q) :
    ∀ {w : Work α}, w.Brings answers P → (w.bind k).Brings answers Q
  | .done feed, h => hk feed h
  | .sleep _ next, h => bind hk (w := next) h
  | .request endpoint r next, h => bind hk (w := next (answers endpoint r)) h
  | .repair _ next, h => bind hk (w := next) h
  | .check next, h => bind hk (w := next) h
  | .gather _ next, ⟨Ms, hparts, hnext⟩ =>
    ⟨Ms, hparts, fun xss hxss => bind hk (w := next (xss.map .ok)) (hnext xss hxss)⟩

theorem Work.Brings.handle (k : FedError → Work α) :
    ∀ {w : Work α}, w.Brings answers Q → (w.handle k).Brings answers Q
  | .done _, h => h
  | .sleep _ next, h => handle k (w := next) h
  | .request endpoint r next, h => handle k (w := next (answers endpoint r)) h
  | .repair _ next, h => handle k (w := next) h
  | .check next, h => handle k (w := next) h
  | .gather _ next, ⟨Ms, hparts, hnext⟩ =>
    ⟨Ms, hparts, fun xss hxss => handle k (w := next (xss.map .ok)) (hnext xss hxss)⟩

omit [DecidableEq α] in
theorem Work.Fetches.handle (k : FedError → Work α) :
    ∀ {w : Work α}, w.Fetches answers Q → (w.handle k).Fetches answers Q
  | .done (.rows _), h => h
  | .sleep _ next, h => handle k (w := next) h
  | .request endpoint r next, h => handle k (w := next (answers endpoint r)) h
  | .repair _ next, h => handle k (w := next) h
  | .check next, h => handle k (w := next) h

end Consequences

section Rules

variable [DecidableEq α] {M N : Multiset α} {f : Feed α} {w : Work α}

/-! ### Feeds -/

theorem branchesBring_iff {branches : List (String × Work α)} {Ms : List (Multiset α)} :
    branchesBring answers branches Ms ↔
      List.Forall₂ (fun branch M => branch.2.Comes answers M) branches Ms := by
  induction branches generalizing Ms with
  | nil => simp [branchesBring]
  | cons branch rest ih =>
    obtain ⟨name, work⟩ := branch
    simp only [branchesBring, List.forall₂_cons_left_iff, ih]
    constructor
    · rintro ⟨M, Ns, rfl, hbranch, hrest⟩
      exact ⟨M, Ns, hbranch, hrest, rfl⟩
    · rintro ⟨M, Ns, hbranch, hrest, rfl⟩
      exact ⟨M, Ns, rfl, hbranch, hrest⟩

theorem partsBring_iff {parts : List (Work α)} {Ms : List (Multiset α)} :
    partsBring answers parts Ms ↔
      List.Forall₂ (fun part M => part.Comes answers M) parts Ms := by
  induction parts generalizing Ms with
  | nil => simp [partsBring]
  | cons part rest ih =>
    simp only [partsBring, List.forall₂_cons_left_iff, ih]
    constructor
    · rintro ⟨M, Ns, rfl, hpart, hrest⟩
      exact ⟨M, Ns, hpart, hrest, rfl⟩
    · rintro ⟨M, Ns, hpart, hrest, rfl⟩
      exact ⟨M, Ns, rfl, hpart, hrest⟩

namespace Feed.Comes

/-- What a feed brings in any order it yields. -/
theorem yields (h : f.Comes answers M) : f.Yields answers M := Feed.Brings.exists_arrivals h

/-- A feed that is known to be empty brings nothing. -/
theorem eq_zero (h : f.Comes answers M) (he : f.isKnownEmpty = true) : M = 0 := h.yields.eq_zero he

theorem rows (xs : List α) : (Feed.rows xs).Comes answers (xs : Multiset α) :=
  rfl (a := (xs : Multiset α))

theorem map (g : α → α) (h : f.Comes answers M) : (Feed.map g f).Comes answers (M.map g) :=
  Feed.Brings.mono (f := f) (fun xs (hxs : (xs : Multiset α) = M) => hxs ▸ rfl) h

theorem filter (keep : α → Bool) (h : f.Comes answers M) :
    (Feed.filter keep f).Comes answers (M.filter (keep · = true)) :=
  Feed.Brings.mono (f := f) (fun xs (hxs : (xs : Multiset α) = M) => hxs ▸ Rows.coe_filter keep xs)
    h

theorem distinct (h : f.Comes answers M) : (Feed.distinct f).Comes answers M.dedup :=
  Feed.Brings.mono (f := f) (fun xs (hxs : (xs : Multiset α) = M) => hxs ▸ coe_unseen xs) h

/-- A limit that is not exceeded does not matter. -/
theorem slice {limit : Option Nat} (h : f.Comes answers M)
    (hM : ∀ n, limit = some n → Multiset.card M ≤ n) :
    (Feed.slice 0 limit f).Comes answers M := by
  refine Feed.Brings.mono (f := f) (fun xs hxs => ?_) h
  subst hxs
  exact congrArg Multiset.ofList (sliced_zero_eq hM)

theorem union {branches : List (String × Work α)} {Ms : List (Multiset α)}
    (h : List.Forall₂ (fun branch M => branch.2.Comes answers M) branches Ms) :
    (Feed.union false branches).Comes answers Ms.sum :=
  ⟨Ms, branchesBring_iff.2 h, fun _ hys => hys⟩

/-- Of branches that can have one item only, whichever comes first gives it. -/
theorem unionFirst {branches : List (String × Work α)} {Ms : List (Multiset α)} {x : α}
    (h : List.Forall₂ (fun branch M => branch.2.Fetches answers fun xs => (xs : Multiset α) = M)
      branches Ms)
    (hx : ∀ M ∈ Ms, M = 0 ∨ M = {x}) :
    (Feed.union true branches).Comes answers (if {x} ∈ Ms then {x} else 0) :=
  ⟨Ms, x, h, hx, fun _ hys => hys⟩

theorem nestedJoin {right : α → Work α} {R : α → Multiset α} (h : f.Comes answers M)
    (hr : ∀ x ∈ M, (right x).Comes answers (R x)) :
    (Feed.nestedJoin f right).Comes answers (M.bind R) := by
  refine ⟨M.bind R, R, Feed.Brings.mono (f := f) (fun xs hxs => ?_) h, fun _ hys => hys⟩
  subst hxs
  exact ⟨hr, rfl⟩

omit [DecidableEq α] in
/-- The tasks for the blocks of some items have together what there is for all the items. -/
theorem blockRows_bind (size : Nat) (R : α → Multiset α) (xs : List α) :
    blockRows size (fun _ block => (block : Multiset α).bind R) xs = (xs : Multiset α).bind R := by
  cases xs with
  | nil => rfl
  | cons first rest =>
    have blocks := bind_coe_flatten R (BoundJoin.blocks size (first :: rest))
    rw [BoundJoin.flatten_blocks, Multiset.bind, Multiset.join, Multiset.map_coe,
      Multiset.sum_coe] at blocks
    exact blocks

/-- In a join in blocks a block may be any items of the left, not more than the settings say; the
first item of all is the same for all blocks. -/
theorem boundJoinOf {size : Nat} {right : α → List α → Work α} {R : α → Multiset α}
    {P : List α → Prop} (h : f.Brings answers P)
    (hM : ∀ xs, P xs → (xs : Multiset α).bind R = M)
    (hr : ∀ xs, P xs → ∀ first, xs.head? = some first → ∀ block : List α,
      (block : Multiset α) ≤ xs → block.length ≤ max BoundJoin.smallBlockSize size →
      (right first block).Comes answers ((block : Multiset α).bind R)) :
    (Feed.boundJoin f size right).Comes answers M := by
  refine ⟨M, fun _ block => (block : Multiset α).bind R,
    Feed.Brings.mono (f := f) (fun xs hxs => ⟨?_, ?_⟩) h, fun _ hys => hys⟩
  · refine fun first hfirst => ⟨rfl, fun block hblock => ?_⟩
    obtain rfl | hblock := List.mem_cons.1 hblock
    · exact hr xs hxs first hfirst [] (Multiset.zero_le _) (Nat.zero_le _)
    refine hr xs hxs first hfirst block ?_ (BoundJoin.length_of_mem_blocks size hblock).2
    have sub := List.sublist_flatten_of_mem hblock
    rw [BoundJoin.flatten_blocks] at sub
    exact Multiset.coe_le.2 sub.subperm
  · exact (blockRows_bind size R xs).trans (hM xs hxs)

/-- Of a left side whose order is known only the first item decides. -/
theorem boundJoinFirst {size : Nat} {right : α → List α → Work α} {R : α → Multiset α}
    {xs : List α} (h : f.Brings answers (· = xs))
    (hr : ∀ first, xs.head? = some first → ∀ block : List α, (block : Multiset α) ≤ xs →
      block.length ≤ max BoundJoin.smallBlockSize size →
      (right first block).Comes answers ((block : Multiset α).bind R)) :
    (Feed.boundJoin f size right).Comes answers ((xs : Multiset α).bind R) :=
  boundJoinOf h (fun ys hys => by rw [hys]) fun ys hys => by rw [hys]; exact hr

/-- A join in blocks does not depend on which item of the left comes first, if no task does. -/
theorem boundJoin {size : Nat} {right : α → List α → Work α} {R : α → Multiset α}
    (h : f.Comes answers M)
    (hr : ∀ first ∈ M, ∀ block : List α, (block : Multiset α) ≤ M →
      block.length ≤ max BoundJoin.smallBlockSize size →
      (right first block).Comes answers ((block : Multiset α).bind R)) :
    (Feed.boundJoin f size right).Comes answers (M.bind R) :=
  boundJoinOf h (fun xs hxs => by rw [hxs]) fun xs hxs first hfirst => by
    subst hxs
    exact hr first (Multiset.mem_coe.2 (List.mem_of_head? hfirst))

theorem optional {right : α → Work α} {keep : α → Bool} {R : α → Multiset α}
    (h : f.Comes answers M) (hr : ∀ x ∈ M, (right x).Comes answers (R x)) :
    (Feed.optional f right keep).Comes answers (M.bind fun x => optionalRows keep x (R x)) := by
  refine ⟨R, Feed.Brings.mono (f := f) (fun xs hxs => ?_) h⟩
  subst hxs
  exact ⟨hr, fun _ hys => hys⟩

end Feed.Comes

/-! ### Programs -/

namespace Work.Comes

/-- What a program brings in any order it yields. -/
theorem yields (h : w.Comes answers M) : w.Yields answers M := Work.Brings.exists_arrivals h

theorem done (h : f.Comes answers M) : (Work.done f).Comes answers M := h

theorem rows (xs : List α) : (Work.done (.rows xs)).Comes answers (xs : Multiset α) :=
  done (.rows xs)

theorem request {endpoint : String} {r : Request} {next : Except FedError Answer → Work α}
    (h : (next (answers endpoint r)).Comes answers M) :
    (Work.request endpoint r next).Comes answers M := h

theorem check (h : w.Comes answers M) : (Work.check w).Comes answers M := h

/-- Programs run side by side give what each of them brings, in whatever order. -/
theorem gather {parts : List (Work α)} (Ms : List (Multiset α))
    {next : List (Except FedError (List α)) → Work α}
    (h : List.Forall₂ (fun part M => part.Comes answers M) parts Ms)
    (hn : ∀ xss : List (List α), xss.map Multiset.ofList = Ms →
      (next (xss.map .ok)).Comes answers N) :
    (Work.gather parts next).Comes answers N :=
  ⟨Ms, partsBring_iff.2 h, hn⟩

theorem bind {k : Feed α → Work α} (h : w.Comes answers M)
    (hk : ∀ f : Feed α, f.Comes answers M → (k f).Comes answers N) : (w.bind k).Comes answers N :=
  Work.Brings.bind hk h

theorem mapFeed {g : Feed α → Feed α} (h : w.Comes answers M)
    (hg : ∀ f : Feed α, f.Comes answers M → (g f).Comes answers N) :
    (w.mapFeed g).Comes answers N :=
  h.bind fun f hf => done (hg f hf)

theorem handle {k : FedError → Work α} (h : w.Comes answers M) : (w.handle k).Comes answers M :=
  Work.Brings.handle k h

theorem repairingFaults (h : w.Comes answers M) : w.repairingFaults.Comes answers M := h.handle

end Work.Comes

end Rules

end FederatedSparql
