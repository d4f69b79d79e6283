import FederatedSparql.Engine.Cursor
import FederatedSparql.Proofs.Engine.Brings

/-!
What cursors bring while they are being pulled.

A cursor may hold executors, and what those are still to give is only known to whoever keeps an eye
on their tasks.  `Cursor.Brings` takes it as given: if every executor gives what it owes, in whatever
order, then no failure comes from the cursor, and its items have a property.  What a cursor brings
depends on the executors it holds alone (`Cursor.Brings.congr`).
-/

namespace FederatedSparql

variable {α : Type}

section Definitions

variable [DecidableEq α]

mutual

/-- If every executor gives what it owes, a cursor gives items with a property, and no failure. -/
def Cursor.Brings (answers : Answers) (owed : Nat → Multiset α) :
    Cursor α → (List α → Prop) → Prop
  | .empty, Q => Q []
  | .closed, Q => Q []
  | .buffered xs, Q => Q xs
  | .pipe source, Q => source.Brings answers owed Q

/-- If every executor gives what it owes, a pipe gives items with a property, and no failure. -/
def Pipe.Brings (answers : Answers) (owed : Nat → Multiset α) : Pipe α → (List α → Prop) → Prop
  | .outcomes as, Q => ∃ xs, as = Arrivals.ofList xs ∧ Q xs
  | .map f source, Q => source.Brings answers owed fun xs => Q (xs.map f)
  | .filter keep source, Q => source.Brings answers owed fun xs => Q (xs.filter keep)
  | .distinct seen source, Q => source.Brings answers owed fun xs => Q (Feed.unseen seen xs)
  | .slice toSkip toTake source, Q =>
    source.Brings answers owed fun xs => Q (Feed.sliced toSkip toTake xs)
  | .chain sources, Q => chainBrings answers owed sources Q
  | .executor id, Q => ∀ ys : List α, (ys : Multiset α) = owed id → Q ys
  | .deferred run, Q => run.Brings answers owed Q
  | .optional left right keep next, Q => ∃ R : α → Multiset α, left.Brings answers owed fun xs =>
      (∀ x ∈ xs, (right x).Comes answers (R x)) ∧ ∀ ys : List α,
        (ys : Multiset α) = (xs : Multiset α).bind (fun x => Feed.optionalRows keep x (R x)) →
          Q (next ++ ys)
  | .matching left right keep row matched, Q => ∃ (R : α → Multiset α) (M : Multiset α),
      matched.Comes answers owed M ∧ left.Brings answers owed fun xs =>
        (∀ x ∈ xs, (right x).Comes answers (R x)) ∧ ∀ ys : List α,
          (ys : Multiset α) = Feed.optionalRows keep row M +
            (xs : Multiset α).bind (fun x => Feed.optionalRows keep x (R x)) → Q ys

/-- If every executor gives what it owes, a program that has got somewhere ends well, and the items
in which it ends have a property. -/
def Run.Brings (answers : Answers) (owed : Nat → Multiset α) : Run α → (List α → Prop) → Prop
  | .ready next, Q => next.Brings answers Q
  | .sleeping _ next, Q => next.Brings answers Q
  | .awaiting _ endpoint r next, Q => (next (answers endpoint r)).Brings answers Q
  | .gathering parts next, Q => ∃ Ms, gatheredCome answers owed parts Ms ∧
      ∀ xss : List (List α), xss.map Multiset.ofList = Ms → (next (xss.map .ok)).Brings answers Q

/-- If every executor gives what it owes, these are all items that a collected program gives. -/
def Part.Comes (answers : Answers) (owed : Nat → Multiset α) : Part α → Multiset α → Prop
  | .running run, M => run.Brings answers owed fun xs => (xs : Multiset α) = M
  | .draining collected source, M =>
    source.Brings answers owed fun xs => (↑(collected.reverse ++ xs) : Multiset α) = M
  | .finished (.ok xs), M => (xs : Multiset α) = M
  | .finished (.error _), _ => False

/-- One cursor after the other gives items that together have a property. -/
def chainBrings (answers : Answers) (owed : Nat → Multiset α) :
    List (Cursor α) → (List α → Prop) → Prop
  | [], Q => Q []
  | c :: rest, Q =>
    c.Brings answers owed fun xs => chainBrings answers owed rest fun ys => Q (xs ++ ys)

/-- These are all items that each of some collected programs gives. -/
def gatheredCome (answers : Answers) (owed : Nat → Multiset α) :
    List (Part α) → List (Multiset α) → Prop
  | [], Ms => Ms = []
  | part :: rest, Ms => ∃ M Ns, Ms = M :: Ns ∧ part.Comes answers owed M ∧
      gatheredCome answers owed rest Ns

end

/-- A cursor gives these items. -/
def Cursor.Comes (answers : Answers) (owed : Nat → Multiset α) (c : Cursor α) (M : Multiset α) :
    Prop :=
  c.Brings answers owed fun xs => (xs : Multiset α) = M

/-- A program that has got somewhere gives these items. -/
def Run.Comes (answers : Answers) (owed : Nat → Multiset α) (run : Run α) (M : Multiset α) : Prop :=
  run.Brings answers owed fun xs => (xs : Multiset α) = M

end Definitions

section Consequences

variable [DecidableEq α] {answers : Answers} {owed owed' : Nat → Multiset α}

/-! ### Weaker properties -/

mutual

theorem Cursor.Brings.mono : ∀ {c : Cursor α} {P Q : List α → Prop}, (∀ xs, P xs → Q xs) →
    c.Brings answers owed P → c.Brings answers owed Q
  | .empty, _, _, hPQ, h => hPQ [] h
  | .closed, _, _, hPQ, h => hPQ [] h
  | .buffered xs, _, _, hPQ, h => hPQ xs h
  | .pipe source, _, _, hPQ, h => Pipe.Brings.mono (p := source) hPQ h

theorem Pipe.Brings.mono : ∀ {p : Pipe α} {P Q : List α → Prop}, (∀ xs, P xs → Q xs) →
    p.Brings answers owed P → p.Brings answers owed Q
  | .outcomes _, _, _, hPQ, ⟨xs, has, h⟩ => ⟨xs, has, hPQ xs h⟩
  | .map f source, P, _, hPQ, h =>
    Pipe.Brings.mono (p := source) (P := fun xs => P (xs.map f)) (fun _ => hPQ _) h
  | .filter keep source, P, _, hPQ, h =>
    Pipe.Brings.mono (p := source) (P := fun xs => P (xs.filter keep)) (fun _ => hPQ _) h
  | .distinct seen source, P, _, hPQ, h =>
    Pipe.Brings.mono (p := source) (P := fun xs => P (Feed.unseen seen xs)) (fun _ => hPQ _) h
  | .slice toSkip toTake source, P, _, hPQ, h =>
    Cursor.Brings.mono (c := source) (P := fun xs => P (Feed.sliced toSkip toTake xs))
      (fun _ => hPQ _) h
  | .chain sources, _, _, hPQ, h => chainBrings.mono (s := sources) hPQ h
  | .executor _, _, _, hPQ, h => fun ys hys => hPQ ys (h ys hys)
  | .deferred run, _, _, hPQ, h => Run.Brings.mono (r := run) hPQ h
  | .optional left right keep next, P, Q, hPQ, ⟨R, h⟩ => by
    refine ⟨R, Cursor.Brings.mono (c := left) ?_ h⟩
    exact fun xs hx => ⟨hx.1, fun ys hys => hPQ _ (hx.2 ys hys)⟩
  | .matching left right keep row matched, P, Q, hPQ, ⟨R, M, hmatched, h⟩ => by
    refine ⟨R, M, hmatched, Cursor.Brings.mono (c := left) ?_ h⟩
    exact fun xs hx => ⟨hx.1, fun ys hys => hPQ _ (hx.2 ys hys)⟩

theorem Run.Brings.mono : ∀ {r : Run α} {P Q : List α → Prop}, (∀ xs, P xs → Q xs) →
    r.Brings answers owed P → r.Brings answers owed Q
  | .ready next, _, _, hPQ, h => Work.Brings.mono (w := next) hPQ h
  | .sleeping _ next, _, _, hPQ, h => Work.Brings.mono (w := next) hPQ h
  | .awaiting _ endpoint r next, _, _, hPQ, h =>
    Work.Brings.mono (w := next (answers endpoint r)) hPQ h
  | .gathering _ _, _, _, hPQ, ⟨Ms, hparts, h⟩ =>
    ⟨Ms, hparts, fun xss hxss => (h xss hxss).mono hPQ⟩

theorem chainBrings.mono : ∀ {s : List (Cursor α)} {P Q : List α → Prop}, (∀ xs, P xs → Q xs) →
    chainBrings answers owed s P → chainBrings answers owed s Q
  | [], _, _, hPQ, h => hPQ [] h
  | c :: rest, P, _, hPQ, h =>
    Cursor.Brings.mono (c := c) (P := fun xs => chainBrings answers owed rest fun ys => P (xs ++ ys))
      (fun xs hxs => chainBrings.mono (s := rest) (P := fun ys => P (xs ++ ys)) (fun _ => hPQ _) hxs)
      h

end

/-! ### The executors that are held -/

mutual

/-- What a cursor brings depends on the executors it holds alone. -/
theorem Cursor.Brings.congr : ∀ {c : Cursor α} {Q : List α → Prop},
    (∀ id ∈ c.held, owed' id = owed id) → c.Brings answers owed Q → c.Brings answers owed' Q
  | .empty, _, _, h => h
  | .closed, _, _, h => h
  | .buffered _, _, _, h => h
  | .pipe source, _, hsame, h => Pipe.Brings.congr (p := source) hsame h

theorem Pipe.Brings.congr : ∀ {p : Pipe α} {Q : List α → Prop},
    (∀ id ∈ p.held, owed' id = owed id) → p.Brings answers owed Q → p.Brings answers owed' Q
  | .outcomes _, _, _, h => h
  | .map _ source, _, hsame, h => Pipe.Brings.congr (p := source) hsame h
  | .filter _ source, _, hsame, h => Pipe.Brings.congr (p := source) hsame h
  | .distinct _ source, _, hsame, h => Pipe.Brings.congr (p := source) hsame h
  | .slice _ _ source, _, hsame, h => Cursor.Brings.congr (c := source) hsame h
  | .chain sources, _, hsame, h => chainBrings.congr (s := sources) hsame h
  | .executor id, _, hsame, h => fun ys hys => h ys (hys.trans (hsame id (List.mem_singleton_self id)))
  | .deferred run, _, hsame, h => Run.Brings.congr (r := run) hsame h
  | .optional left _ _ _, _, hsame, ⟨R, h⟩ => ⟨R, Cursor.Brings.congr (c := left) hsame h⟩
  | .matching left _ _ _ matched, _, hsame, ⟨R, M, hmatched, h⟩ =>
    ⟨R, M, Part.Comes.congr (p := matched)
        (fun id hid => hsame id (List.mem_append_left _ hid)) hmatched,
      Cursor.Brings.congr (c := left) (fun id hid => hsame id (List.mem_append_right _ hid)) h⟩

theorem Run.Brings.congr : ∀ {r : Run α} {Q : List α → Prop},
    (∀ id ∈ r.held, owed' id = owed id) → r.Brings answers owed Q → r.Brings answers owed' Q
  | .ready _, _, _, h => h
  | .sleeping _ _, _, _, h => h
  | .awaiting _ _ _ _, _, _, h => h
  | .gathering parts _, _, hsame, ⟨Ms, hparts, h⟩ =>
    ⟨Ms, gatheredCome.congr (p := parts) hsame hparts, h⟩

theorem Part.Comes.congr : ∀ {p : Part α} {M : Multiset α},
    (∀ id ∈ p.held, owed' id = owed id) → p.Comes answers owed M →
      p.Comes answers owed' M
  | .running run, _, hsame, h => Run.Brings.congr (r := run) hsame h
  | .draining _ source, _, hsame, h => Cursor.Brings.congr (c := source) hsame h
  | .finished (.ok _), _, _, h => h

theorem chainBrings.congr : ∀ {s : List (Cursor α)} {Q : List α → Prop},
    (∀ id ∈ heldByAll s, owed' id = owed id) → chainBrings answers owed s Q →
      chainBrings answers owed' s Q
  | [], _, _, h => h
  | c :: rest, _, hsame, h => by
    have hrest : ∀ id ∈ heldByAll rest, owed' id = owed id :=
      fun id hid => hsame id (List.mem_append_right _ hid)
    refine Cursor.Brings.mono (c := c) (fun xs hxs => ?_)
      (Cursor.Brings.congr (c := c) (fun id hid => hsame id (List.mem_append_left _ hid)) h)
    exact chainBrings.congr (s := rest) hrest hxs

theorem gatheredCome.congr : ∀ {p : List (Part α)} {Ms : List (Multiset α)},
    (∀ id ∈ heldByParts p, owed' id = owed id) → gatheredCome answers owed p Ms →
      gatheredCome answers owed' p Ms
  | [], _, _, h => h
  | part :: rest, _, hsame, ⟨M, Ns, hMs, hpart, hrest⟩ =>
    ⟨M, Ns, hMs, Part.Comes.congr (p := part)
        (fun id hid => hsame id (List.mem_append_left _ hid)) hpart,
      gatheredCome.congr (p := rest) (fun id hid => hsame id (List.mem_append_right _ hid))
        hrest⟩

end

/-! ### Items that can be given -/

mutual

/-- Something can be given. -/
theorem Cursor.Brings.exists_items : ∀ {c : Cursor α} {Q : List α → Prop},
    c.Brings answers owed Q → ∃ xs, Q xs
  | .empty, _, h => ⟨[], h⟩
  | .closed, _, h => ⟨[], h⟩
  | .buffered xs, _, h => ⟨xs, h⟩
  | .pipe source, _, h => Pipe.Brings.exists_items (p := source) h

theorem Pipe.Brings.exists_items : ∀ {p : Pipe α} {Q : List α → Prop}, p.Brings answers owed Q →
    ∃ xs, Q xs
  | .outcomes _, _, ⟨xs, _, h⟩ => ⟨xs, h⟩
  | .map _ source, _, h =>
    let ⟨_, hxs⟩ := Pipe.Brings.exists_items (p := source) h
    ⟨_, hxs⟩
  | .filter _ source, _, h =>
    let ⟨_, hxs⟩ := Pipe.Brings.exists_items (p := source) h
    ⟨_, hxs⟩
  | .distinct _ source, _, h =>
    let ⟨_, hxs⟩ := Pipe.Brings.exists_items (p := source) h
    ⟨_, hxs⟩
  | .slice _ _ source, _, h =>
    let ⟨_, hxs⟩ := Cursor.Brings.exists_items (c := source) h
    ⟨_, hxs⟩
  | .chain sources, _, h => chainBrings.exists_items (s := sources) h
  | .executor id, _, h =>
    let ⟨ys, hys⟩ := Quot.exists_rep (owed id)
    ⟨ys, h ys hys⟩
  | .deferred run, _, h => Run.Brings.exists_items (r := run) h
  | .optional left _ _ next, _, ⟨_, h⟩ =>
    let ⟨_, _, hQ⟩ := Cursor.Brings.exists_items (c := left) h
    let ⟨ys, hys⟩ := Quot.exists_rep _
    ⟨next ++ ys, hQ ys hys⟩
  | .matching left _ _ _ _, _, ⟨_, _, _, h⟩ =>
    let ⟨_, _, hQ⟩ := Cursor.Brings.exists_items (c := left) h
    let ⟨ys, hys⟩ := Quot.exists_rep _
    ⟨ys, hQ ys hys⟩

theorem Run.Brings.exists_items : ∀ {r : Run α} {Q : List α → Prop}, r.Brings answers owed Q →
    ∃ xs, Q xs
  | .ready _, _, h => Work.Brings.exists_items h
  | .sleeping _ _, _, h => Work.Brings.exists_items h
  | .awaiting _ _ _ _, _, h => Work.Brings.exists_items h
  | .gathering parts _, _, ⟨_, hparts, h⟩ =>
    let ⟨xss, hxss⟩ := gatheredCome.exists_items (p := parts) hparts
    Work.Brings.exists_items (h xss hxss)

theorem Part.Comes.exists_items : ∀ {p : Part α} {M : Multiset α},
    p.Comes answers owed M → ∃ xs : List α, (xs : Multiset α) = M
  | .running run, _, h => Run.Brings.exists_items (r := run) h
  | .draining collected source, _, h =>
    let ⟨xs, hxs⟩ := Cursor.Brings.exists_items (c := source) h
    ⟨collected.reverse ++ xs, hxs⟩
  | .finished (.ok xs), _, h => ⟨xs, h⟩

theorem chainBrings.exists_items : ∀ {s : List (Cursor α)} {Q : List α → Prop},
    chainBrings answers owed s Q → ∃ xs, Q xs
  | [], _, h => ⟨[], h⟩
  | c :: rest, _, h =>
    let ⟨xs, hxs⟩ := Cursor.Brings.exists_items (c := c) h
    let ⟨ys, hys⟩ := chainBrings.exists_items (s := rest) hxs
    ⟨xs ++ ys, hys⟩

theorem gatheredCome.exists_items : ∀ {p : List (Part α)} {Ms : List (Multiset α)},
    gatheredCome answers owed p Ms → ∃ xss : List (List α), xss.map Multiset.ofList = Ms
  | [], _, h => ⟨[], h.symm⟩
  | part :: rest, _, ⟨_, _, hMs, hpart, hrest⟩ =>
    let ⟨xs, hxs⟩ := Part.Comes.exists_items (p := part) hpart
    let ⟨xss, hxss⟩ := gatheredCome.exists_items (p := rest) hrest
    ⟨xs :: xss, by rw [List.map_cons, hxs, hxss, hMs]⟩

end

/-! ### Cursors that are transformed -/

theorem Cursor.brings_ofList {xs : List α} {Q : List α → Prop} (h : Q xs) :
    (Cursor.ofList xs).Brings answers owed Q := by
  cases xs <;> exact h

theorem Cursor.Brings.map {c : Cursor α} {f : α → α} {Q : List α → Prop}
    (h : c.Brings answers owed fun xs => Q (xs.map f)) : (c.map f).Brings answers owed Q := by
  cases c with
  | buffered xs => exact Cursor.brings_ofList h
  | _ => exact h

theorem Cursor.Brings.filter {c : Cursor α} {keep : α → Bool} {Q : List α → Prop}
    (h : c.Brings answers owed fun xs => Q (xs.filter keep)) :
    (c.filter keep).Brings answers owed Q := by
  cases c with
  | buffered xs => exact Cursor.brings_ofList h
  | _ => exact h

theorem Feed.unseen_eq (seen xs : List α) :
    Feed.unseen seen xs = (xs.filter (· ∉ seen)).eraseDups := by
  induction xs generalizing seen with
  | nil => rfl
  | cons x xs ih =>
    by_cases hx : x ∈ seen
    · simp [Feed.unseen, hx, ih]
    · have hsame : xs.filter (fun y => decide (y ∉ x :: seen)) =
          (xs.filter fun y => decide (y ∉ seen)).filter fun y => !y == x := by
        rw [List.filter_filter]
        refine List.filter_congr fun y _ => ?_
        by_cases hy : y = x <;> simp [hy]
      rw [Feed.unseen, if_neg hx, ih, hsame, List.filter_cons_of_pos (by simpa using hx),
        List.eraseDups_cons]

theorem Cursor.Brings.distinct {c : Cursor α} {Q : List α → Prop}
    (h : c.Brings answers owed fun xs => Q (Feed.unseen [] xs)) :
    c.distinct.Brings answers owed Q := by
  cases c with
  | buffered xs =>
    refine Cursor.brings_ofList ?_
    have hsame : Feed.unseen [] xs = xs.eraseDups := by simp [Feed.unseen_eq]
    exact hsame ▸ h
  | _ => exact h

end Consequences

theorem heldByAll_append (cs cs' : List (Cursor α)) :
    heldByAll (cs ++ cs') = heldByAll cs ++ heldByAll cs' := by
  induction cs with
  | nil => rfl
  | cons c cs ih => rw [List.cons_append, heldByAll, heldByAll, ih, List.append_assoc]

namespace Cursor

@[simp] theorem held_ofList (xs : List α) : (ofList xs).held = [] := by cases xs <;> rfl

@[simp] theorem held_map (f : α → α) (c : Cursor α) : (c.map f).held = c.held := by
  cases c <;> simp [map, held, Pipe.held]

@[simp] theorem held_filter (keep : α → Bool) (c : Cursor α) : (c.filter keep).held = c.held := by
  cases c <;> simp [filter, held, Pipe.held]

@[simp] theorem held_distinct [BEq α] (c : Cursor α) : c.distinct.held = c.held := by
  cases c <;> simp [distinct, held, Pipe.held]

@[simp] theorem held_slice (offset : Nat) (limit : Option Nat) (c : Cursor α) :
    (c.slice offset limit).held = c.held := by
  simp [slice, held, Pipe.held]

end Cursor

end FederatedSparql
