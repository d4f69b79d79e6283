import FederatedSparql.Proofs.Engine.Yields

/-!
The items that may come out of a program, whatever happens while it runs.

`Work.MayGive` and `Feed.MayGive` leave open in which order tasks run, which of them are given up,
how the left side of a join is cut into blocks and which of its items came first.  A property of all
items that may be given is one of every run.

* `Work.mayGive_of_mem_arrivals`, `Feed.mayGive_of_mem_arrivals`: what arrives when the parts run one
  after another is among them.
* `Work.mayGive_iff_mayEnd`, `Work.mayEnd_bind_iff`: the items come from a feed that the program may
  end in, and such feeds follow one another along `bind`.
-/

namespace FederatedSparql

variable {α : Type}

mutual

/-- Some run of a program may give an item. -/
def Work.MayGive (answers : Answers) : Work α → α → Prop
  | .done feed, x => feed.MayGive answers x
  | .fail _, _ => False
  | .panic, _ => False
  | .sleep _ next, x => next.MayGive answers x
  | .request endpoint r next, x => (next (answers endpoint r)).MayGive answers x
  | .repair _ next, x => next.MayGive answers x
  | .check next, x => next.MayGive answers x
  | .gather parts next, x =>
    ∃ results, PartsMayGive answers parts results ∧ (next results).MayGive answers x
termination_by structural w => w

/-- Some run of a feed may give an item. -/
def Feed.MayGive (answers : Answers) : Feed α → α → Prop
  | .rows xs, x => x ∈ xs
  | .outcomes as, x => .ok x ∈ as
  | .union _ branches, x => BranchesMayGive answers branches x
  | .nestedJoin left right, x =>
    ∃ y, left.MayGive answers y ∧ (right y).MayGive answers x
  | .boundJoin left _ right, x =>
    ∃ first block, left.MayGive answers first ∧ (∀ y ∈ block, left.MayGive answers y) ∧
      (right first block).MayGive answers x
  | .map f source, x => ∃ y, source.MayGive answers y ∧ f y = x
  | .filter keep source, x => source.MayGive answers x ∧ keep x = true
  | .distinct source, x => source.MayGive answers x
  | .slice _ _ source, x => source.MayGive answers x
  | .optional left right keep, x =>
    ∃ y, left.MayGive answers y ∧ (x = y ∨ (right y).MayGive answers x ∧ keep x = true)
  | .deferred work, x => work.MayGive answers x
termination_by structural f => f

/-- Some run of one of the branches may give an item. -/
def BranchesMayGive (answers : Answers) : List (String × Work α) → α → Prop
  | [], _ => False
  | branch :: rest, x => BranchMayGive answers branch x ∨ BranchesMayGive answers rest x
termination_by structural branches => branches

/-- Some run of a branch may give an item. -/
def BranchMayGive (answers : Answers) : String × Work α → α → Prop
  | (_, work), x => work.MayGive answers x
termination_by structural branch => branch

/-- Programs side by side may come to some results, each of them a failure or items. -/
def PartsMayGive (answers : Answers) :
    List (Work α) → List (Except FedError (List α)) → Prop
  | [], results => results = []
  | part :: rest, results =>
    ∃ result others, results = result :: others ∧
      (∀ xs, result = .ok xs → ∀ x ∈ xs, part.MayGive answers x) ∧
      PartsMayGive answers rest others
termination_by structural parts => parts

end

variable {answers : Answers} {x : α}

theorem branchesMayGive_iff {branches : List (String × Work α)} :
    BranchesMayGive answers branches x ↔ ∃ branch ∈ branches, branch.2.MayGive answers x := by
  induction branches with
  | nil => simp [BranchesMayGive]
  | cons branch rest ih =>
    obtain ⟨name, work⟩ := branch
    simp [BranchesMayGive, BranchMayGive, ih]

/-! ### The feed that a program may end in -/

namespace Work

/-- Some run of a program may end in a feed. -/
def MayEnd (answers : Answers) : Work α → Feed α → Prop
  | done feed, f => f = feed
  | fail _, _ => False
  | panic, _ => False
  | sleep _ next, f => next.MayEnd answers f
  | request endpoint r next, f => (next (answers endpoint r)).MayEnd answers f
  | repair _ next, f => next.MayEnd answers f
  | check next, f => next.MayEnd answers f
  | gather parts next, f =>
    ∃ results, PartsMayGive answers parts results ∧ (next results).MayEnd answers f
termination_by structural w => w

/-- The items of a program come from a feed that it may end in. -/
theorem mayGive_iff_mayEnd :
    ∀ {w : Work α}, w.MayGive answers x ↔ ∃ f, w.MayEnd answers f ∧ f.MayGive answers x
  | done feed => by simp [MayGive, MayEnd]
  | fail _ => by simp [MayGive, MayEnd]
  | panic => by simp [MayGive, MayEnd]
  | sleep _ next => mayGive_iff_mayEnd (w := next)
  | request endpoint r next => mayGive_iff_mayEnd (w := next (answers endpoint r))
  | repair _ next => mayGive_iff_mayEnd (w := next)
  | check next => mayGive_iff_mayEnd (w := next)
  | gather parts next => by
    simp only [MayGive, MayEnd]
    constructor
    · rintro ⟨results, hr, hx⟩
      obtain ⟨f, hf, hx⟩ := mayGive_iff_mayEnd.1 hx
      exact ⟨f, ⟨results, hr, hf⟩, hx⟩
    · rintro ⟨f, ⟨results, hr, hf⟩, hx⟩
      exact ⟨results, hr, mayGive_iff_mayEnd.2 ⟨f, hf, hx⟩⟩

/-- Programs one behind the other end in what the second one makes of the feed of the first. -/
theorem mayEnd_bind_iff {k : Feed α → Work α} {g : Feed α} :
    ∀ {w : Work α}, (w.bind k).MayEnd answers g ↔
      ∃ f, w.MayEnd answers f ∧ (k f).MayEnd answers g
  | done feed => by simp [MayEnd, bind]
  | fail _ => by simp [MayEnd, bind]
  | panic => by simp [MayEnd, bind]
  | sleep _ next => mayEnd_bind_iff (w := next)
  | request endpoint r next => mayEnd_bind_iff (w := next (answers endpoint r))
  | repair _ next => mayEnd_bind_iff (w := next)
  | check next => mayEnd_bind_iff (w := next)
  | gather parts next => by
    simp only [MayEnd, bind]
    constructor
    · rintro ⟨results, hr, hg⟩
      obtain ⟨f, hf, hg⟩ := mayEnd_bind_iff.1 hg
      exact ⟨f, ⟨results, hr, hf⟩, hg⟩
    · rintro ⟨f, ⟨results, hr, hf⟩, hg⟩
      exact ⟨results, hr, mayEnd_bind_iff.2 ⟨f, hf, hg⟩⟩

theorem mayGive_bind_iff {w : Work α} {k : Feed α → Work α} :
    (w.bind k).MayGive answers x ↔ ∃ f, w.MayEnd answers f ∧ (k f).MayGive answers x := by
  simp only [mayGive_iff_mayEnd, mayEnd_bind_iff]
  constructor
  · rintro ⟨g, ⟨f, hf, hg⟩, hx⟩
    exact ⟨f, hf, g, hg, hx⟩
  · rintro ⟨f, hf, g, hg, hx⟩
    exact ⟨g, ⟨f, hf, hg⟩, hx⟩

theorem mayGive_mapFeed_iff {w : Work α} {g : Feed α → Feed α} :
    (w.mapFeed g).MayGive answers x ↔ ∃ f, w.MayEnd answers f ∧ (g f).MayGive answers x :=
  mayGive_bind_iff

/-- What comes out of a program with a handler comes out of the program or of the handler. -/
theorem MayGive.of_handle {h : FedError → Work α} :
    ∀ {w : Work α}, (w.handle h).MayGive answers x →
      w.MayGive answers x ∨ ∃ e, (h e).MayGive answers x
  | done _, hx => .inl hx
  | fail e, hx => .inr ⟨e, hx⟩
  | panic, hx => .inl hx
  | sleep _ next, hx => MayGive.of_handle (w := next) hx
  | request endpoint r next, hx => MayGive.of_handle (w := next (answers endpoint r)) hx
  | repair _ next, hx => MayGive.of_handle (w := next) hx
  | check next, hx => MayGive.of_handle (w := next) hx
  | gather parts next, hx => by
    obtain ⟨results, hr, hx⟩ := hx
    exact (MayGive.of_handle hx).imp_left fun hx => ⟨results, hr, hx⟩

/-- What may come out of a program may come out of it with a handler. -/
theorem MayGive.handle {h : FedError → Work α} :
    ∀ {w : Work α}, w.MayGive answers x → (w.handle h).MayGive answers x
  | done _, hx => hx
  | fail _, hx => hx.elim
  | panic, hx => hx
  | sleep _ next, hx => MayGive.handle (w := next) hx
  | request endpoint r next, hx => MayGive.handle (w := next (answers endpoint r)) hx
  | repair _ next, hx => MayGive.handle (w := next) hx
  | check next, hx => MayGive.handle (w := next) hx
  | gather parts next, hx => by
    obtain ⟨results, hr, hx⟩ := hx
    exact ⟨results, hr, MayGive.handle hx⟩

theorem not_mayGive_failRepairing {e : FedError} :
    ¬ (failRepairing e : Work α).MayGive answers x := by
  unfold failRepairing
  split <;> simp [MayGive]

/-- Asking for repairs neither gives nor takes items. -/
theorem mayGive_repairingFaults_iff {w : Work α} :
    w.repairingFaults.MayGive answers x ↔ w.MayGive answers x := by
  constructor
  · intro h
    rcases MayGive.of_handle h with h | ⟨e, h⟩
    · exact h
    · exact absurd h not_mayGive_failRepairing
  · exact MayGive.handle

theorem mayGive_ofExcept_iff {β : Type} {r : Except FedError β} {k : β → Work α} :
    (ofExcept r k).MayGive answers x ↔ ∃ b, r = .ok b ∧ (k b).MayGive answers x := by
  cases r with
  | error e => simp [ofExcept, MayGive]
  | ok b => simp [ofExcept]

end Work

/-! ### What arrives may be given -/

namespace Arrivals

theorem ok_mem_ofList_iff {xs : List α} : .ok x ∈ ofList xs ↔ x ∈ xs := by
  simp [ofList]

/-- What arrives before the first failure arrives. -/
theorem ok_mem_of_mem_items {as : Arrivals α} (h : x ∈ as.items) : .ok x ∈ as := by
  induction as with
  | nil => simp [items] at h
  | cons a as ih =>
    cases a with
    | error e => simp [items] at h
    | ok y =>
      rcases List.mem_cons.1 h with rfl | h
      · exact List.mem_cons_self
      · exact List.mem_cons_of_mem _ (ih h)

theorem ok_mem_of_mem_upToFailure {as : Arrivals α} (h : .ok x ∈ as.upToFailure) : .ok x ∈ as := by
  rw [upToFailure, List.mem_append] at h
  rcases h with h | h
  · exact ok_mem_of_mem_items (ok_mem_ofList_iff.1 h)
  · simp at h

/-- What arrives from tasks arrives from one of them. -/
theorem exists_of_mem_ofTasks {tasks : List (Arrivals α)} (h : .ok x ∈ ofTasks tasks) :
    ∃ as ∈ tasks, .ok x ∈ as :=
  List.mem_flatten.1 (ok_mem_of_mem_upToFailure h)

theorem exists_of_mem_ofJoin {left : Arrivals α} {tasks : List (Arrivals α)}
    (h : .ok x ∈ ofJoin left tasks) : ∃ as ∈ tasks, .ok x ∈ as := by
  obtain ⟨as, has, hx⟩ := exists_of_mem_ofTasks h
  rcases List.mem_append.1 has with has | has
  · exact ⟨as, has, hx⟩
  · obtain rfl := List.mem_singleton.1 has
    simp at hx

theorem mem_items_of_mem_collect {as : Arrivals α} {xs : List α} (h : as.collect = .ok xs) :
    xs = as.items := by
  unfold collect at h
  split at h
  · simp at h
  · simpa using h.symm

theorem ok_mem_of_mem_slice {as : Arrivals α} {offset : Nat} {limit : Option Nat}
    (h : .ok x ∈ as.slice offset limit) : .ok x ∈ as := by
  cases limit with
  | none => exact List.mem_of_mem_drop h
  | some n => exact List.mem_of_mem_drop (List.mem_of_mem_take h)

theorem ok_mem_of_mem_distinct [BEq α] {as : Arrivals α} {seen : List α}
    (h : .ok x ∈ as.distinct seen) : .ok x ∈ as := by
  induction as generalizing seen with
  | nil => exact h
  | cons a as ih =>
    cases a with
    | error e =>
      simp only [distinct, List.mem_cons, reduceCtorEq, false_or] at h
      exact List.mem_cons_of_mem _ (ih h)
    | ok y =>
      simp only [distinct] at h
      split at h
      · exact List.mem_cons_of_mem _ (ih h)
      · rcases List.mem_cons.1 h with h | h
        · exact h ▸ List.mem_cons_self
        · exact List.mem_cons_of_mem _ (ih h)

/-- An item of an optional part is the row itself or one of the right that is kept. -/
theorem eq_or_mem_of_mem_optional {row : α} {keep : α → Bool} {right : Arrivals α}
    (h : .ok x ∈ optional row keep right) : x = row ∨ .ok x ∈ right ∧ keep x = true := by
  unfold optional at h
  split at h
  · simp at h
  · next xs hxs =>
    have kept : ∀ ys, xs.filter keep = ys → x ∈ ys → .ok x ∈ right ∧ keep x = true := by
      rintro ys rfl hx
      rw [mem_items_of_mem_collect hxs, List.mem_filter] at hx
      exact ⟨ok_mem_of_mem_items hx.1, hx.2⟩
    split at h
    · exact .inl (by simpa using h)
    · next heq _ => exact .inr (kept _ rfl (ok_mem_ofList_iff.1 h))

/-- Every row of a block that is sent has arrived. -/
theorem ok_mem_of_mem_blocks {as : Arrivals α} {configured : Nat} {block : List α}
    (hb : block ∈ as.blocks configured) (hx : x ∈ block) : .ok x ∈ as := by
  have flat := List.mem_flatten.2 ⟨block, mem_blocks_items hb, hx⟩
  rw [BoundJoin.flatten_blocks] at flat
  exact ok_mem_of_mem_items flat

end Arrivals

section OfArrivals

variable [DecidableEq α]

mutual

/-- **What arrives from a program may be given.** -/
theorem Work.mayGive_of_mem_arrivals (answers : Answers) {x : α} :
    ∀ (w : Work α), .ok x ∈ Arrivals.ofResult (w.arrivals answers) → w.MayGive answers x
  | .done feed, h => Feed.mayGive_of_mem_arrivals answers feed h
  | .fail _, h => by simp [Work.arrivals, Arrivals.ofResult] at h
  | .panic, h => by simp [Work.arrivals, Arrivals.ofResult] at h
  | .sleep _ next, h => Work.mayGive_of_mem_arrivals answers next h
  | .request endpoint r next, h =>
    Work.mayGive_of_mem_arrivals answers (next (answers endpoint r)) h
  | .repair _ next, h => Work.mayGive_of_mem_arrivals answers next h
  | .check next, h => Work.mayGive_of_mem_arrivals answers next h
  | .gather parts next, h =>
    ⟨collectedOf answers parts, partsMayGive_collectedOf answers parts,
      Work.mayGive_of_mem_arrivals answers (next (collectedOf answers parts)) h⟩
termination_by structural w => w

/-- **What arrives from a feed may be given.** -/
theorem Feed.mayGive_of_mem_arrivals (answers : Answers) {x : α} :
    ∀ (f : Feed α), .ok x ∈ f.arrivals answers → f.MayGive answers x
  | .rows xs, h => Arrivals.ok_mem_ofList_iff.1 h
  | .outcomes as, h => h
  | .union false branches, h =>
    let ⟨_, has, hx⟩ := Arrivals.exists_of_mem_ofTasks h
    branchesMayGive_of_mem answers branches _ has hx
  | .union true branches, h =>
    let ⟨_, has, hx⟩ := Arrivals.exists_of_mem_ofTasks h
    branchesMayGive_of_mem answers branches _
      (List.mem_of_find?_eq_some (Option.mem_toList.1 has)) hx
  | .nestedJoin left right, h => by
    obtain ⟨as, has, hx⟩ := Arrivals.exists_of_mem_ofJoin h
    obtain ⟨row, hrow, rfl⟩ := List.mem_map.1 has
    exact ⟨row, Feed.mayGive_of_mem_arrivals answers left (Arrivals.ok_mem_of_mem_items hrow),
      Work.mayGive_of_mem_arrivals answers (right row) hx⟩
  | .boundJoin left size right, h => by
    rw [Feed.arrivals_boundJoin] at h
    obtain ⟨as, has, hx⟩ := Arrivals.exists_of_mem_ofJoin h
    split at has
    · simp at has
    · next first rest hitems =>
      obtain ⟨block, hblock, rfl⟩ := List.mem_map.1 has
      refine ⟨first, block, ?_, fun y hy => ?_,
        Work.mayGive_of_mem_arrivals answers (right first block) hx⟩
      · exact Feed.mayGive_of_mem_arrivals answers left
          (Arrivals.ok_mem_of_mem_items (hitems ▸ List.mem_cons_self))
      · exact Feed.mayGive_of_mem_arrivals answers left (Arrivals.ok_mem_of_mem_blocks hblock hy)
  | .map f source, h => by
    obtain ⟨a, ha, hx⟩ := List.mem_map.1 h
    cases a with
    | error e => simp [Except.map] at hx
    | ok y => exact ⟨y, Feed.mayGive_of_mem_arrivals answers source ha, by
        simpa [Except.map] using hx⟩
  | .filter keep source, h => by
    obtain ⟨ha, hk⟩ := List.mem_filter.1 h
    exact ⟨Feed.mayGive_of_mem_arrivals answers source ha, hk⟩
  | .distinct source, h =>
    Feed.mayGive_of_mem_arrivals answers source (Arrivals.ok_mem_of_mem_distinct h)
  | .slice _ _ source, h =>
    Feed.mayGive_of_mem_arrivals answers source (Arrivals.ok_mem_of_mem_slice h)
  | .optional left right keep, h => by
    rw [Feed.arrivals_optional] at h
    obtain ⟨a, ha, hx⟩ := List.mem_flatMap.1 h
    cases a with
    | error e => simp at hx
    | ok y =>
      refine ⟨y, Feed.mayGive_of_mem_arrivals answers left ha, ?_⟩
      exact (Arrivals.eq_or_mem_of_mem_optional hx).imp_right fun ⟨hr, hk⟩ =>
        ⟨Work.mayGive_of_mem_arrivals answers (right y) hr, hk⟩
  | .deferred work, h => Work.mayGive_of_mem_arrivals answers work h
termination_by structural f => f

theorem branchesMayGive_of_mem (answers : Answers) {x : α} :
    ∀ (branches : List (String × Work α)) (as : Arrivals α), as ∈ branchArrivals answers branches →
      .ok x ∈ as → BranchesMayGive answers branches x
  | [], _, has, _ => by simp [branchArrivals] at has
  | branch :: rest, as, has, hx => by
    rcases List.mem_cons.1 has with rfl | has
    · exact .inl (branchMayGive_of_mem answers branch hx)
    · exact .inr (branchesMayGive_of_mem answers rest as has hx)
termination_by structural branches => branches

theorem branchMayGive_of_mem (answers : Answers) {x : α} :
    ∀ (branch : String × Work α), .ok x ∈ branchArrival answers branch →
      BranchMayGive answers branch x
  | (_, work), h => Work.mayGive_of_mem_arrivals answers work h
termination_by structural branch => branch

theorem partsMayGive_collectedOf (answers : Answers) :
    ∀ (parts : List (Work α)), PartsMayGive answers parts (collectedOf answers parts)
  | [] => rfl
  | part :: rest =>
    ⟨_, _, rfl, fun _ hxs _ hx => Work.mayGive_of_mem_arrivals answers part
      (Arrivals.ok_mem_of_mem_items (Arrivals.mem_items_of_mem_collect hxs ▸ hx)),
      partsMayGive_collectedOf answers rest⟩
termination_by structural parts => parts

end

end OfArrivals

end FederatedSparql
