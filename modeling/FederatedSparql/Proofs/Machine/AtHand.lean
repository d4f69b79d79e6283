import FederatedSparql.Engine.Machine.Pull
import FederatedSparql.Proofs.Engine.Probing
import FederatedSparql.Proofs.Engine.Related
import FederatedSparql.Proofs.Machine.Scene

/-!
Programs that have no other tasks run, and results that are at hand.

What such a program ends in does not depend on when its steps are taken (`Scene.leads_stepRun`), and
it ends after a number of steps that is known beforehand (`Run.size`).  Pulling a result that is at
hand changes nothing else (`Cursor.stepCursor_atHand`), and what is pulled is what arrives from the
feed (`Cursor.arrivals`).
-/

namespace FederatedSparql

open Machine

variable {α : Type}

/-! ### Results at hand -/

/-- All items of a feed are at hand, perhaps behind transformations, and no failure is among
them. -/
def Feed.AtHand : Feed α → Prop
  | .rows _ => True
  | .outcomes as => Arrivals.failure? as = none
  | .map _ source => source.AtHand
  | .filter _ source => source.AtHand
  | .distinct source => source.AtHand
  | .slice _ _ source => source.AtHand
  | _ => False

mutual

/-- What a cursor gives is at hand. -/
def Cursor.AtHand : Cursor α → Prop
  | .pipe source => source.AtHand
  | _ => True

/-- What a pipe gives is at hand. -/
def Pipe.AtHand : Pipe α → Prop
  | .outcomes _ => True
  | .map _ source => source.AtHand
  | .filter _ source => source.AtHand
  | .distinct _ source => source.AtHand
  | .slice _ _ source => source.AtHand
  | _ => False

end

mutual

/-- What arrives from a cursor at hand. -/
def Cursor.arrivals [BEq α] : Cursor α → Arrivals α
  | .buffered xs => .ofList xs
  | .pipe source => source.arrivals
  | _ => []

/-- What arrives from a pipe at hand. -/
def Pipe.arrivals [BEq α] : Pipe α → Arrivals α
  | .outcomes as => as
  | .map f source => source.arrivals.map f
  | .filter keep source => source.arrivals.filter keep
  | .distinct seen source => source.arrivals.distinct seen
  | .slice offset limit source => source.arrivals.slice offset limit
  | _ => []

end

mutual

/-- How many steps a cursor at hand takes at most. -/
def Cursor.size : Cursor α → Nat
  | .buffered xs => xs.length
  | .pipe source => source.size
  | _ => 0

/-- How many steps a pipe at hand takes at most. -/
def Pipe.size : Pipe α → Nat
  | .outcomes as => as.length
  | .map _ source => source.size
  | .filter _ source => source.size
  | .distinct _ source => source.size
  | .slice _ _ source => source.size
  | _ => 0

end

mutual

/-- Nothing runs for what is at hand. -/
theorem Cursor.AtHand.held_eq_nil : ∀ {c : Cursor α}, c.AtHand → c.held = []
  | .pipe source, h => Pipe.AtHand.held_eq_nil (p := source) h
  | .empty, _ => rfl
  | .buffered _, _ => rfl
  | .closed, _ => rfl

theorem Pipe.AtHand.held_eq_nil : ∀ {p : Pipe α}, p.AtHand → p.held = []
  | .outcomes _, _ => rfl
  | .map _ source, h => Pipe.AtHand.held_eq_nil (p := source) h
  | .filter _ source, h => Pipe.AtHand.held_eq_nil (p := source) h
  | .distinct _ source, h => Pipe.AtHand.held_eq_nil (p := source) h
  | .slice _ _ source, h => Cursor.AtHand.held_eq_nil (c := source) h

end

theorem Cursor.arrivals_eq_nil [BEq α] {c : Cursor α} (h : c.isKnownEmpty) : c.arrivals = [] := by
  cases c with
  | empty => rfl
  | closed => rfl
  | buffered xs => simp_all [Cursor.isKnownEmpty, Cursor.arrivals, Arrivals.ofList]
  | pipe source => simp [Cursor.isKnownEmpty] at h

/-! ### Slices -/

namespace Arrivals

theorem slice_nil (offset : Nat) (limit : Option Nat) :
    Arrivals.slice (α := α) offset limit [] = [] := by
  cases limit <;> simp [slice]

theorem slice_some_zero (offset : Nat) (as : Arrivals α) : as.slice offset (some 0) = [] := by
  rw [slice, List.take_zero]

theorem slice_zero_cons {limit : Option Nat} (h : limit ≠ some 0) (a : Except FedError α)
    (as : Arrivals α) : Arrivals.slice 0 limit (a :: as) = a :: as.slice 0 (limit.map (· - 1)) := by
  cases limit with
  | none => rfl
  | some k =>
    obtain ⟨k, rfl⟩ := Nat.exists_eq_succ_of_ne_zero fun hk : k = 0 => h (hk ▸ rfl)
    rfl

theorem slice_succ_cons (k : Nat) (limit : Option Nat) (a : Except FedError α) (as : Arrivals α) :
    Arrivals.slice (k + 1) limit (a :: as) = as.slice k limit := by
  cases limit <;> rfl

end Arrivals

/-! ### Pulling what is at hand -/

/-- What a step of pulling has to do with what arrives, and with the number of steps. -/
def Pulled.Follows : Pulled α → Arrivals α × Nat → Arrivals α × Nat → Prop
  | .item x, (as, n), (as', n') => as = .ok x :: as' ∧ n' < n
  | .failure e, (as, n), (as', n') => as = .error e :: as' ∧ n' < n
  | .progress, (as, n), (as', n') => as = as' ∧ n' < n
  | .done, (as, _), _ => as = []
  | .wait, _, _ => False

section Pulling

variable {as as' : Arrivals α} {n n' : Nat}

/-- A pipe passes on what its source gives, items as it likes. -/
theorem Pulled.Follows.onPipe {r : Pulled α} (p : Pipe α) (rebuild : Pipe α → Pipe α)
    (onItem : α → Pulled α) {F : Arrivals α → Arrivals α} (h : r.Follows (as, n) (as', n'))
    (nil : F [] = []) (error : ∀ e as, F (.error e :: as) = .error e :: F as)
    (item : ∀ x, r = .item x → n' < n → (onItem x).Follows (F (.ok x :: as'), n) (F as', n')) :
    ∃ r', Machine.onPipe rebuild onItem (r, p) = (r', rebuild p) ∧
      r'.Follows (F as, n) (F as', n') := by
  cases r with
  | item x =>
    obtain ⟨rfl, hn⟩ := h
    exact ⟨onItem x, rfl, item x rfl hn⟩
  | failure e =>
    obtain ⟨rfl, hn⟩ := h
    exact ⟨.failure e, rfl, error e as', hn⟩
  | done =>
    obtain rfl := h
    exact ⟨.done, rfl, nil⟩
  | progress =>
    obtain ⟨rfl, hn⟩ := h
    exact ⟨.progress, rfl, rfl, hn⟩
  | wait => exact h.elim

variable [BEq α]

/-- Of a slice the first arrivals are left out, and then so many are given. -/
theorem Pulled.Follows.sliceStep {r : Pulled α} {c : Cursor α} (offset : Nat) {limit : Option Nat}
    (h : r.Follows (as, n) (c.arrivals, c.size)) (hlimit : limit ≠ some 0) (hc : c.AtHand) :
    ∃ r' p, Machine.sliceStep offset limit (r, c) = (r', p) ∧ p.AtHand ∧
      r'.Follows (as.slice offset limit, n) (p.arrivals, p.size) := by
  cases r with
  | item x =>
    obtain ⟨rfl, hn⟩ := h
    cases offset with
    | zero => exact ⟨_, _, rfl, hc, Arrivals.slice_zero_cons hlimit _ _, hn⟩
    | succ k => exact ⟨_, _, rfl, hc, Arrivals.slice_succ_cons k limit _ _, hn⟩
  | failure e =>
    obtain ⟨rfl, hn⟩ := h
    cases offset with
    | zero => exact ⟨_, _, rfl, hc, Arrivals.slice_zero_cons hlimit _ _, hn⟩
    | succ k => exact ⟨_, _, rfl, hc, Arrivals.slice_succ_cons k limit _ _, hn⟩
  | done =>
    obtain rfl := h
    exact ⟨_, _, rfl, hc, Arrivals.slice_nil offset limit⟩
  | progress =>
    obtain ⟨rfl, hn⟩ := h
    exact ⟨_, _, rfl, hc, rfl, hn⟩
  | wait => exact h.elim

mutual

/-- Pulling what is at hand changes nothing else and gives what arrives next. -/
theorem Cursor.stepCursor_atHand (depth : Nat) (me : Waker) : ∀ {c : Cursor α}, c.AtHand →
    ∃ r c', stepCursor depth me c = (pure (r, c') : Action α _) ∧ c'.AtHand ∧
      r.Follows (c.arrivals, c.size) (c'.arrivals, c'.size)
  | .empty, _ => ⟨.done, .empty, by rw [stepCursor], trivial, rfl⟩
  | .closed, _ => ⟨.done, .closed, by rw [stepCursor], trivial, rfl⟩
  | .buffered [], _ => ⟨.done, .buffered [], by rw [stepCursor], trivial, rfl⟩
  | .buffered (x :: xs), _ =>
    ⟨.item x, .buffered xs, by rw [stepCursor], trivial, rfl, by simp [Cursor.size]⟩
  | .pipe source, h => by
    obtain ⟨r, p, hstep, hp, hr⟩ := Pipe.stepPipe_atHand depth me (p := source) h
    exact ⟨r, .pipe p, by rw [stepCursor, hstep]; rfl, hp, hr⟩

theorem Pipe.stepPipe_atHand (depth : Nat) (me : Waker) : ∀ {p : Pipe α}, p.AtHand →
    ∃ r p', stepPipe depth me p = (pure (r, p') : Action α _) ∧ p'.AtHand ∧
      r.Follows (p.arrivals, p.size) (p'.arrivals, p'.size)
  | .outcomes [], _ => ⟨.done, .outcomes [], by rw [stepPipe], trivial, rfl⟩
  | .outcomes (.ok x :: rest), _ =>
    ⟨.item x, .outcomes rest, by rw [stepPipe], trivial, rfl, by simp [Pipe.size]⟩
  | .outcomes (.error e :: rest), _ =>
    ⟨.failure e, .outcomes rest, by rw [stepPipe], trivial, rfl, by simp [Pipe.size]⟩
  | .map f source, h => by
    obtain ⟨r, p, hstep, hp, hr⟩ := Pipe.stepPipe_atHand depth me (p := source) h
    obtain ⟨r', heq, hr'⟩ := hr.onPipe p (.map f) (fun x => .item (f x))
      (F := Arrivals.map f) rfl (fun _ _ => rfl) fun x _ hn => ⟨rfl, hn⟩
    exact ⟨r', .map f p, by rw [stepPipe, hstep, pure_bind, heq], hp, hr'⟩
  | .filter keep source, h => by
    obtain ⟨r, p, hstep, hp, hr⟩ := Pipe.stepPipe_atHand depth me (p := source) h
    have item (x : α) (as : Arrivals α) (k k' : Nat) (hk : k' < k) :
        (if keep x then .item x else .progress : Pulled α).Follows
          (Arrivals.filter keep (.ok x :: as), k) (as.filter keep, k') := by
      cases hx : keep x <;> simp [Pulled.Follows, Arrivals.filter, hx, hk]
    obtain ⟨r', heq, hr'⟩ := hr.onPipe p (.filter keep) _
      (F := Arrivals.filter keep) rfl (fun _ _ => rfl) fun x _ hn => item x _ _ _ hn
    exact ⟨r', .filter keep p, by rw [stepPipe, hstep, pure_bind, heq], hp, hr'⟩
  | .distinct seen source, h => by
    obtain ⟨r, p, hstep, hp, hr⟩ := Pipe.stepPipe_atHand depth me (p := source) h
    rw [stepPipe, hstep, pure_bind]
    by_cases hitem : ∃ x, r = .item x
    · obtain ⟨x, rfl⟩ := hitem
      obtain ⟨has, hn⟩ := hr
      cases hx : seen.contains x with
      | true =>
        refine ⟨.progress, .distinct seen p, by simp only [hx, if_true], hp, ?_, hn⟩
        rw [Pipe.arrivals, has, Arrivals.distinct, hx]
        rfl
      | false =>
        refine ⟨.item x, .distinct (x :: seen) p, by simp only [hx]; rfl, hp, ?_, hn⟩
        rw [Pipe.arrivals, has, Arrivals.distinct, hx]
        rfl
    · obtain ⟨r', heq, hr'⟩ := hr.onPipe p (.distinct seen) .item
        (F := Arrivals.distinct seen) rfl (fun _ _ => rfl) fun x hx => absurd ⟨x, hx⟩ hitem
      refine ⟨r', .distinct seen p, ?_, hp, hr'⟩
      cases r
      case item x => exact absurd ⟨x, rfl⟩ hitem
      all_goals exact congrArg pure heq
  | .slice offset limit source, h => by
    obtain ⟨r, c, hstep, hc, hr⟩ := Cursor.stepCursor_atHand depth me (c := source) h
    rw [stepPipe]
    split
    · refine ⟨.done, .slice offset limit source, rfl, h, ?_⟩
      simp_all [Pulled.Follows, Pipe.arrivals, Arrivals.slice]
    · obtain ⟨r', p, heq, hp, hr'⟩ := hr.sliceStep offset ‹_› hc
      exact ⟨r', p, by rw [hstep, pure_bind, heq], hp, hr'⟩

end

end Pulling

/-! ### Opening feeds at hand -/

section Opening

theorem Cursor.atHand_ofList (xs : List α) : (Cursor.ofList xs).AtHand := by
  cases xs <;> trivial

theorem Arrivals.eq_ofList {as : Arrivals α} (h : as.failure? = none) : as = .ofList as.items := by
  induction as with
  | nil => rfl
  | cons a as ih =>
    cases a with
    | ok x => exact congrArg (.ok x :: ·) (ih h)
    | error e => cases h

variable [BEq α]

theorem Cursor.arrivals_ofList (xs : List α) : (Cursor.ofList xs).arrivals = .ofList xs := by
  cases xs <;> rfl

/-- Leaving out repetitions at once is leaving them out one by one. -/
theorem Arrivals.distinct_ofList_loop (seen xs : List α) :
    ∃ ys, Arrivals.distinct seen (.ofList xs) = .ofList ys ∧
      List.eraseDupsBy.loop (· == ·) xs seen = seen.reverse ++ ys := by
  induction xs generalizing seen with
  | nil => exact ⟨[], rfl, by simp [List.eraseDupsBy.loop]⟩
  | cons x xs ih =>
    have hany : seen.any (fun y => x == y) = seen.contains x := List.contains_eq_any_beq.symm
    rw [List.eraseDupsBy.loop, Arrivals.ofList, List.map_cons, Arrivals.distinct]
    cases hx : seen.contains x with
    | true =>
      obtain ⟨ys, hys, hloop⟩ := ih seen
      refine ⟨ys, ?_, by simpa [hany, hx] using hloop⟩
      rw [if_pos rfl]
      exact hys
    | false =>
      obtain ⟨ys, hys, hloop⟩ := ih (x :: seen)
      refine ⟨x :: ys, ?_, by simpa [hany, hx] using hloop⟩
      rw [if_neg Bool.false_ne_true]
      exact congrArg (List.cons (.ok x)) hys

theorem Arrivals.distinct_nil_ofList (xs : List α) :
    Arrivals.distinct [] (.ofList xs) = .ofList xs.eraseDups := by
  obtain ⟨ys, hys, hloop⟩ := Arrivals.distinct_ofList_loop [] xs
  rw [hys, List.eraseDups, List.eraseDupsBy, hloop]
  rfl

namespace Cursor.AtHand

variable {c : Cursor α}

theorem map (h : c.AtHand) (f : α → α) :
    (c.map f).AtHand ∧ (c.map f).arrivals = c.arrivals.map f := by
  cases c with
  | buffered xs =>
    refine ⟨Cursor.atHand_ofList _, (Cursor.arrivals_ofList _).trans ?_⟩
    rw [Cursor.arrivals, Arrivals.map_ofList]
  | pipe source => exact ⟨h, rfl⟩
  | _ => exact ⟨trivial, rfl⟩

theorem filter (h : c.AtHand) (keep : α → Bool) :
    (c.filter keep).AtHand ∧ (c.filter keep).arrivals = c.arrivals.filter keep := by
  cases c with
  | buffered xs =>
    refine ⟨Cursor.atHand_ofList _, (Cursor.arrivals_ofList _).trans ?_⟩
    rw [Cursor.arrivals, Arrivals.filter_ofList]
  | pipe source => exact ⟨h, rfl⟩
  | _ => exact ⟨trivial, rfl⟩

theorem distinct (h : c.AtHand) :
    c.distinct.AtHand ∧ c.distinct.arrivals = c.arrivals.distinct [] := by
  cases c with
  | buffered xs =>
    refine ⟨Cursor.atHand_ofList _, (Cursor.arrivals_ofList _).trans ?_⟩
    exact (Arrivals.distinct_nil_ofList xs).symm
  | pipe source => exact ⟨h, rfl⟩
  | _ => exact ⟨trivial, rfl⟩

end Cursor.AtHand

/-- A feed at hand is opened without starting anything. -/
theorem Feed.openFeed_atHand (answers : Answers) : ∀ {f : Feed α}, f.AtHand →
    ∃ c, openFeed f = (pure c : Action α _) ∧ c.AtHand ∧ c.arrivals = f.arrivals answers
  | .rows xs, _ => ⟨.ofList xs, by rw [openFeed], Cursor.atHand_ofList xs, by
      rw [Cursor.arrivals_ofList, Feed.arrivals]⟩
  | .outcomes as, _ => ⟨.pipe (.outcomes as), by rw [openFeed], trivial, by
      rw [Cursor.arrivals, Pipe.arrivals, Feed.arrivals]⟩
  | .map f source, h => by
    obtain ⟨c, hopen, hc, harr⟩ := Feed.openFeed_atHand answers (f := source) h
    rw [Feed.arrivals, ← harr]
    exact ⟨c.map f, by rw [openFeed, hopen]; rfl, hc.map f⟩
  | .filter keep source, h => by
    obtain ⟨c, hopen, hc, harr⟩ := Feed.openFeed_atHand answers (f := source) h
    rw [Feed.arrivals, ← harr]
    exact ⟨c.filter keep, by rw [openFeed, hopen]; rfl, hc.filter keep⟩
  | .distinct source, h => by
    obtain ⟨c, hopen, hc, harr⟩ := Feed.openFeed_atHand answers (f := source) h
    rw [Feed.arrivals, ← harr]
    exact ⟨c.distinct, by rw [openFeed, hopen]; rfl, hc.distinct⟩
  | .slice offset limit source, h => by
    obtain ⟨c, hopen, hc, harr⟩ := Feed.openFeed_atHand answers (f := source) h
    rw [Feed.arrivals, ← harr]
    exact ⟨c.slice offset limit, by rw [openFeed, hopen]; rfl, hc, rfl⟩

/-- No failure arrives from a feed at hand. -/
theorem Feed.AtHand.arrivals_eq_ofList (answers : Answers) : ∀ {f : Feed α}, f.AtHand →
    ∃ xs, f.arrivals answers = .ofList xs
  | .rows xs, _ => ⟨xs, by rw [Feed.arrivals]⟩
  | .outcomes as, h => ⟨Arrivals.items as, by rw [Feed.arrivals]; exact Arrivals.eq_ofList h⟩
  | .map f source, h => by
    obtain ⟨xs, hxs⟩ := Feed.AtHand.arrivals_eq_ofList answers (f := source) h
    exact ⟨xs.map f, by rw [Feed.arrivals, hxs, Arrivals.map_ofList]⟩
  | .filter keep source, h => by
    obtain ⟨xs, hxs⟩ := Feed.AtHand.arrivals_eq_ofList answers (f := source) h
    exact ⟨xs.filter keep, by rw [Feed.arrivals, hxs, Arrivals.filter_ofList]⟩
  | .distinct source, h => by
    obtain ⟨xs, hxs⟩ := Feed.AtHand.arrivals_eq_ofList answers (f := source) h
    exact ⟨xs.eraseDups, by rw [Feed.arrivals, hxs, Arrivals.distinct_nil_ofList]⟩
  | .slice offset limit source, h => by
    obtain ⟨xs, hxs⟩ := Feed.AtHand.arrivals_eq_ofList answers (f := source) h
    cases limit with
    | none =>
      exact ⟨xs.drop offset, by simp [Feed.arrivals, hxs, Arrivals.ofList, Arrivals.slice]⟩
    | some n =>
      exact ⟨(xs.drop offset).take n, by
        simp [Feed.arrivals, hxs, Arrivals.ofList, Arrivals.slice]⟩

end Opening

/-! ### Programs that work alone -/

/-- A program has no other tasks run, and its result is at hand. -/
def Work.Alone : Work α → Prop
  | .done feed => feed.AtHand
  | .fail _ => True
  | .panic => True
  | .sleep _ next => next.Alone
  | .request _ _ next => ∀ answer, (next answer).Alone
  | .repair _ next => next.Alone
  | .check next => next.Alone
  | .gather _ _ => False

/-- How many steps a program takes at most. -/
def Work.size (answers : Answers) : Work α → Nat
  | .sleep _ next => next.size answers + 2
  | .request endpoint r next => (next (answers endpoint r)).size answers + 2
  | .repair _ next => next.size answers + 1
  | .check next => next.size answers + 1
  | _ => 0
termination_by structural w => w

namespace Run

/-- A program that has got somewhere works alone. -/
def Alone : Run α → Prop
  | .ready next => next.Alone
  | .sleeping _ next => next.Alone
  | .awaiting _ _ _ next => ∀ answer, (next answer).Alone
  | .gathering _ _ => False

/-- Nothing runs for a program that works alone. -/
theorem Alone.held_eq_nil : ∀ {run : Run α}, run.Alone → run.held = []
  | .ready _, _ => rfl
  | .sleeping _ _, _ => rfl
  | .awaiting _ _ _ _, _ => rfl

/-- What a program that has got somewhere ends in. -/
def ending [DecidableEq α] (answers : Answers) : Run α → Except (Option FedError) (Feed α)
  | .ready next => next.ending answers
  | .sleeping _ next => next.ending answers
  | .awaiting _ endpoint r next => (next (answers endpoint r)).ending answers
  | .gathering _ _ => .error none

/-- How many steps there are left at most. -/
def size (answers : Answers) : Run α → Nat
  | .ready next => next.size answers
  | .sleeping _ next => next.size answers + 1
  | .awaiting _ endpoint r next => (next (answers endpoint r)).size answers + 1
  | .gathering _ _ => 0

/-- Until when nothing goes on. -/
def due? : Run α → Option Nat
  | .sleeping due _ => some due
  | .awaiting due _ _ _ => some due
  | _ => none

/-- What a step of a program comes to, in a scene. -/
def Follows [DecidableEq α] (s : Scene α) (run : Run α) : Ran α → Prop
  | .done c => ∃ feed, run.ending s.answers = .ok feed ∧ feed.AtHand ∧ c.AtHand ∧
      c.arrivals = feed.arrivals s.answers
  | .failed e => run.ending s.answers = .error (some e)
  | .panicked => run.ending s.answers = .error none
  | .progress next => next.Alone ∧ next.ending s.answers = run.ending s.answers ∧
      next.size s.answers < run.size s.answers
  | .wait next => next.Alone ∧ next.ending s.answers = run.ending s.answers ∧
      (next.size s.answers < run.size s.answers ∨
        next = run ∧ ∃ due, run.due? = some due ∧ s.now < due)

end Run

/-! ### Members that are asked -/

namespace Registry

theorem answers_update (r : Registry) (id : String) {f : Member → Member}
    (hid : ∀ m, (f m).id = m.id) (hf : ∀ m q, (f m).answer q = m.answer q) :
    (r.update id f).answers = r.answers := by
  funext endpoint q
  rw [answers, answers, Selection.known?_update r id hid]
  cases r.known? endpoint with
  | none => rfl
  | some m =>
    show (if m.id == id then f m else m).answer q = m.answer q
    split
    · exact hf m q
    · rfl

/-- Counting a request does not change what is answered. -/
theorem answers_receive (r : Registry) (id : String) (q : Request) :
    (r.update id (·.receive q)).answers = r.answers :=
  answers_update r id (fun m => by cases q <;> rfl) fun m => Selection.answer_receive m q

/-- A repair does not change what is answered. -/
theorem answers_repair (r : Registry) (id : String) : (r.repair id).2.answers = r.answers := by
  unfold repair
  split
  · rfl
  · dsimp only
    split
    · exact answers_update _ id (fun _ => rfl) fun _ q => by cases q <;> rfl
    · rfl

end Registry

namespace Scene

variable {s : Scene α}

/-- No deadline has passed. -/
def InTime (s : Scene α) : Prop := ∀ deadline, s.deadline = some deadline → s.now < deadline

theorem isExpired_eq_false {m : Machine α} (hm : m.Shows s) (ht : s.InTime) :
    m.query.isExpired m.now = false := by
  rw [QueryContext.isExpired, hm.deadline, hm.now]
  cases h : s.deadline with
  | none => rfl
  | some d => simpa using ht d h

/-- A query that goes on passes every check. -/
theorem checkActive_eq_ok {m : Machine α} (hm : m.Shows s) (hc : s.cancelled = false)
    (ht : s.InTime) : m.query.checkActive m.now = .ok () := by
  simp [QueryContext.checkActive, QueryContext.checkAborted, QueryContext.checkTimeout,
    hm.aborted_eq_false hc, isExpired_eq_false hm ht]
  rfl

/-- A request is counted, and that is not to be seen. -/
theorem gives_receive (id : String) (q : Request) :
    s.Gives (modify fun m : Machine α =>
      { m with registry := m.registry.update id (·.receive q) }) () s :=
  Gives.of_modify fun m hm =>
    { hm with answers := (m.registry.answers_receive id q).trans hm.answers }

theorem gives_repair (id : String) :
    s.Gives (modify fun m : Machine α => { m with registry := (m.registry.repair id).2 }) () s :=
  Gives.of_modify fun m hm => { hm with answers := (m.registry.answers_repair id).trans hm.answers }

variable [DecidableEq α]

/-- **A step of a program that works alone.**  It gets on or has to wait, and changes nothing else;
what the program ends in is certain from the start. -/
theorem leads_stepRun (depth t : Nat) {run : Run α} (halone : run.Alone) (hc : s.cancelled = false)
    (ht : s.InTime) : s.Leads (stepRun depth (.thread t) run) fun ran s' =>
      s' = s ∧ run.Follows s ran := by
  cases run with
  | ready w =>
    rw [stepRun]
    cases w with
    | done feed =>
      obtain ⟨c, hopen, hc, harr⟩ := Feed.openFeed_atHand s.answers (f := feed) halone
      rw [stepWork, hopen]
      exact Leads.of_pure ⟨rfl, feed, rfl, halone, hc, harr⟩
    | fail e => exact Leads.of_pure ⟨rfl, rfl⟩
    | panic => exact Leads.of_pure ⟨rfl, rfl⟩
    | sleep ms next =>
      refine Leads.of_get fun m hm => ?_
      dsimp only
      split
      · exact Leads.of_pure ⟨rfl, halone, rfl, by simp [Run.size, Work.size]⟩
      · refine (gives_wakeAt s _ _).bind (Leads.of_pure ⟨rfl, halone, rfl, .inl ?_⟩)
        simp [Run.size, Work.size]
    | request endpoint q next =>
      refine Leads.of_get fun m hm => ?_
      cases hknown : m.registry.known? endpoint with
      | none =>
        have hanswer : s.answers endpoint q = .error (.endpoint (.unknownEndpoint endpoint)) := by
          rw [← hm.answers, Registry.answers, hknown]
        refine Leads.of_pure ⟨rfl, halone _, ?_, ?_⟩
        · simp [Run.ending, Work.ending, hanswer]
        · simp [Run.size, Work.size, hanswer]
      | some member =>
        refine (gives_receive endpoint q).bind ?_
        dsimp only
        split
        · refine (gives_wakeAt s _ _).bind (Leads.of_pure ⟨rfl, halone, rfl, .inl ?_⟩)
          simp [Run.size, Work.size]
        · exact Leads.of_pure ⟨rfl, halone, rfl, by simp [Run.size, Work.size]⟩
    | repair endpoint next =>
      refine (gives_repair endpoint).bind (Leads.of_pure ⟨rfl, halone, rfl, ?_⟩)
      simp [Run.size, Work.size]
    | check next =>
      refine Leads.of_get fun m hm => ?_
      rw [checkActive_eq_ok hm hc ht]
      exact Leads.of_pure ⟨rfl, halone, rfl, by simp [Run.size, Work.size]⟩
    | gather parts next => exact halone.elim
  | sleeping due next =>
    rw [stepRun]
    refine Leads.of_get fun m hm => ?_
    rw [hm.now]
    split
    · exact Leads.of_pure ⟨rfl, halone, rfl, by simp [Run.size]⟩
    · exact Leads.of_pure ⟨rfl, halone, rfl, .inr ⟨rfl, due, rfl, by omega⟩⟩
  | awaiting due endpoint q next =>
    rw [stepRun]
    refine Leads.of_get fun m hm => ?_
    rw [hm.now]
    split
    · have hanswer : s.answers endpoint q = m.registry.answers endpoint q := by rw [hm.answers]
      rw [Registry.answers] at hanswer
      split <;> rename_i hknown <;> rw [hknown] at hanswer <;>
        exact Leads.of_pure ⟨rfl, halone _, by simp [Run.ending, hanswer],
          by simp [Run.size, hanswer]⟩
    · exact Leads.of_pure ⟨rfl, halone, rfl, .inr ⟨rfl, due, rfl, by omega⟩⟩
  | gathering parts next => exact halone.elim

end Scene

end FederatedSparql
