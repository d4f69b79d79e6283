import FederatedSparql.Proofs.Machine.AtHand
import FederatedSparql.Proofs.Machine.Frames

/-!
What cursors give, whatever happens while they are pulled.

Between two steps of a cursor other threads go on, and a cursor that waits is pulled again when
something has woken it (`Surroundings`).  A cursor gives some arrivals if it brings them in their
order and then ends, whatever its surroundings do (`Gives`).  What is done with a cursor does to its
arrivals what it does to a list of them.

* `Gives.map`, `Gives.filter`, `Gives.distinct`, `Gives.slice`: transformed cursors give the
  transformed arrivals.
* `InTurn.gives_chainAll`: cursors one after the other give what they give in turn.
-/

namespace FederatedSparql

open Machine

variable {α : Type}

/-- What may happen to a machine while a cursor is pulled. -/
structure Surroundings (α : Type) where
  /-- Between a step that got somewhere and the next one. -/
  meanwhile : Machine α → Machine α → Prop
  /-- Until one that waits is woken. -/
  waking : Machine α → Machine α → Prop
  /-- Nothing need happen in between. -/
  meanwhile_refl : ∀ m, meanwhile m m
  /-- Whoever waits is woken at last. -/
  waking_total : ∀ m, ∃ m', waking m m'

/-- A cursor gives some arrivals and then ends, whatever happens, and leaves a machine and what
remains of it as `Q` says. -/
inductive Gives [BEq α] (around : Surroundings α) (me : Waker)
    (Q : Machine α → Cursor α → Prop) : Machine α → Cursor α → Arrivals α → Prop
  | done {m : Machine α} {c c' : Cursor α} (pulled : value (pull me c) m = (.done, c'))
    (ends : Q (after (pull me c) m) c') : Gives around me Q m c []
  | item {m : Machine α} {c c' : Cursor α} {x : α} {as : Arrivals α}
    (pulled : value (pull me c) m = (.item x, c'))
    (goesOn : ∀ m', around.meanwhile (after (pull me c) m) m' → Gives around me Q m' c' as) :
    Gives around me Q m c (.ok x :: as)
  | failure {m : Machine α} {c c' : Cursor α} {e : FedError} {as : Arrivals α}
    (pulled : value (pull me c) m = (.failure e, c'))
    (goesOn : ∀ m', around.meanwhile (after (pull me c) m) m' → Gives around me Q m' c' as) :
    Gives around me Q m c (.error e :: as)
  | progress {m : Machine α} {c c' : Cursor α} {as : Arrivals α}
    (pulled : value (pull me c) m = (.progress, c'))
    (goesOn : ∀ m', around.meanwhile (after (pull me c) m) m' → Gives around me Q m' c' as) :
    Gives around me Q m c as
  | wait {m : Machine α} {c c' : Cursor α} {as : Arrivals α}
    (pulled : value (pull me c) m = (.wait, c'))
    (goesOn : ∀ m', around.waking (after (pull me c) m) m' → Gives around me Q m' c' as) :
    Gives around me Q m c as

section Giving

variable [BEq α] {around : Surroundings α} {me : Waker} {Q Q' : Machine α → Cursor α → Prop}
  {m : Machine α} {c : Cursor α} {as : Arrivals α}

theorem value_pull (m : Machine α) (me : Waker) (c : Cursor α) :
    value (pull me c) m = value (stepCursor m.executors.size me c) m := rfl

theorem after_pull (m : Machine α) (me : Waker) (c : Cursor α) :
    after (pull me c) m = after (stepCursor m.executors.size me c) m := rfl

theorem value_pull_pipe (m : Machine α) (me : Waker) (p : Pipe α) :
    value (pull me (.pipe p)) m =
      Prod.map id Cursor.pipe (value (stepPipe m.executors.size me p) m) := by
  rw [value_pull, stepCursor]
  rfl

theorem after_pull_pipe (m : Machine α) (me : Waker) (p : Pipe α) :
    after (pull me (.pipe p)) m = after (stepPipe m.executors.size me p) m := by
  rw [after_pull, stepCursor]
  rfl

/-- What is pulled through a pipe comes from the pipe. -/
theorem exists_of_value_pull_pipe {r : Pulled α} {p : Pipe α} {c' : Cursor α}
    (h : value (pull me (.pipe p)) m = (r, c')) :
    ∃ p', c' = .pipe p' ∧ value (stepPipe m.executors.size me p) m = (r, p') := by
  rw [value_pull_pipe] at h
  obtain ⟨hr, hc⟩ := Prod.mk.inj h
  exact ⟨_, hc.symm, Prod.ext hr rfl⟩

/-- A cursor may leave less than it does. -/
theorem Gives.imp (h : Gives around me Q m c as) (hQ : ∀ m c, Q m c → Q' m c) :
    Gives around me Q' m c as := by
  induction h with
  | done pulled ends => exact .done pulled (hQ _ _ ends)
  | item pulled _ ih => exact .item pulled ih
  | failure pulled _ ih => exact .failure pulled ih
  | progress pulled _ ih => exact .progress pulled ih
  | wait pulled _ ih => exact .wait pulled ih

/-- **What is at hand is given**, whatever happens. -/
theorem Cursor.AtHand.gives (hQ : ∀ m c, c.AtHand → Q m c) (m : Machine α) :
    ∀ {c : Cursor α}, c.AtHand → Gives around me Q m c c.arrivals := by
  suffices all : ∀ n (m : Machine α) (c : Cursor α), c.size < n → c.AtHand →
      Gives around me Q m c c.arrivals from
    fun {c} hc => all (c.size + 1) m c (Nat.lt_succ_self _) hc
  intro n
  induction n with
  | zero => exact fun _ _ h => absurd h (Nat.not_lt_zero _)
  | succ n ih =>
    intro m c hn hc
    obtain ⟨r, c', hstep, hc', follows⟩ := Cursor.stepCursor_atHand m.executors.size me hc
    have pulled : value (pull me c) m = (r, c') := by
      rw [value_pull, hstep]
      rfl
    cases r with
    | item x =>
      obtain ⟨harr, hsize⟩ := follows
      rw [harr]
      exact .item pulled fun m' _ => ih m' c' (by omega) hc'
    | failure e =>
      obtain ⟨harr, hsize⟩ := follows
      rw [harr]
      exact .failure pulled fun m' _ => ih m' c' (by omega) hc'
    | done =>
      rw [show c.arrivals = [] from follows]
      exact .done pulled (hQ _ _ hc')
    | progress =>
      obtain ⟨harr, hsize⟩ := follows
      rw [harr]
      exact .progress pulled fun m' _ => ih m' c' (by omega) hc'
    | wait => exact follows.elim

/-- Of what is at hand nothing else is given. -/
theorem Gives.eq_arrivals (h : Gives around me Q m c as) (hc : c.AtHand) : as = c.arrivals := by
  induction h with
  | @done m c _ pulled _ =>
    obtain ⟨r, c', hstep, -, follows⟩ := Cursor.stepCursor_atHand m.executors.size me hc
    rw [value_pull, hstep] at pulled
    cases pulled
    exact follows.symm
  | @item m c _ _ _ pulled _ ih =>
    obtain ⟨r, c', hstep, hc', follows⟩ := Cursor.stepCursor_atHand m.executors.size me hc
    rw [value_pull, hstep] at pulled
    cases pulled
    rw [follows.1, ih _ (around.meanwhile_refl _) hc']
  | @failure m c _ _ _ pulled _ ih =>
    obtain ⟨r, c', hstep, hc', follows⟩ := Cursor.stepCursor_atHand m.executors.size me hc
    rw [value_pull, hstep] at pulled
    cases pulled
    rw [follows.1, ih _ (around.meanwhile_refl _) hc']
  | @progress m c _ _ pulled _ ih =>
    obtain ⟨r, c', hstep, hc', follows⟩ := Cursor.stepCursor_atHand m.executors.size me hc
    rw [value_pull, hstep] at pulled
    cases pulled
    rw [follows.1, ih _ (around.meanwhile_refl _) hc']
  | @wait m c _ _ pulled _ _ =>
    obtain ⟨r, c', hstep, -, follows⟩ := Cursor.stepCursor_atHand m.executors.size me hc
    rw [value_pull, hstep] at pulled
    cases pulled
    exact follows.elim

/-- A cursor that gives something comes to its end. -/
theorem Gives.exists_end (h : Gives around me Q m c as) : ∃ m' c', Q m' c' := by
  induction h with
  | done _ ends => exact ⟨_, _, ends⟩
  | item _ _ ih => exact ih _ (around.meanwhile_refl _)
  | failure _ _ ih => exact ih _ (around.meanwhile_refl _)
  | progress _ _ ih => exact ih _ (around.meanwhile_refl _)
  | wait _ _ ih =>
    obtain ⟨m', hm'⟩ := around.waking_total _
    exact ih m' hm'

end Giving

/-! ### Items that are passed one by one -/

section Passing

variable {σ : Type}

/-- One step of a pipe that passes items one by one, or not, given the step of its source. -/
def passStep (wrap : σ → Pipe α → Pipe α) (onItem : σ → α → Option α × σ) (s : σ) :
    Pulled α × Pipe α → Pulled α × Pipe α
  | (.item x, p) =>
    (match (onItem s x).1 with
      | some y => .item y
      | none => .progress, wrap (onItem s x).2 p)
  | (r, p) => (r, wrap s p)

/-- What arrives behind a pipe that passes items one by one. -/
def Arrivals.passed (onItem : σ → α → Option α × σ) (s : σ) : Arrivals α → Arrivals α
  | [] => []
  | .error e :: as => .error e :: passed onItem s as
  | .ok x :: as => ((onItem s x).1.toList.map .ok) ++ passed onItem (onItem s x).2 as

theorem Arrivals.passed_map (f : α → α) (as : Arrivals α) :
    as.passed (fun _ x => (some (f x), ())) () = as.map f := by
  induction as with
  | nil => rfl
  | cons a as ih =>
    cases a with
    | ok x => exact congrArg (.ok (f x) :: ·) ih
    | error e => exact congrArg (.error e :: ·) ih

theorem Arrivals.passed_filter (keep : α → Bool) (as : Arrivals α) :
    as.passed (fun _ x => (if keep x then some x else none, ())) () = as.filter keep := by
  induction as with
  | nil => rfl
  | cons a as ih =>
    cases a with
    | ok x => cases hx : keep x <;> simp [Arrivals.passed, Arrivals.filter, hx, ih]
    | error e => exact congrArg (.error e :: ·) ih

variable [BEq α]

/-- A kind of pipe passes items one by one. -/
def Passes (wrap : σ → Pipe α → Pipe α) (onItem : σ → α → Option α × σ) : Prop :=
  ∀ (depth : Nat) (me : Waker) (s : σ) (p : Pipe α), stepPipe depth me (wrap s p) =
    (do return passStep wrap onItem s (← stepPipe depth me p) : Action α _)

variable {around : Surroundings α} {me : Waker} {Q : Machine α → Cursor α → Prop} {m : Machine α}
  {as : Arrivals α} {p : Pipe α} {wrap : σ → Pipe α → Pipe α} {onItem : σ → α → Option α × σ}

theorem Passes.value_pull (h : Passes wrap onItem) (s : σ) {r : Pulled α} {c' : Cursor α}
    (pulled : value (pull me (.pipe p)) m = (r, c')) : ∃ p', c' = .pipe p' ∧
      value (pull me (.pipe (wrap s p))) m =
        Prod.map id Cursor.pipe (passStep wrap onItem s (r, p')) := by
  obtain ⟨p', rfl, stepped⟩ := exists_of_value_pull_pipe pulled
  refine ⟨p', rfl, ?_⟩
  rw [value_pull_pipe, h, ← stepped]
  rfl

theorem Passes.after_pull (h : Passes wrap onItem) (s : σ) (m : Machine α) :
    after (pull me (.pipe (wrap s p))) m = after (pull me (.pipe p)) m := by
  rw [after_pull_pipe, after_pull_pipe, h]
  rfl

/-- **A pipe that passes items one by one gives what it passes of what its source gives**, and all
failures. -/
theorem Gives.passed (hw : Passes wrap onItem) (s : σ) (h : Gives around me Q m (.pipe p) as) :
    Gives around me (fun _ _ => True) m (.pipe (wrap s p)) (as.passed onItem s) := by
  generalize hc : Cursor.pipe p = c at h
  induction h generalizing s p with
  | done pulled _ =>
    subst hc
    obtain ⟨p', rfl, pulled'⟩ := hw.value_pull s pulled
    exact .done pulled' trivial
  | @item m c c' x as pulled _ ih =>
    subst hc
    obtain ⟨p', rfl, pulled'⟩ := hw.value_pull s pulled
    have goesOn : ∀ m', around.meanwhile (after (pull me (.pipe (wrap s p))) m) m' →
        Gives around me (fun _ _ => True) m' (.pipe (wrap (onItem s x).2 p'))
          (as.passed onItem (onItem s x).2) := by
      rw [hw.after_pull]
      exact fun m' hm' => ih m' hm' _ rfl
    rw [Arrivals.passed]
    rw [passStep] at pulled'
    cases hx : (onItem s x).1 with
    | none =>
      rw [hx] at pulled'
      exact .progress pulled' goesOn
    | some y =>
      rw [hx] at pulled'
      exact .item pulled' goesOn
  | failure pulled _ ih =>
    subst hc
    obtain ⟨p', rfl, pulled'⟩ := hw.value_pull s pulled
    refine .failure pulled' ?_
    rw [hw.after_pull]
    exact fun m' hm' => ih m' hm' s rfl
  | progress pulled _ ih =>
    subst hc
    obtain ⟨p', rfl, pulled'⟩ := hw.value_pull s pulled
    refine .progress pulled' ?_
    rw [hw.after_pull]
    exact fun m' hm' => ih m' hm' s rfl
  | wait pulled _ ih =>
    subst hc
    obtain ⟨p', rfl, pulled'⟩ := hw.value_pull s pulled
    refine .wait pulled' ?_
    rw [hw.after_pull]
    exact fun m' hm' => ih m' hm' s rfl

theorem passes_map (f : α → α) :
    Passes (fun (_ : Unit) => Pipe.map f) fun _ x => (some (f x), ()) := by
  intro depth me s p
  rw [stepPipe]
  congr 1
  funext r
  obtain ⟨r, p⟩ := r
  cases r <;> rfl

theorem passes_filter (keep : α → Bool) :
    Passes (fun (_ : Unit) => Pipe.filter keep)
      fun _ x => (if keep x then some x else none, ()) := by
  intro depth me s p
  rw [stepPipe]
  congr 1
  funext r
  obtain ⟨r, p⟩ := r
  cases r with
  | item x => cases hx : keep x <;> simp [onPipe, passStep, hx]
  | _ => rfl

theorem passes_distinct : Passes (α := α) Pipe.distinct
    fun seen x => if seen.contains x then (none, seen) else (some x, x :: seen) := by
  intro depth me seen p
  rw [stepPipe]
  congr 1
  funext r
  obtain ⟨r, p⟩ := r
  cases r with
  | item x =>
    by_cases hx : seen.contains x = true
    · simp [passStep, hx]
    · simp [passStep, hx]
  | _ => rfl

theorem Arrivals.passed_distinct (seen : List α) (as : Arrivals α) :
    as.passed (fun seen x => if seen.contains x then (none, seen) else (some x, x :: seen)) seen =
      as.distinct seen := by
  induction as generalizing seen with
  | nil => rfl
  | cons a as ih =>
    cases a with
    | ok x =>
      by_cases hx : seen.contains x = true
      · rw [Arrivals.passed, Arrivals.distinct, if_pos hx, if_pos hx, ih]
        rfl
      · rw [Arrivals.passed, Arrivals.distinct, if_neg hx, if_neg hx, ih]
        rfl
    | error e => exact congrArg (.error e :: ·) (ih seen)

end Passing

/-! ### Transformed cursors -/

section Transformed

variable [BEq α] {around : Surroundings α} {me : Waker} {Q : Machine α → Cursor α → Prop}
  {m : Machine α} {c : Cursor α} {as : Arrivals α}

/-- Where nothing is pulled, what is at hand is transformed at once. -/
theorem Gives.of_atHand {c' : Cursor α} {as' : Arrivals α} (hc' : c'.AtHand ∧ c'.arrivals = as') :
    Gives around me (fun _ _ => True) m c' as' := by
  rw [← hc'.2]
  exact hc'.1.gives (fun _ _ _ => trivial) m

theorem Gives.map (h : Gives around me Q m c as) (f : α → α) :
    Gives around me (fun _ _ => True) m (c.map f) (as.map f) := by
  by_cases hc : c.AtHand
  · rw [h.eq_arrivals hc]
    exact .of_atHand (hc.map f)
  · cases c with
    | pipe p =>
      rw [← Arrivals.passed_map]
      exact h.passed (passes_map f) ()
    | _ => exact absurd trivial hc

theorem Gives.filter (h : Gives around me Q m c as) (keep : α → Bool) :
    Gives around me (fun _ _ => True) m (c.filter keep) (as.filter keep) := by
  by_cases hc : c.AtHand
  · rw [h.eq_arrivals hc]
    exact .of_atHand (hc.filter keep)
  · cases c with
    | pipe p =>
      rw [← Arrivals.passed_filter]
      exact h.passed (passes_filter keep) ()
    | _ => exact absurd trivial hc

theorem Gives.distinct (h : Gives around me Q m c as) :
    Gives around me (fun _ _ => True) m c.distinct (as.distinct []) := by
  by_cases hc : c.AtHand
  · rw [h.eq_arrivals hc]
    exact .of_atHand hc.distinct
  · cases c with
    | pipe p =>
      rw [← Arrivals.passed_distinct]
      exact h.passed passes_distinct []
    | _ => exact absurd trivial hc

theorem Gives.slice_some_zero (m : Machine α) (c : Cursor α) (offset : Nat) :
    Gives around me (fun _ _ => True) m (c.slice offset (some 0)) [] := by
  have pulled : value (pull me (c.slice offset (some 0))) m = (.done, c.slice offset (some 0)) := by
    rw [Cursor.slice, value_pull_pipe, stepPipe, if_pos rfl]
    rfl
  exact .done pulled trivial

theorem value_pull_slice {limit : Option Nat} (hl : limit ≠ some 0) (offset : Nat)
    {r : Pulled α} {c' : Cursor α} (pulled : value (pull me c) m = (r, c')) :
    value (pull me (c.slice offset limit)) m =
      Prod.map id Cursor.pipe (sliceStep offset limit (r, c')) := by
  rw [Cursor.slice, value_pull_pipe, stepPipe, if_neg hl, ← pulled]
  rfl

theorem after_pull_slice {limit : Option Nat} (hl : limit ≠ some 0) (offset : Nat) :
    after (pull me (c.slice offset limit)) m = after (pull me c) m := by
  rw [Cursor.slice, after_pull_pipe, stepPipe, if_neg hl]
  rfl

/-- **An offset and a limit count whatever arrives**, failures too. -/
theorem Gives.slice (h : Gives around me Q m c as) (offset : Nat) (limit : Option Nat) :
    Gives around me (fun _ _ => True) m (c.slice offset limit) (as.slice offset limit) := by
  induction h generalizing offset limit with
  | done pulled _ =>
    rw [Arrivals.slice_nil]
    by_cases hl : limit = some 0
    · rw [hl]
      exact .slice_some_zero ..
    · exact .done (value_pull_slice hl offset pulled) trivial
  | item pulled _ ih =>
    by_cases hl : limit = some 0
    · rw [hl, Arrivals.slice_some_zero]
      exact .slice_some_zero ..
    · have pulled' := value_pull_slice hl offset pulled
      rw [← after_pull_slice hl offset] at ih
      cases offset with
      | zero =>
        rw [Arrivals.slice_zero_cons hl]
        exact .item pulled' fun m' hm' => ih m' hm' 0 _
      | succ k =>
        rw [Arrivals.slice_succ_cons]
        exact .progress pulled' fun m' hm' => ih m' hm' k limit
  | failure pulled _ ih =>
    by_cases hl : limit = some 0
    · rw [hl, Arrivals.slice_some_zero]
      exact .slice_some_zero ..
    · have pulled' := value_pull_slice hl offset pulled
      rw [← after_pull_slice hl offset] at ih
      cases offset with
      | zero =>
        rw [Arrivals.slice_zero_cons hl]
        exact .failure pulled' fun m' hm' => ih m' hm' 0 _
      | succ k =>
        rw [Arrivals.slice_succ_cons]
        exact .progress pulled' fun m' hm' => ih m' hm' k limit
  | progress pulled _ ih =>
    by_cases hl : limit = some 0
    · rw [hl, Arrivals.slice_some_zero]
      exact .slice_some_zero ..
    · refine .progress (value_pull_slice hl offset pulled) ?_
      rw [after_pull_slice hl]
      exact fun m' hm' => ih m' hm' offset limit
  | wait pulled _ ih =>
    by_cases hl : limit = some 0
    · rw [hl, Arrivals.slice_some_zero]
      exact .slice_some_zero ..
    · refine .wait (value_pull_slice hl offset pulled) ?_
      rw [after_pull_slice hl]
      exact fun m' hm' => ih m' hm' offset limit

end Transformed

/-! ### One cursor after the other -/

/-- Cursors give some items each, one after the other, and leave a machine as `K` says.  A cursor
that has come to its end is given up. -/
def InTurn [BEq α] (around : Surroundings α) (me : Waker) (K : Machine α → Prop) :
    List (Cursor α × List α) → Machine α → Prop
  | [], m => K m
  | (c, xs) :: rest, m =>
    Gives around me (fun m' c' => ∀ m'', around.meanwhile (after (discard c') m') m'' →
      InTurn around me K rest m'') m c (.ofList xs)

section Chained

variable [BEq α] {around : Surroundings α} {me : Waker} {Q : Machine α → Cursor α → Prop}
  {K : Machine α → Prop} {m : Machine α} {c : Cursor α} {as bs : Arrivals α}
  {rest : List (Cursor α)} {before : List (Cursor α × List α)}

theorem pull_chain {r : Pulled α} {c' : Cursor α} (hr : r ≠ .done)
    (pulled : value (pull me c) m = (r, c')) (rest : List (Cursor α)) :
    value (pull me (.pipe (.chain (c :: rest)))) m = (r, .pipe (.chain (c' :: rest))) ∧
      after (pull me (.pipe (.chain (c :: rest)))) m = after (pull me c) m := by
  rw [value_pull] at pulled
  rw [value_pull_pipe, after_pull_pipe, after_pull, stepPipe, after_bind, value_bind, pulled]
  cases r with
  | done => exact absurd rfl hr
  | _ => exact ⟨rfl, rfl⟩

theorem pull_chain_done {c' : Cursor α} (pulled : value (pull me c) m = (.done, c'))
    (rest : List (Cursor α)) :
    value (pull me (.pipe (.chain (c :: rest)))) m = (.progress, .pipe (.chain rest)) ∧
      after (pull me (.pipe (.chain (c :: rest)))) m =
        after (discard c') (after (pull me c) m) := by
  rw [value_pull] at pulled
  rw [value_pull_pipe, after_pull_pipe, after_pull, stepPipe, after_bind, value_bind, pulled]
  exact ⟨rfl, rfl⟩

theorem gives_chain_nil (m : Machine α) :
    Gives around me (fun _ _ => True) m (.pipe (.chain [])) [] := by
  have pulled : value (pull me (.pipe (.chain []))) m = (.done, .pipe (.chain [])) := by
    rw [value_pull_pipe, stepPipe]
    rfl
  exact .done pulled trivial

/-- The first cursor is pulled until its end. -/
theorem Gives.chain_cons (h : Gives around me Q m c as)
    (hQ : ∀ m c', Q m c' → ∀ m', around.meanwhile (after (discard c') m) m' →
      Gives around me (fun _ _ => True) m' (.pipe (.chain rest)) bs) :
    Gives around me (fun _ _ => True) m (.pipe (.chain (c :: rest))) (as ++ bs) := by
  induction h with
  | done pulled ends =>
    obtain ⟨pulled', after'⟩ := pull_chain_done pulled rest
    refine .progress pulled' ?_
    rw [after']
    exact hQ _ _ ends
  | item pulled _ ih =>
    obtain ⟨pulled', after'⟩ := pull_chain (by simp) pulled rest
    rw [← after'] at ih
    exact .item pulled' ih
  | failure pulled _ ih =>
    obtain ⟨pulled', after'⟩ := pull_chain (by simp) pulled rest
    rw [← after'] at ih
    exact .failure pulled' ih
  | progress pulled _ ih =>
    obtain ⟨pulled', after'⟩ := pull_chain (by simp) pulled rest
    rw [← after'] at ih
    exact .progress pulled' ih
  | wait pulled _ ih =>
    obtain ⟨pulled', after'⟩ := pull_chain (by simp) pulled rest
    rw [← after'] at ih
    exact .wait pulled' ih

theorem InTurn.imp {K' : Machine α → Prop} (h : InTurn around me K before m)
    (hK : ∀ m, K m → K' m) : InTurn around me K' before m := by
  induction before generalizing m with
  | nil => exact hK m h
  | cons b before ih => exact Gives.imp h fun m c hm m' hm' => ih (hm m' hm')

theorem inTurn_append (before' : List (Cursor α × List α)) :
    InTurn around me K (before ++ before') m ↔
      InTurn around me (InTurn around me K before') before m := by
  induction before generalizing m with
  | nil => rfl
  | cons b before ih =>
    constructor
    · exact fun h => Gives.imp h fun m c hm m' hm' => ih.1 (hm m' hm')
    · exact fun h => Gives.imp h fun m c hm m' hm' => ih.2 (hm m' hm')

/-- What is at hand is given in turn. -/
theorem inTurn_of_atHand (hbefore : ∀ b ∈ before, b.1.AtHand ∧ b.1.arrivals = .ofList b.2)
    (hK : ∀ m, K m) (m : Machine α) : InTurn around me K before m := by
  induction before generalizing m with
  | nil => exact hK m
  | cons b before ih =>
    obtain ⟨hb, rows⟩ := hbefore b List.mem_cons_self
    have later : ∀ m, InTurn around me K before m :=
      ih fun b hb => hbefore b (List.mem_cons_of_mem _ hb)
    have given : Gives around me (fun m' c' => ∀ m'',
        around.meanwhile (after (discard c') m') m'' → InTurn around me K before m'') m b.1
        b.1.arrivals :=
      hb.gives (fun _ _ _ m _ => later m) m
    rwa [rows] at given

/-- Cursors that give something in turn come to an end. -/
theorem InTurn.exists_end (h : InTurn around me K before m) : ∃ m', K m' := by
  induction before generalizing m with
  | nil => exact ⟨m, h⟩
  | cons b before ih =>
    obtain ⟨m', c', hm'⟩ := Gives.exists_end h
    exact ih (hm' _ (around.meanwhile_refl _))

/-- A cursor without items ends at once and leaves nothing to be given up. -/
theorem pull_of_isKnownEmpty (me : Waker) (hc : c.isKnownEmpty = true) (m : Machine α) :
    value (pull me c) m = (.done, c) ∧ after (pull me c) m = m ∧ after (discard c) m = m := by
  rw [value_pull, after_pull]
  cases c with
  | pipe p => cases hc
  | empty =>
    rw [stepCursor]
    exact ⟨rfl, rfl, rfl⟩
  | closed =>
    rw [stepCursor]
    exact ⟨rfl, rfl, rfl⟩
  | buffered xs =>
    obtain rfl := List.isEmpty_iff.1 hc
    rw [stepCursor]
    exact ⟨rfl, rfl, rfl⟩

theorem Gives.of_isKnownEmpty (h : Gives around me Q m c as) (hc : c.isKnownEmpty = true) :
    as = [] ∧ Q m c := by
  obtain ⟨pulled', after', -⟩ := pull_of_isKnownEmpty me hc m
  cases h with
  | done pulled ends =>
    rw [pulled'] at pulled
    cases pulled
    rw [after'] at ends
    exact ⟨rfl, ends⟩
  | item pulled =>
    rw [pulled'] at pulled
    cases pulled
  | failure pulled =>
    rw [pulled'] at pulled
    cases pulled
  | progress pulled =>
    rw [pulled'] at pulled
    cases pulled
  | wait pulled =>
    rw [pulled'] at pulled
    cases pulled

/-- Cursors without items may be left out. -/
theorem InTurn.live (h : InTurn around me K before m) :
    InTurn around me K (before.filter fun b => !b.1.isKnownEmpty) m ∧
      (before.filter fun b => !b.1.isKnownEmpty).flatMap (·.2) = before.flatMap (·.2) := by
  induction before generalizing m with
  | nil => exact ⟨h, rfl⟩
  | cons b before ih =>
    obtain ⟨c, xs⟩ := b
    cases hc : c.isKnownEmpty with
    | true =>
      obtain ⟨nothing, ends⟩ := Gives.of_isKnownEmpty h hc
      obtain ⟨-, -, discarded⟩ := pull_of_isKnownEmpty me hc m
      rw [discarded] at ends
      obtain rfl := List.map_eq_nil_iff.1 nothing
      simpa [hc] using ih (ends m (around.meanwhile_refl m))
    | false =>
      obtain ⟨m', c', hm'⟩ := Gives.exists_end h
      obtain ⟨-, rows⟩ := ih (hm' _ (around.meanwhile_refl _))
      simp only [List.filter_cons, hc, Bool.not_false, if_true, List.flatMap_cons, rows, and_true]
      exact Gives.imp h fun m c hm m' hm' => (ih (hm m' hm')).1

/-- **Cursors that are chained give what they give in turn.** -/
theorem InTurn.gives_chain (h : InTurn around me K before m)
    (hK : ∀ m, K m → Gives around me (fun _ _ => True) m (.pipe (.chain rest)) as) :
    Gives around me (fun _ _ => True) m (.pipe (.chain (before.map (·.1) ++ rest)))
      (.ofList (before.flatMap (·.2)) ++ as) := by
  induction before generalizing m with
  | nil => exact hK m h
  | cons b before ih =>
    rw [List.flatMap_cons, Arrivals.ofList, List.map_append, List.append_assoc]
    exact Gives.chain_cons h fun m c hm m' hm' => ih (hm m' hm')

theorem InTurn.gives_chainAll
    (h : InTurn around me (fun m => Gives around me (fun _ _ => True) m c as) before m) :
    Gives around me (fun _ _ => True) m (.chainAll (before.map (·.1) ++ [c]))
      (.ofList (before.flatMap (·.2)) ++ as) := by
  obtain ⟨hlive, rows⟩ := h.live
  have live : (before.map (·.1)).filter (fun c => !c.isKnownEmpty) =
      (before.filter fun b => !b.1.isKnownEmpty).map (·.1) := List.filter_map
  rw [Cursor.chainAll, List.filter_append, live, ← rows]
  generalize before.filter (fun b => !b.1.isKnownEmpty) = before at hlive
  cases hc : c.isKnownEmpty with
  | true =>
    obtain ⟨m', hm'⟩ := hlive.exists_end
    obtain ⟨rfl, -⟩ := Gives.of_isKnownEmpty hm' hc
    rw [List.filter_cons_of_neg (by simp [hc]), List.filter_nil, List.append_nil, List.append_nil]
    match before with
    | [] => exact .of_atHand ⟨trivial, rfl⟩
    | [b] =>
      rw [List.flatMap_singleton]
      exact Gives.imp hlive fun _ _ _ => trivial
    | b :: b' :: behind =>
      have chained := hlive.gives_chain fun m _ => gives_chain_nil m
      rwa [List.append_nil, List.append_nil] at chained
  | false =>
    rw [List.filter_cons_of_pos (by simp [hc]), List.filter_nil]
    have chained := hlive.gives_chain fun m hm => by
      have last := Gives.chain_cons hm fun _ _ _ m' _ => gives_chain_nil m'
      rwa [List.append_nil] at last
    match before with
    | [] => exact hlive
    | [b] => exact chained
    | b :: b' :: behind => exact chained

end Chained

end FederatedSparql
