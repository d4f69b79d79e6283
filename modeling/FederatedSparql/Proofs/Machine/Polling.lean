import FederatedSparql.Proofs.Machine.Closing
import FederatedSparql.Proofs.Machine.Giving
import FederatedSparql.Proofs.Machine.TurnFrames

/-!
What the polls of a query come to.

A query hands on what its cursor gives until that fails or ends, the deadline comes, or the query is
closed.  What the cursor gives of itself is seen in a run in which nobody minds any of this
(`Site.stepBare`): the same moves happen, but at each poll the cursor is just pulled.

* `Site.answers_eq_guarded`: the polls come to what `guarded` makes of what the cursor gives then.
* `Site.cursor_delivers_orderly`: they bring the first rows of the cursor, then one failure at most
  and then nothing; no row comes once the deadline has come; and a query that has finished is
  cancelled.
-/

namespace FederatedSparql

open Machine

variable {α : Type}

/-! ### Answers -/

namespace Pulled

/-- What a step of a cursor brings. -/
def arrival? : Pulled α → Option (Except FedError α)
  | .item x => some (.ok x)
  | .failure e => some (.error e)
  | _ => none

/-- Whether a query is over when a poll comes to this. -/
def isLast : Pulled α → Bool
  | .failure _ => true
  | .done => true
  | _ => false

/-- What several steps bring. -/
def arrivals (rs : List (Pulled α)) : Arrivals α := rs.filterMap arrival?

end Pulled

/-- What the poll of a query comes to, given the step of its cursor: nothing comes of the cursor once
the deadline has come. -/
def QueryContext.answer (query : QueryContext) (now : Nat) (inner : Pulled α) : Pulled α :=
  if query.isExpired now then .failure (.timeout (.deadlineExceeded query.id)) else inner

/-- What is done with the cursor of a query. -/
inductive Visit (α : Type) where
  /-- It is polled at some time, when its next step would come to this. -/
  | poll (now : Nat) (inner : Pulled α)
  | close

/-- What the polls of a query come to. -/
def guarded (query : QueryContext) : Bool → List (Visit α) → List (Pulled α)
  | _, [] => []
  | _, .close :: visits => guarded query true visits
  | true, .poll _ _ :: visits => .done :: guarded query true visits
  | false, .poll now inner :: visits =>
    let answer := query.answer now inner
    answer :: guarded query answer.isLast visits

/-- What the steps of a cursor come to. -/
def unguarded (visits : List (Visit α)) : List (Pulled α) :=
  visits.filterMap fun
    | .poll _ inner => some inner
    | .close => none

/-- Nothing comes of a query that has finished. -/
theorem arrivals_guarded_true (query : QueryContext) (visits : List (Visit α)) :
    Pulled.arrivals (guarded query true visits) = [] := by
  induction visits with
  | nil => rfl
  | cons visit visits ih => cases visit <;> exact ih

/-- **A query brings the first rows of its cursor, and then one failure at most.** -/
theorem arrivals_guarded (query : QueryContext) (visits : List (Visit α)) :
    ∃ (rows : List α) (failure? : Option FedError),
      Pulled.arrivals (guarded query false visits) =
          Arrivals.ofList rows ++ failure?.toList.map .error ∧
        rows <+: (Pulled.arrivals (unguarded visits)).items := by
  induction visits with
  | nil => exact ⟨[], none, rfl, List.nil_prefix⟩
  | cons visit visits ih =>
    cases visit with
    | close => exact ⟨[], none, arrivals_guarded_true query visits, List.nil_prefix⟩
    | poll now inner =>
      by_cases hexpired : query.isExpired now = true
      · have hanswer : query.answer now inner =
            .failure (.timeout (.deadlineExceeded query.id)) := if_pos hexpired
        refine ⟨[], some (.timeout (.deadlineExceeded query.id)), ?_, List.nil_prefix⟩
        rw [guarded, hanswer]
        exact congrArg (_ :: ·) (arrivals_guarded_true query visits)
      · have hanswer : query.answer now inner = inner := if_neg hexpired
        rw [guarded, hanswer]
        obtain ⟨rows, failure?, harrivals, hprefix⟩ := ih
        cases inner with
        | item row =>
          refine ⟨row :: rows, failure?, congrArg (Except.ok row :: ·) harrivals, ?_⟩
          exact (List.prefix_cons_inj row).mpr hprefix
        | failure e =>
          exact ⟨[], some e, congrArg (_ :: ·) (arrivals_guarded_true query visits),
            List.nil_prefix⟩
        | done => exact ⟨[], none, arrivals_guarded_true query visits, List.nil_prefix⟩
        | progress => exact ⟨rows, failure?, harrivals, hprefix⟩
        | wait => exact ⟨rows, failure?, harrivals, hprefix⟩

/-! ### One poll -/

section Polling

variable {m : Machine Bindings} {c : Cursor Bindings}

/-- A cursor that is not closed is not closed by pulling it. -/
theorem pull_ne_closed (me : Waker) (hopen : c ≠ .closed) :
    (value (pull me c) m).2 ≠ .closed := by
  rw [value_pull]
  cases c with
  | empty => rw [stepCursor]; exact nofun
  | buffered rows => cases rows <;> rw [stepCursor] <;> exact nofun
  | pipe source => rw [stepCursor]; exact nofun
  | closed => exact absurd rfl hopen

theorem cancelled_close (m : Machine Bindings) (c : Cursor Bindings) :
    (after (Federation.close c) m).query.cancelled = true :=
  (leaves_wakeWorkingFor (fun _ => true) _).cancelled rfl

/-- At the deadline a poll aborts the query and closes it. -/
theorem stepQuery_of_expired (hopen : c ≠ .closed) (hexpired : m.query.isExpired m.now = true) :
    (Federation.stepQuery c).run m = ((.failure (.timeout (.deadlineExceeded m.query.id)), .closed),
      after (do abortQuery; Federation.close c) m) := by
  have hchecked : m.query.checkTimeout m.now =
      .error (.timeout (.deadlineExceeded m.query.id)) := if_pos hexpired
  cases c with
  | closed => exact absurd rfl hopen
  | _ =>
    rw [Federation.stepQuery, run_get_bind]
    dsimp only
    rw [hchecked]
    rfl

/-- Before the deadline a poll pulls the cursor, and closes the query if nothing follows. -/
theorem stepQuery_of_live (hopen : c ≠ .closed) (hlive : ¬ m.query.isExpired m.now = true) :
    (Federation.stepQuery c).run m =
      let (r, c') := value (pull .main c) m
      if r.isLast then ((r, .closed), after (Federation.close c') (after (pull .main c) m))
      else ((r, c'), after (pull .main c) m) := by
  have hchecked : m.query.checkTimeout m.now = .ok () := if_neg hlive
  cases c with
  | closed => exact absurd rfl hopen
  | _ =>
    rw [Federation.stepQuery, run_get_bind]
    dsimp only
    rw [hchecked]
    dsimp only
    rw [run_bind]
    rcases value (pull .main _) m with ⟨r, c'⟩
    cases r <;> rfl

/-- What a poll does while its query has not finished: it answers; and if nothing follows, the cursor
is closed and the query cancelled, and else there is nothing to it but pulling the cursor. -/
structure Polled (c : Cursor Bindings) (m : Machine Bindings) : Prop where
  answer : (value (Federation.stepQuery c) m).1 = m.query.answer m.now (value (pull .main c) m).1
  last : (value (Federation.stepQuery c) m).1.isLast = true →
    (value (Federation.stepQuery c) m).2 = .closed ∧
      (after (Federation.stepQuery c) m).query.cancelled = true
  goesOn : (value (Federation.stepQuery c) m).1.isLast = false →
    (value (Federation.stepQuery c) m).2 = (value (pull .main c) m).2 ∧
      after (Federation.stepQuery c) m = after (pull .main c) m

theorem polled_of_open (hopen : c ≠ .closed) (m : Machine Bindings) : Polled c m := by
  by_cases hexpired : m.query.isExpired m.now = true
  · have hpolled := stepQuery_of_expired hopen hexpired
    have hvalue : value (Federation.stepQuery c) m =
        (.failure (.timeout (.deadlineExceeded m.query.id)), .closed) := congrArg Prod.fst hpolled
    have hafter : after (Federation.stepQuery c) m =
        after (do abortQuery; Federation.close c) m := congrArg Prod.snd hpolled
    constructor
    · rw [hvalue, QueryContext.answer, if_pos hexpired]
    · intro _
      rw [hvalue, hafter]
      exact ⟨rfl, cancelled_close _ c⟩
    · rw [hvalue]
      exact nofun
  · have hpolled := stepQuery_of_live hopen hexpired
    rcases hpull : value (pull .main c) m with ⟨r, c'⟩
    simp only [hpull] at hpolled
    cases hlast : r.isLast with
    | true =>
      rw [if_pos hlast] at hpolled
      have hvalue : value (Federation.stepQuery c) m = (r, .closed) := congrArg Prod.fst hpolled
      have hafter : after (Federation.stepQuery c) m =
          after (Federation.close c') (after (pull .main c) m) := congrArg Prod.snd hpolled
      constructor
      · rw [hvalue, hpull, QueryContext.answer, if_neg hexpired]
      · intro _
        rw [hvalue, hafter]
        exact ⟨rfl, cancelled_close _ c'⟩
      · rw [hvalue]
        exact fun h => absurd (hlast.symm.trans h) nofun
    | false =>
      rw [if_neg (by rw [hlast]; exact Bool.false_ne_true)] at hpolled
      have hvalue : value (Federation.stepQuery c) m = (r, c') := congrArg Prod.fst hpolled
      have hafter := congrArg Prod.snd hpolled
      change after (Federation.stepQuery c) m = after (pull .main c) m at hafter
      constructor
      · rw [hvalue, hpull, QueryContext.answer, if_neg hexpired]
      · rw [hvalue]
        exact fun h => absurd (hlast.symm.trans h) nofun
      · intro _
        rw [hvalue, hafter, hpull]
        exact ⟨rfl, rfl⟩

end Polling

/-! ### Who asks, and until when -/

namespace QueryContext

variable {q q' q'' : QueryContext}

theorem Alike.trans (h : q.Alike q') (h' : q'.Alike q'') : q.Alike q'' where
  id := h'.id.trans h.id
  deadline := h'.deadline.trans h.deadline

theorem Alike.answer (h : q.Alike q') (now : Nat) (inner : Pulled α) :
    q'.answer now inner = q.answer now inner := by
  rw [QueryContext.answer, QueryContext.answer, isExpired, isExpired, h.id, h.deadline]

theorem alike_register {branch : Option Nat} {task : Nat}
    (h : q.register branch = .ok (task, q')) : q.Alike q' := by
  rw [register_eq] at h
  split at h
  · cases h
  · cases h
    exact ⟨rfl, rfl⟩

end QueryContext

namespace Machine

/-- The query is the same one, with the same deadline. -/
def SameQuery (m m' : Machine α) : Prop := m.query.Alike m'.query

theorem SameQuery.of_eq {m m' : Machine α} (h : m'.query = m.query) : SameQuery m m' := by
  rw [SameQuery, h]
  exact ⟨rfl, rfl⟩

theorem SameQuery.trans {m m' m'' : Machine α} (h : SameQuery m m') (h' : SameQuery m' m'') :
    SameQuery m m'' := QueryContext.Alike.trans h h'

theorem sameQuery_wake (w : Waker) : Keeps SameQuery (wake w : Action α Unit) := by
  intro m
  cases w with
  | main => exact .of_eq rfl
  | thread t =>
    apply SameQuery.of_eq
    show (if m.ready.contains t then m else { m with ready := m.ready ++ [t] }).query = m.query
    split <;> rfl

theorem sameQuery_spawn (a : Activity α) : Keeps SameQuery (spawn a) :=
  fun m => sameQuery_wake (.thread m.threads.size)
    { m with threads := m.threads.push { activity := a } }

theorem sameQuery_updateCrew (p : PoolName) (f : Crew α → Crew α) :
    Keeps SameQuery (updateCrew p f) := by
  intro m
  cases p <;> exact .of_eq rfl

theorem sameQuery_schedule (p : PoolName) (id : Nat) (name : String) (work : Work α) :
    Keeps SameQuery (schedule p id name work) := by
  intro m
  rw [schedule, after_get_bind]
  split
  · exact .of_eq rfl
  · exact .of_eq rfl
  · split
    · exact .of_eq rfl
    · next task query hregister =>
      have hadded : SameQuery m (after (updateExecutor id Executor.addTask) { m with query }) :=
        QueryContext.alike_register hregister
      have hgiven : SameQuery m (after (updateCrew p fun c => { c with
          pool := c.pool.countScheduled
          jobs := c.jobs ++ [{ executor := id, task, name, work }] }) _) :=
        hadded.trans (sameQuery_updateCrew p _ _)
      cases (m.crew p).line.head? with
      | none => exact hgiven
      | some t => exact hgiven.trans (sameQuery_wake (.thread t) _)

/-- **Nothing changes which query it is and when it has to be answered.** -/
theorem turnFrame_sameQuery (u : Nat) : TurnFrame (α := α) SameQuery u fun _ => True where
  refl _ := .of_eq rfl
  trans := .trans
  wake := sameQuery_wake
  doom t m := sameQuery_wake (.thread t)
    { m with threads := m.threads.modify t fun th => { th with doomed := true } }
  cancelBranch _ _ := ⟨rfl, rfl⟩
  close _ _ := .of_eq rfl
  wakeAt _ _ _ := .of_eq rfl
  registry _ _ := .of_eq rfl
  addExecutor _ _ := ⟨rfl, rfl⟩
  spawn _ _ := sameQuery_spawn _
  update _ _ _ _ := .of_eq rfl
  take _ _ := .of_eq rfl
  query _ hf m := hf m.query
  updateExecutor _ _ _ := .of_eq rfl
  updateCrew p f _ := sameQuery_updateCrew p f
  schedule := sameQuery_schedule
  become _ _ _ := .of_eq rfl
  takeJob _ _ := sameQuery_updateCrew _ _ _

theorem sameQuery_startPool (p : PoolName) : Keeps SameQuery (startPool p : Action α Unit) := by
  have hR := turnFrame_sameQuery (α := α) 0
  apply Frame.keeps_get
  intro m
  dsimp only
  split
  · exact hR.keeps_pure _
  · exact hR.bind (sameQuery_updateCrew p _) fun _ => hR.bind (hR.keeps_forIn _ fun _ =>
      hR.bind (sameQuery_spawn _) fun _ => hR.bind (sameQuery_updateCrew p _) fun _ =>
        hR.keeps_pure _) fun _ => hR.keeps_pure _

theorem sameQuery_stopIntake (p : PoolName) : Keeps SameQuery (stopIntake p : Action α _) := by
  have hR := turnFrame_sameQuery (α := α) 0
  exact Frame.keeps_get fun _ => hR.bind (sameQuery_updateCrew p _) fun _ =>
    hR.bind (hR.keeps_wakeThread? _) fun _ => hR.keeps_pure _

end Machine

/-! ### The run of a query -/

namespace Site

/-- What the next poll of a query comes to. -/
def answer (s : Site) (q : Nat) : Pulled Bindings :=
  (value (Federation.stepQuery (s.cursor q)) (s.seen q)).1

/-- What a move comes to if it polls a query. -/
def answer? (s : Site) (q : Nat) : Move → Option (Pulled Bindings)
  | .poll q' => if q' = q then some (s.answer q) else none
  | _ => none

/-- What the polls of a query come to in a run. -/
def answers (s : Site) (q : Nat) : List Move → List (Pulled Bindings)
  | [] => []
  | move :: moves => (s.answer? q move).toList ++ (s.step move).answers q moves

/-- Whether a query has finished: it has been closed, or nothing was to follow a poll. -/
def Finished (s : Site) (q : Nat) (moves : List Move) : Prop :=
  .close q ∈ moves ∨ ∃ r ∈ s.answers q moves, r.isLast = true

/-- What a move is for the cursor of a query. -/
def visit? (s : Site) (q : Nat) : Move → Option (Visit Bindings)
  | .poll q' =>
    if q' = q then
      some (.poll s.machine.now (value (pull .main (s.cursor q)) (s.seen q)).1)
    else none
  | .close q' => if q' = q then some .close else none
  | _ => none

/-- What a move makes of a site when nobody minds the deadline of a query, its failures and its end:
a poll just pulls its cursor, which is never closed. -/
def stepBare (s : Site) (q : Nat) : Move → Site
  | .poll q' =>
    if q' = q then
      { s.act q (pull .main (s.cursor q)) with
        cursor := Function.update s.cursor q (value (pull .main (s.cursor q)) (s.seen q)).2 }
    else s.step (.poll q')
  | .close q' => if q' = q then s else s.step (.close q')
  | move => s.step move

/-- What is done with the cursor of a query in a run in which nobody minds. -/
def visits (s : Site) (q : Nat) : List Move → List (Visit Bindings)
  | [] => []
  | move :: moves => (s.visit? q move).toList ++ (s.stepBare q move).visits q moves

section Runs

variable {s : Site} {q : Nat} {move : Move}

/-- A move polls a query, closes it, or does nothing with its cursor. -/
inductive Concerns (q : Nat) : Move → Prop
  | poll : Concerns q (.poll q)
  | close : Concerns q (.close q)
  | other {move : Move} (close : move ≠ .close q) (answer : ∀ s, answer? s q move = none)
    (visit : ∀ s, visit? s q move = none) (bare : ∀ s, stepBare s q move = s.step move)
    (cursor : ∀ s : Site, (s.step move).cursor q = s.cursor q) : Concerns q move

theorem concerns (q : Nat) (move : Move) : Concerns q move := by
  cases move with
  | poll q' =>
    by_cases hq : q' = q
    · subst hq
      exact .poll
    · exact .other nofun (fun _ => if_neg hq) (fun _ => if_neg hq) (fun _ => if_neg hq)
        fun _ => Function.update_of_ne (Ne.symm hq) _ _
  | close q' =>
    by_cases hq : q' = q
    · subst hq
      exact .close
    · exact .other (by simpa using hq) (fun _ => rfl) (fun _ => if_neg hq) (fun _ => if_neg hq)
        fun _ => Function.update_of_ne (Ne.symm hq) _ _
  | giveUp p =>
    exact .other nofun (fun _ => rfl) (fun _ => rfl) (fun _ => rfl)
      fun _ => congrFun (cursor_finishJobs _ _) q
  | count id =>
    exact .other nofun (fun _ => rfl) (fun _ => rfl) (fun _ => rfl)
      fun s => congrFun (cursor_count s id) q
  | _ => exact .other nofun (fun _ => rfl) (fun _ => rfl) (fun _ => rfl) fun _ => rfl

/-! ### One move -/

theorem alike_act (s : Site) (q q' : Nat) {β : Type} {a : Machine.Action Bindings β}
    (ha : Keeps SameQuery a) : (s.context q).Alike ((s.act q' a).context q) := by
  by_cases hq : q = q'
  · subst hq
    have hkept := ha (s.seen q)
    rw [← seen_act] at hkept
    exact hkept
  · have hother : (s.act q' a).context q = s.context q := Function.update_of_ne hq _ _
    rw [hother]
    exact ⟨rfl, rfl⟩

theorem alike_finishJobs (jobs : List (Job Bindings)) (s : Site) (q : Nat) :
    (s.context q).Alike ((s.finishJobs jobs).context q) := by
  induction jobs generalizing s with
  | nil => exact ⟨rfl, rfl⟩
  | cons job jobs ih =>
    have hfinished := s.alike_act q (s.owner job.executor)
      ((turnFrame_sameQuery 0).keeps_finishJob job)
    exact hfinished.trans (ih (s.act (s.owner job.executor) (finishJob job)))

/-- **No move changes which query it is and when it has to be answered.** -/
theorem alike_step (s : Site) (q : Nat) (move : Move) :
    (s.context q).Alike ((s.step move).context q) := by
  have hR := turnFrame_sameQuery (α := Bindings) 0
  cases move with
  | thread t =>
    exact s.alike_act q (s.client t) fun m =>
      (turnFrame_sameQuery t).keeps_stepThread (fun _ => trivial) fun _ => trivial
  | poll q' => exact s.alike_act q q' (hR.keeps_stepQuery _)
  | close q' => exact s.alike_act q q' (hR.keeps_close _)
  | abort q' => exact s.alike_act q q' hR.keeps_abortQuery
  | deed q' d => exact s.alike_act q q' (d.keeps hR)
  | schedule p id name work => exact s.alike_act q _ (hR.schedule p id name work)
  | addResult id result => exact s.alike_act q _ (hR.keeps_addResult id result)
  | count id =>
    show (s.context q).Alike ((s.count id).context q)
    unfold count
    split
    · exact ⟨rfl, rfl⟩
    · split
      · exact ⟨rfl, rfl⟩
      · next task context hregister =>
        have hregistered := QueryContext.alike_register hregister
        show (s.context q).Alike (Function.update s.context (s.owner id) context q)
        by_cases hq : q = s.owner id
        · subst hq
          rwa [Function.update_self]
        · rw [Function.update_of_ne hq]
          exact ⟨rfl, rfl⟩
  | startPool p => exact s.alike_act q 0 (sameQuery_startPool p)
  | stopIntake p => exact s.alike_act q 0 (sameQuery_stopIntake p)
  | interrupt t => exact s.alike_act q 0 (hR.doom t)
  | giveUp p =>
    have hemptied := s.alike_act q 0 (sameQuery_updateCrew p fun c => { c with jobs := [] })
    exact hemptied.trans (alike_finishJobs _ _ q)
  | time ms => exact s.alike_act q 0 fun _ => .of_eq rfl

/-- A poll that something is to follow is nothing but a pull of the cursor. -/
theorem step_poll_of_goesOn (hopen : s.cursor q ≠ .closed) (hlast : (s.answer q).isLast = false) :
    s.step (.poll q) = s.stepBare q (.poll q) := by
  obtain ⟨hcursor, hafter⟩ := (polled_of_open hopen (s.seen q)).goesOn hlast
  simp only [step, stepBare, if_pos, act, hcursor, hafter]

theorem cursor_of_last (hopen : s.cursor q ≠ .closed) (hlast : (s.answer q).isLast = true) :
    (s.step (.poll q)).cursor q = .closed := by
  have hclosed := ((polled_of_open hopen (s.seen q)).last hlast).1
  simpa only [step, Function.update_self] using hclosed

theorem cursor_of_goesOn (hopen : s.cursor q ≠ .closed) (hlast : (s.answer q).isLast = false) :
    (s.step (.poll q)).cursor q ≠ .closed := by
  have hcursor := ((polled_of_open hopen (s.seen q)).goesOn hlast).1
  simp only [step, Function.update_self, hcursor]
  exact pull_ne_closed .main hopen

theorem answer_of_open (hopen : s.cursor q ≠ .closed) :
    s.answer q = (s.context q).answer s.machine.now (value (pull .main (s.cursor q)) (s.seen q)).1 :=
  (polled_of_open hopen (s.seen q)).answer

theorem answer_of_closed (hclosed : s.cursor q = .closed) : s.answer q = .done := by
  rw [answer, hclosed]
  rfl

/-! ### Runs -/

/-- A query whose cursor is closed has nothing to give, whatever a cursor would have. -/
theorem answers_of_closed (query : QueryContext) (hclosed : s.cursor q = .closed) (bare : Site)
    (moves : List Move) : s.answers q moves = guarded query true (bare.visits q moves) := by
  induction moves generalizing s bare with
  | nil => rfl
  | cons move moves ih =>
    have hlater := ih (cursor_step hclosed move) (bare.stepBare q move)
    rw [answers, visits, hlater]
    cases concerns q move with
    | poll =>
      rw [answer?, if_pos rfl, visit?, if_pos rfl, answer_of_closed hclosed]
      rfl
    | close =>
      rw [visit?, if_pos rfl]
      rfl
    | other close answer visit bare cursor =>
      rw [answer, visit]
      rfl

/-- **The polls of a query come to what its cursor gives, up to the end, the first failure, the
deadline or the moment when it is closed.** -/
theorem answers_eq_guarded (hopen : s.cursor q ≠ .closed) {query : QueryContext}
    (halike : query.Alike (s.context q)) (moves : List Move) :
    s.answers q moves = guarded query false (s.visits q moves) := by
  induction moves generalizing s with
  | nil => rfl
  | cons move moves ih =>
    have halike' : query.Alike ((s.step move).context q) := halike.trans (s.alike_step q move)
    rw [answers, visits]
    cases concerns q move with
    | poll =>
      have hanswer : s.answer q =
          query.answer s.machine.now (value (pull .main (s.cursor q)) (s.seen q)).1 := by
        rw [answer_of_open hopen, halike.answer]
      rw [answer?, if_pos rfl, visit?, if_pos rfl]
      show s.answer q :: _ = _ :: guarded query (query.answer _ _).isLast _
      rw [← hanswer]
      apply congrArg (s.answer q :: ·)
      cases hlast : (s.answer q).isLast with
      | true => exact answers_of_closed query (cursor_of_last hopen hlast) _ moves
      | false =>
        rw [← step_poll_of_goesOn hopen hlast]
        exact ih (cursor_of_goesOn hopen hlast) halike'
    | close =>
      rw [visit?, if_pos rfl]
      exact answers_of_closed query (Function.update_self _ _ _) _ moves
    | other close answer visit bare cursor =>
      rw [answer, visit, bare]
      exact ih (by rwa [cursor]) halike'

/-! ### Finishing -/

theorem not_finished_nil (s : Site) (q : Nat) : ¬ s.Finished q [] := by
  simp [Finished, answers]

theorem finished_cons (s : Site) (q : Nat) (move : Move) (moves : List Move) :
    s.Finished q (move :: moves) ↔
      move = .close q ∨ (∃ r ∈ s.answer? q move, r.isLast = true) ∨
        (s.step move).Finished q moves := by
  simp only [Finished, answers, List.mem_cons, List.mem_append, Option.mem_toList, or_and_right,
    exists_or]
  rw [or_assoc, eq_comm]
  exact or_congr_right or_left_comm

theorem run_cons (s : Site) (move : Move) (moves : List Move) :
    s.run (move :: moves) = (s.step move).run moves := rfl

/-- A query that has finished stays so: its cursor is closed, and it is cancelled. -/
theorem over_run (hclosed : s.cursor q = .closed) (hcancelled : (s.context q).cancelled = true)
    (moves : List Move) :
    (s.run moves).cursor q = .closed ∧ ((s.run moves).context q).cancelled = true :=
  ⟨cursor_run hclosed moves, (s.onward_run moves).cancelled q hcancelled⟩

/-- **A query has finished exactly when its cursor is closed, and then it is cancelled.** -/
theorem finished_or_open (hopen : s.cursor q ≠ .closed) (moves : List Move) :
    s.Finished q moves ∧ (s.run moves).cursor q = .closed ∧
        ((s.run moves).context q).cancelled = true ∨
      ¬ s.Finished q moves ∧ (s.run moves).cursor q ≠ .closed := by
  induction moves generalizing s with
  | nil => exact .inr ⟨s.not_finished_nil q, hopen⟩
  | cons move moves ih =>
    rw [finished_cons, run_cons]
    cases concerns q move with
    | poll =>
      have hanswer : s.answer? q (.poll q) = some (s.answer q) := if_pos rfl
      cases hlast : (s.answer q).isLast with
      | true =>
        have hcancelled : ((s.step (.poll q)).context q).cancelled = true := by
          have hover := ((polled_of_open hopen (s.seen q)).last hlast).2
          rwa [← seen_act] at hover
        exact .inl ⟨.inr (.inl ⟨_, hanswer, hlast⟩),
          over_run (cursor_of_last hopen hlast) hcancelled moves⟩
      | false => simpa [hanswer, hlast] using ih (cursor_of_goesOn hopen hlast)
    | close =>
      have hcancelled : ((s.step (.close q)).context q).cancelled = true := by
        have hover := cancelled_close (s.seen q) (s.cursor q)
        rwa [← seen_act] at hover
      exact .inl ⟨.inl rfl, over_run (Function.update_self _ _ _) hcancelled moves⟩
    | other close answer visit bare cursor =>
      simpa [close, answer] using ih (by rwa [cursor])

theorem alike_run (s : Site) (q : Nat) (moves : List Move) :
    (s.context q).Alike ((s.run moves).context q) := by
  induction moves generalizing s with
  | nil => exact ⟨rfl, rfl⟩
  | cons move moves ih => exact (s.alike_step q move).trans (ih (s.step move))

end Runs

end Site

end FederatedSparql
