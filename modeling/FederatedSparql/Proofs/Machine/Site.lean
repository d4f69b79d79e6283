import FederatedSparql.Engine.Federation
import FederatedSparql.Proofs.Machine.TurnEntries

/-!
Several queries that share the pools of one machine.

The machine runs the threads of all queries; each query has a context and a cursor of its own, and
every executor belongs to the query that started it.  Whoever acts, acts for one query: the machine
is then that of the query (`Site.seen`), and what becomes of its context is kept for it.  A thread
acts for the query that its executor belongs to.

A `Move` is one step of a thread, one poll of a query, or anything else that can happen, in any
order; `Site.run` is a run of such moves from a machine on which nothing has been done.
`Site.Acts` says what all moves have in common, in terms of what they enter in the books.
-/

namespace FederatedSparql

open Machine

/-! ### Sites and moves -/

/-- Queries that share a machine. -/
structure Site where
  machine : Machine Bindings
  context : Nat → QueryContext
  cursor : Nat → Cursor Bindings
  /-- The query that an executor belongs to. -/
  owner : Nat → Nat := fun _ => 0
  /-- How many tasks of an executor have been counted without a job. -/
  byHand : Nat → Nat := fun _ => 0
  /-- How many jobs of a pool were given up before their outcome was counted. -/
  lost : PoolName → Nat := fun _ => 0

/-- What a query does without regard to its jobs. -/
inductive Deed where
  | pull (me : Waker) (c : Cursor Bindings)
  | openFeed (f : Feed Bindings)
  | run (depth : Nat) (me : Waker) (r : Run Bindings)
  | discard (c : Cursor Bindings)
  | addExecutor (firstOnly : Bool)
  | endProduction (id : Nat)
  | toss (id : Nat) (e : FedError)
  | takeError (id : Nat)
  | dropReceiver (id : Nat)

/-- What is done. -/
def Deed.act : Deed → Machine.Action Bindings Unit
  | .pull me c => do let _ ← Machine.pull me c
  | .openFeed f => do let _ ← Machine.openFeed f
  | .run depth me r => do let _ ← Machine.stepRun depth me r
  | .discard c => Machine.discard c
  | .addExecutor firstOnly => do let _ ← Machine.addExecutor firstOnly
  | .endProduction id => Machine.endProduction id
  | .toss id e => Machine.toss id e
  | .takeError id => do let _ ← Machine.takeError id
  | .dropReceiver id => Machine.dropReceiver id

/-- What happens next. -/
inductive Move where
  /-- A thread takes a step. -/
  | thread (t : Nat)
  /-- The cursor of a query is polled once. -/
  | poll (q : Nat)
  /-- The cursor of a query is closed, or dropped. -/
  | close (q : Nat)
  | abort (q : Nat)
  | deed (q : Nat) (d : Deed)
  | schedule (p : PoolName) (id : Nat) (name : String) (work : Work Bindings)
  | addResult (id : Nat) (result : Cursor Bindings)
  /-- A task of an executor is registered and counted, but has no job. -/
  | count (id : Nat)
  | startPool (p : PoolName)
  | stopIntake (p : PoolName)
  /-- A thread is to end when its turn comes. -/
  | interrupt (t : Nat)
  /-- Jobs that nobody has taken are given up. -/
  | giveUp (p : PoolName)
  | time (ms : Nat)

/-- A query with one more task. -/
def QueryContext.added (q : QueryContext) (branch : Nat) : QueryContext :=
  { q with tasks := q.tasks.push { branch := some branch } }

namespace Site

/-- The machine as a query sees it. -/
def seen (s : Site) (q : Nat) : Machine Bindings := { s.machine with query := s.context q }

/-- Something is done for a query, which owns the executors that are started. -/
def act {β : Type} (s : Site) (q : Nat) (a : Machine.Action Bindings β) : Site :=
  let m := after a (s.seen q)
  { s with
    machine := m
    context := Function.update s.context q m.query
    owner := fun id => if id < s.machine.executors.size then s.owner id else q }

/-- The query that a thread works for. -/
def client (s : Site) (t : Nat) : Nat :=
  s.owner (((s.machine.activity? t).bind executorOf?).getD 0)

/-- The pool whose job is lost when it is the turn of a thread. -/
def losing? (s : Site) (t : Nat) : Option PoolName :=
  match s.machine.threads[t]? with
  | some ⟨.working p _ _, true⟩ => some p
  | _ => none

/-- A task that has no job has been registered and counted. -/
def counted (s : Site) (id : Nat) (context : QueryContext) : Site :=
  { s with
    machine := after (updateExecutor id Executor.addTask) s.machine
    context := Function.update s.context (s.owner id) context
    byHand := Function.update s.byHand id (s.byHand id + 1) }

/-- Counts a task that has no job, unless the query takes no more tasks. -/
def count (s : Site) (id : Nat) : Site :=
  match s.machine.executors[id]? with
  | none => s
  | some e =>
    match (s.context (s.owner id)).register (some e.branch) with
    | .error _ => s
    | .ok (_, context) => s.counted id context

/-- Notes of jobs that they are over, each for its query. -/
def finishJobs (s : Site) (jobs : List (Job Bindings)) : Site :=
  jobs.foldl (fun s job => s.act (s.owner job.executor) (finishJob job)) s

/-- What a move makes of a site. -/
def step (s : Site) : Move → Site
  | .thread t =>
    { s.act (s.client t) (stepThread t) with
      lost := fun p => s.lost p + if s.losing? t = some p then 1 else 0 }
  | .poll q =>
    { s.act q (Federation.stepQuery (s.cursor q)) with
      cursor :=
        Function.update s.cursor q (value (Federation.stepQuery (s.cursor q)) (s.seen q)).2 }
  | .close q =>
    { s.act q (Federation.close (s.cursor q)) with cursor := Function.update s.cursor q .closed }
  | .abort q => s.act q abortQuery
  | .deed q d => s.act q d.act
  | .schedule p id name work => s.act (s.owner id) (Machine.schedule p id name work)
  | .addResult id result => s.act (s.owner id) (Machine.addResult id result)
  | .count id => s.count id
  | .startPool p => s.act 0 (Machine.startPool p)
  | .stopIntake p => s.act 0 (Machine.stopIntake p)
  | .interrupt t => s.act 0 (doom t)
  | .giveUp p =>
    let jobs := (s.machine.crew p).jobs
    { (s.act 0 (updateCrew p fun c => { c with jobs := [] })).finishJobs jobs with
      lost := fun p' => s.lost p' + if p' = p then jobs.length else 0 }
  | .time ms => s.act 0 (modify fun m => { m with now := m.now + ms })

/-- A run of moves. -/
def run (s : Site) (moves : List Move) : Site := moves.foldl step s

/-- What queries are started with: a machine with two pools, and for each query what it is and what
its cursor is to give. -/
structure Opening where
  now : Nat := 0
  registry : Registry := {}
  joinWorkers : Nat
  unionWorkers : Nat
  text : Nat → String := fun _ => ""
  form : Nat → QueryForm := fun _ => .select
  timeout : Nat → Option Nat := fun _ => none
  cursor : Nat → Cursor Bindings

/-- Queries of which nothing has been heard yet. -/
def Opening.site (x : Opening) : Site where
  machine :=
    { now := x.now, registry := x.registry
      join := { pool := .create "join" x.joinWorkers }
      union := { pool := .create "union" x.unionWorkers } }
  context q := .start (x.text q) (x.form q) x.now (x.timeout q)
  cursor := x.cursor

/-! ### Acting for a query -/

/-- Something has been done for a query, which makes entries in the books. -/
structure Acts (s : Site) (q : Nat) (xs : List (Entry Bindings)) (s' : Site) : Prop where
  reaches : (s.seen q).Reaches ((s.seen q).books.enterAll xs) (s'.seen q)
  others : ∀ q' ≠ q, s'.context q' = s.context q'
  /-- Executors that have been started belong to the query. -/
  owner : ∀ id, s'.owner id = s.owner id ∨ s.machine.executors.size ≤ id ∧ s'.owner id = q
  byHand : s'.byHand = s.byHand

section Acting

variable {s : Site} {q : Nat} {xs : List (Entry Bindings)} {β : Type}
  {a : Machine.Action Bindings β}

theorem seen_act (s : Site) (q : Nat) (a : Machine.Action Bindings β) :
    (s.act q a).seen q = after a (s.seen q) := by
  simp [seen, act]

theorem acts_act (h : (s.seen q).Reaches ((s.seen q).books.enterAll xs) (after a (s.seen q))) :
    s.Acts q xs (s.act q a) where
  reaches := by rw [seen_act]; exact h
  others q' hq' := Function.update_of_ne hq' _ _
  owner id := by
    by_cases hid : id < s.machine.executors.size
    · exact .inl (if_pos hid)
    · exact .inr ⟨Nat.le_of_not_lt hid, if_neg hid⟩
  byHand := rfl

theorem acts_of_leaves (h : Leaves a) (s : Site) (q : Nat) : s.Acts q [] (s.act q a) :=
  acts_act (h _)

theorem Acts.refl (s : Site) (q : Nat) : s.Acts q [] s where
  reaches := Untouched.refl _
  others _ _ := rfl
  owner _ := .inl rfl
  byHand := rfl

end Acting

/-! ### What moves leave alone -/

end Site

theorem leaves_close (c : Cursor Bindings) : Leaves (Federation.close c) :=
  (leaves_discard c).bind fun _ => leaves_closeQuery

/-- **A poll leaves the books alone.** -/
theorem leaves_stepQuery (c : Cursor Bindings) : Leaves (Federation.stepQuery c) := by
  refine Leaves.of_get fun m => ?_
  split
  · exact Leaves.of_pure _
  · split
    · exact leaves_abortQuery.bind fun _ => (leaves_close c).bind fun _ => Leaves.of_pure _
    · refine (leaves_pull .main c).bind fun r => ?_
      split
      · exact (leaves_close _).bind fun _ => Leaves.of_pure _
      · exact (leaves_close _).bind fun _ => Leaves.of_pure _
      · exact Leaves.of_pure _

/-- **What a query does of its own accord leaves the books alone.** -/
theorem Deed.leaves (d : Deed) : Leaves d.act := by
  cases d with
  | pull me c => exact (leaves_pull me c).bind fun _ => Leaves.of_pure _
  | openFeed f => exact (leaves_openFeed f).bind fun _ => Leaves.of_pure _
  | run depth me r => exact (leaves_stepRun depth me r).bind fun _ => Leaves.of_pure _
  | discard c => exact leaves_discard c
  | addExecutor firstOnly => exact (leaves_addExecutor firstOnly).bind fun _ => Leaves.of_pure _
  | endProduction id => exact leaves_endProduction id
  | toss id e => exact leaves_toss id e
  | takeError id => exact (leaves_takeError id).bind fun _ => Leaves.of_pure _
  | dropReceiver id => exact leaves_dropReceiver id

namespace Site

/-- What a move can make of a site, as far as jobs go. -/
inductive Goes (s : Site) : Site → Prop
  | quietly {s' : Site} (q : Nat) (h : s.Acts q [] s') (hlost : s'.lost = s.lost) : Goes s s'
  | turn {s' : Site} (t : Nat) {xs : List (Entry Bindings)}
      (hentered : (s.seen (s.client t)).Entered t (s'.seen (s.client t)) xs)
      (h : s.Acts (s.client t) xs s')
      (hlost : ∀ p, s'.lost p = s.lost p + if s.losing? t = some p then 1 else 0) : Goes s s'
  | schedules {s' : Site} (p : PoolName) {id : Nat} (name : String) (work : Work Bindings)
      (hid : id < s.machine.executors.size)
      (h : s.Acts (s.owner id)
        [.schedules p ⟨id, (s.seen (s.owner id)).registrations.length + 1, name, work⟩] s')
      (hlost : s'.lost = s.lost) : Goes s s'
  | queues {s' : Site} {id : Nat} (result : Cursor Bindings)
      (hlive : (s.context (s.owner id)).cancelled = false)
      (h : s.Acts (s.owner id) [.queues id result] s') (hlost : s'.lost = s.lost) : Goes s s'
  | counts {id branch : Nat} (hid : id < s.machine.executors.size) :
      Goes s (s.counted id (s.context (s.owner id) |>.added branch))
  | givesUp (p : PoolName) : Goes s (s.step (.giveUp p))

theorem goes_step (s : Site) (move : Move) : s.Goes (s.step move) := by
  cases move with
  | thread t =>
    obtain ⟨xs, hentered, hreaches⟩ := turned_stepThread (s.seen (s.client t)) t
    have h := acts_act hreaches
    rw [← seen_act] at hentered
    exact .turn t hentered ⟨h.reaches, h.others, h.owner, h.byHand⟩ fun _ => rfl
  | poll q =>
    have h := acts_of_leaves (leaves_stepQuery (s.cursor q)) s q
    exact .quietly q ⟨h.reaches, h.others, h.owner, h.byHand⟩ rfl
  | close q =>
    have h := acts_of_leaves (leaves_close (s.cursor q)) s q
    exact .quietly q ⟨h.reaches, h.others, h.owner, h.byHand⟩ rfl
  | abort q => exact .quietly q (acts_of_leaves leaves_abortQuery s q) rfl
  | deed q d => exact .quietly q (acts_of_leaves d.leaves s q) rfl
  | schedule p id name work =>
    obtain hidle | ⟨-, hid, hscheduled⟩ := (s.seen (s.owner id)).reaches_schedule p id name work
    · exact .quietly _ (acts_act hidle) rfl
    · exact .schedules p name work hid (acts_act hscheduled) rfl
  | addResult id result =>
    obtain hidle | ⟨hlive, hqueued⟩ := (s.seen (s.owner id)).reaches_addResult id result
    · exact .quietly _ (acts_act hidle) rfl
    · exact .queues result hlive (acts_act hqueued) rfl
  | count id =>
    show s.Goes (s.count id)
    unfold count
    split
    · exact .quietly 0 (.refl s 0) rfl
    · next e he =>
      have hid : id < s.machine.executors.size := (Array.getElem?_eq_some_iff.mp he).1
      rw [QueryContext.register_eq]
      by_cases haborted : (s.context (s.owner id)).aborted = true
      · rw [if_pos haborted]
        exact .quietly 0 (.refl s 0) rfl
      · rw [if_neg haborted]
        exact .counts hid
  | startPool p => exact .quietly 0 (acts_of_leaves (leaves_startPool p) s 0) rfl
  | stopIntake p => exact .quietly 0 (acts_of_leaves (leaves_stopIntake p) s 0) rfl
  | interrupt t => exact .quietly 0 (acts_of_leaves (leaves_doom t) s 0) rfl
  | giveUp p => exact .givesUp p
  | time ms =>
    have leaves : Leaves (modify fun m : Machine Bindings => { m with now := m.now + ms }) :=
      Leaves.of_modify fun m => .of_eq rfl rfl (fun p => by cases p <;> exact ⟨rfl, rfl⟩) rfl
    exact .quietly 0 (acts_of_leaves leaves s 0) rfl

end Site

end FederatedSparql
