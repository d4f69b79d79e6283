import FederatedSparql.Proofs.Machine.FloorPulls
import FederatedSparql.Proofs.Machine.Runs

/-!
Joins whose tasks come to the results of further joins, all with the workers of one pool.

A `Nesting` is what such a join is started with.  In a run of it anyone may take the next step that
`Step.Quiet` allows: a thread, the consumer, which pulls once, or time.

* `Nesting.Reaches.tracks`: until the consumer is at the end, there is a sound floor to see.
-/

namespace FederatedSparql

open Machine

variable {α : Type}

/-! ### Moments that lead to others -/

namespace Moment

variable [BEq α]

/-- The moment after some steps. -/
def follow (m : Moment α) (steps : List Step) : Moment α := steps.foldl step m

/-- A moment may become another one while nothing from outside disturbs the run. -/
def MayBecome (m m' : Moment α) : Prop := ∃ steps, (∀ s ∈ steps, s.Quiet) ∧ m.follow steps = m'

theorem MayBecome.refl (m : Moment α) : m.MayBecome m := ⟨[], fun _ h => (by cases h), rfl⟩

theorem MayBecome.trans {m m' m'' : Moment α} (h : m.MayBecome m') (h' : m'.MayBecome m'') :
    m.MayBecome m'' := by
  obtain ⟨steps, hquiet, rfl⟩ := h
  obtain ⟨steps', hquiet', rfl⟩ := h'
  refine ⟨steps ++ steps', fun s hs => ?_, by simp [follow]⟩
  obtain hs | hs := List.mem_append.1 hs
  · exact hquiet s hs
  · exact hquiet' s hs

theorem MayBecome.step (m : Moment α) {s : Step} (hs : s.Quiet) : m.MayBecome (m.step s) :=
  ⟨[s], fun _ h => List.mem_singleton.1 h ▸ hs, rfl⟩

/-- What holds of a moment and is kept by every step holds of all that the moment may become. -/
theorem MayBecome.induction {P : Moment α → Prop} {m m' : Moment α} (h : m.MayBecome m')
    (hm : P m) (hstep : ∀ m s, s.Quiet → P m → P (m.step s)) : P m' := by
  obtain ⟨steps, hquiet, rfl⟩ := h
  induction steps generalizing m with
  | nil => exact hm
  | cons s steps ih =>
    exact ih (hstep m s (hquiet s (by simp)) hm) fun s' hs' => hquiet s' (by simp [hs'])

end Moment

/-! ### Joins of joins -/

/-- What a join is started with whose tasks come to the results of further joins. -/
structure Nesting (α : Type) where
  registry : Registry := {}
  text : String := ""
  form : QueryForm := .select
  now : Nat := 0
  /-- The name of the pool. -/
  pool : String := "join"
  workers : Nat
  /-- The rows for each of which there is a task. -/
  left : List α
  /-- The rows of the further join for a row. -/
  inner : α → List α
  /-- The tasks of the further joins. -/
  leaf : α → α → Work α

namespace Nesting

variable (x : Nesting α)

/-- The task for a row. -/
def outer (row : α) : Work α := .done (.nestedJoin (.rows (x.inner row)) (x.leaf row))

/-- The machine before anything is started. -/
def machine : Machine α where
  now := x.now
  registry := x.registry
  query := .start x.text x.form x.now none
  join := { pool := .create x.pool x.workers }

/-- Starts the pool and the join. -/
def opening [BEq α] : Action α (Cursor α) := do
  startPool .join
  openFeed (.nestedJoin (.rows x.left) x.outer)

/-- The number of workers that are started. -/
def crew : Nat := max x.workers 1

/-! ### The start of a run -/

/-- What there is to see before the join is started: workers only. -/
def staffed : Floor α where
  now := x.now
  answers := x.registry.answers
  branches := []
  tasks := []
  jobs := []
  line := []
  threads := List.replicate x.crew (.idle .join)
  executors := []

/-- What there is to see when a run starts. -/
def first : Floor α := x.staffed.startExecutor (.nested (.ofList x.left) x.outer)

theorem stands_startPool : (after (startPool .join) x.machine).Stands x.staffed := by
  have spawns (f : Floor α) (l : List Nat) :
      f.Gives (forIn l PUnit.unit fun _ _ => do
        let t ← spawn (.idle .join)
        updateCrew .join fun c => { c with threads := c.threads ++ [t] }
        pure (.yield PUnit.unit)) PUnit.unit
        { f with threads := f.threads ++ List.replicate l.length (.idle .join) } := by
    induction l generalizing f with
    | nil =>
      have hsame : { f with threads := f.threads ++ List.replicate 0 (.idle .join) } = f := by simp
      exact hsame.symm ▸ Floor.Gives.of_pure _
    | cons i l ih =>
      rw [List.forIn_cons]
      refine Floor.Gives.seq (b := .yield PUnit.unit) (g := f.spawn (.idle .join))
        ((Floor.gives_spawn f _).seq (Floor.Gives.seq (g := f.spawn (.idle .join)) (b := ())
          (Floor.Gives.of_modify fun m hm => { hm with }) (Floor.Gives.of_pure _))) ?_
      have := ih (f.spawn (.idle .join))
      simpa [Floor.spawn, List.replicate_succ] using this
  have hmachine : x.machine.Stands { x.staffed with threads := [] } :=
    { now := rfl, answers := rfl, deadline := rfl, aborted := rfl, cancelled := rfl
      branches := rfl, tasks := rfl, accepting := rfl, jobs := rfl, line := rfl, threads := rfl
      executors := rfl
      hanging := fun task htask => by simp [machine, QueryContext.start] at htask
      doomed := fun th hth => by simp [machine] at hth }
  have hrunning := ((Floor.gives_updatePool { x.staffed with threads := [] }
    (k := fun pool => { pool with running := true }) fun _ => rfl).stands hmachine).1
  have hspawned := ((spawns _ (List.range x.crew)).stands hrunning).1
  rw [List.length_range] at hspawned
  exact hspawned

variable [DecidableEq α]

/-- The moment at which a run starts. -/
def start : Moment α where
  machine := after x.opening x.machine
  cursor := value x.opening x.machine

/-- A run comes to a moment. -/
def Reaches (m : Moment α) : Prop := x.start.MayBecome m

/-- All tasks of the further joins work alone and come to results. -/
def AllEndWell : Prop := ∀ row ∈ x.left, ∀ row' ∈ x.inner row,
  (Run.ready (x.leaf row row')).EndsWell x.registry.answers

/-- The numbers of workers and of tasks. -/
structure Suits (k : Scale) : Prop where
  workers : k.workers = x.crew
  outer : x.left.length ≤ k.outer
  least : ∀ row ∈ x.left, k.least ≤ (x.inner row).length
  inner : ∀ row ∈ x.left, (x.inner row).length ≤ k.inner

theorem stands_start : x.start.machine.Stands x.first ∧ x.start.cursor = .pipe (.executor 0) := by
  have hopens : x.staffed.Gives (openFeed (.nestedJoin (.rows x.left) x.outer))
      (.pipe (.executor 0)) x.first := by
    rw [openFeed, openFeed]
    exact Floor.Gives.seq (Floor.Gives.of_pure (Cursor.ofList x.left))
      (Floor.Gives.seq (Floor.gives_startExecutor _ _) (Floor.Gives.of_pure _))
  exact hopens.stands x.stands_startPool

variable {x} {k : Scale}

theorem sound_staffed (hk : x.Suits k) : x.staffed.Sound k where
  staff := by simp [staffed, hk.workers]
  branches := rfl
  line := fun i hi => by cases hi
  jobs := fun job hjob => by cases hjob
  threads := fun i a hi => by
    obtain ⟨hlt, rfl⟩ := List.getElem?_eq_some_iff.1 hi
    simp only [staffed, List.length_replicate] at hlt
    simpa [staffed, Floor.Employs, hk.workers] using hlt
  executors := fun id e he => by cases he
  producing := fun i a id hi ha => by
    obtain ⟨hlt, rfl⟩ := List.getElem?_eq_some_iff.1 hi
    simp [staffed, Activity.ProducesFor] at ha

theorem sound_first (hk : x.Suits k) (hanswers : x.AllEndWell) : x.first.Sound k := by
  refine (sound_staffed hk).startExecutor hk.outer fun row hrow => ⟨fun _ => ?_, fun hne => ?_⟩
  · exact ⟨_, rfl, _, _, rfl, hk.least row hrow, hk.inner row hrow, hanswers row hrow⟩
  · exact absurd rfl hne

/-! ### Every moment of a run -/

/-- A floor is what there is to see at a moment at which the consumer is not at the end. -/
structure Tracks (k : Scale) (m : Moment α) (f : Floor α) : Prop where
  stands : m.machine.Stands f
  cursor : m.cursor = .pipe (.executor 0)
  sound : f.Sound k
  opened : f.branches[0]? = some false
  goesOn : m.ended = false

namespace Tracks

variable {m : Moment α} {f g : Floor α} {t : Nat} {e : Executor α}

theorem exists_executor (h : Tracks k m f) :
    ∃ e, f.executors[0]? = some e ∧ f.Serves k 0 e ∧ e.closed = false ∧ e.finished = false := by
  have hopened := h.opened
  rw [h.sound.branches, List.getElem?_map] at hopened
  obtain ⟨e, he, hclosed⟩ := Option.map_eq_some_iff.1 hopened
  have hserves := h.sound.executors 0 e he
  exact ⟨e, he, hserves, hclosed, hserves.finished.trans hclosed⟩

/-- The first executor is open. -/
theorem not_finished (h : Tracks k m f) (he : f.executors[0]? = some e) : e.finished = false := by
  obtain ⟨e₀, he₀, -, -, hopen⟩ := h.exists_executor
  obtain rfl := Option.some.inj (he.symm.trans he₀)
  exact hopen

theorem of_first (hk : x.Suits k) (hend : x.AllEndWell) : Tracks k x.start x.first where
  stands := x.stands_start.1
  cursor := x.stands_start.2
  sound := sound_first hk hend
  opened := rfl
  goesOn := rfl

/-- A thread takes a step. -/
theorem thread (h : Tracks k m f) (t : Nat) :
    ∃ g, Tracks k (m.step (.thread t)) g ∧ f.Turns t g := by
  obtain ⟨g, hg, hturns⟩ := Floor.leads_stepThread h.sound t m.machine h.stands
  exact ⟨g, ⟨hg, h.cursor, h.sound.turns hturns, hturns.branches_zero h.opened, h.goesOn⟩, hturns⟩

/-- Time passes. -/
theorem time (h : Tracks k m f) (ms : Nat) :
    Tracks k (m.step (.time ms)) { f with now := f.now + ms } where
  stands := { h.stands with now := congrArg (· + ms) h.stands.now }
  cursor := h.cursor
  sound := h.sound.congr_now _
  opened := h.opened
  goesOn := h.goesOn

/-- The consumer pulls. -/
theorem consumer (h : Tracks k m f) (he : f.executors[0]? = some e) :
    ∃ r g, f.Pulls e r g ∧ (m.step .consumer).received = m.received ++ r.got ∧
      ((m.step .consumer).ended = false → Tracks k (m.step .consumer) g) ∧
      ((m.step .consumer).ended = r.isDone) := by
  obtain ⟨g, hg, hcursor, hpulls⟩ := Floor.leads_pull h.sound he m.machine h.stands
  rw [← h.cursor] at hg hcursor hpulls
  set r := (value (pull .main m.cursor) m.machine).1 with hr
  set m' : Moment α := { m with
    machine := after (pull .main m.cursor) m.machine
    cursor := (value (pull .main m.cursor) m.machine).2 } with hm'
  have hstep : m.step .consumer = m'.note r := rfl
  have hended : (m.step .consumer).ended = r.isDone := by
    rw [hstep, Moment.ended_note]
    show (m.ended || _) = _
    rw [h.goesOn, Bool.false_or]
  refine ⟨r, g, hpulls, by rw [hstep, Moment.received_note], fun hnot => ?_, hended⟩
  refine ⟨?_, ?_, h.sound.pulls he hpulls, hpulls.branches_zero h.sound h.opened ?_, hnot⟩
  · rw [hstep, Moment.machine_note]
    exact hg
  · rw [hstep, Moment.cursor_note]
    exact hcursor.trans h.cursor
  · intro hdone
    rw [hended, hdone] at hnot
    cases hnot

end Tracks

/-- **Until the consumer is at the end, there is a sound floor to see.** -/
theorem Reaches.tracks (hk : x.Suits k) (hend : x.AllEndWell) {m : Moment α} (hm : x.Reaches m)
    (hgoes : m.ended = false) : ∃ f, Tracks k m f := by
  refine hm.induction (P := fun m => m.ended = false → ∃ f, Tracks k m f)
    (fun _ => ⟨_, .of_first hk hend⟩) (fun m s hs ih hgoes => ?_) hgoes
  have hbefore : m.ended = false := by
    cases s with
    | consumer =>
      rw [Moment.step, Moment.ended_note, Bool.or_eq_false_iff] at hgoes
      exact hgoes.1
    | interrupt t => exact hs.elim
    | _ => exact hgoes
  obtain ⟨f, hf⟩ := ih hbefore
  cases s with
  | thread t =>
    obtain ⟨g, hg, -⟩ := hf.thread t
    exact ⟨g, hg⟩
  | consumer =>
    obtain ⟨e, he, -⟩ := hf.exists_executor
    obtain ⟨r, g, -, -, hg, -⟩ := hf.consumer he
    exact ⟨g, hg hgoes⟩
  | time ms => exact ⟨_, hf.time ms⟩
  | _ => exact hs.elim

end Nesting

end FederatedSparql
