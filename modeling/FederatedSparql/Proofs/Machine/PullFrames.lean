import FederatedSparql.Engine.Machine.Control
import FederatedSparql.Proofs.Machine.Frames

/-!
Relations that are kept when items are pulled.

Pulling runs programs, starts executors, closes them and takes results from their queues.  A
`PullFrame` is a relation that is kept when any of this is done once; then it is kept by pulling,
however deep executors hold one another's results (`PullFrame.keeps_pull`).
-/

namespace FederatedSparql.Machine

variable {α β : Type}

/-- A relation that is kept by whatever pulling is made of. -/
structure PullFrame (R : Machine α → Machine α → Prop) : Prop extends Frame R where
  wakeAt : ∀ due w, Keeps R (wakeAt due w)
  /-- Members are asked or repaired. -/
  registry : ∀ f : Registry → Registry,
    Keeps R (modify fun m : Machine α => { m with registry := f m.registry })
  addExecutor : ∀ firstOnly, Keeps R (addExecutor firstOnly)
  spawn : ∀ id production, Keeps R (spawn (.producing id production))
  /-- An executor changes but for its tasks and results, and perhaps forgets its failure. -/
  update : ∀ id f, (∀ e, (f e).pending = e.pending ∧ (f e).queue = e.queue ∧
    ((f e).error = e.error ∨ (f e).error = none)) → Keeps R (updateExecutor id f)
  /-- The first result leaves the queue. -/
  take : ∀ {m id e c queue}, m.executors[id]? = some e → e.queue = c :: queue →
    R m (after (updateExecutor id fun e => { e with current := some c, queue := queue }) m)

namespace PullFrame

variable {R : Machine α → Machine α → Prop}

/-! ### Starting -/

theorem keeps_discard (hR : PullFrame R) (c : Cursor α) : Keeps R (discard c) :=
  hR.keeps_closeAll _

theorem keeps_startExecutor (hR : PullFrame R) (firstOnly : Bool) (production : Production α) :
    Keeps R (startExecutor firstOnly production) := by
  intro m
  refine hR.trans (hR.addExecutor firstOnly m) ?_
  have rest : Keeps R (do
      let t ← Machine.spawn (.producing m.executors.size production)
      updateExecutor m.executors.size fun e => { e with producer := some t }
      return m.executors.size : Action α Nat) :=
    hR.bind (hR.spawn _ _) fun _ =>
      hR.bind (hR.update _ _ fun _ => ⟨rfl, rfl, .inl rfl⟩) fun _ => hR.keeps_pure _
  exact rest _

section Feeds

variable [BEq α]

theorem keeps_openFeed (hR : PullFrame R) : ∀ f : Feed α, Keeps R (openFeed f)
  | .rows xs => by rw [openFeed]; exact hR.keeps_pure _
  | .outcomes xs => by rw [openFeed]; exact hR.keeps_pure _
  | .union firstOnly branches => by
    rw [openFeed]
    exact hR.bind (hR.keeps_startExecutor _ _) fun _ => hR.keeps_pure _
  | .nestedJoin left right => by
    rw [openFeed]
    exact hR.bind (keeps_openFeed hR left) fun _ => hR.bind (hR.keeps_startExecutor _ _) fun _ =>
      hR.keeps_pure _
  | .boundJoin left blockSize right => by
    rw [openFeed]
    exact hR.bind (keeps_openFeed hR left) fun _ => hR.bind (hR.keeps_startExecutor _ _) fun _ =>
      hR.keeps_pure _
  | .map f source => by
    rw [openFeed]
    exact hR.bind (keeps_openFeed hR source) fun _ => hR.keeps_pure _
  | .filter keep source => by
    rw [openFeed]
    exact hR.bind (keeps_openFeed hR source) fun _ => hR.keeps_pure _
  | .distinct source => by
    rw [openFeed]
    exact hR.bind (keeps_openFeed hR source) fun _ => hR.keeps_pure _
  | .slice offset limit source => by
    rw [openFeed]
    exact hR.bind (keeps_openFeed hR source) fun _ => hR.keeps_pure _
  | .optional left right keep => by
    rw [openFeed]
    exact hR.bind (keeps_openFeed hR left) fun _ => hR.keeps_pure _
  | .deferred work => by rw [openFeed]; exact hR.keeps_pure _

/-! ### Pulling -/

theorem keeps_stepWork (hR : PullFrame R) (me : Waker) (w : Work α) : Keeps R (stepWork me w) := by
  cases w with
  | done feed => exact hR.bind (hR.keeps_openFeed feed) fun _ => hR.keeps_pure _
  | fail e => exact hR.keeps_pure _
  | panic => exact hR.keeps_pure _
  | sleep ms next =>
    refine Frame.keeps_get fun m => ?_
    dsimp only
    split
    · exact hR.keeps_pure _
    · exact hR.bind (hR.wakeAt _ _) fun _ => hR.keeps_pure _
  | request endpoint r next =>
    refine Frame.keeps_get fun m => ?_
    split
    · exact hR.keeps_pure _
    · refine hR.bind (hR.registry fun r' => r'.update endpoint (·.receive r)) fun _ => ?_
      dsimp only
      split
      · exact hR.bind (hR.wakeAt _ _) fun _ => hR.keeps_pure _
      · exact hR.keeps_pure _
  | repair endpoint next =>
    exact hR.bind (hR.registry fun r => (r.repair endpoint).2) fun _ => hR.keeps_pure _
  | check next =>
    refine Frame.keeps_get fun m => ?_
    split <;> exact hR.keeps_pure _
  | gather parts next => exact hR.keeps_pure _

/-- The results of an executor are pulled, whatever holds of pulling them. -/
theorem keeps_stepPipe_executor (hR : PullFrame R) {depth : Nat} {me : Waker}
    (pulls : ∀ c : Cursor α, Keeps R (stepCursor depth me c)) (id : Nat) :
    Keeps R (stepPipe (depth + 1) me (.executor id : Pipe α)) := by
  have keeps (c : Option (Cursor α)) :
      Keeps R (updateExecutor id fun e => { e with current := c }) :=
    hR.update id _ fun _ => ⟨rfl, rfl, .inl rfl⟩
  rw [stepPipe]
  intro m
  rw [after_get_bind]
  split
  · exact hR.refl m
  · next e he =>
    split
    · exact hR.refl m
    · split
      · next c _ =>
        refine hR.bind (pulls c) (fun r => ?_) m
        obtain ⟨r, c'⟩ := r
        dsimp only
        split
        · exact hR.bind (keeps _) fun _ => hR.bind (hR.keeps_closeAll _) fun _ => hR.keeps_pure _
        · exact hR.bind (keeps _) fun _ => hR.bind (hR.keeps_discard _) fun _ => hR.keeps_pure _
        · exact hR.bind (keeps _) fun _ => hR.keeps_pure _
      · split
        · next c queue hqueue =>
          have taken := hR.take he hqueue
          exact hR.trans taken (hR.bind (hR.keeps_wakeThread? _) (fun _ => hR.keeps_pure _) _)
        · split
          · have forgets : Keeps R (updateExecutor id fun e => { e with error := none }) :=
              hR.update id _ fun _ => ⟨rfl, rfl, .inr rfl⟩
            refine hR.bind forgets (fun _ => hR.bind (hR.keeps_closeAll _) fun _ => ?_) m
            split <;> exact hR.keeps_pure _
          · have waits : Keeps R (updateExecutor id fun e => { e with consumer := some me }) :=
              hR.update id _ fun _ => ⟨rfl, rfl, .inl rfl⟩
            exact hR.bind waits (fun _ => hR.keeps_pure _) m

mutual

theorem keeps_stepCursor (hR : PullFrame R) (depth : Nat) (me : Waker) (c : Cursor α) :
    Keeps R (stepCursor depth me c) := by
  match c with
  | .empty => rw [stepCursor]; exact hR.keeps_pure _
  | .closed => rw [stepCursor]; exact hR.keeps_pure _
  | .buffered [] => rw [stepCursor]; exact hR.keeps_pure _
  | .buffered (x :: xs) => rw [stepCursor]; exact hR.keeps_pure _
  | .pipe source =>
    rw [stepCursor]
    exact hR.bind (keeps_stepPipe hR depth me source) fun _ => hR.keeps_pure _
termination_by (depth, sizeOf c)

theorem keeps_stepPipe (hR : PullFrame R) (depth : Nat) (me : Waker) (p : Pipe α) :
    Keeps R (stepPipe depth me p) := by
  match p with
  | .outcomes [] => rw [stepPipe]; exact hR.keeps_pure _
  | .outcomes (.ok x :: rest) => rw [stepPipe]; exact hR.keeps_pure _
  | .outcomes (.error e :: rest) => rw [stepPipe]; exact hR.keeps_pure _
  | .map f source =>
    rw [stepPipe]
    exact hR.bind (keeps_stepPipe hR depth me source) fun _ => hR.keeps_pure _
  | .filter keep source =>
    rw [stepPipe]
    exact hR.bind (keeps_stepPipe hR depth me source) fun _ => hR.keeps_pure _
  | .distinct seen source =>
    rw [stepPipe]
    refine hR.bind (keeps_stepPipe hR depth me source) fun r => ?_
    split
    · split <;> exact hR.keeps_pure _
    · exact hR.keeps_pure _
  | .slice toSkip toTake source =>
    rw [stepPipe]
    split
    · exact hR.keeps_pure _
    · exact hR.bind (keeps_stepCursor hR depth me source) fun _ => hR.keeps_pure _
  | .chain [] => rw [stepPipe]; exact hR.keeps_pure _
  | .chain (c :: rest) =>
    rw [stepPipe]
    refine hR.bind (keeps_stepCursor hR depth me c) fun r => ?_
    split
    · exact hR.bind (hR.keeps_discard _) fun _ => hR.keeps_pure _
    · exact hR.keeps_pure _
  | .executor id =>
    match depth with
    | 0 => rw [stepPipe]; exact hR.keeps_pure _
    | depth + 1 => exact hR.keeps_stepPipe_executor (keeps_stepCursor hR depth me) id
  | .deferred run =>
    rw [stepPipe]
    refine hR.bind (keeps_stepRun hR depth me run) fun r => ?_
    split <;> exact hR.keeps_pure _
  | .optional left right keep (x :: next) => rw [stepPipe]; exact hR.keeps_pure _
  | .optional left right keep [] =>
    rw [stepPipe]
    refine hR.bind (keeps_stepCursor hR depth me left) fun r => ?_
    split <;> exact hR.keeps_pure _
  | .matching left right keep row (.finished (.error e)) =>
    rw [stepPipe]
    exact hR.keeps_pure _
  | .matching left right keep row (.finished (.ok rows)) =>
    rw [stepPipe]
    split <;> exact hR.keeps_pure _
  | .matching left right keep row (.running run) =>
    rw [stepPipe]
    · refine hR.bind (keeps_stepPart hR depth me (.running run)) fun r => ?_
      dsimp only
      split <;> exact hR.keeps_pure _
    all_goals exact nofun
  | .matching left right keep row (.draining collected source) =>
    rw [stepPipe]
    · refine hR.bind (keeps_stepPart hR depth me (.draining collected source)) fun r => ?_
      dsimp only
      split <;> exact hR.keeps_pure _
    all_goals exact nofun
termination_by (depth, sizeOf p)

theorem keeps_stepRun (hR : PullFrame R) (depth : Nat) (me : Waker) (run : Run α) :
    Keeps R (stepRun depth me run) := by
  match run with
  | .ready w => rw [stepRun]; exact hR.keeps_stepWork me w
  | .sleeping due next =>
    rw [stepRun]
    refine Frame.keeps_get fun m => ?_
    split <;> exact hR.keeps_pure _
  | .awaiting due endpoint r next =>
    rw [stepRun]
    refine Frame.keeps_get fun m => ?_
    split
    · split <;> exact hR.keeps_pure _
    · exact hR.keeps_pure _
  | .gathering parts next =>
    rw [stepRun]
    refine hR.bind (keeps_stepParts hR depth me parts) fun r => ?_
    split <;> exact hR.keeps_pure _
termination_by (depth, sizeOf run)

theorem keeps_stepPart (hR : PullFrame R) (depth : Nat) (me : Waker) (part : Part α) :
    Keeps R (stepPart depth me part) := by
  match part with
  | .finished r => rw [stepPart]; exact hR.keeps_pure _
  | .running run =>
    rw [stepPart]
    refine hR.bind (keeps_stepRun hR depth me run) fun r => ?_
    split <;> exact hR.keeps_pure _
  | .draining collected source =>
    rw [stepPart]
    refine hR.bind (keeps_stepCursor hR depth me source) fun r => ?_
    dsimp only
    split
    · exact hR.bind (hR.keeps_discard _) fun _ => hR.keeps_pure _
    · exact hR.keeps_pure _
termination_by (depth, sizeOf part)

theorem keeps_stepParts (hR : PullFrame R) (depth : Nat) (me : Waker) (parts : List (Part α)) :
    Keeps R (stepParts depth me parts) := by
  match parts with
  | [] => rw [stepParts]; exact hR.keeps_pure _
  | part :: rest =>
    rw [stepParts]
    exact hR.bind (keeps_stepPart hR depth me part) fun _ =>
      hR.bind (keeps_stepParts hR depth me rest) fun _ => hR.keeps_pure _
termination_by (depth, sizeOf parts)

end

/-- **Pulling keeps the relation, however deep executors hold one another's results.** -/
theorem keeps_pull (hR : PullFrame R) (me : Waker) (c : Cursor α) : Keeps R (pull me c) :=
  Frame.keeps_get fun _ => hR.keeps_stepCursor _ me c

end Feeds

end PullFrame

end FederatedSparql.Machine
