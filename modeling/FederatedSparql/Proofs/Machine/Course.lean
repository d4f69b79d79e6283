import FederatedSparql.Proofs.Machine.Shapes

/-!
The course of a run while its executor is open.

* `Setting.Flags`: production ends, and the branch is cancelled, for a reason.
* `Setting.Staff`: every task that is pending is in the hands of a worker or waits for one.
-/

namespace FederatedSparql

open Machine

variable {α : Type}

/-- Whether a thread that does this schedules tasks, or waits for them. -/
def Activity.isProducing : Activity α → Bool
  | .producing .. => true
  | _ => false

namespace Setting

/-- Production ends, and the branch is cancelled, for a reason: a failure, or because all tasks are
finished, or because the run was disturbed. -/
structure Flags (x : Setting α) (disturbed : Prop) (s : Scene α) : Prop where
  opened : s.executor.closed = false
  unfinished : s.executor.finished = false
  receiving : s.executor.receiving = true
  failed : s.executor.error ≠ none → s.cancelled = true ∧ s.executor.producing = false
  cancelled : s.cancelled = true → s.executor.error ≠ none ∨ disturbed
  complete : s.executor.producing = false → s.executor.error ≠ none ∨ disturbed ∨
    s.registered = x.tasks.length ∧ s.executor.pending = 0
  accepting : s.accepting = false → disturbed

/-- Tasks that are pending are in hand, and those who are needed for them are there. -/
structure Staff (disturbed : Prop) (s : Scene α) : Prop where
  pending : s.executor.pending = s.jobs.length + s.held.length
  doomed : true ∈ s.threads.map (·.doomed) → disturbed
  worker : disturbed ∨ ∃ i, (s.activity? i).any Activity.isWorkers = true
  producer : s.executor.producing = false ∨ ∃ i, (s.activity? i).any Activity.isProducing = true
  /-- Nobody interrupts the producer. -/
  unhindered : ∀ th ∈ s.threads, th.doomed = true → th.activity.isProducing = false

variable {x : Setting α} {d : Prop} {s s' : Scene α} {t : Nat}

/-! ### Flags -/

namespace Flags

theorem mono {d' : Prop} (h : x.Flags d s) (hd : d → d') : x.Flags d' s :=
  { h with
    cancelled := fun hc => (h.cancelled hc).imp_right hd
    complete := fun hp => (h.complete hp).imp_right (.imp_left hd)
    accepting := fun ha => hd (h.accepting ha) }

theorem finishTask (h : x.Flags d s) : x.Flags d (s.update Executor.finishTask) :=
  { h with
    complete := fun hp => (h.complete hp).imp_right <| .imp_right fun ⟨hr, h0⟩ =>
      ⟨hr, by simp [Scene.update, Executor.finishTask, h0]⟩ }

theorem endJob (h : x.Flags d s) : x.Flags d (s.endJob t) := { h.finishTask with }

theorem toss (h : x.Flags d s) (e : FedError) : x.Flags d (s.toss e) := by
  rw [Scene.toss_eq h.opened]
  have herror : s.executor.error.or (some e) ≠ none := by cases s.executor.error <;> simp
  exact { h with
    failed := fun _ => ⟨rfl, rfl⟩
    cancelled := fun _ => .inl herror
    complete := fun _ => .inl herror }

theorem push (h : x.Flags d s) (hfirst : s.executor.firstOnly = false) (c : Cursor α) :
    x.Flags d (s.update (·.push c)) := by
  have hpush : s.executor.push c = { s.executor with queue := s.executor.queue ++ [c] } := by
    simp [Executor.push, hfirst]
  rw [Scene.update, hpush]
  exact { h with }

/-- Production ends for a reason. -/
theorem endProducing (h : x.Flags d s)
    (hreason : s.executor.error ≠ none ∨ d ∨
      s.registered = x.tasks.length ∧ s.executor.pending = 0) : x.Flags d (s.endProducing t) :=
  { h with
    failed := fun he => ⟨(h.failed he).1, rfl⟩
    complete := fun _ => hreason }

/-- A step from outside is a reason for everything. -/
theorem outside {e : Step} (h : x.Flags d s) (he : s.Outside e s') :
    x.Flags (d ∨ ¬ e.Quiet) s' := by
  have h := h.mono (show d → d ∨ ¬ e.Quiet from .inl)
  cases he with
  | time _ => exact { h with }
  | abort =>
    exact { h with
      failed := fun he => ⟨rfl, (h.failed he).2⟩
      cancelled := fun _ => .inr (.inr id) }
  | stopPool => exact { h with accepting := fun _ => .inr id }
  | interrupt _ _ => exact { h with }
  | misses _ => exact h
  | discardJobs => exact { h with complete := fun _ => .inr (.inl (.inr id)) }

variable [DecidableEq α]

/-- **Turns raise flags for a reason.** -/
theorem turns (h : x.Flags d s) (hx : x.Shapes s) (ht : s.Turns t s') : x.Flags d s' := by
  cases ht with
  | rests _ => exact h
  | linesUp _ _ | takes _ _ | retires _ _ | runs _ _ _ _ _ | holds _ _ _ _ | awaits _ _
  | leavesLine _ | stops _ => exact { h with }
  | cancels _ _ | drops _ _ _ _ => exact h.endJob
  | queues _ _ _ _ => exact (h.push hx.firstOnly _).endJob
  | fails _ _ _ => exact (h.toss _).endJob
  | givesUp _ _ => exact endJob { h with }
  | @sends _ c _ _ => exact endJob { h.push hx.firstOnly c with }
  | halts _ hc => exact h.endProducing ((h.cancelled hc).imp_right .inl)
  | schedules ht hc _ =>
    obtain ⟨-, -, hproduction⟩ := hx.threads t _ (Scene.activity?_eq ht)
    refine { h with complete := fun hp => (h.complete hp).imp_right (.imp_right fun hall => ?_) }
    obtain heq | ⟨heq, -⟩ := hproduction
    · rw [hall.1, List.drop_length] at heq
      cases heq
    · cases heq
  | isRefused _ _ _ =>
    refine (h.toss _).endProducing (.inl ?_)
    rw [Scene.toss_eq h.opened]
    cases herror : s.executor.error <;> simp [Scene.update, Scene.cancel, herror]
  | completes ht _ hpending =>
    obtain ⟨-, -, hproduction⟩ := hx.threads t _ (Scene.activity?_eq ht)
    refine h.endProducing (.inr (.inr ⟨?_, hpending⟩))
    obtain heq | ⟨-, hregistered⟩ := hproduction
    · cases heq
    · exact hregistered
  | abandons _ => exact finishTask { h with }
  | abandonsResult _ => exact finishTask { h with }

/-- Pulls leave the flags as they are until the executor is closed. -/
theorem pulls {r : Pulled α} (h : x.Flags d s) (hr : s.Pulls r s')
    (hopened : s'.executor.closed = false) : x.Flags d s' := by
  cases hr with
  | isOver _ => exact h
  | passes _ _ _ _ _ | getsOn _ _ _ _ _ | empties _ _ _ | opens _ _ _ | waits _ _ _ _ =>
    exact { h with }
  | fails _ _ _ _ | ends _ _ _ _ => exact absurd s.closed_finish (by simp [hopened])

end Flags

/-! ### Staff -/

namespace Staff

/-- A thread goes on to something else. -/
theorem become {th : Thread α} {a : Activity α} (h : Staff d s) {u : Scene α}
    (hthreads : u.threads = s.threads) (ht : s.threads[t]? = some th)
    (hpending : u.executor.pending + s.jobs.length + th.activity.job?.toList.length =
      s.executor.pending + u.jobs.length + a.job?.toList.length)
    (hworker : d ∨ (th.activity.isWorkers = true → a.isWorkers = true))
    (hproducing : u.executor.producing = true → s.executor.producing = true)
    (hproducer : u.executor.producing = false ∨
      (th.activity.isProducing = true → a.isProducing = true))
    (hnew : a.isProducing = true → th.activity.isProducing = true) : Staff d (u.become t a) := by
  have kept {q : Activity α → Bool} (hq : q th.activity = true → q a = true)
      (hex : ∃ i, (s.activity? i).any q = true) :
      ∃ i, ((u.become t a).activity? i).any q = true := by
    obtain ⟨i, hi⟩ := hex
    refine ⟨i, ?_⟩
    rw [Scene.activity?_become, Scene.activity?_congr hthreads]
    split
    · next hit =>
      subst hit
      rw [Scene.activity?_eq ht] at hi ⊢
      exact hq hi
    · exact hi
  refine ⟨?_, fun hdoomed => ?_, ?_, ?_, fun th' hth' hdoomed => ?_⟩
  · have hcount := u.countP_held_become (fun _ => true) (hthreads ▸ ht) a
    have := h.pending
    simp only [List.countP_true, Scene.held_congr hthreads] at hcount
    show u.executor.pending = u.jobs.length + (u.become t a).held.length
    omega
  · refine h.doomed ?_
    rwa [Scene.map_doomed_become, hthreads] at hdoomed
  · rcases hworker with hd | hq
    · exact .inl hd
    · exact h.worker.imp_right (kept hq)
  · rcases hproducer with hp | hq
    · exact .inl hp
    · refine h.producer.imp (fun hp => ?_) (kept hq)
      cases hu : u.executor.producing with
      | false => exact hu
      | true => rw [hproducing hu] at hp; cases hp
  · obtain ⟨i, hi⟩ := List.mem_iff_getElem?.1 hth'
    rw [Scene.become, List.getElem?_modify, hthreads] at hi
    split at hi
    · next hit =>
      rw [← hit, ht] at hi
      cases hi
      have hold := h.unhindered th (List.mem_of_getElem? ht) hdoomed
      cases ha : a.isProducing with
      | false => rfl
      | true => rw [hnew ha] at hold; cases hold
    · rw [id_map'] at hi
      exact h.unhindered th' (List.mem_of_getElem? hi) hdoomed

/-- Nobody in particular goes on. -/
theorem congr (h : Staff d s) (hthreads : s'.threads = s.threads) (hjobs : s'.jobs = s.jobs)
    (hpending : s'.executor.pending = s.executor.pending)
    (hproducing : s'.executor.producing = s.executor.producing) : Staff d s' := by
  have hactivity := Scene.activity?_congr hthreads
  refine ⟨?_, hthreads ▸ h.doomed, hactivity ▸ h.worker, ?_, hthreads ▸ h.unhindered⟩
  · rw [hpending, hjobs, Scene.held_congr hthreads]
    exact h.pending
  · rw [hproducing, hactivity]
    exact h.producer

/-- A thread is to end only if the run was disturbed. -/
theorem disturbed_of_doomed {th : Thread α} (h : Staff d s) (ht : s.threads[t]? = some th)
    (hdoomed : th.doomed = true) : d :=
  h.doomed (hdoomed ▸ List.mem_map_of_mem (List.mem_of_getElem? ht))

/-- A task that a thread has in hand is pending. -/
theorem pending_pos {th : Thread α} {job : Job α} (h : Staff d s) (ht : s.threads[t]? = some th)
    (hjob : th.activity.job? = some job) : 0 < s.executor.pending := by
  have hcount := s.countP_held_become (fun _ => true) ht .finished
  have := h.pending
  rw [hjob, show (Activity.finished : Activity α).job? = none from rfl] at hcount
  simp only [List.countP_true, Option.toList_some, Option.toList_none, List.length_singleton,
    List.length_nil] at hcount
  omega

/-- A worker is done with its job, for good or for the next one. -/
theorem finishTask {th : Thread α} {job : Job α} {a : Activity α} (h : Staff d s) {u : Scene α}
    (ht : s.threads[t]? = some th) (hjob : th.activity.job? = some job) (ha : a.job? = none)
    (hworker : d ∨ a.isWorkers = true) (hidle : a.isProducing = false)
    (hthreads : u.threads = s.threads) (hjobs : u.jobs = s.jobs)
    (hpending : u.executor.pending = s.executor.pending)
    (hproducing : u.executor.producing = true → s.executor.producing = true) :
    Staff d ((u.update Executor.finishTask).become t a) := by
  have hpos := h.pending_pos ht hjob
  have hnot : th.activity.isProducing = false := by
    cases hactivity : th.activity <;> simp_all [Activity.job?, Activity.isProducing]
  refine h.become hthreads ht ?_ (hworker.imp_right fun hw _ => hw) hproducing
    (.inr fun hp => by simp [hnot] at hp) (by simp [hidle])
  simp only [Scene.update, Executor.finishTask, hjobs, hpending, hjob, ha, Option.toList_some,
    List.length_singleton, Option.toList_none, List.length_nil]
  omega

theorem mono {d' : Prop} (h : Staff d s) (hd : d → d') : Staff d' s :=
  ⟨h.pending, fun ht => hd (h.doomed ht), h.worker.imp_left hd, h.producer, h.unhindered⟩

theorem outside {e : Step} (h : Staff d s) (he : s.Outside e s') : Staff (d ∨ ¬ e.Quiet) s' := by
  have h := h.mono (show d → d ∨ ¬ e.Quiet from .inl)
  cases he with
  | time _ | abort | stopPool => exact h.congr rfl rfl rfl rfl
  | misses _ => exact h
  | @interrupt t th ht hworker =>
    refine ⟨?_, fun _ => .inr id, .inl (.inr id), ?_, fun th' hth' hdoomed => ?_⟩
    · rw [Scene.held_doom]
      exact h.pending
    · simp only [Scene.activity?_doom]
      exact h.producer
    · obtain ⟨i, hi⟩ := List.mem_iff_getElem?.1 hth'
      rw [Scene.doom, List.getElem?_modify] at hi
      split at hi
      · next hit =>
        rw [← hit, ht] at hi
        cases hi
        cases hactivity : th.activity <;> simp_all [Activity.isWorkers, Activity.isProducing]
      · rw [id_map'] at hi
        exact h.unhindered th' (List.mem_of_getElem? hi) hdoomed
  | discardJobs =>
    refine ⟨?_, fun _ => .inr id, .inl (.inr id), h.producer, h.unhindered⟩
    show s.executor.pending - s.jobs.length = 0 + s.held.length
    have := h.pending
    omega

variable [DecidableEq α]

/-- **Turns keep account of what is pending.** -/
theorem turns (h : Staff d s) (hopened : s.executor.closed = false)
    (hfirst : s.executor.firstOnly = false) (haccepting : s.accepting = false → d)
    (ht : s.Turns t s') : Staff d s' := by
  have never {p : Prop} (hp : false = true) : p := absurd hp Bool.false_ne_true
  have hpush (c : Cursor α) : s.executor.push c =
      { s.executor with queue := s.executor.queue ++ [c] } := by simp [Executor.push, hfirst]
  cases ht with
  | rests _ => exact h
  | linesUp _ _ => exact h.congr rfl rfl rfl rfl
  | takes ht hjobs =>
    refine h.become rfl ht ?_ (.inr fun _ => rfl) id (.inr id) id
    simp [hjobs, Scene.leaveLine, Activity.job?]
    omega
  | retires ht ha => exact h.become rfl ht rfl (.inl (haccepting ha)) id (.inr id) id
  | cancels ht _ | drops ht _ _ _ | givesUp ht _ =>
    exact h.finishTask ht rfl rfl (.inr rfl) rfl rfl rfl rfl id
  | runs ht _ _ _ _ => exact h.become rfl ht rfl (.inr fun _ => rfl) id (.inr id) id
  | queues ht _ _ _ =>
    exact h.finishTask ht rfl rfl (.inr rfl) rfl rfl rfl rfl fun hp => by
      simpa [Scene.update, hpush] using hp
  | holds ht _ _ _ => exact h.become rfl ht rfl (.inr fun _ => rfl) id (.inr id) id
  | fails ht _ _ =>
    rw [Scene.toss_eq hopened]
    exact h.finishTask ht rfl rfl (.inr rfl) rfl rfl rfl rfl never
  | sends ht _ =>
    exact h.finishTask ht rfl rfl (.inr rfl) rfl rfl rfl rfl fun hp => by
      simpa [Scene.update, Executor.leave, hpush] using hp
  | halts ht _ | completes ht _ _ =>
    exact h.become rfl ht rfl (.inr never) never (.inl rfl) never
  | schedules ht _ _ =>
    refine h.become rfl ht ?_ (.inr never) id (.inr id) id
    simp [Scene.schedule, Scene.update, Executor.addTask, Activity.job?]
    omega
  | isRefused ht _ _ =>
    rw [Scene.toss_eq hopened]
    exact h.become rfl ht rfl (.inr never) never (.inl rfl) never
  | awaits ht _ => exact h.become rfl ht rfl (.inr never) id (.inr id) id
  | leavesLine ht =>
    exact h.become (u := s.leaveLine t) rfl ht rfl (.inl (h.disturbed_of_doomed ht rfl)) id
      (.inr id) id
  | abandons ht =>
    exact h.finishTask (u := s) ht rfl rfl (.inl (h.disturbed_of_doomed ht rfl)) rfl rfl rfl rfl id
  | abandonsResult ht =>
    exact h.finishTask (u := s.update (Executor.leave t)) ht rfl rfl
      (.inl (h.disturbed_of_doomed ht rfl)) rfl rfl rfl rfl id
  | stops ht => cases h.unhindered _ (List.mem_of_getElem? ht) rfl

theorem pulls {r : Pulled α} (h : Staff d s) (hr : s.Pulls r s')
    (hopened : s'.executor.closed = false) : Staff d s' := by
  cases hr with
  | isOver _ => exact h
  | passes _ _ _ _ _ | getsOn _ _ _ _ _ | empties _ _ _ | opens _ _ _ | waits _ _ _ _ =>
    exact h.congr rfl rfl rfl rfl
  | fails _ _ _ _ | ends _ _ _ _ => exact absurd s.closed_finish (by simp [hopened])

end Staff

end Setting

end FederatedSparql
