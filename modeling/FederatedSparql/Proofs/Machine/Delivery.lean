import FederatedSparql.Proofs.Machine.Schedules

/-!
What the consumer of an executor gets, in whatever order threads and consumer take their steps.

* `Setting.delivers`: undisturbed, it gets the results of all tasks, each once, or those that were
  queued before the first failure and then that failure; and it is told that there is no more.
* `Setting.stopping_is_silent`: an aborted query ends like one that is complete.
-/

namespace FederatedSparql

open Machine

variable {α : Type} [DecidableEq α] {x : Setting α} {schedule : Nat → Step} {n : Nat}

/-! ### The order in which results are delivered -/

/-- Up to the first failure a log tells in which order results have been queued. -/
theorem exists_order (log : List Event) :
    ∃ (order : List Nat) (rest : List Event), log = order.map Event.queued ++ rest ∧
      ∀ e ∈ rest.head?, e.isToss = true := by
  induction log with
  | nil => exact ⟨[], [], rfl, nofun⟩
  | cons e log ih =>
    cases e with
    | queued k =>
      obtain ⟨order, rest, rfl, hrest⟩ := ih
      exact ⟨k :: order, rest, rfl, hrest⟩
    | failed k => exact ⟨[], .failed k :: log, rfl, fun e he => by cases he; rfl⟩
    | refused => exact ⟨[], .refused :: log, rfl, fun e he => by cases he; rfl⟩

theorem exists_order_of_any_eq_false {log : List Event} (h : log.any Event.isToss = false) :
    ∃ order : List Nat, log = order.map Event.queued := by
  obtain ⟨order, rest, rfl, hrest⟩ := exists_order log
  cases rest with
  | nil => exact ⟨order, List.append_nil _⟩
  | cons e rest => simp [hrest e rfl] at h

theorem any_isToss_queued (order : List Nat) :
    (order.map Event.queued).any Event.isToss = false := by
  simp [Event.isToss]

namespace Setting

/-- Tasks that have come to their results, each once. -/
structure Order (x : Setting α) (order : List Nat) : Prop where
  nodup : order.Nodup
  tasks : ∀ k ∈ order, (1 ≤ k ∧ k ≤ x.tasks.length) ∧ x.result k = .ok (x.rows k)

theorem delivered_queued (x : Setting α) (order : List Nat) (rest : List Event) :
    x.delivered (order.map .queued ++ rest) =
      (order.flatMap x.rows).map .ok ++ x.delivered rest := by
  induction order with
  | nil => rfl
  | cons k order ih => simp [delivered, ih]

theorem Account.order {d : Prop} {order : List Nat} {rest : List Event}
    (h : x.Account d (order.map .queued ++ rest)) : x.Order order where
  nodup := by
    refine List.nodup_iff_count_le_one.2 fun k => ?_
    have hcount := h.once k
    rw [List.count_append, List.count_map_of_injective _ _ (fun _ _ => Event.queued.inj)] at hcount
    omega
  tasks k hk := h.queued k (List.mem_append_left _ (List.mem_map_of_mem hk))

/-- What a consumer has got when it is told that there is no more: the items of all tasks, or
those of the tasks whose results were queued before the first failure, and that failure. -/
inductive Delivers (x : Setting α) (received : List (Except FedError α)) : List Event → Prop
  | all {order : List Nat} (horder : x.Order order)
      (hall : ∀ k, 1 ≤ k → k ≤ x.tasks.length → k ∈ order ∨ x.result k = .ok [])
      (hreceived : received = (order.flatMap x.rows).map .ok) :
      Delivers x received (order.map .queued)
  | failed {order : List Nat} {k : Nat} {e : FedError} {rest : List Event} (horder : x.Order order)
      (hk : 1 ≤ k ∧ k ≤ x.tasks.length) (hresult : x.result k = .error e)
      (hreceived : received = (order.flatMap x.rows).map .ok ++ [.error e]) :
      Delivers x received (order.map .queued ++ .failed k :: rest)

/-- A failure is delivered where one has been noted. -/
theorem Account.error_mem_delivered_iff {d : Prop} {log : List Event} (h : x.Account d log) :
    (∃ e, .error e ∈ x.delivered log) ↔ log.any Event.isToss = true := by
  obtain ⟨order, rest, rfl, hrest⟩ := exists_order log
  rw [delivered_queued, List.any_append, any_isToss_queued, Bool.false_or]
  cases rest with
  | nil => simp [delivered]
  | cons e rest =>
    rw [List.any_cons, hrest e rfl, Bool.true_or]
    refine iff_of_true ?_ rfl
    cases e with
    | queued k => exact absurd (hrest _ rfl) Bool.false_ne_true
    | failed k =>
      obtain ⟨-, e, he⟩ := h.failed k (by simp)
      exact ⟨e, List.mem_append_right _ (by simp [delivered, failure, he])⟩
    | refused => exact ⟨_, List.mem_append_right _ (by simp [delivered]; rfl)⟩

section Runs

variable (halone : ∀ task ∈ x.tasks, task.2.Alone) (ht : x.InTime schedule)

include halone ht

/-- Once the branch is cancelled, nothing is queued and nothing fails. -/
theorem log_eq_of_cancelled {k : Nat} (hc : (x.scene schedule n).cancelled = true) (hk : n ≤ k) :
    (x.play schedule k).log = (x.play schedule n).log := by
  induction k, hk using Nat.le_induction with
  | base => rfl
  | succ k hk ih =>
    rw [← ih]
    have hcancelled := cancelled_mono halone ht hc hk
    have hmoves := x.moves halone ht k
    have hshows := (x.tracks halone ht (k + 1)).shows
    rw [play] at hshows ⊢
    cases hstep : schedule k with
    | thread t =>
      rw [hstep] at hmoves hshows
      have hevents : eventsOf (x.play schedule k).machine
          ((x.play schedule k).step (.thread t)).machine t = [] := by
        rw [Scene.eventsOf_shown (x.tracks halone ht k).shows hshows]
        cases hmoves with
        | turns h => exact h.eventsOf_eq_nil hcancelled
        | outside h => cases h
      rw [Moment.step] at hevents ⊢
      rw [hevents, List.append_nil]
    | consumer => rw [Moment.step, Moment.log_note]
    | interrupt t =>
      rw [Moment.step]
      split <;> rfl
    | _ => rfl

/-- Nothing follows the end. -/
theorem received_eq_of_ended {k : Nat} (hended : (x.play schedule n).ended = true) (hk : n ≤ k) :
    (x.play schedule k).received = (x.play schedule n).received := by
  have htracks := x.tracks halone ht n
  have hclosed := htracks.stage.closed hended
  have hclosed' := closed_mono halone ht hclosed hk
  rw [(htracks.stage.of_closed hclosed).2,
    ((x.tracks halone ht k).stage.of_closed hclosed').2,
    log_eq_of_cancelled halone ht (htracks.shapes.cancelled hclosed) hk]

end Runs

/-! ### Two tasks -/

/-- A task that takes its time, and one that does not. -/
def twoTasks : Setting Nat where
  workers := 2
  tasks := [("slow", .sleep 10 (.done (.rows [1, 2]))), ("fast", .done (.rows [3]))]

theorem alone_twoTasks : ∀ task ∈ twoTasks.tasks, task.2.Alone := by
  simp [twoTasks, Work.Alone, Feed.AtHand]

/-- The query is aborted when the first task has been scheduled; then the producer takes note of it,
and the consumer pulls. -/
def abortedEarly : Nat → Step
  | 0 => .thread 2
  | 1 => .abort
  | 2 => .thread 2
  | 3 => .consumer
  | n + 4 => inTurn (n + 4)

theorem inTurn_of_le {k : Nat} (hk : 4 ≤ k) : abortedEarly k = inTurn k := by
  obtain ⟨n, rfl⟩ := Nat.exists_eq_add_of_le' hk
  rfl

theorem quiet_abortedEarly {k : Nat} (hk : 1 < k) : (abortedEarly k).Quiet := by
  obtain rfl | rfl | hlt : k = 2 ∨ k = 3 ∨ 4 ≤ k := by omega
  · trivial
  · trivial
  · exact inTurn_of_le hlt ▸ quiet_inTurn k

/-! ### What is delivered -/

/-- **An executor neither loses nor repeats anything.**  Whoever takes the next step, the consumer
gets the results in the order in which they are queued; when it is told that there is no more it has
got all of them, or those queued before the first failure and that failure; and if everyone keeps
taking steps it is told so. -/
theorem delivers (halone : ∀ task ∈ x.tasks, task.2.Alone) (ht : x.InTime schedule)
    (hquiet : ∀ n, (schedule n).Quiet) :
    (∀ n, (x.play schedule n).received <+: x.delivered (x.play schedule n).log) ∧
    (∀ n, (x.play schedule n).ended = true →
      x.Delivers (x.play schedule n).received (x.play schedule n).log ∧
      ∀ k, n ≤ k → (x.play schedule k).received = (x.play schedule n).received) ∧
    (x.Fair schedule → ∃ n, (x.play schedule n).ended = true) := by
  have undisturbed (n : Nat) : ¬ Disturbed schedule n := fun ⟨k, _, hk⟩ => hk (hquiet k)
  refine ⟨fun n => (x.tracks halone ht n).stage.received_isPrefix, fun n hended => ⟨?_, ?_⟩, ?_⟩
  · have htracks := x.tracks halone ht n
    have haccount := htracks.account
    obtain ⟨hcomplete, hreceived⟩ := htracks.of_ended hended
    obtain ⟨order, rest, hlog, hrest⟩ := exists_order (x.play schedule n).log
    rw [hlog] at haccount hcomplete hreceived ⊢
    rw [delivered_queued] at hreceived
    cases rest with
    | nil =>
      rw [List.append_nil] at hcomplete ⊢
      refine .all haccount.order ?_ (hreceived.trans (List.append_nil _))
      obtain htoss | hd | hall := hcomplete
      · rw [any_isToss_queued] at htoss
        cases htoss
      · exact absurd hd (undisturbed n)
      · intro k hk hk'
        refine (hall k hk hk').imp_left fun hqueued => ?_
        simpa using hqueued
    | cons e rest =>
      cases e with
      | queued k => exact absurd (hrest _ rfl) Bool.false_ne_true
      | failed k =>
        obtain ⟨hk, e, he⟩ := haccount.failed k (by simp)
        refine .failed haccount.order hk he ?_
        rw [hreceived, delivered, failure, he]
      | refused => exact absurd (haccount.refused (by simp)) (undisturbed n)
  · exact fun k hk => received_eq_of_ended halone ht hended hk
  · intro hfair
    obtain ⟨k, -, hended⟩ := exists_ended halone ht hfair (n := 0) (fun k _ => hquiet k)
      (.inl (undisturbed 0))
    exact ⟨k, hended⟩

theorem delivers_twoTasks :
    (∀ task ∈ twoTasks.tasks, task.2.Alone) ∧ twoTasks.InTime inTurn ∧
      (∀ n, (inTurn n).Quiet) ∧ twoTasks.Fair inTurn ∧
      ∃ n, (twoTasks.play inTurn n).ended = true ∧
        twoTasks.Delivers (twoTasks.play inTurn n).received (twoTasks.play inTurn n).log := by
  have ht := inTime_of_timeout_eq_none alone_twoTasks rfl inTurn
  have hfair := fair_of_inTurn alone_twoTasks ht fun k (_ : 0 ≤ k) => rfl
  obtain ⟨-, hends, hended⟩ := delivers alone_twoTasks ht quiet_inTurn
  obtain ⟨n, hn⟩ := hended hfair
  exact ⟨alone_twoTasks, ht, quiet_inTurn, hfair, n, hn, (hends n hn).1⟩

/-! ### What is not reported -/

/-- **Stopping is silent.**  Whoever disturbs a run and however, the consumer gets a failure only
where a task has failed or could not be given to the pool.  If the query is aborted before that, the
consumer gets the results that have been queued by then and is told that there is no more, whatever
is still to come of the other tasks. -/
theorem stopping_is_silent (halone : ∀ task ∈ x.tasks, task.2.Alone) (ht : x.InTime schedule) :
    (∀ n, (x.play schedule n).ended = true →
      ((∃ e, .error e ∈ (x.play schedule n).received) ↔
        (x.play schedule n).log.any Event.isToss = true)) ∧
    ∀ n, schedule n = .abort → (x.play schedule n).log.any Event.isToss = false →
      ∃ order, x.Order order ∧ (x.play schedule n).log = order.map .queued ∧
        (∀ k, n ≤ k → (x.play schedule k).received <+: (order.flatMap x.rows).map .ok ∧
          ((x.play schedule k).ended = true →
            (x.play schedule k).received = (order.flatMap x.rows).map .ok)) ∧
        (x.Fair schedule → (∀ k, n < k → (schedule k).Quiet) →
          ∃ k, n ≤ k ∧ (x.play schedule k).ended = true) := by
  refine ⟨fun n hended => ?_, fun n habort hlog => ?_⟩
  · have htracks := x.tracks halone ht n
    rw [(htracks.of_ended hended).2]
    exact htracks.account.error_mem_delivered_iff
  · have haccount := (x.tracks halone ht n).account
    obtain ⟨order, hsplit⟩ := exists_order_of_any_eq_false hlog
    have hdelivered : x.delivered (x.play schedule n).log = (order.flatMap x.rows).map .ok := by
      rw [hsplit, ← List.append_nil (order.map _), delivered_queued]
      exact List.append_nil _
    rw [hsplit, ← List.append_nil (order.map _)] at haccount
    have hcancelled : (x.scene schedule (n + 1)).cancelled = true := by
      have hmoves := x.moves halone ht n
      rw [habort] at hmoves
      exact hmoves.cancelled_of_abort
    have hlogs {k : Nat} (hk : n ≤ k) : (x.play schedule k).log = (x.play schedule n).log := by
      obtain rfl | hlt := hk.eq_or_lt
      · rfl
      · rw [log_eq_of_cancelled halone ht hcancelled hlt, play, habort]
        rfl
    refine ⟨order, haccount.order, hsplit, fun k hk => ⟨?_, fun hended => ?_⟩,
      fun hfair hquiet => ?_⟩
    · rw [← hdelivered, ← hlogs hk]
      exact (x.tracks halone ht k).stage.received_isPrefix
    · rw [((x.tracks halone ht k).of_ended hended).2, hlogs hk, hdelivered]
    · obtain ⟨k, hk, hended⟩ := exists_ended halone ht hfair (n := n + 1)
        (fun k hk => hquiet k hk) (.inr hcancelled)
      exact ⟨k, by omega, hended⟩

theorem stopping_is_silent_twoTasks :
    (∀ task ∈ twoTasks.tasks, task.2.Alone) ∧ twoTasks.InTime abortedEarly ∧
      twoTasks.Fair abortedEarly ∧
      ∃ n, (twoTasks.play abortedEarly n).ended = true ∧
        (twoTasks.play abortedEarly n).received = [] := by
  have ht := inTime_of_timeout_eq_none alone_twoTasks rfl abortedEarly
  have hfair : twoTasks.Fair abortedEarly :=
    fair_of_inTurn alone_twoTasks ht fun k hk => inTurn_of_le hk
  obtain ⟨order, -, hlog, hgot, hends⟩ := (stopping_is_silent alone_twoTasks ht).2 1 rfl rfl
  obtain ⟨n, hn, hended⟩ := hends hfair fun k hk => quiet_abortedEarly hk
  have horder : order = [] := List.map_eq_nil_iff.1 hlog.symm
  refine ⟨alone_twoTasks, ht, hfair, n, hended, ?_⟩
  rw [(hgot n hn).2 hended, horder]
  rfl

/-- A task whose query is aborted has been scheduled and comes to two items; the consumer gets
neither, and no failure. -/
theorem abort_hides_items :
    abortedEarly 1 = .abort ∧ (twoTasks.play abortedEarly 1).machine.query.tasks.size = 1 ∧
      twoTasks.result 1 = .ok [1, 2] ∧ (twoTasks.play abortedEarly 4).ended = true ∧
      (twoTasks.play abortedEarly 4).received = [] := by
  have ht := inTime_of_timeout_eq_none alone_twoTasks rfl abortedEarly
  obtain ⟨r, s', hpulls, hreceived, hended⟩ := exists_pulls alone_twoTasks ht (n := 3) rfl
  have hdone := hpulls.eq_done_of_isExhausted rfl rfl rfl
  refine ⟨rfl, rfl, rfl, ?_, ?_⟩
  · rw [hended, hdone, Pulled.isDone, Bool.or_true]
  · rw [hreceived, hdone]
    rfl

end Setting

end FederatedSparql
