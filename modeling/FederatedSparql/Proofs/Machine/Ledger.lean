import FederatedSparql.Proofs.Machine.Course

/-!
What has been queued, and what the consumer has got of it.

* `Setting.Ledger`: what the consumer has got and what is still ahead of it are what is to be
  delivered by the log, and every task is accounted for once.
-/

namespace FederatedSparql

open Machine

variable {α : Type}

/-- Whether an event is a failure. -/
def Event.isToss : Event → Bool
  | .queued _ => false
  | _ => true

/-- What the consumer gets by a pull. -/
def Pulled.got : Pulled α → List (Except FedError α)
  | .item v => [.ok v]
  | .failure e => [.error e]
  | _ => []

/-- Who waits for room gives up only if he is to stop. -/
theorem Executor.eq_true_of_dropped {e : Executor α} {cancelled : Bool} {t : Nat}
    (hreceiving : e.receiving = true) (h : e.admissionOfWaiting cancelled t = .dropped) :
    cancelled = true := by
  rw [admissionOfWaiting, hreceiving, Bool.not_true, Bool.or_false] at h
  cases cancelled with
  | true => rfl
  | false =>
    rw [if_neg Bool.false_ne_true] at h
    split at h <;> cases h

/-- Who is to stop gets no room. -/
theorem Executor.eq_false_of_queued {e : Executor α} {cancelled : Bool} {t : Nat}
    (h : e.admissionOfWaiting cancelled t = .queued) : cancelled = false := by
  cases cancelled with
  | false => rfl
  | true =>
    rw [admissionOfWaiting, Bool.true_or, if_pos rfl] at h
    cases h

namespace Scene

variable {s s' : Scene α} {t : Nat}

/-- What is still ahead of the consumer. -/
def ahead [BEq α] (s : Scene α) : List (Except FedError α) :=
  (s.executor.current.map Cursor.arrivals).getD [] ++ s.executor.queue.flatMap Cursor.arrivals

/-- How often the task of a number is in hand. -/
def tally (s : Scene α) (k : Nat) : Nat :=
  s.jobs.countP (·.task = k) + s.held.countP (·.task = k)

theorem ahead_push [BEq α] (s : Scene α) (c : Cursor α) :
    (s.update (·.push c)).ahead = s.ahead ++ c.arrivals := by
  simp [ahead, update, Executor.push, List.flatMap_append]

/-- What a thread has done, to tell from the scene before and after its step. -/
def eventsOf (s s' : Scene α) (t : Nat) : List Event :=
  let tossed := !s.executor.error.isSome && s'.executor.error.isSome
  let queued := s'.executor.queue.length - s.executor.queue.length
  match (s.activity? t).bind Activity.job? with
  | some job =>
    List.replicate queued (.queued job.task) ++ if tossed then [.failed job.task] else []
  | none => if tossed then [.refused] else []

theorem eventsOf_shown {m m' : Machine α} (hm : m.Shows s) (hm' : m'.Shows s') :
    Machine.eventsOf m m' t = s.eventsOf s' t := by
  rw [Machine.eventsOf, eventsOf, activity?_shown hm, hasFailed, hasFailed, queueLength,
    queueLength, hm.getElem?_executors, hm'.getElem?_executors]
  rfl

theorem eventsOf_eq_nil (hqueue : s'.executor.queue = s.executor.queue)
    (herror : s'.executor.error = s.executor.error) : s.eventsOf s' t = [] := by
  simp only [eventsOf, hqueue, herror, Nat.sub_self]
  cases (s.activity? t).bind Activity.job? <;> cases s.executor.error <;> rfl

/-- The result of the task in hand has been queued. -/
theorem eventsOf_eq_queued {job : Job α} {c : Cursor α}
    (hjob : (s.activity? t).bind Activity.job? = some job)
    (hqueue : s'.executor.queue = s.executor.queue ++ [c])
    (herror : s'.executor.error = s.executor.error) : s.eventsOf s' t = [.queued job.task] := by
  simp only [eventsOf, hjob, hqueue, herror, List.length_append, List.length_singleton,
    Nat.add_sub_cancel_left, List.replicate_one]
  cases s.executor.error <;> rfl

/-- The task in hand has failed. -/
theorem eventsOf_eq_failed {job : Job α} {e : FedError}
    (hjob : (s.activity? t).bind Activity.job? = some job)
    (hqueue : s'.executor.queue = s.executor.queue) (herror : s.executor.error = none)
    (herror' : s'.executor.error = some e) : s.eventsOf s' t = [.failed job.task] := by
  simp [eventsOf, hjob, hqueue, herror, herror']

/-- A task could not be given to the pool. -/
theorem eventsOf_eq_refused {e : FedError} (hjob : (s.activity? t).bind Activity.job? = none)
    (herror : s.executor.error = none) (herror' : s'.executor.error = some e) :
    s.eventsOf s' t = [.refused] := by
  simp [eventsOf, hjob, herror, herror']

/-- The task in hand of a thread is exchanged for what it goes on with. -/
theorem tally_become (s : Scene α) {th : Thread α} {u : Scene α} (hthreads : u.threads = s.threads)
    (ht : s.threads[t]? = some th) (a : Activity α) (k : Nat) :
    (u.become t a).tally k + s.jobs.countP (·.task = k) +
        th.activity.job?.toList.countP (·.task = k) =
      s.tally k + u.jobs.countP (·.task = k) + a.job?.toList.countP (·.task = k) := by
  have hcount := u.countP_held_become (·.task = k) (hthreads ▸ ht) a
  have hjobs : (u.become t a).jobs = u.jobs := rfl
  rw [held_congr hthreads] at hcount
  simp only [tally, hjobs]
  omega

/-- A thread goes on with its task, or has none. -/
theorem tally_keep {th : Thread α} {u : Scene α} {a : Activity α} (hthreads : u.threads = s.threads)
    (ht : s.threads[t]? = some th) (ha : a.job? = th.activity.job?) (hjobs : u.jobs = s.jobs)
    (k : Nat) : (u.become t a).tally k = s.tally k := by
  have := s.tally_become hthreads ht a k
  rw [ha, hjobs] at this
  omega

/-- A worker takes the first job. -/
theorem tally_take {th : Thread α} {u : Scene α} {a : Activity α} {job : Job α}
    (hthreads : u.threads = s.threads) (ht : s.threads[t]? = some th)
    (hjob : th.activity.job? = none) (ha : a.job? = some job) (hjobs : s.jobs = job :: u.jobs)
    (k : Nat) : (u.become t a).tally k = s.tally k := by
  have := s.tally_become hthreads ht a k
  rw [hjob, ha, hjobs] at this
  simp only [Option.toList_some, Option.toList_none, List.countP_nil, List.countP_cons] at this
  omega

/-- A thread is done with its task. -/
theorem tally_finish {th : Thread α} {u : Scene α} {a : Activity α} {job : Job α}
    (hthreads : u.threads = s.threads) (ht : s.threads[t]? = some th)
    (hjob : th.activity.job? = some job) (ha : a.job? = none) (hjobs : u.jobs = s.jobs) (k : Nat) :
    (u.become t a).tally k + [job.task].count k = s.tally k := by
  have := s.tally_become hthreads ht a k
  have hone : [job.task].count k = [job].countP (·.task = k) := by
    simp [List.count_singleton, List.countP_singleton]
  rw [hjob, ha, hjobs] at this
  simp only [Option.toList_some, Option.toList_none, List.countP_nil] at this
  omega

end Scene

namespace Setting

variable [DecidableEq α] {x : Setting α} {d : Prop} {s s' : Scene α} {t : Nat}
  {received : List (Except FedError α)} {log : List Event}

/-! ### What is to be delivered -/

theorem delivered_append (x : Setting α) (h : log.any Event.isToss = false) (rest : List Event) :
    x.delivered (log ++ rest) = x.delivered log ++ x.delivered rest := by
  induction log with
  | nil => rfl
  | cons e log ih =>
    rw [List.any_cons, Bool.or_eq_false_iff] at h
    cases e with
    | queued k => simp [delivered, ih h.2]
    | failed k => cases h.1
    | refused => cases h.1

/-! ### The ledger -/

/-- What the consumer has got and what is ahead of it are what is to be delivered, and every task
is accounted for once. -/
structure Ledger (x : Setting α) (disturbed : Prop) (s : Scene α)
    (received : List (Except FedError α)) (log : List Event) : Prop where
  content : received ++ s.ahead ++ s.executor.error.toList.map .error = x.delivered log
  tossed : s.executor.error = none ↔ log.any Event.isToss = false
  queued : ∀ k, .queued k ∈ log → (1 ≤ k ∧ k ≤ s.registered) ∧ x.result k = .ok (x.rows k)
  failed : ∀ k, .failed k ∈ log → (1 ≤ k ∧ k ≤ s.registered) ∧ ∃ e, x.result k = .error e
  refused : .refused ∈ log → disturbed
  once : ∀ k, s.tally k + log.count (.queued k) ≤ 1
  all : s.executor.error = none → disturbed ∨ ∀ k, 1 ≤ k → k ≤ s.registered →
    s.tally k + log.count (.queued k) = 1 ∨ x.result k = .ok []

namespace Ledger

/-- Nothing is queued, and nothing fails. -/
theorem keep (h : x.Ledger d s received log) (hahead : s'.ahead = s.ahead)
    (herror : s'.executor.error = s.executor.error) (hregistered : s'.registered = s.registered)
    (htally : ∀ k, s'.tally k ≤ s.tally k)
    (hall : s.executor.error = none → d ∨ ∀ k, s'.tally k = s.tally k ∨ x.result k = .ok []) :
    x.Ledger d s' received log := by
  refine ⟨?_, ?_, ?_, ?_, h.refused,
    fun k => (Nat.add_le_add_right (htally k) _).trans (h.once k), ?_⟩
  · rw [hahead, herror]
    exact h.content
  · rw [herror]
    exact h.tossed
  · rw [hregistered]
    exact h.queued
  · rw [hregistered]
    exact h.failed
  · rw [herror, hregistered]
    intro he
    obtain hd | hsame := hall he
    · exact .inl hd
    · refine (h.all he).imp_right fun hcounted k hk hk' => ?_
      obtain heq | hempty := hsame k
      · rw [heq]
        exact hcounted k hk hk'
      · exact .inr hempty

/-- The result of a task is queued. -/
theorem queue (h : x.Ledger d s received log) {k : Nat} {c : Cursor α}
    (herror : s.executor.error = none) (hresult : x.result k = .ok (x.rows k))
    (hc : c.Holds (x.rows k)) (hk : 1 ≤ k ∧ k ≤ s.registered)
    (hahead : s'.ahead = s.ahead ++ c.arrivals) (herror' : s'.executor.error = none)
    (hregistered : s'.registered = s.registered)
    (htally : ∀ i, s'.tally i + [k].count i = s.tally i) :
    x.Ledger d s' received (log ++ [.queued k]) := by
  have hnone := h.tossed.1 herror
  have hcount (i : Nat) : s'.tally i + (log ++ [Event.queued k]).count (Event.queued i) =
      s.tally i + log.count (Event.queued i) := by
    have hone : [Event.queued k].count (Event.queued i) = [k].count i := by
      simp [List.count_singleton]
    rw [List.count_append, hone, ← htally i]
    omega
  refine ⟨?_, ?_, fun i hi => ?_, fun i hi => ?_, fun hr => h.refused (by simpa using hr),
    fun i => (hcount i).trans_le (h.once i), ?_⟩
  · have hcontent := h.content
    simp only [herror, Option.toList_none, List.map_nil, List.append_nil] at hcontent
    simp only [hahead, herror', Option.toList_none, List.map_nil, List.append_nil,
      delivered_append x hnone, ← hcontent, hc.2, List.append_assoc, delivered]
    rfl
  · simp [herror', List.any_append, hnone, Event.isToss]
  · rw [hregistered]
    simp only [List.mem_append, List.mem_singleton] at hi
    obtain hi | heq := hi
    · exact h.queued i hi
    · cases heq
      exact ⟨hk, hresult⟩
  · rw [hregistered]
    simp only [List.mem_append, List.mem_singleton, reduceCtorEq, or_false] at hi
    exact h.failed i hi
  · intro _
    rw [hregistered]
    exact (h.all herror).imp_right fun hcounted i hi hi' => hcount i ▸ hcounted i hi hi'

/-- A failure is recorded. -/
theorem toss (h : x.Ledger d s received log) {e : FedError} {event : Event}
    (herror : s.executor.error = none) (hevent : event.isToss = true)
    (hdelivered : x.delivered [event] = [.error e])
    (hfailed : ∀ k, event = .failed k →
      (1 ≤ k ∧ k ≤ s.registered) ∧ ∃ e, x.result k = .error e)
    (hrefused : event = .refused → d)
    (hahead : s'.ahead = s.ahead) (herror' : s'.executor.error = some e)
    (hregistered : s'.registered = s.registered) (htally : ∀ k, s'.tally k ≤ s.tally k) :
    x.Ledger d s' received (log ++ [event]) := by
  have hnone := h.tossed.1 herror
  have hnot (k : Nat) : Event.queued k ≠ event := fun heq => by simp [← heq, Event.isToss] at hevent
  refine ⟨?_, ?_, fun k hk => ?_, fun k hk => ?_, fun hr => ?_, fun k => ?_, fun he => ?_⟩
  · have hcontent := h.content
    simp only [herror, Option.toList_none, List.map_nil, List.append_nil] at hcontent
    simp [hahead, herror', delivered_append x hnone, ← hcontent, hdelivered]
  · simp [herror', List.any_append, hevent]
  · rw [hregistered]
    simp only [List.mem_append, List.mem_singleton, hnot, or_false] at hk
    exact h.queued k hk
  · rw [hregistered]
    simp only [List.mem_append, List.mem_singleton] at hk
    obtain hk | heq := hk
    · exact h.failed k hk
    · exact hfailed k heq.symm
  · obtain hr | hr := List.mem_append.1 hr
    · exact h.refused hr
    · exact hrefused (List.mem_singleton.1 hr).symm
  · have := h.once k
    have := htally k
    have hcount : [event].count (.queued k) = 0 := by simp [(hnot k).symm]
    rw [List.count_append]
    omega
  · rw [herror'] at he
    cases he

/-- A thread goes on with its task, or has none. -/
theorem goesOn (h : x.Ledger d s received log) {th : Thread α} {u : Scene α} {a : Activity α}
    (ht : s.threads[t]? = some th) (ha : a.job? = th.activity.job?)
    (hthreads : u.threads = s.threads) (hjobs : u.jobs = s.jobs) (hahead : u.ahead = s.ahead)
    (herror : u.executor.error = s.executor.error) (hregistered : u.registered = s.registered) :
    x.Ledger d (u.become t a) received log :=
  have htally := Scene.tally_keep hthreads ht ha hjobs
  h.keep hahead herror hregistered (fun k => (htally k).le) fun _ => .inr fun k => .inl (htally k)

/-- A task is given up, with a reason or because it has no items. -/
theorem givesUp (h : x.Ledger d s received log) {th : Thread α} {u : Scene α} {a : Activity α}
    {job : Job α} (ht : s.threads[t]? = some th) (hjob : th.activity.job? = some job)
    (ha : a.job? = none) (hthreads : u.threads = s.threads) (hjobs : u.jobs = s.jobs)
    (hahead : u.ahead = s.ahead) (herror : u.executor.error = s.executor.error)
    (hregistered : u.registered = s.registered)
    (hreason : s.executor.error = none → d ∨ x.result job.task = .ok []) :
    x.Ledger d (u.become t a) received log := by
  have htally := Scene.tally_finish hthreads ht hjob ha hjobs
  refine h.keep hahead herror hregistered (fun k => by have := htally k; omega) fun he => ?_
  refine (hreason he).imp_right fun hempty k => ?_
  by_cases hk : job.task = k
  · exact .inr (hk ▸ hempty)
  · left
    have hzero : [job.task].count k = 0 := by simp [hk]
    have := htally k
    omega

/-- Only tasks that have been registered are in hand. -/
theorem tally_eq_zero (hx : x.Shapes s) {k : Nat} (hk : s.registered < k) : s.tally k = 0 := by
  have unknown {job : Job α} (hjob : x.Knows s.registered job) : job.task ≠ k := by
    have := hjob.task_le
    omega
  refine Nat.add_eq_zero_iff.2 ⟨List.countP_eq_zero.2 fun job hjob => ?_,
    List.countP_eq_zero.2 fun job hjob => ?_⟩
  · simpa using unknown (hx.jobs job hjob)
  · obtain ⟨th, hth, hjob⟩ := List.mem_filterMap.1 hjob
    obtain ⟨t, ht⟩ := List.mem_iff_getElem?.1 hth
    have hemploys := hx.threads t _ (Scene.activity?_eq ht)
    cases hactivity : th.activity <;> rw [hactivity] at hjob hemploys <;> cases hjob <;>
      simpa using unknown hemploys.2.1

/-- The next task is registered. -/
theorem schedule (h : x.Ledger d s received log) (hx : x.Shapes s) {name : String} {work : Work α}
    {rest : List (String × Work α)} {b : Production α}
    (ht : s.threads[t]? = some ⟨.producing 0 (.branches ((name, work) :: rest)), false⟩) :
    x.Ledger d ((s.schedule name work).become t (.producing 0 b)) received log := by
  have htally (k : Nat) : ((s.schedule name work).become t (.producing 0 b)).tally k =
      s.tally k + [s.registered + 1].count k := by
    have := s.tally_become (u := s.schedule name work) rfl ht (.producing 0 b) k
    simp only [Scene.schedule, Activity.job?, Option.toList_none, List.countP_nil,
      List.countP_append, List.countP_singleton, decide_eq_true_eq] at this
    rw [List.count_singleton]
    simp only [beq_iff_eq]
    simp only [Scene.schedule]
    omega
  have hnew : s.tally (s.registered + 1) + log.count (.queued (s.registered + 1)) = 0 := by
    rw [tally_eq_zero hx (Nat.lt_succ_self _), Nat.zero_add, List.count_eq_zero]
    intro hqueued
    have := (h.queued _ hqueued).1.2
    omega
  have hcount {k : Nat} (hk : s.registered + 1 ≠ k) : [s.registered + 1].count k = 0 := by
    simp [hk]
  refine ⟨h.content, h.tossed, fun k hk => ?_, fun k hk => ?_, h.refused, fun k => ?_, fun he => ?_⟩
  · exact (h.queued k hk).imp_left (.imp_right (·.trans (Nat.le_succ _)))
  · exact (h.failed k hk).imp_left (.imp_right (·.trans (Nat.le_succ _)))
  · rw [htally]
    by_cases hk : s.registered + 1 = k
    · subst hk
      rw [List.count_singleton_self]
      omega
    · rw [hcount hk]
      exact h.once k
  · refine (h.all he).imp_right fun hcounted k hk hk' => ?_
    rw [htally]
    by_cases hknew : s.registered + 1 = k
    · subst hknew
      rw [List.count_singleton_self]
      omega
    · have hle : k ≤ s.registered + 1 := hk'
      rw [hcount hknew]
      exact hcounted k hk (by omega)

/-- Nothing of a result that is dropped is missed, unless the run was disturbed. -/
theorem empty_of_dropped {job : Job α} {run : Run α} {c : Cursor α} (hx : x.Shapes s)
    (hflags : x.Flags d s) (hstaff : Staff d s)
    (ht : s.threads[t]? = some ⟨.working .union job run, false⟩) (hc : s.cancelled = false)
    (hrun : run.Follows s (.done c))
    (hadmission : s.executor.admission s.cancelled c = .dropped) (he : s.executor.error = none) :
    d ∨ x.result job.task = .ok [] := by
  obtain ⟨-, -, -, houtcome⟩ := hx.threads t _ (Scene.activity?_eq ht)
  obtain ⟨hresult, -, harrivals⟩ := result_eq_ok hx houtcome hrun
  have hdropped : c.isKnownEmpty = true ∨ s.executor.producing = false := by
    rw [Executor.admission, hc, he, hflags.receiving, Executor.isActive, hflags.opened]
      at hadmission
    cases hempty : c.isKnownEmpty with
    | true => exact .inl rfl
    | false =>
      right
      cases hproducing : s.executor.producing with
      | false => rfl
      | true =>
        rw [hempty, hproducing] at hadmission
        split at hadmission
        · next h => cases h
        · split at hadmission <;> cases hadmission
  obtain hempty | hproducing := hdropped
  · right
    rw [Cursor.arrivals_eq_nil hempty] at harrivals
    rw [hresult, List.map_eq_nil_iff.1 harrivals.symm]
  · have hpos := hstaff.pending_pos ht rfl
    obtain hne | hd | ⟨-, hzero⟩ := hflags.complete hproducing
    · exact absurd he hne
    · exact .inl hd
    · omega

theorem of_events {events : List Event} (hevents : s.eventsOf s' t = events)
    (h : x.Ledger d s' received (log ++ events)) :
    x.Ledger d s' received (log ++ s.eventsOf s' t) := hevents ▸ h

/-- **Turns are entered in the ledger.** -/
theorem turns (h : x.Ledger d s received log) (hx : x.Shapes s) (hflags : x.Flags d s)
    (hstaff : Staff d s) (ht : s.Turns t s') : x.Ledger d s' received (log ++ s.eventsOf s' t) := by
  have same {u : Scene α} (hqueue : u.executor.queue = s.executor.queue)
      (herror : u.executor.error = s.executor.error) (hu : x.Ledger d u received log) :
      x.Ledger d u received (log ++ s.eventsOf u t) :=
    of_events (Scene.eventsOf_eq_nil hqueue herror) ((List.append_nil log).symm ▸ hu)
  have noError (hc : s.cancelled = false) : s.executor.error = none := by
    by_contra he
    exact absurd (hflags.failed he).1 (by simp [hc])
  have first (hc : s.cancelled = false) (e : FedError) : s.executor.error.or (some e) = some e := by
    rw [noError hc]
    rfl
  have inHand {th : Thread α} (hth : s.threads[t]? = some th) :
      (s.activity? t).bind Activity.job? = th.activity.job? := by
    rw [Scene.activity?_eq hth]
    rfl
  cases ht with
  | rests _ => exact same rfl rfl h
  | linesUp _ _ =>
    exact same rfl rfl (h.keep rfl rfl rfl (fun _ => le_rfl) fun _ => .inr fun _ => .inl rfl)
  | @takes job rest ht hjobs =>
    have htally := Scene.tally_take (s := s) (u := { s.leaveLine t with jobs := rest })
      (a := .working .union job (.ready job.work)) rfl ht rfl rfl hjobs
    exact same rfl rfl (h.keep rfl rfl rfl (fun k => (htally k).le) fun _ =>
      .inr fun k => .inl (htally k))
  | retires ht _ | runs ht _ _ _ _ | halts ht _ | awaits ht _ | completes ht _ _ | stops ht =>
    exact same rfl rfl (h.goesOn ht rfl rfl rfl rfl rfl rfl)
  | holds ht _ _ _ => exact same rfl rfl (h.goesOn ht rfl rfl rfl rfl rfl rfl)
  | cancels ht hc =>
    exact same rfl rfl (h.givesUp ht rfl rfl rfl rfl rfl rfl rfl fun he =>
      .inl ((hflags.cancelled hc).resolve_left fun hne => hne he))
  | drops ht hc hrun hadmission =>
    exact same rfl rfl (h.givesUp ht rfl rfl rfl rfl rfl rfl rfl
      (empty_of_dropped hx hflags hstaff ht hc hrun hadmission))
  | @queues job run c ht hc hrun hadmission =>
    obtain ⟨-, hknows, -, houtcome⟩ := hx.threads t _ (Scene.activity?_eq ht)
    obtain ⟨hresult, hc'⟩ := result_eq_ok hx houtcome hrun
    exact of_events (Scene.eventsOf_eq_queued (inHand ht) rfl rfl) (h.queue (noError hc) hresult hc'
      ⟨hknows.task_pos, hknows.task_le⟩ (Scene.ahead_push s c) (noError hc) rfl
      (Scene.tally_finish rfl ht rfl rfl rfl))
  | @fails job run e ht hc hending =>
    obtain ⟨-, hknows, -, houtcome⟩ := hx.threads t _ (Scene.activity?_eq ht)
    have hresult := failure_eq hx houtcome hending
    rw [Scene.toss_eq hflags.opened]
    refine of_events (Scene.eventsOf_eq_failed (inHand ht) rfl (noError hc) (first hc _)) ?_
    refine h.toss (noError hc) rfl (by simp [delivered, failure, hresult]) ?_ nofun rfl
      (first hc _) rfl ?_
    · rintro k ⟨⟩
      exact ⟨⟨hknows.task_pos, hknows.task_le⟩, _, hresult⟩
    · intro k
      have := Scene.tally_finish (u := ((s.update fun x => { x with
        error := x.error.or (some (e.getD (.internalScheduling (.taskPanicked job.name))))
        producing := false }).cancel).update Executor.finishTask) (a := .idle .union) rfl ht rfl rfl
        rfl k
      exact Nat.le.intro this
  | givesUp ht hadmission =>
    have hc := Executor.eq_true_of_dropped hflags.receiving hadmission
    exact same rfl rfl (h.givesUp ht rfl rfl rfl rfl rfl rfl rfl fun he =>
      .inl ((hflags.cancelled hc).resolve_left fun hne => hne he))
  | @sends job c ht hadmission =>
    obtain ⟨-, hknows, hc', hresult⟩ := hx.threads t _ (Scene.activity?_eq ht)
    have hc := Executor.eq_false_of_queued hadmission
    exact of_events (Scene.eventsOf_eq_queued (inHand ht) rfl rfl) (h.queue (noError hc) hresult hc'
      ⟨hknows.task_pos, hknows.task_le⟩ (Scene.ahead_push s c) (noError hc) rfl
      (Scene.tally_finish rfl ht rfl rfl rfl))
  | schedules ht _ _ => exact same rfl rfl (h.schedule hx ht)
  | isRefused ht hc ha =>
    rw [Scene.toss_eq hflags.opened]
    refine of_events (Scene.eventsOf_eq_refused (inHand ht) (noError hc) (first hc _)) ?_
    refine h.toss (noError hc) rfl (by rw [delivered, hx.pool]) nofun
      (fun _ => hflags.accepting ha) rfl (first hc _) rfl ?_
    intro k
    exact (Scene.tally_keep (u := ((s.update fun y => { y with
      error := y.error.or (some (.internalScheduling (.schedulerShutDown s.pool)))
      producing := false }).cancel).update Executor.endProduction) (a := .finished) rfl ht rfl rfl
      k).le
  | leavesLine ht => exact same rfl rfl (h.goesOn (u := s.leaveLine t) ht rfl rfl rfl rfl rfl rfl)
  | abandons ht =>
    exact same rfl rfl (h.givesUp (u := s.update Executor.finishTask) ht rfl rfl rfl rfl rfl rfl rfl
      fun _ => .inl (hstaff.disturbed_of_doomed ht rfl))
  | abandonsResult ht =>
    exact same rfl rfl (h.givesUp (u := (s.update (Executor.leave t)).update Executor.finishTask) ht
      rfl rfl rfl rfl rfl rfl rfl fun _ => .inl (hstaff.disturbed_of_doomed ht rfl))

theorem mono {d' : Prop} (h : x.Ledger d s received log) (hd : d → d') :
    x.Ledger d' s received log :=
  { h with
    refused := fun hr => hd (h.refused hr)
    all := fun he => (h.all he).imp_left hd }

/-- Time, and those who disturb a run, queue nothing. -/
theorem outside {e : Step} (h : x.Ledger d s received log) (he : s.Outside e s') :
    x.Ledger (d ∨ ¬ e.Quiet) s' received log := by
  have h := h.mono (show d → d ∨ ¬ e.Quiet from .inl)
  cases he with
  | time _ | abort | stopPool =>
    exact h.keep rfl rfl rfl (fun _ => le_rfl) fun _ => .inr fun _ => .inl rfl
  | misses _ => exact h
  | @interrupt t =>
    have htally (k : Nat) : (s.doom t).tally k = s.tally k := by
      rw [Scene.tally, Scene.held_doom]
      rfl
    exact h.keep rfl rfl rfl (fun k => (htally k).le) fun _ => .inr fun k => .inl (htally k)
  | discardJobs =>
    refine h.keep rfl rfl rfl (fun k => ?_) fun _ => .inl (.inr id)
    exact Nat.add_le_add_right (Nat.zero_le _) _

/-- **The consumer gets what is ahead of it.** -/
theorem pulls {r : Pulled α} (h : x.Ledger d s received log) (hr : s.Pulls r s')
    (hopened : s'.executor.closed = false) : x.Ledger d s' (received ++ r.got) log := by
  have moves {u : Scene α} (hahead : s.ahead = r.got ++ u.ahead)
      (herror : u.executor.error = s.executor.error) (hregistered : u.registered = s.registered)
      (htally : ∀ k, u.tally k = s.tally k) : x.Ledger d u (received ++ r.got) log := by
    have hcontent := h.content
    refine ⟨?_, herror ▸ h.tossed, hregistered ▸ h.queued, hregistered ▸ h.failed, h.refused,
      fun k => ?_, fun he => ?_⟩
    · rw [← h.content, hahead, herror, List.append_assoc received]
    · rw [htally]
      exact h.once k
    · rw [hregistered]
      simp only [htally]
      exact h.all (herror ▸ he)
  cases hr with
  | isOver _ => exact moves rfl rfl rfl fun _ => rfl
  | passes _ hcurrent _ harrivals _ =>
    exact moves (by simp [Scene.ahead, Scene.update, hcurrent, harrivals, Pulled.got]) rfl rfl
      fun _ => rfl
  | getsOn _ hcurrent _ harrivals _ =>
    exact moves (by simp [Scene.ahead, Scene.update, hcurrent, harrivals, Pulled.got]) rfl rfl
      fun _ => rfl
  | empties _ hcurrent harrivals =>
    exact moves (by simp [Scene.ahead, Scene.update, hcurrent, harrivals, Pulled.got]) rfl rfl
      fun _ => rfl
  | opens _ hcurrent hqueue =>
    exact moves (by simp [Scene.ahead, Scene.update, hcurrent, hqueue, Pulled.got]) rfl rfl
      fun _ => rfl
  | waits _ _ _ _ => exact moves rfl rfl rfl fun _ => rfl
  | fails _ _ _ _ | ends _ _ _ _ => exact absurd s.closed_finish (by simp [hopened])

/-- **When the executor is closed, the consumer has got all that is to be delivered.** -/
theorem ends {r : Pulled α} (h : x.Ledger d s received log) (hr : s.Pulls r s')
    (hflags : x.Flags d s) (hclosed : s'.executor.closed = true) :
    received ++ r.got = x.delivered log := by
  have hopened := hflags.opened
  have hcontent := h.content
  have empty (hexhausted : s.executor.isExhausted = true) (hcurrent : s.executor.current = none) :
      s.ahead = [] := by
    have hqueue : s.executor.queue = [] := by
      simp only [Executor.isExhausted, Bool.and_eq_true, List.isEmpty_iff] at hexhausted
      exact hexhausted.1.1
    simp [Scene.ahead, hcurrent, hqueue]
  cases hr with
  | isOver hfinished => exact absurd hfinished (by simp [hflags.unfinished])
  | passes _ _ _ _ _ | getsOn _ _ _ _ _ | empties _ _ _ | opens _ _ _ | waits _ _ _ _ =>
    exact absurd hclosed (by simp [Scene.update, hopened])
  | fails _ hcurrent hexhausted herror =>
    rw [empty hexhausted hcurrent, herror] at hcontent
    simpa [Pulled.got] using hcontent
  | ends _ hcurrent hexhausted herror =>
    rw [empty hexhausted hcurrent, herror] at hcontent
    simpa [Pulled.got] using hcontent

end Ledger

end Setting

end FederatedSparql
