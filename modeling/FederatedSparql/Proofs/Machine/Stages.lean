import FederatedSparql.Proofs.Machine.Ledger

/-!
Where a run stands: it is under way, or it is over and everything has been delivered.

* `Setting.Stage.turns`, `Setting.Stage.pulls`, `Setting.Stage.outside`: every step keeps that so.
-/

namespace FederatedSparql

open Machine

variable {α : Type}

namespace Scene

variable {s s' : Scene α} {t : Nat}

theorem closed_toss (s : Scene α) (e : FedError) :
    (s.toss e).executor.closed = s.executor.closed := by
  unfold toss
  split
  · rfl
  · next h => simp [update, cancel, Executor.toss, h]

theorem Outside.closed_eq {e : Step} (h : s.Outside e s') :
    s'.executor.closed = s.executor.closed := by
  cases h <;> rfl

variable [DecidableEq α]

theorem Turns.closed_eq (h : s.Turns t s') : s'.executor.closed = s.executor.closed := by
  cases h with
  | fails _ _ _ => exact s.closed_toss _
  | isRefused _ _ _ => exact s.closed_toss _
  | _ => rfl

/-- Once the branch is cancelled it stays so. -/
theorem Turns.cancelled (h : s.Turns t s') (hc : s.cancelled = true) : s'.cancelled = true := by
  cases h with
  | fails _ hc' _ | isRefused _ hc' _ => exact absurd hc (by simp [hc'])
  | _ => exact hc

/-- **Nothing is queued and nothing fails once the branch is cancelled.** -/
theorem Turns.eventsOf_eq_nil (h : s.Turns t s') (hc : s.cancelled = true) :
    s.eventsOf s' t = [] := by
  cases h with
  | sends _ hadmission => exact absurd hc (by simp [Executor.eq_false_of_queued hadmission])
  | queues _ hc' _ _ | fails _ hc' _ | isRefused _ hc' _ => exact absurd hc (by simp [hc'])
  | _ => exact Scene.eventsOf_eq_nil rfl rfl

end Scene

/-! ### What the consumer takes note of -/

/-- Whether a pull tells that there is no more. -/
def Pulled.isDone : Pulled α → Bool
  | .done => true
  | _ => false

namespace Setting

variable [DecidableEq α] {x : Setting α} {d : Prop} {s s' : Scene α} {t : Nat}
  {received : List (Except FedError α)} {ended : Bool} {log : List Event}

/-! ### Stages -/

/-- A log is one of the tasks of a setting. -/
structure Account (x : Setting α) (disturbed : Prop) (log : List Event) : Prop where
  queued : ∀ k, .queued k ∈ log → (1 ≤ k ∧ k ≤ x.tasks.length) ∧ x.result k = .ok (x.rows k)
  failed : ∀ k, .failed k ∈ log → (1 ≤ k ∧ k ≤ x.tasks.length) ∧ ∃ e, x.result k = .error e
  refused : .refused ∈ log → disturbed
  once : ∀ k, log.count (.queued k) ≤ 1

/-- Every task that has items has been queued, unless there is a reason. -/
def Complete (x : Setting α) (disturbed : Prop) (log : List Event) : Prop :=
  log.any Event.isToss = true ∨ disturbed ∨
    ∀ k, 1 ≤ k → k ≤ x.tasks.length → .queued k ∈ log ∨ x.result k = .ok []

/-- A run is under way, or it is over. -/
inductive Stage (x : Setting α) (disturbed : Prop) (s : Scene α)
    (received : List (Except FedError α)) (ended : Bool) (log : List Event) : Prop
  | going (posts : s.Posts) (flags : x.Flags disturbed s) (staff : Staff disturbed s)
      (ledger : x.Ledger disturbed s received log) (unended : ended = false)
  | finished (closed : s.executor.closed = true) (account : x.Account disturbed log)
      (complete : x.Complete disturbed log) (delivered : received = x.delivered log)

theorem Account.mono {d' : Prop} (h : x.Account d log) (hd : d → d') : x.Account d' log :=
  { h with refused := fun hr => hd (h.refused hr) }

theorem Ledger.account (h : x.Ledger d s received log) (hx : x.Shapes s) : x.Account d log where
  queued k hk := (h.queued k hk).imp_left (.imp_right (·.trans hx.registered))
  failed k hk := (h.failed k hk).imp_left (.imp_right (·.trans hx.registered))
  refused := h.refused
  once k := (Nat.le_add_left _ _).trans (h.once k)

/-- An executor that is at its end has had all results queued. -/
theorem Ledger.complete (h : x.Ledger d s received log) (hflags : x.Flags d s)
    (hstaff : Staff d s) (hproducing : s.executor.producing = false) : x.Complete d log := by
  cases herror : s.executor.error with
  | some e =>
    left
    by_contra htoss
    rw [Bool.not_eq_true, ← h.tossed, herror] at htoss
    cases htoss
  | none =>
    right
    refine (h.all herror).elim .inl fun hcounted => ?_
    refine ((hflags.complete hproducing).resolve_left (· herror)).imp_right ?_
    rintro ⟨hregistered, hpending⟩ k hk hk'
    have hjobs : s.jobs = [] := List.eq_nil_of_length_eq_zero (by have := hstaff.pending; omega)
    have hheld : s.held = [] := List.eq_nil_of_length_eq_zero (by have := hstaff.pending; omega)
    have htally : s.tally k = 0 := by simp [Scene.tally, hjobs, hheld]
    refine (hcounted k hk (hregistered ▸ hk')).imp_left fun hone => ?_
    rw [htally, Nat.zero_add] at hone
    exact List.count_pos_iff.1 (by omega)

namespace Stage

theorem account (h : x.Stage d s received ended log) (hx : x.Shapes s) : x.Account d log := by
  cases h with
  | going _ _ _ ledger _ => exact ledger.account hx
  | finished _ account _ _ => exact account

/-- What the consumer has got is a part of what is to be delivered. -/
theorem received_isPrefix (h : x.Stage d s received ended log) :
    received <+: x.delivered log := by
  cases h with
  | going _ _ _ ledger _ =>
    rw [← ledger.content, List.append_assoc]
    exact List.prefix_append _ _
  | finished _ _ _ delivered => exact delivered ▸ List.prefix_rfl

/-- Once the consumer has been told that there is no more, the run is over. -/
theorem closed (h : x.Stage d s received ended log) (hended : ended = true) :
    s.executor.closed = true := by
  cases h with
  | going _ _ _ _ unended => exact absurd hended (by simp [unended])
  | finished closed _ _ _ => exact closed

theorem of_opened (h : x.Stage d s received ended log) (hopened : s.executor.closed = false) :
    s.Posts ∧ x.Flags d s ∧ Staff d s := by
  cases h with
  | going posts flags staff _ _ => exact ⟨posts, flags, staff⟩
  | finished closed _ _ _ => exact absurd closed (by simp [hopened])

theorem of_closed (h : x.Stage d s received ended log) (hclosed : s.executor.closed = true) :
    x.Complete d log ∧ received = x.delivered log := by
  cases h with
  | going _ flags _ _ _ => exact absurd hclosed (by simp [flags.opened])
  | finished _ _ complete delivered => exact ⟨complete, delivered⟩

theorem turns (h : x.Stage d s received ended log) (hx : x.Shapes s) (ht : s.Turns t s') :
    x.Stage d s' received ended (log ++ s.eventsOf s' t) := by
  cases h with
  | going posts flags staff ledger unended =>
    exact .going (posts.turns flags.opened ht) (flags.turns hx ht)
      (staff.turns flags.opened hx.firstOnly flags.accepting ht)
      (ledger.turns hx flags staff ht) unended
  | finished closed account complete delivered =>
    rw [ht.eventsOf_eq_nil (hx.cancelled closed), List.append_nil]
    exact .finished (ht.closed_eq.trans closed) account complete delivered

theorem outside {e : Step} (h : x.Stage d s received ended log) (he : s.Outside e s') :
    x.Stage (d ∨ ¬ e.Quiet) s' received ended log := by
  cases h with
  | going posts flags staff ledger unended =>
    exact .going (posts.outside he) (flags.outside he) (staff.outside he) (ledger.outside he)
      unended
  | finished closed account complete delivered =>
    exact .finished (he.closed_eq.trans closed) (account.mono .inl)
      (complete.imp_right (.imp_left .inl)) delivered

theorem pulls {r : Pulled α} (h : x.Stage d s received ended log) (hx : x.Shapes s)
    (hr : s.Pulls r s') : x.Stage d s' (received ++ r.got) (ended || r.isDone) log := by
  cases h with
  | going posts flags staff ledger unended =>
    cases hclosed : s'.executor.closed with
    | false =>
      refine .going (posts.pulls hr hclosed) (flags.pulls hr hclosed) (staff.pulls hr hclosed)
        (ledger.pulls hr hclosed) ?_
      cases hr with
      | isOver hfinished => exact absurd hfinished (by simp [flags.unfinished])
      | fails _ _ _ _ | ends _ _ _ _ => exact absurd s.closed_finish (by simp [hclosed])
      | _ => rw [unended]; rfl
    | true =>
      refine .finished hclosed (ledger.account hx) ?_ (ledger.ends hr flags hclosed)
      have exhausted (hexhausted : s.executor.isExhausted = true) : x.Complete d log := by
        simp only [Executor.isExhausted, Bool.and_eq_true, Bool.not_eq_true'] at hexhausted
        exact ledger.complete flags staff hexhausted.1.2
      cases hr with
      | isOver hfinished => exact absurd hfinished (by simp [flags.unfinished])
      | fails _ _ hexhausted _ | ends _ _ hexhausted _ => exact exhausted hexhausted
      | _ => exact absurd hclosed (by simp [Scene.update, flags.opened])
  | finished closed account complete delivered =>
    have hfinished := hx.finished closed
    cases hr with
    | isOver _ => exact .finished closed account complete (by simpa [Pulled.got] using delivered)
    | passes hunfinished _ _ _ _ | getsOn hunfinished _ _ _ _ | empties hunfinished _ _
    | opens hunfinished _ _ | fails hunfinished _ _ _ | ends hunfinished _ _ _
    | waits hunfinished _ _ _ => exact absurd hfinished (by simp [hunfinished])

end Stage

end Setting

end FederatedSparql
