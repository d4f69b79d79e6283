import FederatedSparql.Proofs.Machine.Progress
import FederatedSparql.Proofs.Machine.Runs

/-!
Runs come to their end.

* `Setting.exists_ended`: if everyone keeps taking steps, the consumer is told that there is no
  more, unless the run was disturbed without being cancelled.
-/

namespace FederatedSparql

open Machine

variable {α : Type} [DecidableEq α] {x : Setting α} {schedule : Nat → Step} {n : Nat}

namespace Scene

variable {s s' : Scene α} {e : Step}

/-- When all has been consumed, the consumer is told so. -/
theorem Pulls.eq_done {r : Pulled α} (h : s.Pulls r s') (hfinished : s.executor.finished = true) :
    r = .done := by
  cases h with
  | isOver _ => rfl
  | passes h _ _ _ _ | getsOn h _ _ _ _ | empties h _ _ | opens h _ _ | fails h _ _ _
  | ends h _ _ _ | waits h _ _ _ => exact absurd hfinished (by simp [h])

theorem Pulls.eq_done_of_isExhausted {r : Pulled α} (h : s.Pulls r s')
    (hcurrent : s.executor.current = none) (hexhausted : s.executor.isExhausted = true)
    (herror : s.executor.error = none) : r = .done := by
  have hqueue : s.executor.queue = [] := by
    simp only [Executor.isExhausted, Bool.and_eq_true, List.isEmpty_iff] at hexhausted
    exact hexhausted.1.1
  cases h with
  | isOver _ => rfl
  | ends _ _ _ _ => rfl
  | passes _ h _ _ _ | getsOn _ h _ _ _ | empties _ h _ => exact absurd h (by simp [hcurrent])
  | opens _ _ h => exact absurd h (by simp [hqueue])
  | fails _ _ _ h => exact absurd h (by simp [herror])
  | waits _ _ _ h => exact absurd h (by simp [hexhausted])

/-- A closed executor stays closed. -/
theorem Moves.closed (h : s.Moves e s') (hclosed : s.executor.closed = true)
    (hfinished : s.executor.finished = true) : s'.executor.closed = true := by
  cases h with
  | turns h => exact h.closed_eq.trans hclosed
  | outside h => exact h.closed_eq.trans hclosed
  | pulls h =>
    cases h with
    | isOver _ => exact hclosed
    | fails _ _ _ _ | ends _ _ _ _ => exact s.closed_finish
    | passes h _ _ _ _ | getsOn h _ _ _ _ | empties h _ _ | opens h _ _ | waits h _ _ _ =>
      exact absurd hfinished (by simp [h])

/-- A cancelled branch stays cancelled. -/
theorem Moves.cancelled (h : s.Moves e s') (hc : s.cancelled = true) : s'.cancelled = true := by
  cases h with
  | turns h => exact h.cancelled hc
  | outside h => cases h <;> first | exact hc | rfl
  | pulls h =>
    cases h with
    | fails _ _ _ _ | ends _ _ _ _ =>
      obtain heq | ⟨t, heq⟩ := s.finish_eq <;> rw [heq] <;> rfl
    | _ => exact hc

theorem Moves.cancelled_of_abort (h : s.Moves .abort s') : s'.cancelled = true := by
  cases h with
  | outside h => cases h with
    | abort => rfl

/-- **Nothing is left to do in vain.**  A step leaves less to do, or all as it is, until the
executor is closed. -/
theorem Moves.lighter (h : s.Moves e s') (he : e.Quiet) (hposts : s.Posts)
    (hopened : s.executor.closed = false) (hunfinished : s.executor.finished = false)
    (hopened' : s'.executor.closed = false) : s.Stays s' ∨ s'.load < s.load := by
  cases h with
  | turns h =>
    obtain ⟨-, rfl⟩ | hless := h.lighter hposts hopened
    · exact .inl (.refl _)
    · exact .inr hless
  | pulls h =>
    exact (h.lighter hunfinished hopened').imp_left (·.2)
  | outside h =>
    cases h with
    | time ms => exact .inl (.intro _ _ (Nat.le_add_right _ _))
    | _ => exact he.elim

end Scene

namespace Setting

/-- Nothing can stop a run from some moment on: it has not been disturbed, or it is cancelled. -/
def Clear (x : Setting α) (schedule : Nat → Step) (n : Nat) : Prop :=
  ¬ Disturbed schedule n ∨ (x.scene schedule n).cancelled = true

section Runs

variable (halone : ∀ task ∈ x.tasks, task.2.Alone) (ht : x.InTime schedule)

include halone ht

theorem closed_mono {k : Nat} (hclosed : (x.scene schedule n).executor.closed = true) (hk : n ≤ k) :
    (x.scene schedule k).executor.closed = true := by
  induction k, hk using Nat.le_induction with
  | base => exact hclosed
  | succ k _ ih =>
    exact (x.moves halone ht k).closed ih ((x.tracks halone ht k).shapes.finished ih)

theorem cancelled_mono {k : Nat} (hc : (x.scene schedule n).cancelled = true) (hk : n ≤ k) :
    (x.scene schedule k).cancelled = true := by
  induction k, hk using Nat.le_induction with
  | base => exact hc
  | succ k _ ih => exact (x.moves halone ht k).cancelled ih

theorem clear_mono {k : Nat} (h : x.Clear schedule n) (hquiet : ∀ k, n ≤ k → (schedule k).Quiet)
    (hk : n ≤ k) : x.Clear schedule k := by
  obtain hundisturbed | hc := h
  · left
    rintro ⟨i, -, hi⟩
    obtain hin | hni := Nat.lt_or_ge i n
    · exact hundisturbed ⟨i, hin, hi⟩
    · exact hi (hquiet i hni)
  · exact .inr (cancelled_mono halone ht hc hk)

/-- As long as a run does not get on, nothing but time passes. -/
theorem stays_of_stuck {k : Nat} (hquiet : ∀ k, n ≤ k → (schedule k).Quiet)
    (hopened : ∀ k, n ≤ k → (x.scene schedule k).executor.closed = false)
    (hstuck : ∀ k, n ≤ k → ¬ (x.scene schedule k).load < (x.scene schedule n).load) (hk : n ≤ k) :
    (x.scene schedule n).Stays (x.scene schedule k) := by
  induction k, hk using Nat.le_induction with
  | base => exact .refl _
  | succ k hk ih =>
    obtain ⟨posts, flags, -⟩ := (x.tracks halone ht k).stage.of_opened (hopened k hk)
    have hnext := (x.moves halone ht k).lighter (hquiet k hk) posts (hopened k hk)
      flags.unfinished (hopened (k + 1) (by omega))
    obtain hstays | hless := hnext
    · exact ih.trans hstays
    · exact absurd (ih.load_eq ▸ hless) (hstuck (k + 1) (by omega))

/-- **A fair run gets on.** -/
theorem exists_lighter (hfair : x.Fair schedule) (hquiet : ∀ k, n ≤ k → (schedule k).Quiet)
    (hclear : x.Clear schedule n) :
    ∃ k, n ≤ k ∧ ((x.scene schedule k).executor.closed = true ∨
      (x.scene schedule k).load < (x.scene schedule n).load) := by
  by_contra hnone
  simp only [not_exists, not_and, not_or, Bool.not_eq_true] at hnone
  have hopened (k : Nat) (hk : n ≤ k) : (x.scene schedule k).executor.closed = false :=
    (hnone k hk).1
  have hstuck (k : Nat) (hk : n ≤ k) :
      ¬ (x.scene schedule k).load < (x.scene schedule n).load := (hnone k hk).2
  have stays {k : Nat} (hk : n ≤ k) := stays_of_stuck halone ht hquiet hopened hstuck hk
  -- nobody who takes a step makes a difference
  have rests {t k : Nat} (hk : n ≤ k) (hstep : schedule k = .thread t) :
      (x.scene schedule k).Rests t := by
    obtain ⟨posts, -, -⟩ := (x.tracks halone ht k).stage.of_opened (hopened k hk)
    have hmoves := x.moves halone ht k
    rw [hstep] at hmoves
    cases hmoves with
    | turns h =>
      obtain ⟨hrests, -⟩ | hless := h.lighter posts (hopened k hk)
      · exact hrests
      · exact absurd ((stays hk).load_eq ▸ hless) (hstuck (k + 1) (by omega))
    | outside h => cases h
  obtain ⟨posts, -, staff⟩ := (x.tracks halone ht n).stage.of_opened (hopened n le_rfl)
  obtain hserves | ⟨t, hrests | ⟨p, job, run, due, ha, hdue, hawake⟩⟩ :=
    exists_stirs (x.tracks halone ht n).shapes posts staff hclear
  · obtain ⟨k, hk, hstep⟩ := hfair.consumer n
    have hmoves := x.moves halone ht k
    rw [hstep] at hmoves
    obtain ⟨-, flags, -⟩ := (x.tracks halone ht k).stage.of_opened (hopened k hk)
    cases hmoves with
    | pulls h =>
      obtain ⟨hno, -⟩ | hless := h.lighter flags.unfinished (hopened (k + 1) (by omega))
      · exact hno ((stays hk).serves hserves)
      · exact absurd ((stays hk).load_eq ▸ hless) (hstuck (k + 1) (by omega))
    | outside h => cases h
  · obtain ⟨k, hk, hstep⟩ := hfair.thread t n
    exact hrests ((stays hk).rests (rests hk hstep))
  · have hactivity := (Scene.activity?_shown (x.tracks halone ht n).shows t).trans ha
    obtain ⟨k, hk, hnow⟩ := hfair.time t n job run due p hactivity hdue
    obtain ⟨i, hi, hstep⟩ := hfair.thread t k
    have later := stays_of_stuck halone ht (fun j hj => hquiet j (hk.trans hj))
      (fun j hj => hopened j (hk.trans hj))
      (fun j hj => (stays hk).load_eq ▸ hstuck j (hk.trans hj)) hi
    exact hawake _ (stays (hk.trans hi)) (hnow.trans later.now_le) (rests (hk.trans hi) hstep)

/-- **A fair run is closed in the end.** -/
theorem exists_closed (hfair : x.Fair schedule) (hquiet : ∀ k, n ≤ k → (schedule k).Quiet)
    (hclear : x.Clear schedule n) : ∃ k, n ≤ k ∧ (x.scene schedule k).executor.closed = true := by
  generalize hload : (x.scene schedule n).load = load
  induction load using WellFoundedLT.induction generalizing n with
  | ind load ih =>
    obtain ⟨k, hk, hclosed | hless⟩ := exists_lighter halone ht hfair hquiet hclear
    · exact ⟨k, hk, hclosed⟩
    · obtain ⟨i, hi, hclosed⟩ := ih _ (hload ▸ hless) (fun i hi => hquiet i (hk.trans hi))
        (clear_mono halone ht hclear hquiet hk) rfl
      exact ⟨i, hk.trans hi, hclosed⟩

/-- The consumer takes note of what it pulls. -/
theorem exists_pulls (hstep : schedule n = .consumer) :
    ∃ r s', (x.scene schedule n).Pulls r s' ∧
      (x.play schedule (n + 1)).received = (x.play schedule n).received ++ r.got ∧
      (x.play schedule (n + 1)).ended = ((x.play schedule n).ended || r.isDone) := by
  have htracks := x.tracks halone ht n
  have hlead := Scene.leads_pull (htracks.shapes.sound (htracks.inTime (ht n))) _ htracks.shows
  rw [← htracks.cursor] at hlead
  obtain ⟨s', -, -, hpulls⟩ := hlead
  rw [play, hstep, Moment.step, Moment.received_note, Moment.ended_note]
  exact ⟨_, s', hpulls, rfl, rfl⟩

/-- **The consumer of a fair run is told in the end that there is no more.** -/
theorem exists_ended (hfair : x.Fair schedule) (hquiet : ∀ k, n ≤ k → (schedule k).Quiet)
    (hclear : x.Clear schedule n) : ∃ k, n ≤ k ∧ (x.play schedule k).ended = true := by
  obtain ⟨k, hk, hclosed⟩ := exists_closed halone ht hfair hquiet hclear
  obtain ⟨i, hi, hstep⟩ := hfair.consumer k
  refine ⟨i + 1, by omega, ?_⟩
  obtain ⟨r, s', hpulls, -, hended⟩ := exists_pulls halone ht hstep
  have hfinished := (x.tracks halone ht i).shapes.finished (closed_mono halone ht hclosed hi)
  rw [hended, hpulls.eq_done hfinished, Pulled.isDone, Bool.or_true]

end Runs

end Setting

end FederatedSparql
