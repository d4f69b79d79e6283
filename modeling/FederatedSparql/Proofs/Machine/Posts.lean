import FederatedSparql.Proofs.Machine.Interleaving
import FederatedSparql.Proofs.Machine.Turns

/-!
Where the threads of an executor stand.

* `Scene.Posts`: a thread in the line has no job, and a thread that waits for room has a result.
* `Scene.Posts.turns`: every turn keeps that so.
-/

namespace FederatedSparql

open Machine

variable {α : Type}

/-- Whether a thread that does this has a result for which there is no room yet. -/
def Activity.isSending : Activity α → Bool
  | .sending .. => true
  | _ => false

namespace Scene

/-! ### Threads -/

/-- What a thread does. -/
def activity? (s : Scene α) (t : Nat) : Option (Activity α) := s.threads[t]?.map (·.activity)

variable {s s' : Scene α} {t i : Nat} {a : Activity α} {th : Thread α}

theorem activity?_shown {m : Machine α} (hm : m.Shows s) (t : Nat) :
    m.activity? t = s.activity? t := by
  rw [Machine.activity?, hm.getElem?_threads, activity?]

theorem activity?_congr (h : s'.threads = s.threads) : s'.activity? = s.activity? := by
  funext i
  rw [activity?, h, activity?]

theorem activity?_eq (ht : s.threads[t]? = some th) : s.activity? t = some th.activity := by
  simp [activity?, ht]

theorem activity?_become (s : Scene α) (t : Nat) (a : Activity α) (i : Nat) :
    (s.become t a).activity? i =
      if t = i then (s.activity? i).map fun _ => a else s.activity? i := by
  simp only [activity?, become, List.getElem?_modify]
  split <;> cases s.threads[i]? <;> rfl

theorem activity?_doom (s : Scene α) (t i : Nat) : (s.doom t).activity? i = s.activity? i := by
  simp only [activity?, doom, List.getElem?_modify]
  split <;> cases s.threads[i]? <;> rfl

theorem map_doomed_become (s : Scene α) (t : Nat) (a : Activity α) :
    (s.become t a).threads.map (·.doomed) = s.threads.map (·.doomed) := by
  refine List.ext_getElem? fun i => ?_
  simp only [become, List.getElem?_map, List.getElem?_modify]
  split <;> cases s.threads[i]? <;> rfl

/-- The jobs that threads have in hand. -/
def held (s : Scene α) : List (Job α) := s.threads.filterMap (·.activity.job?)

theorem held_congr (h : s'.threads = s.threads) : s'.held = s.held := by
  rw [held, h, held]

theorem held_doom (s : Scene α) (t : Nat) : (s.doom t).held = s.held := by
  have hmap : (s.doom t).threads.map (·.activity) = s.threads.map (·.activity) := by
    refine List.ext_getElem? fun i => ?_
    simp only [doom, List.getElem?_map, List.getElem?_modify]
    split <;> cases s.threads[i]? <;> rfl
  have hheld (u : Scene α) : u.held = (u.threads.map (·.activity)).filterMap Activity.job? := by
    rw [held, List.filterMap_map]
    rfl
  rw [hheld, hmap, hheld]

theorem exists_threads_eq (ht : s.threads[t]? = some th) :
    ∃ l r, s.threads = l ++ th :: r ∧ ∀ f, s.threads.modify t f = l ++ f th :: r := by
  obtain ⟨hlt, hth⟩ := List.getElem?_eq_some_iff.1 ht
  refine ⟨s.threads.take t, s.threads.drop (t + 1), ?_, fun f => ?_⟩
  · rw [← hth, List.getElem_cons_drop, List.take_append_drop]
  · rw [List.modify_eq_take_cons_drop hlt, hth]

/-- Of the jobs in hand, those of the thread that goes on are exchanged. -/
theorem countP_held_become (q : Job α → Bool) (ht : s.threads[t]? = some th) (a : Activity α) :
    (s.become t a).held.countP q + th.activity.job?.toList.countP q =
      s.held.countP q + a.job?.toList.countP q := by
  obtain ⟨l, r, heq, hmodify⟩ := exists_threads_eq ht
  have hold : s.held.countP q = (l.filterMap (·.activity.job?)).countP q +
      th.activity.job?.toList.countP q + (r.filterMap (·.activity.job?)).countP q := by
    rw [held, heq, List.filterMap_append, List.filterMap_cons]
    cases th.activity.job? <;> simp [List.countP_append, List.countP_cons]
    omega
  have hnew : (s.become t a).held.countP q = (l.filterMap (·.activity.job?)).countP q +
      a.job?.toList.countP q + (r.filterMap (·.activity.job?)).countP q := by
    rw [held, become, hmodify, List.filterMap_append, List.filterMap_cons]
    cases a.job? <;> simp [List.countP_append, List.countP_cons]
    omega
  omega

/-! ### The line, and those that wait for room -/

/-- A thread in the line has no job, and a thread that waits for room has a result. -/
structure Posts (s : Scene α) : Prop where
  nodup_line : s.line.Nodup
  line : ∀ i ∈ s.line, s.activity? i = some (.idle .union)
  nodup_waiting : s.executor.waiting.Nodup
  waiting : ∀ i, i ∈ s.executor.waiting ↔ (s.activity? i).any Activity.isSending = true

namespace Posts

variable {b : Activity α}

theorem not_mem_line (h : s.Posts) (ht : s.activity? t = some b) (hb : b ≠ .idle .union) :
    t ∉ s.line := by
  intro hline
  rw [h.line t hline] at ht
  exact hb (Option.some.inj ht).symm

theorem mem_waiting_iff (h : s.Posts) (ht : s.activity? t = some b) :
    t ∈ s.executor.waiting ↔ b.isSending = true := by
  rw [h.waiting, ht, Option.any_some]

/-- A thread goes on to something else; it is not in the line then. -/
theorem become (h : s.Posts) {u : Scene α} (hthreads : u.threads = s.threads)
    (ht : s.activity? t = some b) (hline : u.line.Sublist s.line) (htline : t ∉ u.line)
    (hnodup : u.executor.waiting.Nodup)
    (hwaiting : ∀ i, t ≠ i → (i ∈ u.executor.waiting ↔ i ∈ s.executor.waiting))
    (htwaiting : t ∈ u.executor.waiting ↔ a.isSending = true) : (u.become t a).Posts := by
  have hactivity := activity?_congr hthreads
  refine ⟨hline.nodup h.nodup_line, fun i hi => ?_, hnodup, fun i => ?_⟩
  · have hit : t ≠ i := fun hit => htline (hit ▸ hi)
    rw [activity?_become, if_neg hit, hactivity]
    exact h.line i (hline.mem hi)
  · show i ∈ u.executor.waiting ↔ _
    rw [activity?_become, hactivity]
    split
    · next hit =>
      subst hit
      rw [ht]
      exact htwaiting
    · next hit => rw [hwaiting i hit, h.waiting]

/-- A thread that is not in the line goes on to something else. -/
theorem become_of_ne_idle (h : s.Posts) {u : Scene α} (hthreads : u.threads = s.threads)
    (ht : s.activity? t = some b) (hb : b ≠ .idle .union) (hline : u.line = s.line)
    (hwaiting : u.executor.waiting = s.executor.waiting) (hsending : b.isSending = a.isSending) :
    (u.become t a).Posts :=
  h.become hthreads ht (hline ▸ .refl _) (hline ▸ h.not_mem_line ht hb)
    (hwaiting ▸ h.nodup_waiting) (fun i _ => by rw [hwaiting])
    (by rw [hwaiting, h.mem_waiting_iff ht, hsending])

/-- A worker leaves the line for something else. -/
theorem become_of_idle (h : s.Posts) {u : Scene α} (hthreads : u.threads = s.threads)
    (ht : s.activity? t = some (.idle .union)) (hline : u.line = s.line.filter (· != t))
    (hwaiting : u.executor.waiting = s.executor.waiting) (hsending : a.isSending = false) :
    (u.become t a).Posts := by
  refine h.become hthreads ht (hline ▸ List.filter_sublist) (by simp [hline])
    (hwaiting ▸ h.nodup_waiting) (fun i _ => by rw [hwaiting]) ?_
  rw [hwaiting, h.mem_waiting_iff ht, hsending]
  simp [Activity.isSending]

/-- A worker does not wait for room any more. -/
theorem become_of_sending (h : s.Posts) {u : Scene α} {p : PoolName} {job : Job α} {c : Cursor α}
    (hthreads : u.threads = s.threads) (ht : s.activity? t = some (.sending p job c))
    (hline : u.line = s.line) (hwaiting : u.executor.waiting = s.executor.waiting.filter (· != t))
    (hsending : a.isSending = false) : (u.become t a).Posts := by
  refine h.become hthreads ht (hline ▸ .refl _)
    (hline ▸ h.not_mem_line ht (by simp))
    (hwaiting ▸ h.nodup_waiting.filter _) (fun i hi => ?_) ?_
  · rw [hwaiting]
    simp [Ne.symm hi]
  · rw [hwaiting, hsending]
    simp

end Posts

theorem toss_eq (hclosed : s.executor.closed = false) (e : FedError) :
    s.toss e =
      (s.update fun x => { x with error := x.error.or (some e), producing := false }).cancel := by
  simp [toss, hclosed, update, Executor.toss]

/-- Nobody goes on to something else. -/
theorem Posts.congr (h : s.Posts) (hactivity : s'.activity? = s.activity?)
    (hline : s'.line = s.line) (hwaiting : s'.executor.waiting = s.executor.waiting) :
    s'.Posts := by
  refine ⟨hline ▸ h.nodup_line, ?_, hwaiting ▸ h.nodup_waiting, ?_⟩
  · rw [hline, hactivity]
    exact h.line
  · rw [hwaiting, hactivity]
    exact h.waiting

theorem Posts.outside {e : Step} (h : s.Posts) (he : s.Outside e s') : s'.Posts := by
  cases he with
  | time _ | abort | stopPool | discardJobs => exact h.congr rfl rfl rfl
  | misses _ => exact h
  | interrupt _ _ => exact h.congr (funext (activity?_doom s _)) rfl rfl

variable [DecidableEq α]

/-- **Turns keep threads where they belong.** -/
theorem Posts.turns (h : s.Posts) (hclosed : s.executor.closed = false) (ht : s.Turns t s') :
    s'.Posts := by
  cases ht with
  | rests _ => exact h
  | linesUp ht hline =>
    refine { h with nodup_line := ?_, line := ?_ }
    · simpa [List.nodup_append] using ⟨h.nodup_line, fun a ha hat => hline (hat ▸ ha)⟩
    · simp only [List.mem_append, List.mem_singleton]
      rintro i (hi | rfl)
      · exact h.line i hi
      · exact activity?_eq ht
  | takes ht _ => exact h.become_of_idle rfl (activity?_eq ht) rfl rfl rfl
  | retires ht _ => exact h.become_of_idle rfl (activity?_eq ht) rfl rfl rfl
  | cancels ht _ => exact h.become_of_ne_idle rfl (activity?_eq ht) (by simp) rfl rfl rfl
  | runs ht _ _ _ _ => exact h.become_of_ne_idle rfl (activity?_eq ht) (by simp) rfl rfl rfl
  | drops ht _ _ _ => exact h.become_of_ne_idle rfl (activity?_eq ht) (by simp) rfl rfl rfl
  | queues ht _ _ _ => exact h.become_of_ne_idle rfl (activity?_eq ht) (by simp) rfl rfl rfl
  | holds ht _ _ _ =>
    have hnew := (h.mem_waiting_iff (activity?_eq ht)).not.2 (by simp [Activity.isSending])
    refine h.become rfl (activity?_eq ht) (.refl _)
      (h.not_mem_line (activity?_eq ht) (by simp)) ?_ (fun i hi => ?_) ?_
    · simpa [update, List.nodup_append] using
        ⟨h.nodup_waiting, fun a ha hat => hnew (hat ▸ ha)⟩
    · simp [update, hi.symm]
    · simp [update, Activity.isSending]
  | fails ht _ _ =>
    rw [toss_eq hclosed]
    exact h.become_of_ne_idle rfl (activity?_eq ht) (by simp) rfl rfl rfl
  | givesUp ht _ => exact h.become_of_sending rfl (activity?_eq ht) rfl rfl rfl
  | sends ht _ => exact h.become_of_sending rfl (activity?_eq ht) rfl rfl rfl
  | halts ht _ => exact h.become_of_ne_idle rfl (activity?_eq ht) (by simp) rfl rfl rfl
  | schedules ht _ _ => exact h.become_of_ne_idle rfl (activity?_eq ht) (by simp) rfl rfl rfl
  | isRefused ht _ _ =>
    rw [toss_eq hclosed]
    exact h.become_of_ne_idle rfl (activity?_eq ht) (by simp) rfl rfl rfl
  | awaits ht _ => exact h.become_of_ne_idle rfl (activity?_eq ht) (by simp) rfl rfl rfl
  | completes ht _ _ => exact h.become_of_ne_idle rfl (activity?_eq ht) (by simp) rfl rfl rfl
  | leavesLine ht => exact h.become_of_idle (u := s.leaveLine t) rfl (activity?_eq ht) rfl rfl rfl
  | abandons ht =>
    exact h.become_of_ne_idle (u := s.update Executor.finishTask) rfl (activity?_eq ht) (by simp)
      rfl rfl rfl
  | abandonsResult ht =>
    exact h.become_of_sending (u := (s.update (Executor.leave t)).update Executor.finishTask) rfl
      (activity?_eq ht) rfl rfl rfl
  | stops ht => exact h.become_of_ne_idle rfl (activity?_eq ht) (by simp) rfl rfl rfl

theorem Posts.pulls {r : Pulled α} (h : s.Posts) (hr : s.Pulls r s')
    (hopened : s'.executor.closed = false) : s'.Posts := by
  cases hr with
  | isOver _ => exact h
  | passes _ _ _ _ _ | getsOn _ _ _ _ _ | empties _ _ _ | opens _ _ _ | waits _ _ _ _ =>
    exact h.congr rfl rfl rfl
  | fails _ _ _ _ | ends _ _ _ _ => exact absurd s.closed_finish (by simp [hopened])

end Scene

end FederatedSparql
