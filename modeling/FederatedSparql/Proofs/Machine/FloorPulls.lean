import FederatedSparql.Proofs.Machine.FloorOrder

/-!
What a pull of the consumer can make of a floor.

* `Floor.leads_pull` finds every pull of the consumer on a sound floor among `Floor.Pulls`.
* `Floor.Sound.pulls`: whatever the consumer pulls, a sound floor is left sound.
-/

namespace FederatedSparql

open Machine

variable {α : Type}

namespace Floor

variable {f g : Floor α}

/-! ### Pulling -/

/-- What a pull of the results of an executor can come to, all of which are at hand. -/
inductive Draws [DecidableEq α] (f : Floor α) (me : Waker) (id : Nat) (e : Executor α) :
    Pulled α → Floor α → Prop
  | isOver (hfinished : e.finished = true) : Draws f me id e .done f
  | passes {c c' : Cursor α} {x : α} (hfinished : e.finished = false)
      (hcurrent : e.current = some c) (hc : ∃ xs, c'.Holds xs) :
      Draws f me id e (.item x) (f.update id fun e => { e with current := some c' })
  | getsOn {c c' : Cursor α} (hfinished : e.finished = false) (hcurrent : e.current = some c)
      (hc : ∃ xs, c'.Holds xs) (hsize : c'.size < c.size) :
      Draws f me id e .progress (f.update id fun e => { e with current := some c' })
  | empties {c : Cursor α} (hfinished : e.finished = false) (hcurrent : e.current = some c) :
      Draws f me id e .progress (f.update id fun e => { e with current := none })
  | opens {c : Cursor α} {rest : List (Cursor α)} (hfinished : e.finished = false)
      (hcurrent : e.current = none) (hqueue : e.queue = c :: rest) :
      Draws f me id e .progress (f.update id fun e => { e with current := some c, queue := rest })
  | ends (hfinished : e.finished = false) (hcurrent : e.current = none)
      (hexhausted : e.isExhausted = true) : Draws f me id e .done (f.close id e)
  | waits (hfinished : e.finished = false) (hcurrent : e.current = none) (hqueue : e.queue = [])
      (hexhausted : e.isExhausted = false) :
      Draws f me id e .wait (f.update id fun e => { e with consumer := some me })

/-- What a pull of the consumer can come to; the results of the first executor are those of others,
which are drained one after the other. -/
inductive Pulls [DecidableEq α] (f : Floor α) (e : Executor α) : Pulled α → Floor α → Prop
  | isOver (hfinished : e.finished = true) : Pulls f e .done f
  | draws {j : Nat} {e' : Executor α} {r : Pulled α} {g : Floor α} (hfinished : e.finished = false)
      (hcurrent : e.current = some (.pipe (.executor j))) (hj : 0 < j)
      (he' : f.executors[j]? = some e') (hdraws : f.Draws .main j e' r g) (hr : r ≠ .done) :
      Pulls f e r g
  | empties {j : Nat} {e' : Executor α} {g : Floor α} (hfinished : e.finished = false)
      (hcurrent : e.current = some (.pipe (.executor j))) (hj : 0 < j)
      (he' : f.executors[j]? = some e') (hdraws : f.Draws .main j e' .done g) :
      Pulls f e .progress (g.update 0 fun e => { e with current := none })
  | opens {c : Cursor α} {rest : List (Cursor α)} (hfinished : e.finished = false)
      (hcurrent : e.current = none) (hqueue : e.queue = c :: rest) :
      Pulls f e .progress (f.update 0 fun e => { e with current := some c, queue := rest })
  | ends (hfinished : e.finished = false) (hcurrent : e.current = none)
      (hexhausted : e.isExhausted = true) : Pulls f e .done (f.close 0 e)
  | waits (hfinished : e.finished = false) (hcurrent : e.current = none) (hqueue : e.queue = [])
      (hexhausted : e.isExhausted = false) :
      Pulls f e .wait (f.update 0 fun e => { e with consumer := some .main })

variable [DecidableEq α] {k : Scale} {id : Nat} {e : Executor α} {me : Waker}

/-- Once an executor has no more results it is closed. -/
theorem Draws.closed (h : f.Sound k) (he : f.executors[id]? = some e)
    (hdraws : f.Draws me id e .done g) :
    ∃ e', g.executors[id]? = some e' ∧ e'.closed = true ∧ e'.close = e' := by
  have hserves := h.executors id e he
  cases hdraws with
  | isOver hfinished =>
    have hclosed := hserves.finished.symm.trans hfinished
    exact ⟨e, he, hclosed, hserves.closed hclosed⟩
  | ends _ _ _ => exact ⟨e.close, by simp [getElem?_close, he], rfl, rfl⟩

/-- A pull closes an executor without more results, whose producer is at its end. -/
theorem leads_closeExhausted {β : Type} {rest : Action α β} {R : β → Floor α → Prop}
    (h : f.Sound k) (he : f.executors[id]? = some e) (hcurrent : e.current = none)
    (hexhausted : e.isExhausted = true) (hrest : (f.close id e).Leads rest R) :
    f.Leads (do
      updateExecutor id fun e => { e with error := none }
      closeAll [id]
      rest) R := by
  have hserves := h.executors id e he
  simp only [Executor.isExhausted, Bool.and_eq_true, List.isEmpty_iff, Bool.not_eq_eq_eq_not,
    Bool.not_true] at hexhausted
  have hsame : f.update id (fun e => { e with error := none }) = f :=
    update_eq_self he (by rw [← hserves.error])
  refine (gives_updateExecutor f id _).bind ?_
  rw [hsame]
  have hproducer := (hserves.settled hexhausted.1.2).2
  exact (gives_closeAll he hcurrent hexhausted.1.1 fun _ => hproducer).bind hrest

/-- A pull of an executor whose results are at hand. -/
theorem leads_draw (h : f.Sound k) (hid : id ≠ 0) (he : f.executors[id]? = some e) (depth : Nat) :
    f.Leads (stepPipe (depth + 1) me (.executor id)) fun r f' =>
      r.2 = .executor id ∧ f.Draws me id e r.1 f' := by
  have hserves := h.executors id e he
  rw [stepPipe]
  refine Leads.of_get fun m hm => ?_
  simp only [hm.getElem?_executors, he]
  cases hfinished : e.finished with
  | true =>
    simp only [if_true]
    exact Leads.of_pure ⟨rfl, .isOver hfinished⟩
  | false =>
    simp only [Bool.false_eq_true, if_false]
    cases hcurrent : e.current with
    | some c =>
      obtain ⟨xs, hc, hxs⟩ := (hserves.current c hcurrent).inner hid
      obtain ⟨r, c', hstep, hc', hr⟩ := Cursor.stepCursor_atHand depth me hc
      simp only [hstep, pure_bind]
      rw [hxs] at hr
      cases r with
      | item x =>
        refine (gives_updateExecutor f id fun e => { e with current := some c' }).bind
          (Leads.of_pure ⟨rfl, .passes hfinished hcurrent ?_⟩)
        cases xs with
        | nil => cases hr.1
        | cons y ys => exact ⟨ys, hc', (List.cons.inj hr.1).2.symm⟩
      | failure e => cases xs <;> cases hr.1
      | done =>
        exact (gives_updateExecutor f id fun e => { e with current := none }).bind
          ((gives_discard hc'.held_eq_nil).bind
            (Leads.of_pure ⟨rfl, .empties hfinished hcurrent⟩))
      | progress =>
        exact (gives_updateExecutor f id fun e => { e with current := some c' }).bind
          (Leads.of_pure ⟨rfl, .getsOn hfinished hcurrent ⟨xs, hc', hr.1.symm⟩ hr.2⟩)
      | wait => exact hr.elim
    | none =>
      cases hqueue : e.queue with
      | cons c rest =>
        exact (gives_updateExecutor f id fun e => { e with current := some c, queue := rest }).bind
          ((gives_wakeThread? _ _).bind (Leads.of_pure ⟨rfl, .opens hfinished hcurrent hqueue⟩))
      | nil =>
        dsimp only
        split
        · next hexhausted =>
          rw [hserves.error]
          exact leads_closeExhausted h he hcurrent hexhausted
            (Leads.of_pure ⟨rfl, .ends hfinished hcurrent hexhausted⟩)
        · next hexhausted =>
          exact (gives_updateExecutor f id fun e => { e with consumer := some me }).bind
            (Leads.of_pure ⟨rfl, .waits hfinished hcurrent hqueue (by simpa using hexhausted)⟩)

/-- **A pull of the consumer is one of the pulls.** -/
theorem leads_pull (h : f.Sound k) (he : f.executors[0]? = some e) :
    f.Leads (pull .main (.pipe (.executor 0))) fun r f' =>
      r.2 = .pipe (.executor 0) ∧ f.Pulls e r.1 f' := by
  have hserves := h.executors 0 e he
  refine Leads.of_get fun m hm => ?_
  obtain ⟨depth, hdepth⟩ : ∃ depth, f.executors.length = depth + 1 :=
    ⟨f.executors.length - 1, by have := (List.getElem?_eq_some_iff.1 he).1; omega⟩
  rw [hm.size_executors, hdepth, stepCursor, stepPipe]
  refine Leads.bind (P := fun r f' => r.2 = .executor 0 ∧ f.Pulls e r.1 f') ?_ ?_
  · refine Leads.of_get fun m hm => ?_
    simp only [hm.getElem?_executors, he]
    cases hfinished : e.finished with
    | true =>
      simp only [if_true]
      exact Leads.of_pure ⟨rfl, .isOver hfinished⟩
    | false =>
      simp only [Bool.false_eq_true, if_false]
      cases hcurrent : e.current with
      | some c =>
        obtain ⟨j, hj, hlt, rfl⟩ := (hserves.current c hcurrent).outer rfl
        obtain ⟨e', he'⟩ : ∃ e', f.executors[j]? = some e' := ⟨_, List.getElem?_eq_getElem hlt⟩
        obtain ⟨depth, rfl⟩ : ∃ d, depth = d + 1 := ⟨depth - 1, by omega⟩
        simp only [stepCursor, bind_assoc, pure_bind]
        refine Leads.bind (leads_draw h hj.ne' he' depth) ?_
        rintro ⟨r, _⟩ g ⟨rfl, hdraws⟩
        have keeps (hr : r ≠ .done)
            (hcurrent' : ∃ e'', g.executors[0]? = some e'' ∧
              e''.current = some (.pipe (.executor j))) :
            g.Leads (do
              updateExecutor 0 fun e => { e with current := some (.pipe (.executor j)) }
              return (r, (Pipe.executor 0 : Pipe α))) fun r f' =>
                r.2 = .executor 0 ∧ f.Pulls e r.1 f' := by
          obtain ⟨e'', he'', hcurrent'⟩ := hcurrent'
          refine (gives_updateExecutor g 0 _).bind ?_
          rw [update_eq_self he'' (by rw [← hcurrent'])]
          exact Leads.of_pure ⟨rfl, .draws hfinished hcurrent hj he' hdraws hr⟩
        have hupdate (k : Executor α → Executor α) : (f.update j k).executors[0]? = some e := by
          rw [getElem?_update, if_neg hj.ne', he]
        cases r with
        | item x =>
          refine keeps (by simp) ?_
          cases hdraws with
          | passes _ _ _ => exact ⟨e, hupdate _, hcurrent⟩
        | failure error => cases hdraws
        | progress =>
          refine keeps (by simp) ?_
          cases hdraws <;> exact ⟨e, hupdate _, hcurrent⟩
        | wait =>
          refine keeps (by simp) ?_
          cases hdraws with
          | waits _ _ _ _ => exact ⟨e, hupdate _, hcurrent⟩
        | done =>
          obtain ⟨e'', he'', hclosed, hclose⟩ := hdraws.closed h he'
          refine (gives_updateExecutor g 0 fun e => { e with current := none }).bind ?_
          set g' := g.update 0 fun e => { e with current := none } with hg'
          have he''' : g'.executors[j]? = some e'' := by
            rw [hg', getElem?_update, if_neg hj.ne, he'']
          have hcloses : g'.Gives (discard (.pipe (.executor j))) () g' := by
            have hsame : g'.close j e'' = g' := by
              rw [close, if_pos hclosed, update_eq_self he''' hclose]
            have hempty : e''.current = none ∧ e''.queue = [] ∧ e''.finished = true := by
              rw [← hclose]
              exact ⟨rfl, rfl, rfl⟩
            have := gives_closeAll he''' hempty.1 hempty.2.1 fun hfalse =>
              absurd (hempty.2.2.symm.trans hfalse) (by simp)
            rwa [hsame] at this
          exact hcloses.bind (Leads.of_pure ⟨rfl, .empties hfinished hcurrent hj he' hdraws⟩)
      | none =>
        cases hqueue : e.queue with
        | cons c rest =>
          exact (gives_updateExecutor f 0 fun e => { e with current := some c, queue := rest }).bind
            ((gives_wakeThread? _ _).bind (Leads.of_pure ⟨rfl, .opens hfinished hcurrent hqueue⟩))
        | nil =>
          dsimp only
          split
          · next hexhausted =>
            rw [hserves.error]
            exact leads_closeExhausted h he hcurrent hexhausted
              (Leads.of_pure ⟨rfl, .ends hfinished hcurrent hexhausted⟩)
          · next hexhausted =>
            exact (gives_updateExecutor f 0 fun e => { e with consumer := some .main }).bind
              (Leads.of_pure ⟨rfl, .waits hfinished hcurrent hqueue (by simpa using hexhausted)⟩)
  · rintro ⟨r, p⟩ f' ⟨rfl, hpulls⟩
    exact Leads.of_pure ⟨rfl, hpulls⟩

/-! ### Floors stay sound -/

/-- Results have gone from the queue of an executor into hand. -/
theorem Sound.pull {κ : Executor α → Executor α} (h : f.Sound k) (he : f.executors[id]? = some e)
    (hopen : e.closed = false)
    (hsame : κ e = { e with
      queue := (κ e).queue, current := (κ e).current, consumer := (κ e).consumer })
    (hqueue : ∀ c ∈ (κ e).queue, f.Results id c)
    (hcurrent : ∀ c, (κ e).current = some c → f.Results id c)
    (hlength : (κ e).queue.length + (κ e).current.toList.length ≤
      e.queue.length + e.current.toList.length) : (f.update id κ).Sound k := by
  have hserves := h.executors id e he
  have hfg : f.Extends (f.update id κ) := ⟨rfl, fun _ _ h => h, by simp [update]⟩
  have hclosed : (κ e).closed = e.closed := by rw [hsame]
  refine { h with
    branches := ?_
    jobs := fun job hjob => (h.jobs job hjob).mono hfg
    threads := fun i c hi => (h.threads i c hi).mono hfg
    executors := fun i e' hi => ?_
    producing := fun i c j hi hc => ?_ }
  · show f.branches = _
    rw [h.branches]
    refine List.ext_getElem? fun i => ?_
    rw [List.getElem?_map, List.getElem?_map, getElem?_update]
    split
    · next hi =>
      subst hi
      simp [he, hclosed]
    · rfl
  · rw [getElem?_update] at hi
    split at hi
    · next hid =>
      subst hid
      rw [he] at hi
      obtain rfl := Option.some.inj hi
      have hmost := hserves.most
      rw [hsame]
      exact { hserves with
        closed := fun hclosed => absurd hclosed (by simp [hopen])
        queue := fun c hc => (hqueue c hc).mono hfg.executors
        current := fun c hc => (hcurrent c hc).mono hfg.executors
        most := by
          show (κ e).queue.length + e.pending + f.toCome id + (κ e).current.toList.length ≤ _
          omega }
    · have hother := h.executors i e' hi
      exact { hother with
        queue := fun c hc => (hother.queue c hc).mono hfg.executors
        current := fun c hc => (hother.current c hc).mono hfg.executors }
  · obtain ⟨e', he', hproducer, hproducing⟩ := h.producing i c j hi hc
    by_cases hj : id = j
    · subst hj
      obtain rfl := Option.some.inj (he.symm.trans he')
      refine ⟨κ e, by simp [getElem?_update, he], ?_, ?_⟩
      · rw [hsame]; exact hproducer
      · rw [hsame]; exact hproducing
    · exact ⟨e', by rw [getElem?_update, if_neg hj, he'], hproducer, hproducing⟩

/-- An executor without more results is closed. -/
theorem Sound.close (h : f.Sound k) (he : f.executors[id]? = some e)
    (hexhausted : e.isExhausted = true) : (f.close id e).Sound k := by
  have hserves := h.executors id e he
  simp only [Executor.isExhausted, Bool.and_eq_true, List.isEmpty_iff, Bool.not_eq_eq_eq_not,
    Bool.not_true] at hexhausted
  obtain ⟨⟨hqueue, hproducing⟩, hwaiting⟩ := hexhausted
  have hthreads : (f.close id e).threads = f.threads := by unfold Floor.close; split <;> rfl
  have hjobs : (f.close id e).jobs = f.jobs := by unfold Floor.close; split <;> rfl
  have hline : (f.close id e).line = f.line := by unfold Floor.close; split <;> rfl
  have hlength : (f.close id e).executors.length = f.executors.length := by
    unfold Floor.close; split <;> simp [update, cancelBranch]
  have hfg : f.Extends (f.close id e) := by
    refine ⟨?_, fun i j hi => ?_, hlength.ge⟩
    · unfold Floor.close; split <;> rfl
    · rw [← hi]; unfold Floor.close; split <;> rfl
  have hbranches : (f.close id e).branches = f.branches.set id true := by
    unfold Floor.close
    split
    · next hclosed =>
      refine (List.ext_getElem? fun i => ?_ : f.branches = _)
      rw [List.getElem?_set]
      split
      · next hi =>
        subst hi
        have hlt := (List.getElem?_eq_some_iff.1 he).1
        rw [h.branches, List.getElem?_map, he, List.length_map, if_pos hlt, Option.map_some,
          hclosed]
      · rfl
    · rw [← hserves.branch]
      rfl
  have hsums (i : Nat) : (f.close id e).jobsOf i = f.jobsOf i ∧
      (f.close id e).inHand i = f.inHand i ∧ (f.close id e).toCome i = f.toCome i := by
    simp only [jobsOf, inHand, toCome, hthreads, hjobs, and_self]
  refine
    { staff := by rw [hthreads]; exact h.staff
      branches := ?_
      line := by rw [hline, hthreads]; exact h.line
      jobs := fun job hjob => (h.jobs job (hjobs ▸ hjob)).mono hfg
      threads := fun i c hi => (h.threads i c (hthreads ▸ hi)).mono hfg
      executors := fun i e' hi => ?_
      producing := fun i c j hi hc => ?_ }
  · rw [hbranches, h.branches]
    refine List.ext_getElem? fun i => ?_
    rw [List.getElem?_set, List.getElem?_map, List.getElem?_map, getElem?_close]
    by_cases hi : id = i
    · subst hi
      simp [Executor.close, (List.getElem?_eq_some_iff.1 he).1]
    · simp [hi]
  · rw [getElem?_close] at hi
    split at hi
    · next hid =>
      subst hid
      rw [he] at hi
      obtain rfl := Option.some.inj hi
      have hmost := hserves.most
      refine
        { branch := hserves.branch, firstOnly := hserves.firstOnly, error := hserves.error
          finished := rfl
          receiving := rfl
          closed := fun _ => rfl
          queue := fun c hc => by cases hc
          current := fun c hc => by cases hc
          waiting := fun s => ?_
          producer := fun hfalse => by cases hfalse
          settled := fun _ => ?_
          pending := ?_
          most := ?_ }
      · rw [hthreads, ← hserves.waiting s, hwaiting]
        rfl
      · rw [hthreads]
        exact hserves.settled hproducing
      · rw [(hsums id).1, (hsums id).2.1]
        exact hserves.pending
      · rw [(hsums id).2.2]
        show 0 + e.pending + f.toCome id + 0 ≤ _
        omega
    · have hother := h.executors i e' hi
      refine { hother with
        queue := fun c hc => (hother.queue c hc).mono hfg.executors
        current := fun c hc => (hother.current c hc).mono hfg.executors
        waiting := by rw [hthreads]; exact hother.waiting
        producer := by rw [hthreads]; exact hother.producer
        settled := by rw [hthreads]; exact hother.settled
        pending := by rw [(hsums i).1, (hsums i).2.1]; exact hother.pending
        most := by rw [(hsums i).2.2]; exact hother.most }
  · rw [hthreads] at hi
    obtain ⟨e', he', hproducer, hproducing'⟩ := h.producing i c j hi hc
    refine ⟨e', ?_, hproducer, hproducing'⟩
    rw [getElem?_close, if_neg, he']
    rintro rfl
    obtain rfl := Option.some.inj (he.symm.trans he')
    exact absurd (hproducing.symm.trans hproducing') (by simp)

/-- A pull of one executor leaves a sound floor sound. -/
theorem Sound.draws {me : Waker} {r : Pulled α} (h : f.Sound k) (hid : id ≠ 0)
    (he : f.executors[id]? = some e) (hr : f.Draws me id e r g) : g.Sound k := by
  have hserves := h.executors id e he
  have hopen (hfinished : e.finished = false) : e.closed = false :=
    hserves.finished.symm.trans hfinished
  cases hr with
  | isOver _ => exact h
  | passes hfinished hcurrent hc | getsOn hfinished hcurrent hc _ =>
    refine h.pull he (hopen hfinished) rfl hserves.queue (fun c heq => ?_) (by simp [hcurrent])
    cases heq
    exact ⟨fun hzero => absurd hzero hid, fun _ => hc⟩
  | empties hfinished hcurrent =>
    exact h.pull he (hopen hfinished) rfl hserves.queue (fun c heq => by cases heq) (by simp)
  | opens hfinished hcurrent hqueue =>
    refine h.pull he (hopen hfinished) rfl (fun c hc => hserves.queue c ?_) (fun c heq => ?_) ?_
    · rw [hqueue]; exact .tail _ hc
    · cases heq
      exact hserves.queue _ (by simp [hqueue])
    · simp [hqueue, hcurrent]
  | ends _ _ hexhausted => exact h.close he hexhausted
  | waits hfinished _ _ _ =>
    exact h.pull he (hopen hfinished) rfl hserves.queue hserves.current le_rfl

/-- **Whatever the consumer pulls, a sound floor is left sound.** -/
theorem Sound.pulls {r : Pulled α} (h : f.Sound k) (he : f.executors[0]? = some e)
    (hr : f.Pulls e r g) : g.Sound k := by
  have hserves := h.executors 0 e he
  have hopen (hfinished : e.finished = false) : e.closed = false :=
    hserves.finished.symm.trans hfinished
  cases hr with
  | isOver _ => exact h
  | draws _ _ hj he' hdraws _ => exact h.draws hj.ne' he' hdraws
  | @empties j e' g hfinished hcurrent hj he' hdraws =>
    have hsound := h.draws hj.ne' he' hdraws
    have hsame : g.executors[0]? = some e := by
      cases hdraws with
      | isOver _ => exact he
      | ends _ _ _ => rw [getElem?_close, if_neg hj.ne', he]
    have hserves' := hsound.executors 0 e hsame
    exact hsound.pull hsame (hopen hfinished) rfl hserves'.queue (fun c heq => by cases heq)
      (by simp)
  | opens hfinished hcurrent hqueue =>
    refine h.pull he (hopen hfinished) rfl (fun c hc => hserves.queue c ?_) (fun c heq => ?_) ?_
    · rw [hqueue]; exact .tail _ hc
    · cases heq
      exact hserves.queue _ (by simp [hqueue])
    · simp [hqueue, hcurrent]
  | ends _ _ hexhausted => exact h.close he hexhausted
  | waits hfinished _ _ _ =>
    exact h.pull he (hopen hfinished) rfl hserves.queue hserves.current le_rfl

/-- The first executor stays open until the consumer is at the end. -/
theorem Pulls.branches_zero {r : Pulled α} (hsound : f.Sound k) (hr : f.Pulls e r g)
    (h : f.branches[0]? = some false) (hnot : r ≠ .done) : g.branches[0]? = some false := by
  have draws {me : Waker} {j : Nat} {e' : Executor α} {r : Pulled α} {g : Floor α} (hj : 0 < j)
      (he' : f.executors[j]? = some e') (hdraws : f.Draws me j e' r g) :
      g.branches[0]? = some false := by
    have hbranch : e'.branch ≠ 0 := (hsound.executors j e' he').branch ▸ hj.ne'
    cases hdraws with
    | ends _ _ _ => rwa [getElem?_branches_close f e' hbranch]
    | _ => exact h
  cases hr with
  | draws _ _ hj he' hdraws _ => exact draws hj he' hdraws
  | empties _ _ hj he' hdraws => exact (draws hj he' hdraws :)
  | isOver _ | ends _ _ _ => exact absurd rfl hnot
  | _ => exact h

end Floor

end FederatedSparql
