import FederatedSparql.Proofs.Machine.Duties

/-!
What producers do about what is written down.

A producer schedules the tasks of its executor one after another: of what is still to be scheduled a
part becomes what the task comes to, and the rest remains (`Machine.Honours.schedule`).  At its end
nothing remains, and the executor goes on without a producer.

* `Machine.exists_turnOver_scheduleWanted`: a task is scheduled unless nothing is wanted any more.
* `Machine.exists_turnOver_stepProducing`: so producers do their part, whatever they schedule.
-/

namespace FederatedSparql

variable {α : Type}

/-! ### Blocks that are filled -/

namespace BoundJoin

variable {size total : Nat} {filled : List α}

/-- Where something is filled the settings ask for some items in a block. -/
theorem nextBlockSize_max (hsome : filled ≠ []) (hlength : filled.length ≤ nextBlockSize size total) :
    nextBlockSize (max size 1) total = nextBlockSize size total := by
  have hpos := List.length_pos_iff.2 hsome
  unfold nextBlockSize at hlength ⊢
  split
  · rfl
  · next hmany =>
    rw [if_neg hmany] at hlength
    exact max_eq_left (Nat.le_trans hpos hlength)

/-- A block that is full, or behind which nothing comes, is the next one. -/
theorem blocksFrom_append {xs : List α} (hsome : filled ≠ [])
    (hlength : filled.length ≤ nextBlockSize size total)
    (hfull : filled.length = nextBlockSize size total ∨ xs = []) :
    blocksFrom size total (filled ++ xs) = filled :: blocksFrom size (total + filled.length) xs := by
  have hsize := nextBlockSize_max hsome hlength
  obtain ⟨row, rest, rfl⟩ := List.exists_cons_of_ne_nil hsome
  rw [List.cons_append, blocksFrom, hsize]
  set n := nextBlockSize size total
  have hrest : rest.length ≤ n - 1 := by
    rw [List.length_cons] at hlength
    omega
  obtain hfull | rfl := hfull
  · have hlast : rest.length = n - 1 := by
      rw [List.length_cons] at hfull
      omega
    rw [List.take_left' hlast, List.drop_left' hlast, List.length_append, List.length_cons,
      min_eq_left (by rw [List.length_cons] at hfull; omega), ← hfull, List.length_cons]
  · rw [List.append_nil, List.take_of_length_le hrest, List.drop_eq_nil_of_le hrest,
      ← List.length_cons, min_eq_right hlength]

/-- A block that is next has its part of what all have. -/
theorem sum_blocksFrom_append {R : List α → Multiset α} (xs : List α) (hnone : R [] = 0)
    (hlength : filled.length ≤ nextBlockSize size total)
    (hfull : filled.length = nextBlockSize size total ∨ xs = []) :
    ((blocksFrom size total (filled ++ xs)).map R).sum =
      R filled + ((blocksFrom size (total + filled.length) xs).map R).sum := by
  by_cases hsome : filled = []
  · rw [hsome, hnone, zero_add]
    rfl
  · rw [blocksFrom_append hsome hlength hfull, List.map_cons, List.sum_cons]

theorem mem_blocksFrom_append {xs block : List α}
    (hlength : filled.length ≤ nextBlockSize size total)
    (hfull : filled.length = nextBlockSize size total ∨ xs = [])
    (hblock : block = filled ∨ block ∈ [] :: blocksFrom size (total + filled.length) xs) :
    block ∈ [] :: blocksFrom size total (filled ++ xs) := by
  by_cases hsome : filled = []
  · subst hsome
    exact hblock.elim (fun hnil => hnil ▸ List.mem_cons_self) id
  · rw [blocksFrom_append hsome hlength hfull]
    grind

end BoundJoin

/-! ### What is left to schedule -/

namespace Dues

/-- What is to be scheduled is that of a task and the rest; if the first result is the only one, all
have the same that have any. -/
def Splits (firstOnly : Bool) (total M rest : Multiset α) : Prop :=
  match firstOnly with
  | false => total = M + rest
  | true => (M = 0 ∨ M = total) ∧ (rest = 0 ∨ rest = total) ∧ (total = 0 ∨ M = total ∨ rest = total)

/-- A task has been scheduled. -/
def schedule (d : Dues α) (id k : Nat) (M rest : Multiset α) (p : PoolName) : Dues α :=
  { d with
    tasks := fun i => if i = id then insert k (d.tasks i) else d.tasks i
    result := fun j => if j = k then M else d.result j
    rest := fun i => if i = id then rest else d.rest i
    spot := fun j => if j = k then .pool p else d.spot j }

/-- What was still to be scheduled is not wanted any more. -/
def forget (d : Dues α) (id : Nat) : Dues α :=
  { d with rest := fun i => if i = id then 0 else d.rest i }

variable {d : Dues α} {id k : Nat} {M rest : Multiset α} {p : PoolName}

theorem schedule_tasks :
    (d.schedule id k M rest p).tasks id = insert k (d.tasks id) := if_pos rfl

theorem schedule_rest : (d.schedule id k M rest p).rest id = rest := if_pos rfl

theorem schedule_result_of_ne {j : Nat} (hj : j ≠ k) :
    (d.schedule id k M rest p).result j = d.result j := if_neg hj

theorem schedule_of_ne {i : Nat} (hi : i ≠ id) :
    (d.schedule id k M rest p).tasks i = d.tasks i ∧ (d.schedule id k M rest p).rest i = d.rest i :=
  ⟨if_neg hi, if_neg hi⟩

end Dues

namespace Executor

variable [DecidableEq α] {answers : Answers} {d : Dues α} {e : Executor α} {size id : Nat}
  {cancelled : Bool}

/-- An executor may end its production once its tasks are over and none is left to schedule. -/
theorem Serves.endProduction (h : e.Serves answers d size id cancelled)
    (hover : e.closed = false → e.producing = true → d.tasks id = ∅ ∧ d.rest id = 0) :
    e.endProduction.Serves answers d size id cancelled where
  finished := h.finished
  settled := h.settled
  goesOn hopen := by
    have hgoes := h.goesOn hopen
    obtain ⟨Ms, N, hcontents, howed, hN⟩ := hgoes.content
    have hzero : N = 0 := by
      cases hproducing : e.producing with
      | false =>
        rw [hproducing] at hN
        exact hN
      | true =>
        obtain ⟨htasks, hrest⟩ := hover hopen hproducing
        rw [hproducing] at hN
        cases hfirst : e.firstOnly with
        | false =>
          rw [hfirst] at hN
          exact Eq.trans hN (by rw [htasks, hrest, Finset.sum_empty, zero_add])
        | true =>
          rw [hfirst] at hN
          obtain ⟨-, -, hzero | hsame | ⟨k, hk, -⟩⟩ := hN
          · exact hzero
          · exact hsame.symm.trans hrest
          · exact absurd (htasks ▸ hk) (Finset.notMem_empty k)
    refine ⟨hgoes.error, hgoes.receiving, hgoes.pending, fun hx => ⟨(hgoes.cancelled hx).1, rfl⟩,
      ⟨Ms, N, hcontents, howed, hzero⟩, fun hfirst _ => ?_, fun hfirst => ⟨(hgoes.single hfirst).1, nofun⟩⟩
    cases hproducing : e.producing with
    | false => exact hgoes.tasksOver hfirst hproducing
    | true => exact (hover hopen hproducing).1
  holds := h.holds
  later := h.later

/-- Of an executor that is cancelled nothing more is wanted. -/
theorem Serves.over_of_cancelled (h : e.Serves answers d size id true) :
    e.closed = true ∨ e.producing = false := by
  cases hclosed : e.closed with
  | true => exact .inl rfl
  | false => exact .inr ((h.goesOn hclosed).cancelled rfl).2

/-- What is not wanted any more need not be scheduled. -/
theorem Serves.forget (h : e.Serves answers d size id cancelled)
    (hnothing : e.closed = true ∨ e.producing = false ∨ d.rest id = 0) :
    e.Serves answers (d.forget id) size id cancelled where
  finished := h.finished
  settled := h.settled
  goesOn hopen := by
    have hgoes := h.goesOn hopen
    obtain ⟨Ms, N, hcontents, howed, hN⟩ := hgoes.content
    refine { hgoes with content := ⟨Ms, N, hcontents, howed, ?_⟩ }
    obtain hclosed | hover | hrest := hnothing
    · rw [hopen] at hclosed
      cases hclosed
    · rw [hover] at hN ⊢
      exact hN
    · exact hN.congr rfl ((if_pos rfl).trans hrest.symm) fun _ _ => rfl
  holds := h.holds.keep (Nat.le_refl _) fun _ _ => rfl
  later := h.later

/-- An executor has a further task. -/
theorem Serves.addTask {k : Nat} {M rest : Multiset α} {p : PoolName}
    (h : e.Serves answers d size id cancelled) (hk : k ∉ d.tasks id)
    (hgoesOn : e.closed = false → e.firstOnly = false → e.producing = true)
    (hsplits : Dues.Splits e.firstOnly (d.rest id) M rest) :
    e.addTask.Serves answers (d.schedule id k M rest p) size id cancelled where
  finished := h.finished
  settled := h.settled
  goesOn hopen := by
    have hgoes := h.goesOn hopen
    obtain ⟨Ms, N, hcontents, howed, hN⟩ := hgoes.content
    have hother {j : Nat} (hj : j ∈ d.tasks id) :
        (d.schedule id k M rest p).result j = d.result j :=
      Dues.schedule_result_of_ne fun hsame => hk (hsame ▸ hj)
    have hthis : (d.schedule id k M rest p).result k = M := if_pos rfl
    refine { hgoes with pending := ?_, content := ⟨Ms, N, hcontents, howed, ?_⟩, tasksOver := ?_ }
    · show e.pending + 1 = _
      rw [Dues.schedule_tasks, Finset.card_insert_of_notMem hk, hgoes.pending]
    · show Dues.Outstanding _ _ e.firstOnly e.producing N
      cases hproducing : e.producing with
      | false =>
        rw [hproducing] at hN
        exact hN
      | true =>
        rw [hproducing] at hN
        cases hfirst : e.firstOnly with
        | false =>
          rw [hfirst] at hN hsplits
          refine Eq.trans hN ?_
          rw [show d.rest id = M + rest from hsplits, Dues.schedule_tasks, Dues.schedule_rest,
            Finset.sum_insert hk, hthis, Finset.sum_congr rfl fun j hj => hother hj, add_left_comm,
            ← add_assoc]
        | true =>
          rw [hfirst] at hN hsplits
          obtain ⟨hall, hsome, hgives⟩ := hN
          obtain ⟨hM, hrest, htotal⟩ := hsplits
          have hsome' {K : Multiset α} (hK : K = 0 ∨ K = d.rest id) : K = 0 ∨ K = N := by
            obtain hK | rfl := hK
            · exact .inl hK
            · exact hsome
          unfold Dues.Outstanding
          rw [Dues.schedule_tasks, Dues.schedule_rest]
          refine ⟨fun j hj => ?_, hsome' hrest, ?_⟩
          · obtain hj | hj := Finset.mem_insert.1 hj
            · rw [hj, hthis]
              exact hsome' hM
            · exact hother hj ▸ hall j hj
          · obtain hzero | hsame | ⟨j, hj, hsame⟩ := hgives
            · exact .inl hzero
            · obtain hzero | hM' | hrest' := htotal
              · exact .inl (hsame.symm.trans hzero)
              · exact .inr (.inr ⟨k, Finset.mem_insert_self _ _, hthis.trans (hM'.trans hsame)⟩)
              · exact .inr (.inl (hrest'.trans hsame))
            · exact .inr (.inr ⟨j, Finset.mem_insert_of_mem hj, (hother hj).trans hsame⟩)
    · intro hfirst hproducing
      exact absurd (hgoesOn hopen hfirst) (by rw [show e.producing = false from hproducing]; exact nofun)
  holds := h.holds.keep (Nat.le_refl _) fun _ _ => rfl
  later := h.later

end Executor

namespace Machine

variable [DecidableEq α] {answers : Answers} {m m' : Machine α} {d d' : Dues α} {X : Set Holder}
  {t id : Nat} {production : Production α} {ids : List Nat} {e : Executor α}

/-! ### Producers and their executors -/

/-- A thread schedules the tasks of an executor, which are still wanted. -/
structure Produces (m : Machine α) (t id : Nat) (e : Executor α) : Prop where
  executor : m.executors[id]? = some e
  producer : e.producer = some t
  goesOn : e.closed = false → e.firstOnly = false → e.producing = true

omit [DecidableEq α] in
theorem Produces.beside (h : m.Produces t id e) (hm : Beside X ids m d m' d') :
    ∃ e', m'.Produces t id e' ∧ e'.firstOnly = e.firstOnly := by
  obtain ⟨e', he', -, hfirst, hproducer, hcloses⟩ := hm.later.executors id e h.executor
  refine ⟨e', ⟨he', hproducer.trans h.producer, fun hopen hnot => ?_⟩, hfirst⟩
  rw [hm.producing id e e' h.executor he' hopen]
  refine h.goesOn ?_ (hfirst ▸ hnot)
  cases hclosed : e.closed with
  | false => rfl
  | true => exact absurd (hcloses hclosed) (by simp [hopen])

/-- Nobody else schedules tasks of the executor. -/
theorem Honours.ne_of_produces (h : m.Honours answers d X) (hp : m.Produces t id e)
    (ht : .thread t ∈ X) {u i : Nat} {th : Thread α} (hth : m.threads[u]? = some th)
    (hu : .thread u ∉ X) (hproduces : th.activity = .producing i production) : i ≠ id := by
  rintro rfl
  have hemploys := h.threads u th hth hu
  rw [hproduces] at hemploys
  obtain ⟨e', he', howner, -⟩ := hemploys
  obtain rfl : e = e' := Option.some.inj (hp.executor.symm.trans he')
  obtain rfl : t = u := Option.some.inj (hp.producer.symm.trans howner)
  exact hu ht

namespace Turning

/-- What is not wanted any more need not be scheduled. -/
theorem forget (h : Turning answers t (.producing id production) m d m' d' ids)
    (hp : m'.Produces t id e)
    (hnothing : e.closed = true ∨ e.producing = false ∨ d'.rest id = 0) :
    Turning answers t (.producing id production) m d m' (d'.forget id) ids := by
  have hserves := h.honours.executors id e hp.executor (by simp)
  have hforgets : m'.Honours answers (d'.forget id)
      (insert (.executor id) (insert (.thread t) {.main})) := by
    have hexcept := h.honours.mono (Set.subset_insert (Holder.executor id) _)
    refine hexcept.reckon (fun _ _ _ => ⟨rfl, rfl⟩) (fun i _ _ hi => ?_) (fun job hjob => ?_)
      (fun u th i _ hth hu hproduces => ?_) hexcept.known
    · exact ⟨rfl, if_neg fun hsame : i = id => hi (hsame ▸ Set.mem_insert _ _), fun _ _ => rfl,
        .inl rfl⟩
    · obtain ⟨_, hat, -⟩ := hexcept.jobAt hjob
      exact ⟨rfl, rfl, hat.isOpen⟩
    · exact ⟨if_neg (hexcept.ne_of_produces hp (by simp) hth hu hproduces), fun hempty => hempty⟩
  exact {
    toLeavesMain := h.toLeavesMain.trans (.of_dues m' fun _ _ hmain => ⟨rfl, hmain⟩)
    honours := hforgets.restore hp.executor (hserves.forget hnothing)
    grasps := ⟨h.grasps.mem, h.grasps.holds.keep (Nat.le_refl _) fun _ _ => rfl, h.grasps.beyond,
      h.grasps.threads⟩
    later := h.later
    thread := h.thread }

/-- A producer goes on with something else. -/
theorem resume (h : Turning answers t (.producing id production) m d m' d' ids)
    (hp : m'.Produces t id e) (next : Production α)
    (hpromises : next.Promises answers d'.owed e.firstOnly (d'.rest id))
    (hheld : (leftOf next).held = ids)
    (hfirst : ∀ left size right, next = .first left size right → d'.tasks id = ∅) :
    TurnOver answers m d (after (Machine.become t (.producing id next)) m') d' := by
  refine h.become nofun (fun i production' hsame => .inr ⟨next, ?_⟩)
    ⟨e, hp.executor, hp.producer, hpromises, hheld ▸ h.grasps.holds, hp.goesOn, hfirst⟩
  rw [(Activity.producing.inj hsame).1]

end Turning

/-- **From now on a producer waits for its tasks if none is left to schedule.** -/
theorem exists_turnOver_awaitTasks (left : Cursor α)
    (h : Turning answers t (.producing id production) m d m' d' left.held)
    (hp : m'.Produces t id e)
    (hnothing : e.closed = true ∨ e.producing = false ∨ d'.rest id = 0) :
    ∃ d'', TurnOver answers m d (after (awaitTasks t id left) m') d'' := by
  have hlimit : m'.query.remaining? m'.now = none := by
    rw [QueryContext.remaining?, h.honours.calm.deadline]
    rfl
  rw [awaitTasks, after_get_bind, hlimit]
  exact ⟨_, (h.forget hp hnothing).resume hp (.awaiting left none) ⟨rfl, if_pos rfl⟩ rfl (by simp)⟩

/-- A producer ends that has nothing more to schedule, and its executor goes on without it. -/
theorem exists_turnOver_end {left : Cursor α}
    (h : Turning answers t (.producing id production) m d m' d' left.held)
    (hp : m'.Produces t id e)
    (hover : e.closed = false → e.producing = true → d'.tasks id = ∅ ∧ d'.rest id = 0) :
    ∃ d'', TurnOver answers m d (after (do
      endProduction id
      become t .finished
      discard left
      return Turn.ends : Action α Turn) m') d'' := by
  have hserves := h.honours.executors id e hp.executor (by simp)
  have hlater := Later.update (f := Executor.endProduction) hp.executor rfl rfl rfl fun hc => hc
  have h₁ := (((h.attend hp.executor).update (f := Executor.endProduction) rfl rfl rfl rfl
    fun hnot => absurd hp.producer hnot).release
      ((hserves.endProduction hover).grow hlater.size_le)).alike (alike_wakeConsumer id _)
  have h₂ := h₁.turn .finished (fun _ => rfl) fun _ _ _ => .inl rfl
  obtain ⟨d₃, h₃, -, -⟩ := h₂.settles (settles_discard h₂.honours h₂.grasps)
  exact ⟨d₃, h₃.finish trivial⟩

/-- **A producer is at its end if its tasks are over and none is left to schedule.** -/
theorem exists_turnOver_endProducer {left : Cursor α}
    (h : Turning answers t (.producing id production) m d m' d' left.held)
    (hp : m'.Produces t id e)
    (hover : e.closed = false → e.producing = true → d'.tasks id = ∅ ∧ d'.rest id = 0) :
    ∃ d'', TurnOver answers m d (after (endProducer t id left (.ok ())) m') d'' := by
  have hintime : m'.query.checkTimeout m'.now = .ok () := by
    simp [QueryContext.checkTimeout, QueryContext.isExpired, h.honours.calm.deadline]
  rw [endProducer, after_get_bind, Except.bind, hintime]
  exact exists_turnOver_end h hp hover

/-! ### Tasks that are scheduled -/

section Schedule

variable {p : PoolName} {name : String} {work : Work α} {M rest : Multiset α}

/-- A task is registered that hangs on a branch. -/
def registering (m : Machine α) (branch : Nat) : Machine α :=
  { m with query := { m.query with tasks := m.query.tasks.push { branch := some branch } } }

/-- What becomes of a machine when a task is scheduled, but for whom it wakes. -/
def scheduling (m : Machine α) (p : PoolName) (id branch : Nat) (name : String) (work : Work α) :
    Machine α :=
  after (updateCrew p fun c => { c with
    pool := c.pool.countScheduled
    jobs := c.jobs ++ [{ executor := id, task := m.query.tasks.size + 1, name, work }] })
      (after (updateExecutor id Executor.addTask) (m.registering branch))

omit [DecidableEq α] in
theorem later_registering (m : Machine α) (branch : Nat) : m.Later (m.registering branch) := by
  refine .of_executors rfl fun j record hrecord => ⟨record, ?_, rfl⟩
  have hlt := (Array.getElem?_eq_some_iff.1 hrecord).1
  exact (Array.getElem?_push_lt hlt).trans ((Array.getElem?_eq_getElem hlt).symm.trans hrecord)

omit [DecidableEq α] in
theorem later_scheduling (p : PoolName) (name : String) (work : Work α)
    (he : m.executors[id]? = some e) (branch : Nat) :
    m.Later (m.scheduling p id branch name work) :=
  ((later_registering m branch).trans
    (.update (f := Executor.addTask) (m := m.registering branch) he rfl rfl rfl fun hc => hc)).trans
      (later_updateCrew p _ _)

omit [DecidableEq α] in
theorem getElem?_scheduling (he : m.executors[id]? = some e) (branch : Nat) :
    (m.scheduling p id branch name work).executors[id]? = some e.addTask := by
  cases p <;> exact getElem?_updateExecutor (m := m.registering branch) _ he

/-- A task is scheduled of an executor that is excepted. -/
theorem Honours.schedule (h : m.Honours answers d X) (p : PoolName) (name : String)
    (rest : Multiset α) (ht : .thread t ∈ X) (hid : .executor id ∈ X)
    (hp : m.Produces t id e) (hcomes : work.Comes answers M)
    (hfetches : e.firstOnly = true → work.Fetches answers fun xs => (xs : Multiset α) = M) :
    (m.scheduling p id e.branch name work).Honours answers
      (d.schedule id (m.query.tasks.size + 1) M rest p) X := by
  set k := m.query.tasks.size + 1 with hk
  set d' := d.schedule id k M rest p with hd'
  have hnew {i j : Nat} (hj : j ∈ d.tasks i) : j ≠ k :=
    Nat.ne_of_lt (Nat.lt_succ_of_le (h.known i j hj))
  have hother {i : Nat} (hi : i ≠ id) : d'.tasks i = d.tasks i ∧ d'.rest i = d.rest i :=
    Dues.schedule_of_ne hi
  have htasks' : d'.tasks id = insert k (d.tasks id) := Dues.schedule_tasks
  -- The task is registered, and is written down.
  set m₁ := m.registering e.branch with hm₁
  have h₁ : m₁.Honours answers d X := by
    refine h.requery rfl rfl rfl rfl (later_registering m e.branch).tasks (fun task htask => ?_)
      ((Nat.le_succ _).trans_eq (Array.size_push _).symm)
    obtain htask | rfl := Array.mem_push.1 htask
    · exact h.calm.hanging task htask
    · rfl
  have h₂ : m₁.Honours answers d' X := by
    refine h₁.reckon (fun _ _ _ => ⟨rfl, rfl⟩) (fun i _ _ hi => ?_) (fun job hjob => ?_)
      (fun u th i _ hth hu hproduces => ?_) fun i j hj => ?_
    · obtain ⟨htasks, hrest⟩ := hother (i := i) fun hsame => hi (hsame ▸ hid)
      exact ⟨htasks, hrest, fun j hj => Dues.schedule_result_of_ne (hnew hj), .inl rfl⟩
    · obtain ⟨_, hat, -⟩ := h₁.jobAt hjob
      refine ⟨if_neg (hnew hat.isOpen), if_neg (hnew hat.isOpen), ?_⟩
      show _ ∈ if _ then _ else _
      split
      · exact Finset.mem_insert_of_mem hat.isOpen
      · exact hat.isOpen
    · have hne := h.ne_of_produces hp ht hth hu hproduces
      obtain ⟨htasks, hrest⟩ := hother hne
      exact ⟨hrest, fun hempty => htasks.trans hempty⟩
    · rw [hm₁, registering, Array.size_push]
      by_cases hi : i = id
      · rw [hi, htasks'] at hj
        obtain rfl | hj := Finset.mem_insert.1 hj
        · exact Nat.le_refl _
        · exact Nat.le_succ_of_le (h.known id j hj)
      · rw [(hother hi).1] at hj
        exact Nat.le_succ_of_le (h.known i j hj)
  -- The executor counts the task, and the pool gets the job.
  have h₃ := h₂.update (f := Executor.addTask) hp.executor hid rfl rfl rfl (fun hc => hc)
    fun _ _ _ hproducing => hproducing
  set m₂ := after (updateExecutor id Executor.addTask) m₁ with hm₂
  have he₂ : m₂.executors[id]? = some e.addTask := getElem?_updateExecutor _ hp.executor
  have hjobs₂ (q : PoolName) : (m₂.crew q).jobs = (m.crew q).jobs := by cases q <;> rfl
  refine h₃.recrew (p := p) (f := fun c => { c with
    pool := c.pool.countScheduled
    jobs := c.jobs ++ [{ executor := id, task := k, name, work }] }) (fun job hjob => ?_) ?_
      (h₃.calm.accepting p)
  · obtain hjob | hjob := List.mem_append.1 hjob
    · exact h₃.jobs p job hjob
    · obtain rfl := List.mem_singleton.1 hjob
      refine ⟨⟨if_pos rfl, ?_, Nat.le_add_left 1 _, e.addTask, { branch := some e.branch }, he₂, ?_, rfl⟩,
        ?_, fun e' he' hfirst => ?_⟩
      · exact htasks' ▸ Finset.mem_insert_self _ _
      · show (m.query.tasks.push _)[m.query.tasks.size + 1 - 1]? = _
        rw [Nat.add_sub_cancel, Array.getElem?_push_size]
      · show work.Comes answers (d'.result k)
        rw [show d'.result k = M from if_pos rfl]
        exact hcomes
      · obtain rfl : e.addTask = e' := Option.some.inj (he₂.symm.trans he')
        show work.Fetches answers fun xs => (xs : Multiset α) = d'.result k
        rw [show d'.result k = M from if_pos rfl]
        exact hfetches hfirst
  · show (((m₂.crew p).jobs ++ [_]).map _).Nodup
    rw [hjobs₂, List.map_append, List.nodup_append]
    refine ⟨h.nodup p, List.nodup_singleton _, fun j hj j' hj' => ?_⟩
    obtain ⟨job, hjob, rfl⟩ := List.mem_map.1 hj
    obtain rfl := List.mem_singleton.1 hj'
    exact hnew (h.jobs p job hjob).jobAt.isOpen

/-- **A producer schedules a task, and the rest remains to be scheduled.** -/
theorem exists_turning_schedule (p : PoolName) (name : String) (rest : Multiset α)
    (h : Turning answers t (.producing id production) m d m' d' ids)
    (hp : m'.Produces t id e) (hcomes : work.Comes answers M)
    (hfetches : e.firstOnly = true → work.Fetches answers fun xs => (xs : Multiset α) = M)
    (hsplits : Dues.Splits e.firstOnly (d'.rest id) M rest) :
    value (schedule p id name work) m' = .ok () ∧ ∃ d'',
      Turning answers t (.producing id production) m d (after (schedule p id name work) m') d'' ids ∧
      (after (schedule p id name work) m').Produces t id e.addTask ∧
      d''.owed = d'.owed ∧ d''.rest id = rest := by
  have haccepts : (m'.crew p).pool.checkAccepting = .ok () := by
    simp [Pool.checkAccepting, h.honours.calm.accepting p]
  have hregisters : m'.query.register (some e.branch) = .ok (m'.query.tasks.size + 1,
      { m'.query with tasks := m'.query.tasks.push { branch := some e.branch } }) := by
    simp [QueryContext.register, QueryContext.checkAborted, h.honours.calm.aborted]
  have hrun : (schedule p id name work).run m' = ((.ok () : Except FedError Unit),
      after (wakeThread? (m'.crew p).line.head?) (m'.scheduling p id e.branch name work)) := by
    rw [schedule, run_get_bind, haccepts, hp.executor]
    dsimp only
    rw [hregisters]
    rfl
  have hlater := later_scheduling p name work hp.executor e.branch
  have hserves := h.honours.executors id e hp.executor (by simp)
  have hcancelled : (m'.scheduling p id e.branch name work).isCancelled e.addTask = m'.isCancelled e := by
    cases p <;> rfl
  have hschedules := ((h.honours.mono (Set.subset_insert (.executor id) _)).schedule p name rest
    (by simp) (Set.mem_insert _ _) hp hcomes hfetches).restore
      (getElem?_scheduling hp.executor e.branch) (by
        rw [hcancelled]
        refine (hserves.addTask (fun hk => ?_) hp.goesOn hsplits).grow hlater.size_le
        exact absurd (h.honours.known id _ hk) (Nat.not_succ_le_self _))
  have hturning : Turning answers t (.producing id production) m d
      (m'.scheduling p id e.branch name work)
      (d'.schedule id (m'.query.tasks.size + 1) M rest p) ids := {
    toLeavesMain := h.toLeavesMain.trans ⟨hlater.size_le, fun _ _ hmain => ⟨rfl, hmain⟩⟩
    honours := hschedules
    grasps := ⟨h.grasps.mem, h.grasps.holds.keep hlater.size_le fun _ _ => rfl,
      fun j hj => by simp at hj, by cases p <;> exact h.grasps.threads⟩
    later := h.later.trans hlater
    thread := by cases p <;> exact h.thread }
  have hafter : after (schedule p id name work) m' = _ := congrArg Prod.snd hrun
  refine ⟨congrArg Prod.fst hrun, d'.schedule id (m'.query.tasks.size + 1) M rest p, ?_, ?_, rfl,
    Dues.schedule_rest⟩
  all_goals rw [hafter]
  · exact hturning.alike (alike_wakeThread? _ _)
  · refine ⟨?_, hp.producer, hp.goesOn⟩
    rw [(alike_wakeThread? _ _).executors]
    exact getElem?_scheduling hp.executor e.branch

/-- **A task is scheduled unless nothing is wanted any more.** -/
theorem exists_turnOver_scheduleWanted (left : Cursor α) (rest : Multiset α) {next : Production α}
    (h : Turning answers t (.producing id production) m d m' d' left.held)
    (hp : m'.Produces t id e) (hcomes : work.Comes answers M)
    (hfetches : e.firstOnly = true → work.Fetches answers fun xs => (xs : Multiset α) = M)
    (hsplits : Dues.Splits e.firstOnly (d'.rest id) M rest)
    (hpromises : next.Promises answers d'.owed e.firstOnly rest) (hleft : leftOf next = left)
    (hnot : ∀ left size right, next ≠ .first left size right) :
    ∃ d'', TurnOver answers m d (after (scheduleWanted t id p name work left next) m') d'' := by
  have hserves := h.honours.executors id e hp.executor (by simp)
  rw [scheduleWanted, after_get_bind, h.honours.calm.checkActive]
  dsimp only
  split
  · next hinactive =>
    refine exists_turnOver_awaitTasks left h hp ?_
    rw [hp.executor, Option.all_some, Executor.isActive, Bool.not_and, Bool.not_not, Bool.not_not,
      Bool.or_eq_true] at hinactive
    obtain hcancelled | hclosed := hinactive
    · rw [hcancelled] at hserves
      exact hserves.over_of_cancelled.imp_right .inl
    · exact .inl hclosed
  · obtain ⟨hok, d₂, h₂, hp₂, howed, hrest⟩ :=
      exists_turning_schedule p name rest h hp hcomes hfetches hsplits
    rw [after_bind, hok]
    exact ⟨d₂, h₂.resume hp₂ next (by rw [howed, hrest]; exact hpromises) (by rw [hleft])
      fun left size right hsame => absurd hsame (hnot left size right)⟩

end Schedule

/-! ### Steps of producers -/

section Steps

/-- A producer that pulls remains one, and has as much to schedule as before. -/
theorem exists_pulled {left : Cursor α} {Q : List α → Prop}
    (h : Turning answers t (.producing id production) m d m d left.held) (hp : m.Produces t id e)
    (hleft : left.Brings answers d.owed Q) :
    ∃ d' e', Turning answers t (.producing id production) m d (after (pull (.thread t) left) m) d'
        (value (pull (.thread t) left) m).2.held ∧
      (value (pull (.thread t) left) m).1.Leaves
        ((value (pull (.thread t) left) m).2.Brings answers d'.owed) Q ∧
      (after (pull (.thread t) left) m).Produces t id e' ∧ e'.firstOnly = e.firstOnly ∧
      d'.rest id = d.rest id ∧ d'.tasks id = d.tasks id := by
  have hlt := (Array.getElem?_eq_some_iff.1 hp.executor).1
  obtain ⟨d', h', hr, hdeals⟩ := h.settles (settles_pull (.thread t) h.honours h.grasps hleft)
  obtain ⟨e', hp', hfirst⟩ := hp.beside hdeals.beside
  exact ⟨d', e', h', hr, hp', hfirst, hdeals.beside.rest id hlt, hdeals.beside.tasks id hlt⟩

theorem exists_turnOver_branches {rest : List (String × Work α)}
    (h : Turning answers t (.producing id (.branches rest)) m d m d []) (hp : m.Produces t id e)
    (hlive : m.isCancelled e = false)
    (hpromises : (Production.branches rest).Promises answers d.owed e.firstOnly (d.rest id)) :
    ∃ d', TurnOver answers m d (after (stepProducing t id (.branches rest)) m) d' := by
  rw [stepProducing, after_get_bind, hp.executor, Option.all_some, hlive]
  cases rest with
  | nil =>
    refine exists_turnOver_awaitTasks .empty h hp (.inr (.inr ?_))
    cases hfirst : e.firstOnly with
    | false =>
      rw [hfirst] at hpromises
      obtain ⟨_, ⟨⟩, hzero⟩ := hpromises
      exact hzero
    | true =>
      rw [hfirst] at hpromises
      obtain ⟨_, ⟨⟩, -, hzero | hmem⟩ := hpromises
      · exact hzero
      · exact absurd hmem List.not_mem_nil
  | cons branch rest =>
    obtain ⟨name, work⟩ := branch
    cases hfirst : e.firstOnly with
    | false =>
      rw [hfirst] at hpromises
      obtain ⟨_, hall, hsum⟩ := hpromises
      cases hall with
      | @cons _ N _ Ns hwork hrest =>
        refine exists_turnOver_scheduleWanted .empty Ns.sum h hp hwork
          (fun hx => absurd hx (by simp [hfirst])) ?_ ?_ rfl (by simp)
        · rw [hfirst]
          exact hsum
        · rw [hfirst]
          exact ⟨Ns, hrest, rfl⟩
    | true =>
      rw [hfirst] at hpromises
      obtain ⟨_, hall, honly, hsome⟩ := hpromises
      cases hall with
      | @cons _ N _ Ns hwork hrest =>
        -- Once the last branch is scheduled that has the items, nothing is left to schedule.
        refine exists_turnOver_scheduleWanted .empty
          (if d.rest id ∈ Ns then d.rest id else 0) h hp hwork.brings (fun _ => hwork) ?_ ?_ rfl (by simp)
        · rw [hfirst]
          refine ⟨honly N List.mem_cons_self, ?_, ?_⟩
          · split
            · exact .inr rfl
            · exact .inl rfl
          · obtain hzero | hmem := hsome
            · exact .inl hzero
            · obtain hN | hNs := List.mem_cons.1 hmem
              · exact .inr (.inl hN.symm)
              · exact .inr (.inr (if_pos hNs))
        · rw [hfirst]
          refine ⟨Ns, hrest, fun N' hN' => ?_, ?_⟩
          · obtain hzero | hsame := honly N' (List.mem_cons_of_mem _ hN')
            · exact .inl hzero
            · exact .inr (by rw [← hsame, if_pos hN'])
          · split
            · next hmem => exact .inr hmem
            · exact .inl rfl

theorem exists_turnOver_nested {left : Cursor α} {right : α → Work α}
    (h : Turning answers t (.producing id (.nested left right)) m d m d left.held)
    (hp : m.Produces t id e) (hlive : m.isCancelled e = false)
    (hpromises : (Production.nested left right).Promises answers d.owed e.firstOnly (d.rest id)) :
    ∃ d', TurnOver answers m d (after (stepProducing t id (.nested left right)) m) d' := by
  obtain ⟨hall, R, hleft⟩ := hpromises
  obtain ⟨d₁, e₁, h₁, hr, hp₁, hfirst, hrest, -⟩ := exists_pulled h hp hleft
  rw [← hfirst] at hall
  rw [stepProducing, after_get_bind, hp.executor, Option.all_some, hlive]
  simp only [Bool.false_eq_true, if_false]
  rw [after_bind]
  generalize value (pull (.thread t) left) m = r at *
  obtain ⟨x | _ | _ | _ | _, c⟩ := r
  · obtain ⟨ys, hys, hsum⟩ := Cursor.Brings.exists_items hr
    rw [← Multiset.cons_coe, Multiset.cons_bind] at hsum
    refine exists_turnOver_scheduleWanted c ((ys : Multiset α).bind R) h₁ hp₁
      (hys x List.mem_cons_self) (fun hx => absurd hx (by simp [hall])) ?_ ⟨hall, R, ?_⟩ rfl (by simp)
    · rw [hall, hrest]
      exact hsum
    · refine Cursor.Brings.mono (c := c) (fun zs hzs => ⟨fun z hz => hzs.1 z (List.mem_cons_of_mem _ hz), ?_⟩) hr
      have hsame := hsum.symm.trans hzs.2
      rw [← Multiset.cons_coe, Multiset.cons_bind] at hsame
      exact add_left_cancel hsame
  · exact hr.elim
  · exact exists_turnOver_awaitTasks c h₁ hp₁ (.inr (.inr (hrest.trans hr.1.2)))
  · exact ⟨d₁, h₁.resume hp₁ _ (by rw [hrest]; exact ⟨hall, R, hr⟩) rfl (by simp)⟩
  · exact ⟨d₁, h₁.resume hp₁ _ (by rw [hrest]; exact ⟨hall, R, hr⟩) rfl (by simp)⟩

theorem exists_turnOver_first {left : Cursor α} {size : Nat} {right : α → List α → Work α}
    (h : Turning answers t (.producing id (.first left size right)) m d m d left.held)
    (hp : m.Produces t id e) (hlive : m.isCancelled e = false)
    (hpromises : (Production.first left size right).Promises answers d.owed e.firstOnly (d.rest id))
    (hempty : d.tasks id = ∅) :
    ∃ d', TurnOver answers m d (after (stepProducing t id (.first left size right)) m) d' := by
  obtain ⟨hall, R, hleft⟩ := hpromises
  obtain ⟨d₁, e₁, h₁, hr, hp₁, hfirst, hrest, htasks⟩ := exists_pulled h hp hleft
  rw [← hfirst] at hall
  rw [stepProducing, after_get_bind, hp.executor, Option.all_some, hlive]
  simp only [Bool.false_eq_true, if_false]
  rw [after_bind]
  generalize value (pull (.thread t) left) m = r at *
  obtain ⟨x | _ | _ | _ | _, c⟩ := r
  · obtain ⟨ys, hys, hsum⟩ := Cursor.Brings.exists_items hr
    have hrows (zs : List α) : Feed.blockRows size R (x :: zs) =
        R x [x] + ((BoundJoin.blocksFrom size 1 zs).map (R x)).sum := by
      rw [Feed.blockRows, BoundJoin.blocks, List.map_cons, List.sum_cons]
    rw [hrows] at hsum
    obtain ⟨hok, d₂, h₂, hp₂, howed, hrest₂⟩ := exists_turning_schedule .join
      "BoundJoin" ((BoundJoin.blocksFrom size 1 ys).map (R x)).sum (M := R x [x]) h₁ hp₁
      ((hys x rfl).2 [x] (by simp [BoundJoin.blocks])) (fun hx => absurd hx (by simp [hall]))
      (by rw [hall, hrest]; exact hsum)
    dsimp only
    rw [after_get_bind, h₁.honours.calm.checkActive]
    dsimp only
    rw [after_bind, hok]
    refine ⟨d₂, h₂.resume hp₂ (.block c size (right x) 1 []) ?_ rfl (by simp)⟩
    rw [howed, hrest₂]
    refine ⟨hall, Nat.zero_le _, R x, (hys x rfl).1,
      Cursor.Brings.mono (c := c) (fun zs hzs => ⟨fun block hblock => ?_, ?_⟩) hr⟩
    · refine (hzs.1 x rfl).2 block ?_
      obtain hnil | hblock := List.mem_cons.1 hblock
      · exact hnil ▸ List.mem_cons_self
      · exact List.mem_cons_of_mem _ (List.mem_cons_of_mem _ hblock)
    · have hsame := hsum.symm.trans hzs.2
      rw [hrows] at hsame
      exact add_left_cancel hsame
  · exact hr.elim
  · exact exists_turnOver_endProducer h₁ hp₁ fun _ _ => ⟨htasks.trans hempty, hrest.trans hr.1.2⟩
  all_goals
    refine ⟨d₁, h₁.resume hp₁ (.first c size right) ?_ rfl fun _ _ _ _ => htasks.trans hempty⟩
    rw [hrest]
    exact ⟨hall, R, hr⟩

theorem exists_turnOver_block {left : Cursor α} {size : Nat} {task : List α → Work α} {total : Nat}
    {filled : List α}
    (h : Turning answers t (.producing id (.block left size task total filled)) m d m d left.held)
    (hp : m.Produces t id e) (hlive : m.isCancelled e = false)
    (hpromises : (Production.block left size task total filled).Promises answers d.owed e.firstOnly
      (d.rest id)) :
    ∃ d', TurnOver answers m d (after (stepProducing t id (.block left size task total filled)) m)
      d' := by
  obtain ⟨hall, hlength, R, hnone, hleft⟩ := hpromises
  rw [stepProducing, after_get_bind, hp.executor, Option.all_some, hlive]
  simp only [Bool.false_eq_true, if_false]
  split
  · next hge =>
    -- The block is full, and the others follow it.
    have hfull := Nat.le_antisymm hlength hge
    have hblocks (xs : List α) := BoundJoin.sum_blocksFrom_append xs hnone hlength (.inl hfull)
    obtain ⟨ys, hys, hsum⟩ := Cursor.Brings.exists_items hleft
    rw [hblocks] at hsum
    refine exists_turnOver_scheduleWanted left _ h hp
      (hys filled (BoundJoin.mem_blocksFrom_append hlength (.inl hfull) (.inl rfl)))
      (fun hx => absurd hx (by simp [hall])) (by rw [hall]; exact hsum) ⟨hall, Nat.zero_le _, R, hnone,
        Cursor.Brings.mono (c := left) (fun zs hzs => ⟨fun block hblock => ?_, ?_⟩) hleft⟩ rfl (by simp)
    · exact hzs.1 block (BoundJoin.mem_blocksFrom_append hlength (.inl hfull) (.inr hblock))
    · have hsame := hsum.symm.trans hzs.2
      rw [hblocks] at hsame
      exact add_left_cancel hsame
  · next hlt =>
    obtain ⟨d₁, e₁, h₁, hr, hp₁, hfirst, hrest, -⟩ := exists_pulled h hp hleft
    rw [← hfirst] at hall
    rw [after_bind]
    generalize value (pull (.thread t) left) m = r at *
    obtain ⟨x | _ | _ | _ | _, c⟩ := r
    · refine ⟨d₁, h₁.resume hp₁ (.block c size task total (filled ++ [x])) ?_ rfl (by simp)⟩
      rw [hrest]
      refine ⟨hall, ?_, R, hnone, Cursor.Brings.mono (c := c) (fun zs hzs => ?_) hr⟩
      · rw [List.length_append, List.length_singleton]
        exact Nat.lt_of_not_le hlt
      · rw [List.append_assoc]
        exact hzs
    · exact hr.elim
    · dsimp only
      split
      · next hempty =>
        obtain rfl := List.isEmpty_iff.1 hempty
        refine exists_turnOver_awaitTasks c h₁ hp₁ (.inr (.inr ?_))
        rw [hrest, hr.1.2, List.append_nil, BoundJoin.blocksFrom]
        rfl
      · -- Nothing follows the last block.
        obtain ⟨⟨hblock, hsum⟩, hend⟩ := hr
        rw [BoundJoin.sum_blocksFrom_append [] hnone hlength (.inr rfl)] at hsum
        refine exists_turnOver_scheduleWanted c _ h₁ hp₁
          (hblock filled (BoundJoin.mem_blocksFrom_append hlength (.inr rfl) (.inl rfl)))
          (fun hx => absurd hx (by simp [hall])) (by rw [hall, hrest]; exact hsum) ⟨hall, Nat.zero_le _,
            R, hnone, Cursor.Brings.mono (c := c) (fun zs hzs => ?_) hend⟩ rfl (by simp)
        obtain rfl : zs = [] := hzs
        exact ⟨fun block hblock' => hblock block
          (BoundJoin.mem_blocksFrom_append hlength (.inr rfl) (.inr hblock')), rfl⟩
    all_goals
      refine ⟨d₁, h₁.resume hp₁ (.block c size task total filled) ?_ rfl (by simp)⟩
      rw [hrest]
      exact ⟨hall, hlength, R, hnone, hr⟩

theorem exists_turnOver_awaiting {left : Cursor α} {limit : Option Nat}
    (h : Turning answers t (.producing id (.awaiting left limit)) m d m d left.held)
    (hp : m.Produces t id e) (hlive : m.isCancelled e = false)
    (hpromises : (Production.awaiting left limit).Promises answers d.owed e.firstOnly (d.rest id)) :
    ∃ d', TurnOver answers m d (after (stepProducing t id (.awaiting left limit)) m) d' := by
  obtain ⟨rfl, hzero⟩ := hpromises
  have hserves := h.honours.executors id e hp.executor (by simp)
  rw [stepProducing, after_get_bind, hp.executor, Option.all_some, hlive]
  simp only [Bool.false_eq_true, if_false]
  have hrun : (checkTasks id none).run m =
      (if e.pending = 0 then Awaited.finished else .pending, m) := by
    rw [checkTasks, run_get_bind, hp.executor]
    dsimp only
    rw [hlive, Bool.false_or]
    by_cases hpending : e.pending = 0 <;> simp [hpending] <;> rfl
  by_cases hpending : e.pending = 0
  · rw [if_pos hpending] at hrun
    rw [after, run_bind_of_run hrun]
    refine exists_turnOver_endProducer h hp fun hopen _ => ⟨?_, hzero⟩
    exact Finset.card_eq_zero.1 ((hserves.goesOn hopen).pending.symm.trans hpending)
  · rw [if_neg hpending] at hrun
    rw [after, run_bind_of_run hrun]
    exact ⟨d, h.finish ⟨e, hp.executor, hp.producer, ⟨rfl, hzero⟩, h.grasps.holds, hp.goesOn, (by simp)⟩⟩

/-- **Producers do their part, whatever they schedule.** -/
theorem exists_turnOver_stepProducing (h : m.Honours answers d {.main}) {th : Thread α}
    (hth : m.threads[t]? = some th) (ha : th.activity = .producing id production) :
    ∃ d', TurnOver answers m d (after (stepProducing t id production) m) d' := by
  have hturn := Turning.start h hth
  have hemploys := h.threads t th hth (by simp)
  rw [ha] at hturn hemploys
  obtain ⟨e, he, hproducer, hpromises, -, hgoes, hempty⟩ := hemploys
  have hp : m.Produces t id e := ⟨he, hproducer, hgoes⟩
  cases hcancelled : m.isCancelled e with
  | true =>
    have hserves := h.executors id e he (by simp)
    rw [hcancelled] at hserves
    rw [stepProducing, after_get_bind, he, Option.all_some, hcancelled]
    refine exists_turnOver_end hturn hp fun hopen hproducing => ?_
    obtain hclosed | hover := hserves.over_of_cancelled
    · exact absurd hclosed (by simp [hopen])
    · exact absurd hproducing (by simp [hover])
  | false =>
    cases production with
    | branches rest => exact exists_turnOver_branches hturn hp hcancelled hpromises
    | nested left right => exact exists_turnOver_nested hturn hp hcancelled hpromises
    | first left size right =>
      exact exists_turnOver_first hturn hp hcancelled hpromises (hempty left size right rfl)
    | block left size task total filled => exact exists_turnOver_block hturn hp hcancelled hpromises
    | awaiting left limit => exact exists_turnOver_awaiting hturn hp hcancelled hpromises

end Steps

end Machine

end FederatedSparql
