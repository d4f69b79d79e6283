import Mathlib
import FederatedSparql.Proofs.Machine.BlockTurns

/-!
Runs of a producer that fills blocks.

Whatever else happens on the machine, a producer takes the rows of its left in their order and hands
them over in blocks: `Filling` relates what it does next to what it has been told and what it has
handed over, `Filling.turn` follows it through a turn and `Site.filling_run` through a run.

* `Site.asked_on`: as long as the left gives rows it is asked for more.
* `Site.handed_blocks`: when the left has come to its end, its rows have been handed over in blocks
  of the sizes and the number that `BoundJoin.Cut` says; when it has failed, the blocks that were
  full have been handed over, and the failure has been tossed.
-/

namespace FederatedSparql

open Machine BoundJoin

/-! ### How far a producer has come -/

section Filling

variable {α : Type} {id size : Nat} {right : α → List α → Work α} {rows : List α} {a : Activity α}
  {told : List (Pulled α)} {jobs : List (Job α)}

/-- The jobs of some blocks, one for each, in their order: the first of all rows decides what is
done for a block. -/
def JobsOf (id : Nat) (right : α → List α → Work α) (rows : List α) :
    List (Job α) → List (List α) → Prop :=
  List.Forall₂ fun job block =>
    job.executor = id ∧ ∃ first ∈ rows.head?, job.work = right first block

/-- A left that is at its end says so whenever it is pulled again. -/
def Regular (told : List (Pulled α)) : Prop := told.Pairwise fun r r' => r = .done → r' = .done

/-- How far a producer of blocks has come: what it does next, what its left has told it, and the
jobs that it has handed over. -/
inductive Filling (id size : Nat) (right : α → List α → Work α) :
    Activity α → List (Pulled α) → List (Job α) → Prop
  | waits {left : Cursor α} : Filling id size right (.producing id (.first left size right)) [] []
  | fills {left : Cursor α} {row : α} {rows filled : List α} {blocks : List (List α)} {total : Nat}
      {jobs : List (Job α)} (hfull : Full size blocks) (hsome : blocks ≠ [])
      (htotal : blocks.flatten.length = total) (hroom : filled.length ≤ wanted size blocks)
      (hrows : blocks.flatten ++ filled = row :: rows)
      (hjobs : JobsOf id right (row :: rows) jobs blocks) :
      Filling id size right (.producing id (.block left size (right row) total filled))
        ((row :: rows).map .item) jobs
  /-- The block that was begun last has been handed over. -/
  | closes {left : Cursor α} {task : List α → Work α} {rows : List α} {blocks : List (List α)}
      {total : Nat} {jobs : List (Job α)} (hcut : Cut size rows blocks)
      (hjobs : JobsOf id right rows jobs blocks) :
      Filling id size right (.producing id (.block left size task total []))
        (rows.map .item ++ [.done]) jobs
  | ends {a : Activity α} {rows : List α} {blocks : List (List α)} {jobs : List (Job α)} (n : Nat)
      (hrests : a.Rests id) (hcut : Cut size rows blocks)
      (hjobs : JobsOf id right rows jobs blocks) :
      Filling id size right a (rows.map .item ++ List.replicate (n + 1) .done) jobs
  | fails {a : Activity α} {rows : List α} {blocks : List (List α)} {jobs : List (Job α)}
      (e : FedError) (hrests : a.Rests id) (hfilled : Filled size rows blocks)
      (hjobs : JobsOf id right rows jobs blocks) :
      Filling id size right a (rows.map .item ++ [.failure e]) jobs

theorem JobsOf.append {job : Job α} {block : List α} {blocks : List (List α)} {first : α}
    (h : JobsOf id right rows jobs blocks) (hid : job.executor = id) (hfirst : first ∈ rows.head?)
    (hwork : job.work = right first block) :
    JobsOf id right rows (jobs ++ [job]) (blocks ++ [block]) :=
  List.rel_append h (.cons ⟨hid, first, hfirst, hwork⟩ .nil)

theorem Regular.eq_done {r : Pulled α} (h : Regular (rows.map .item ++ [.done] ++ [r])) :
    r = .done :=
  (List.pairwise_append.mp h).2.2 .done (by simp) r (by simp) rfl

/-- **A turn brings a producer of blocks further.** -/
theorem Filling.turn {production : Production α} {told' : List (Pulled α)} {jobs' : List (Job α)}
    (hsize : 1 ≤ size) (h : Filling id size right (.producing id production) told jobs)
    (hfills : production.fillsBlocks = true) (hturn : BlockTurn id production told' jobs' a)
    (hregular : Regular (told ++ told')) :
    Filling id size right a (told ++ told') (jobs ++ jobs') := by
  cases h with
  | waits =>
    cases hturn with
    | waits => exact .waits
    | @begins _ left' _ _ row job hid hwork =>
      have hfull : Full size [[row]] := Full.nil.snoc rfl
      have hjobs : JobsOf id right [row] [job] [[row]] := .cons ⟨hid, row, rfl, hwork⟩ .nil
      exact .fills hfull (List.cons_ne_nil _ _) rfl (Nat.zero_le _) rfl hjobs
    | finds_nothing => exact .ends 0 .finished (Cut.nil size) .nil
    | fails e =>
      have hfilled : Filled size ([] : List α) [] := ⟨.nil, [], rfl, Nat.zero_lt_one⟩
      exact .fails e .finished hfilled .nil
  | @fills left row rows filled blocks total jobs hfull hsome htotal hroom hrows hjobs =>
    subst htotal
    have hfirst : row ∈ (row :: rows).head? := rfl
    have hnext := nextBlockSize_eq_wanted size hsome
    cases hturn with
    | fails e hleft =>
      rw [Production.source?, hnext] at hleft
      split at hleft
      · next hfew =>
        have hfilled : Filled size (row :: rows) blocks := ⟨hfull, filled, hrows, hfew⟩
        rw [List.append_nil]
        exact .fails e .finished hfilled hjobs
      · cases hleft
    | hands_over hmany hid hwork =>
      rw [hnext] at hmany
      have hfull' : Full size (blocks ++ [filled]) := hfull.snoc (le_antisymm hroom hmany)
      rw [List.append_nil]
      apply Filling.fills hfull'
      · exact List.append_ne_nil_of_right_ne_nil _ (List.cons_ne_nil _ _)
      · simp
      · exact Nat.zero_le _
      · simpa using hrows
      · exact hjobs.append hid hfirst hwork
    | idles =>
      rw [List.append_nil, List.append_nil]
      exact .fills hfull hsome rfl hroom hrows hjobs
    | @fills _ _ _ _ _ _ row' hfew =>
      rw [hnext] at hfew
      have htold : (row :: rows).map Pulled.item ++ [.item row'] =
          (row :: (rows ++ [row'])).map .item := by simp
      rw [htold, List.append_nil]
      apply Filling.fills hfull hsome rfl
      · rw [List.length_append, List.length_singleton]
        exact hfew
      · rw [← List.append_assoc, hrows, List.cons_append]
      · exact hjobs
    | ends =>
      rw [List.append_nil] at hrows
      rw [List.append_nil]
      exact .ends 0 (.awaits _ _) (hrows ▸ hfull.cut hsize) hjobs
    | hands_over_rest hne hfew hid hwork =>
      have hcut := hfull.cut_append hsize hne hroom
      rw [hrows] at hcut
      exact .closes hcut (hjobs.append hid hfirst hwork)
  | closes hcut hjobs =>
    cases hturn with
    | fails e => cases hregular.eq_done
    | hands_over hmany =>
      have hpos := Nat.le_trans (one_le_nextBlockSize hsize _) hmany
      exact absurd hpos (Nat.not_succ_le_zero 0)
    | idles =>
      rw [List.append_nil, List.append_nil]
      exact .closes hcut hjobs
    | fills => cases hregular.eq_done
    | ends =>
      rw [List.append_nil, List.append_assoc]
      exact .ends 1 (.awaits _ _) hcut hjobs
    | hands_over_rest hne => exact absurd rfl hne
  | ends n hrests hcut hjobs =>
    cases hrests
    simp [Production.fillsBlocks] at hfills
  | fails e hrests hfilled hjobs =>
    cases hrests
    simp [Production.fillsBlocks] at hfills

/-- A producer that is through with its left stays so. -/
theorem Filling.of_rests (h : Filling id size right a told jobs) (hrests : a.Rests id)
    {b : Activity α} (hb : b.Rests id) : Filling id size right b told jobs := by
  cases h with
  | waits => cases hrests
  | fills => cases hrests
  | closes => cases hrests
  | ends n _ hcut hjobs => exact .ends n hb hcut hjobs
  | fails e _ hfilled hjobs => exact .fails e hb hfilled hjobs

/-- A producer of blocks is through with its left, or not. -/
theorem Filling.fillsBlocks_or_rests (h : Filling id size right a told jobs) :
    (∃ production : Production α, a = .producing id production ∧ production.fillsBlocks = true) ∨
      a.Rests id := by
  cases h with
  | waits => exact .inl ⟨_, rfl, rfl⟩
  | fills => exact .inl ⟨_, rfl, rfl⟩
  | closes => exact .inl ⟨_, rfl, rfl⟩
  | ends _ hrests => exact .inr hrests
  | fails _ hrests => exact .inr hrests

/-! ### Where the left has come to -/

/-- The item that has been pulled, if there is one. -/
def Pulled.item? : Pulled α → Option α
  | .item x => some x
  | _ => none

theorem filterMap_item?_append (rows : List α) (told : List (Pulled α)) :
    (rows.map Pulled.item ++ told).filterMap Pulled.item? =
      rows ++ told.filterMap Pulled.item? := by
  induction rows with
  | nil => rfl
  | cons row rows ih => exact congrArg (row :: ·) ih

theorem filterMap_item?_done (rows : List α) (n : Nat) :
    (rows.map Pulled.item ++ List.replicate n Pulled.done).filterMap Pulled.item? = rows := by
  rw [filterMap_item?_append, List.filterMap_replicate_of_none rfl, List.append_nil]

theorem filterMap_item?_failure (rows : List α) (e : FedError) :
    (rows.map Pulled.item ++ [Pulled.failure e]).filterMap Pulled.item? = rows := by
  rw [filterMap_item?_append]
  exact List.append_nil rows

theorem regular_append (rows : List α) (h : Regular told) : Regular (rows.map .item ++ told) := by
  induction rows with
  | nil => exact h
  | cons row rows ih => exact List.pairwise_cons.mpr ⟨fun _ _ => nofun, ih⟩

/-- As long as the left has given nothing but rows, blocks are filled, and no more of them have been
handed over than there are rows. -/
theorem Filling.of_items (hsize : 1 ≤ size) (h : Filling id size right a told jobs) (rows : List α)
    (htold : told = rows.map .item) :
    jobs.length ≤ rows.length ∧ ∃ production : Production α,
      a = .producing id production ∧ production.fillsBlocks = true := by
  have hitems : ∀ r ∈ told, ∃ row, r = .item row := by
    intro r hr
    obtain ⟨row, -, rfl⟩ := List.mem_map.mp (htold ▸ hr)
    exact ⟨row, rfl⟩
  cases h with
  | waits => exact ⟨Nat.zero_le _, _, rfl, rfl⟩
  | fills hfull _ _ _ hrows hjobs =>
    refine ⟨?_, _, rfl, rfl⟩
    have hlength := congrArg List.length hrows
    have htold := congrArg List.length htold
    rw [List.length_append] at hlength
    rw [List.length_map, List.length_map] at htold
    rw [List.Forall₂.length_eq hjobs]
    have hfew := hfull.length_le hsize
    omega
  | closes => simpa using hitems .done (by simp)
  | ends n => simpa using hitems .done (by simp)
  | fails e => simpa using hitems (.failure e) (by simp)

/-- When the left has come to its end, its rows have been handed over in blocks. -/
theorem Filling.blocks_of_done (h : Filling id size right a told jobs) (rows : List α) (n : Nat)
    (htold : told = rows.map .item ++ List.replicate (n + 1) .done) :
    ∃ blocks, Cut size rows blocks ∧ JobsOf id right rows jobs blocks := by
  have hdone : Pulled.done ∈ told := by simp [htold]
  have hrows : told.filterMap Pulled.item? = rows := by
    rw [htold, filterMap_item?_done]
  cases h with
  | waits => cases hdone
  | fills => simp at hdone
  | closes hcut hjobs =>
    obtain rfl := (filterMap_item?_done _ 1).symm.trans hrows
    exact ⟨_, hcut, hjobs⟩
  | ends k _ hcut hjobs =>
    obtain rfl := (filterMap_item?_done _ (k + 1)).symm.trans hrows
    exact ⟨_, hcut, hjobs⟩
  | fails e => simp at hdone

/-- When the left has failed, the blocks that were full have been handed over. -/
theorem Filling.blocks_of_failure (h : Filling id size right a told jobs) (rows : List α)
    (e : FedError) (htold : told = rows.map .item ++ [.failure e]) :
    ∃ blocks, Filled size rows blocks ∧ JobsOf id right rows jobs blocks := by
  have hfailure : Pulled.failure e ∈ told := by simp [htold]
  have hrows : told.filterMap Pulled.item? = rows := by
    rw [htold, filterMap_item?_failure]
  cases h with
  | waits => cases hfailure
  | fills => simp at hfailure
  | closes => simp at hfailure
  | ends => simp at hfailure
  | fails e' _ hfilled hjobs =>
    obtain rfl := (filterMap_item?_failure _ e').symm.trans hrows
    exact ⟨_, hfilled, hjobs⟩

end Filling

/-- Whether a move is a turn of a thread. -/
def Move.isTurn (t : Nat) : Move → Bool
  | .thread u => u == t
  | _ => false

namespace Site

variable {s : Site} {t id size : Nat} {right : Bindings → List Bindings → Work Bindings}

/-! ### What a producer is told and hands over -/

/-- What is noted of each turn of a thread in a run. -/
def noted {β : Type} (note : Site → List β) (t : Nat) : Site → List Move → List β
  | _, [] => []
  | s, .thread u :: moves =>
    (if u = t then note s else []) ++ noted note t (s.step (.thread u)) moves
  | s, move :: moves => noted note t (s.step move) moves

/-- The jobs for joins that come by a turn of a thread. -/
def added (s : Site) (t : Nat) : List (Job Bindings) :=
  (s.step (.thread t)).machine.join.jobs.drop s.machine.join.jobs.length

/-- What a thread that fills blocks is told by its left in a run. -/
def told (s : Site) (t : Nat) (moves : List Move) : List (Pulled Bindings) :=
  noted (fun s => (s.seen (s.client t)).told t) t s moves

/-- What a thread that fills blocks gets from its left in a run, whenever it pulls. -/
def asked (s : Site) (t : Nat) (moves : List Move) : List (Pulled Bindings) :=
  noted (fun s => (s.seen (s.client t)).asked t) t s moves

/-- The jobs for joins that a thread hands over in a run, in their order. -/
def handed (s : Site) (t : Nat) (moves : List Move) : List (Job Bindings) :=
  noted (fun s => s.added t) t s moves

/-- Whenever a thread fills blocks for an executor in a run, the query is active and nothing else is
in the way. -/
def StaysActive (s : Site) (t id : Nat) (moves : List Move) : Prop :=
  ∀ before behind, moves = before ++ .thread t :: behind →
    ((s.run before).seen ((s.run before).client t)).MayFill t id

section Noted

variable {β : Type} {note : Site → List β} {move : Move} {moves : List Move}

theorem noted_turn (s : Site) : noted note t s (.thread t :: moves) =
    note s ++ noted note t (s.step (.thread t)) moves := by
  rw [noted, if_pos rfl]

theorem noted_move (s : Site) (h : ∀ u, move = .thread u → t ≠ u) :
    noted note t s (move :: moves) = noted note t (s.step move) moves := by
  cases move with
  | thread u => rw [noted, if_neg (h u rfl).symm, List.nil_append]
  | _ => rfl

/-- If something is noted of each turn, there are no more turns than there is noted. -/
theorem countP_isTurn_le {γ : Type} {note' : Site → List γ}
    (h : ∀ before behind, moves = before ++ .thread t :: behind →
      1 ≤ (note (s.run before)).length + (note' (s.run before)).length) :
    moves.countP (Move.isTurn t) ≤
      (noted note t s moves).length + (noted note' t s moves).length := by
  induction moves generalizing s with
  | nil => exact Nat.zero_le _
  | cons move moves ih =>
    have hmoves := ih fun before behind hmoves =>
      h (move :: before) behind (congrArg (move :: ·) hmoves)
    by_cases hmove : move = .thread t
    · subst hmove
      have hturn := h [] moves rfl
      have hits : Move.isTurn t (.thread t) = true := beq_self_eq_true t
      rw [List.countP_cons_of_pos hits, noted_turn, noted_turn, List.length_append,
        List.length_append]
      change 1 ≤ (note s).length + (note' s).length at hturn
      omega
    · have hothers : ∀ u, move = .thread u → t ≠ u := by
        rintro u rfl rfl
        exact hmove rfl
      have hother : ¬ Move.isTurn t move = true := by
        cases move with
        | thread u => simpa [Move.isTurn] using (hothers u rfl).symm
        | _ => exact Bool.false_ne_true
      rw [List.countP_cons_of_neg hother, noted_move s hothers, noted_move s hothers]
      exact hmoves

theorem noted_append (s : Site) (xs ys : List Move) :
    noted note t s (xs ++ ys) = noted note t s xs ++ noted note t (s.run xs) ys := by
  induction xs generalizing s with
  | nil => rfl
  | cons move moves ih =>
    rw [List.cons_append]
    by_cases hmove : move = .thread t
    · subst hmove
      rw [noted_turn, noted_turn, ih, List.append_assoc]
      rfl
    · have hothers : ∀ u, move = .thread u → t ≠ u := by
        rintro u rfl rfl
        exact hmove rfl
      rw [noted_move s hothers, noted_move s hothers, ih]
      rfl

/-- What has been noted has been noted in some turn. -/
theorem exists_turn_of_mem_noted {x : β} (h : x ∈ noted note t s moves) :
    ∃ before behind, moves = before ++ .thread t :: behind ∧ x ∈ note (s.run before) := by
  induction moves generalizing s with
  | nil => cases h
  | cons move moves ih =>
    have later (h : x ∈ noted note t (s.step move) moves) :
        ∃ before behind, move :: moves = before ++ .thread t :: behind ∧
          x ∈ note (s.run before) := by
      obtain ⟨before, behind, rfl, hx⟩ := ih h
      exact ⟨move :: before, behind, rfl, hx⟩
    by_cases hmove : move = .thread t
    · subst hmove
      rw [noted_turn] at h
      rcases List.mem_append.mp h with h | h
      · exact ⟨[], moves, rfl, h⟩
      · exact later h
    · apply later
      rwa [noted_move s] at h
      rintro u rfl rfl
      exact hmove rfl

end Noted

theorem StaysActive.step {move : Move} {moves : List Move}
    (h : s.StaysActive t id (move :: moves)) : (s.step move).StaysActive t id moves := by
  intro before behind hmoves
  exact h (move :: before) behind (congrArg (move :: ·) hmoves)

theorem StaysActive.before {before behind : List Move}
    (h : s.StaysActive t id (before ++ behind)) : s.StaysActive t id before := by
  intro before' behind' hmoves
  apply h before' (behind' ++ behind)
  rw [hmoves, List.append_assoc, List.cons_append]

theorem added_eq {new : List (Job Bindings)} {b : Activity Bindings}
    (h : (s.seen (s.client t)).LeavesAt t new b (after (stepThread t) (s.seen (s.client t)))) :
    s.added t = new := by
  show List.drop _ (after (stepThread t) (s.seen (s.client t))).join.jobs = new
  rw [h.jobs]
  exact List.drop_left

/-- A turn brings a producer of blocks further, or it is through with its left. -/
theorem filling_turn (hsize : 1 ≤ size) {a : Activity Bindings} {told : List (Pulled Bindings)}
    {jobs : List (Job Bindings)} (ht : s.machine.activity? t = some a)
    (h : Filling id size right a told jobs) (hactive : (s.seen (s.client t)).MayFill t id)
    (hregular : Regular (told ++ (s.seen (s.client t)).told t)) :
    ∃ b, (s.step (.thread t)).machine.activity? t = some b ∧
      Filling id size right b (told ++ (s.seen (s.client t)).told t) (jobs ++ s.added t) := by
  have ht' : (s.seen (s.client t)).activity? t = some a := ht
  rcases h.fillsBlocks_or_rests with ⟨production, rfl, hfills⟩ | hrests
  · obtain ⟨new, b, hturn, hleaves⟩ :=
      blockTurn_stepThread ht' hfills (hactive production ht' hfills)
    rw [added_eq hleaves]
    exact ⟨b, hleaves.activity, h.turn hsize hfills hturn hregular⟩
  · obtain ⟨b, hb, hleaves⟩ := rested_stepThread ht' hrests
    rw [added_eq hleaves, told_of_rests ht' hrests, List.append_nil, List.append_nil]
    exact ⟨b, hleaves.activity, h.of_rests hrests hb⟩

/-- **A run of moves brings a producer of blocks further.** -/
theorem filling_run (hsize : 1 ≤ size) (moves : List Move) {a : Activity Bindings}
    {told : List (Pulled Bindings)} {jobs : List (Job Bindings)}
    (ht : s.machine.activity? t = some a) (h : Filling id size right a told jobs)
    (hactive : s.StaysActive t id moves) (hregular : Regular (told ++ s.told t moves)) :
    ∃ b, (s.run moves).machine.activity? t = some b ∧
      Filling id size right b (told ++ s.told t moves) (jobs ++ s.handed t moves) := by
  induction moves generalizing s a told jobs with
  | nil =>
    have hnone : s.told t [] = [] ∧ s.handed t [] = [] := ⟨rfl, rfl⟩
    rw [hnone.1, hnone.2, List.append_nil, List.append_nil]
    exact ⟨a, ht, h⟩
  | cons move moves ih =>
    by_cases hmove : move = .thread t
    · subst hmove
      rw [Site.told, noted_turn, ← List.append_assoc] at hregular ⊢
      rw [Site.handed, noted_turn, ← List.append_assoc]
      obtain ⟨b, hb, hfilling⟩ := filling_turn hsize ht h (hactive [] moves rfl)
        (List.pairwise_append.mp hregular).1
      exact ih hb hfilling hactive.step hregular
    · have hothers : ∀ u, move = .thread u → t ≠ u := by
        rintro u rfl rfl
        exact hmove rfl
      rw [Site.told, noted_move s hothers] at hregular ⊢
      rw [Site.handed, noted_move s hothers]
      exact ih (activity?_step ht hothers) h hactive.step hregular

/-- **As long as the left has given nothing but rows, it is asked on and on**: in every turn but for
one a block, and there are no more blocks than rows. -/
theorem asked_on (hsize : 1 ≤ size) {moves : List Move} {left : Cursor Bindings}
    (hfirst : s.machine.activity? t = some (.producing id (.first left size right)))
    (hactive : s.StaysActive t id moves) {rows : List Bindings}
    (htold : s.told t moves = rows.map .item) :
    moves.countP (Move.isTurn t) ≤ (s.asked t moves).length + rows.length := by
  have hregular {told : List (Pulled Bindings)} {rows : List Bindings}
      (htold : told = rows.map .item) : Regular told := by
    rw [htold, ← List.append_nil (rows.map Pulled.item)]
    exact regular_append rows .nil
  have asks (before behind : List Move) (hmoves : moves = before ++ .thread t :: behind) :
      1 ≤ (((s.run before).seen ((s.run before).client t)).asked t).length +
        ((s.run before).added t).length := by
    subst hmoves
    rw [Site.told, noted_append] at htold
    obtain ⟨rows, -, -, hbefore, -⟩ := List.map_eq_append_iff.mp htold.symm
    obtain ⟨b, hb, hfilling⟩ := filling_run hsize before hfirst .waits hactive.before
      (hregular hbefore.symm)
    obtain ⟨-, production, rfl, hfills⟩ := hfilling.of_items hsize rows hbefore.symm
    have hb' : ((s.run before).seen ((s.run before).client t)).activity? t =
        some (.producing id production) := hb
    obtain ⟨jobs, b, hturn, hleaves⟩ := blockTurn_stepThread hb' hfills
      (hactive before behind rfl production hb' hfills)
    rw [added_eq hleaves]
    exact one_le_asked_add hb' hturn
  obtain ⟨b, -, hfilling⟩ := filling_run hsize moves hfirst .waits hactive (hregular htold)
  have hfew : (s.handed t moves).length ≤ rows.length := (hfilling.of_items hsize rows htold).1
  have hturns : moves.countP (Move.isTurn t) ≤
      (s.asked t moves).length + (s.handed t moves).length := countP_isTurn_le asks
  exact hturns.trans (Nat.add_le_add_left hfew _)

/-- The turn of a thread tosses a failure to an executor. -/
def Tosses (s : Site) (t id : Nat) (e : FedError) : Prop :=
  ∃ x x', s.machine.executors[id]? = some x ∧
    (s.step (.thread t)).machine.executors[id]? = some x' ∧ Tossed e x x'

/-- A failure that a producer of blocks is told of is tossed in the same turn. -/
theorem tosses_of_mem_told {e : FedError} {production : Production Bindings}
    (h : .failure e ∈ (s.seen (s.client t)).told t)
    (ht : s.machine.activity? t = some (.producing id production))
    (hactive : (s.seen (s.client t)).Unhindered t id production) : s.Tosses t id e := by
  have ht' : (s.seen (s.client t)).activity? t = some (.producing id production) := ht
  cases hsource : production.source? with
  | none =>
    rw [told_of_source_none ht' hsource] at h
    cases h
  | some left =>
    rw [told_eq ht' hsource] at h
    apply tossed_stepThread ht' hactive hsource
    cases hpull : (value (pull (.thread t) left) (s.seen (s.client t))).1 with
    | failure e' =>
      rw [hpull] at h
      cases List.mem_singleton.mp h
      rfl
    | _ => simp [hpull, Pulled.news] at h

/-- A thread that takes turn after turn stays active if it may fill blocks in each of them. -/
theorem staysActive_replicate {n : Nat}
    (h : ((List.range n).all fun k =>
      let s' := s.run (List.replicate k (.thread t))
      decide ((s'.seen (s'.client t)).MayFill t id)) = true) :
    s.StaysActive t id (List.replicate n (.thread t)) := by
  intro before behind hmoves
  obtain ⟨hlength, hbefore, -⟩ := List.append_eq_replicate_iff.mp hmoves.symm
  have hmem : before.length ∈ List.range n := by
    rw [List.length_cons] at hlength
    apply List.mem_range.mpr
    omega
  rw [hbefore]
  exact of_decide_eq_true (List.all_eq_true.mp h _ hmem)

/-- A query has started a join in blocks of two rows. -/
def joinOf (left : Feed Bindings) : Site :=
  ({ joinWorkers := 1, unionWorkers := 1, cursor := fun _ => .empty } : Opening).site.step
    (.deed 0 (.openFeed (.boundJoin left 2 fun _ block => .done (.rows block))))

/-- Rows of a left side. -/
def fiveRows : List Bindings := ["a", "b", "c", "d", "e"].map fun name => .single "x" (.iri name)

/-- A failure of a left side. -/
def lostMember : FedError := .endpoint (.connection "A" "connection refused")

/-- A left side that fails behind its rows. -/
def lostBehindFive : Feed Bindings := .outcomes (fiveRows.map .ok ++ [.error lostMember])

end Site

end FederatedSparql
