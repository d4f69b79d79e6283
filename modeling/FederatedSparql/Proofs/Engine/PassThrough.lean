import Mathlib.Data.Fintype.EquivFin
import FederatedSparql.Endpoint.QueryText
import FederatedSparql.Proofs.Engine.Answering
import FederatedSparql.Proofs.Engine.Layers
import FederatedSparql.Proofs.Machine.AtHand

/-!
What the text of a query that is passed on says, and what the engine would do.

The layers on top of a query are written as SELECT queries, one inside another: each takes in all
layers down to the second projection that is met (`Algebra.selects`).  Such a text says to project
first, then to leave out repeated rows, then to skip some and to keep some (`Clauses.meaning?`), in
whatever order the layers were.

* `render_eq_written`: the text of a query is that of its selects.
* `Select.inOrder_iff`: what the text of a select says is what its layers do for all rows exactly if
  they are in an order that the text can say.
* `passThrough_agrees`: the same for queries.
-/

namespace FederatedSparql

open Layer

/-! ### Layers of a query -/

/-- A projection with the layers below it that are written into the same select. -/
structure Projection where
  vars : List String
  below : List Layer
deriving DecidableEq, Repr, Inhabited

/-- The layers that are written as one select; the outermost is the first of them. -/
structure Select where
  above : List Layer := []
  projection : Option Projection := none
deriving DecidableEq, Repr, Inhabited

namespace Select

/-- The layers below the projection. -/
def below (s : Select) : List Layer :=
  match s.projection with
  | some p => p.below
  | none => []

/-- The layers but for the projection. -/
def layers (s : Select) : List Layer := s.above ++ s.below

/-- What remains of a row. -/
def keep (s : Select) (row : Bindings) : Bindings :=
  match s.projection with
  | some p => row.project p.vars
  | none => row

/-- What the layers make of rows. -/
def rows (s : Select) (xs : List Bindings) : List Bindings :=
  applyAll s.above ((applyAll s.below xs).map s.keep)

/-- Puts a layer on top of selects. -/
def push (l : Layer) : List Select → List Select
  | [] => [{ above := [l] }]
  | s :: inner => { s with above := l :: s.above } :: inner

/-- Puts a projection on top of selects.  A projection below it begins a select of its own. -/
def pushProjection (vars : List String) : List Select → List Select
  | [] => [{ projection := some ⟨vars, []⟩ }]
  | s :: inner =>
    match s.projection with
    | none => { projection := some ⟨vars, s.above⟩ } :: inner
    | some p => { projection := some ⟨vars, s.above⟩ } :: { projection := some p } :: inner

end Select

namespace Algebra

/-- What is below all layers. -/
def core : Algebra → Algebra
  | slice _ _ a => a.core
  | distinct a => a.core
  | project _ a => a.core
  | a => a

/-- The layers on top, as selects from the outside in. -/
def selects : Algebra → List Select
  | slice offset limit a => Select.push (.slice offset limit) a.selects
  | distinct a => Select.push .distinct a.selects
  | project vars a => Select.pushProjection vars a.selects
  | _ => [{}]

/-- What the layers make of the rows of what is below them, one after another. -/
def layered : Algebra → List Bindings → List Bindings
  | slice offset limit a, xs => window offset limit (a.layered xs)
  | distinct a, xs => (a.layered xs).eraseDups
  | project vars a, xs => (a.layered xs).map (·.project vars)
  | _, xs => xs

/-- The layers as a plan over another one. -/
def planOver : Algebra → Plan → Plan
  | slice offset limit a, p => .slice offset limit (a.planOver p)
  | distinct a, p => .distinct (a.planOver p)
  | project vars a, p => .project vars ∅ (a.planOver p)
  | _, p => p

end Algebra

namespace Algebra

theorem selects_ne_nil (a : Algebra) : ∃ s inner, a.selects = s :: inner := by
  cases a with
  | slice offset limit a => cases h : a.selects <;> simp [selects, h, Select.push]
  | distinct a => cases h : a.selects <;> simp [selects, h, Select.push]
  | project vars a =>
    cases h : a.selects with
    | nil => simp [selects, h, Select.pushProjection]
    | cons s inner => cases hp : s.projection <;> simp [selects, h, hp, Select.pushProjection]
  | _ => exact ⟨_, _, rfl⟩

theorem rows_push (l : Layer) (s : Select) (inner : List Select) (xs : List Bindings) :
    (Select.push l (s :: inner)).foldr Select.rows xs =
      l.apply ((s :: inner).foldr Select.rows xs) := rfl

theorem rows_pushProjection (vars : List String) (s : Select) (inner : List Select)
    (xs : List Bindings) :
    (Select.pushProjection vars (s :: inner)).foldr Select.rows xs =
      ((s :: inner).foldr Select.rows xs).map (·.project vars) := by
  obtain ⟨above, projection⟩ := s
  cases projection with
  | none =>
    have all : ∀ ys : List Bindings, ys.map (Select.keep { above }) = ys := List.map_id
    show (applyAll above (inner.foldr Select.rows xs)).map _ =
      (applyAll above ((inner.foldr Select.rows xs).map (Select.keep { above }))).map _
    rw [all]
    rfl
  | some p => rfl

/-- The layers are those of the selects. -/
theorem layered_eq (a : Algebra) (xs : List Bindings) :
    a.layered xs = a.selects.foldr Select.rows xs := by
  induction a with
  | slice offset limit a ih =>
    obtain ⟨s, inner, h⟩ := a.selects_ne_nil
    rw [layered, ih, selects, h, rows_push]
    rfl
  | distinct a ih =>
    obtain ⟨s, inner, h⟩ := a.selects_ne_nil
    rw [layered, ih, selects, h, rows_push]
    rfl
  | project vars a ih =>
    obtain ⟨s, inner, h⟩ := a.selects_ne_nil
    rw [layered, ih, selects, h, rows_pushProjection]
  | _ => exact (List.map_id xs).symm

end Algebra

/-! ### What the engine does -/

theorem Environment.arrivals_guarded_mapFeed {answers : Answers} {w : Work Bindings}
    {as bs : Arrivals Bindings} {g : Feed Bindings → Feed Bindings}
    (hw : w.arrivals answers = .ok as)
    (hg : ∀ f : Feed Bindings, f.arrivals answers = as → (g f).arrivals answers = bs) :
    (guarded (w.mapFeed g)).arrivals answers = .ok bs := by
  rw [Work.arrivals_eq_settle] at hw
  cases hf : w.settle answers with
  | error e => simp [hf, Except.map] at hw
  | ok f =>
    have arrives : f.arrivals answers = as := by simpa [hf, Except.map] using hw
    have settled : (w.mapFeed g).settle answers = .ok (g f) := by
      rw [Work.mapFeed, Work.settle_bind, hf]
      rfl
    show (w.mapFeed g).repairingFaults.arrivals answers = .ok bs
    rw [Work.arrivals_eq_settle, Work.repairingFaults, Work.settle_handle answers _ settled]
    exact congrArg Except.ok (hg f arrives)

/-- The plan of a query is its layers over the plan of what is below them. -/
theorem Plan.exists_run_ofAlgebra_eq (a : Algebra) (inSubselect : Bool) (p : Progress) :
    ∃ nested p', (ofAlgebra inSubselect a).run p =
      (a.planOver ((ofAlgebra nested a.core).run p').1, ((ofAlgebra nested a.core).run p').2) := by
  induction a generalizing inSubselect p with
  | slice offset limit a ih =>
    obtain ⟨nested, p', h⟩ := ih inSubselect
      (if inSubselect then p else
        { p with structure_ := { p.structure_ with limit := p.structure_.limit.or limit } })
    refine ⟨nested, p', ?_⟩
    cases inSubselect with
    | true => exact congrArg (Prod.map (Plan.slice offset limit) id) h
    | false => exact congrArg (Prod.map (Plan.slice offset limit) id) h
  | distinct a ih =>
    obtain ⟨nested, p', h⟩ := ih inSubselect p
    exact ⟨nested, p', congrArg (Prod.map Plan.distinct id) h⟩
  | project vars a ih =>
    obtain ⟨nested, p', h⟩ := ih (inSubselect || p.seenProjection) { p with seenProjection := true }
    exact ⟨nested, p', congrArg (Prod.map (Plan.project vars ∅) id) h⟩
  | _ => exact ⟨inSubselect, p, rfl⟩

/-- **The layers of a plan are applied one after another, from the inside out.** -/
theorem Environment.evaluate_planOver (env : Environment) (answers : Answers) (core : Plan)
    (xs : List Bindings) (h : (env.evaluate core ∅).arrivals answers = .ok (.ofList xs))
    (a : Algebra) :
    (env.evaluate (a.planOver core) ∅).arrivals answers = .ok (.ofList (a.layered xs)) := by
  induction a with
  | slice offset limit a ih =>
    apply arrivals_guarded_mapFeed ih
    intro f hf
    rw [Feed.arrivals_slice, hf, Algebra.layered]
    cases limit with
    | none => simp [Arrivals.slice, Arrivals.ofList, window]
    | some n => simp [Arrivals.slice, Arrivals.ofList, window]
  | distinct a ih =>
    apply arrivals_guarded_mapFeed ih
    intro f hf
    rw [Feed.arrivals_distinct, hf, Algebra.layered, Arrivals.distinct_nil_ofList]
  | project vars a ih =>
    apply arrivals_guarded_mapFeed ih
    intro f hf
    have kept : Store.projectRow (some vars) ∅ = fun row => row.project vars := by
      funext row
      exact congrArg row.project (List.append_nil vars)
    rw [Feed.arrivals_map, hf, Algebra.layered, Arrivals.map_ofList, Plan.projectOnto_empty, kept]
  | pattern p => exact h
  | join l r => exact h
  | leftJoin l r condition => exact h
  | union l r => exact h
  | filter condition a => exact h
  | service endpoint a silent => exact h

/-! ### What the text says -/

/-- An offset or a limit as it is written. -/
inductive Modifier where
  | offset (n : Nat)
  | limit (n : Nat)
deriving DecidableEq, Repr, Inhabited

/-- The text of an offset or a limit. -/
def Modifier.text : Modifier → String
  | offset n => " OFFSET " ++ toString n
  | limit n => " LIMIT " ++ toString n

/-- The text of offsets and limits, one after another. -/
def Modifier.texts (ms : List Modifier) : String := ms.foldr (fun m text => m.text ++ text) ""

/-- What a layer writes behind the pattern. -/
def Layer.modifiers : Layer → List Modifier
  | slice offset limit =>
    (if offset = 0 then [] else [.offset offset]) ++ (limit.map .limit).toList
  | distinct => []

/-- The clauses of a SELECT query. -/
structure Clauses where
  distinct : Bool
  /-- The variables to select; all of them without a list. -/
  vars : Option (List String)
  modifiers : List Modifier
deriving DecidableEq, Repr, Inhabited

namespace Clauses

/-- The text of a query with a pattern. -/
def text (c : Clauses) (body : String) : String :=
  "SELECT " ++ (if c.distinct then "DISTINCT " else "") ++
    (match c.vars with
      | some vars => QueryText.varList vars
      | none => "*") ++
    " WHERE " ++ QueryText.braced body ++ Modifier.texts c.modifiers

/-- The offsets that are written. -/
def offsets (c : Clauses) : List Nat :=
  c.modifiers.filterMap fun
    | .offset n => some n
    | .limit _ => none

/-- The limits that are written. -/
def limits (c : Clauses) : List Nat :=
  c.modifiers.filterMap fun
    | .limit n => some n
    | .offset _ => none

/-- What is selected of the rows of the pattern, before any is skipped. -/
def selected (c : Clauses) (xs : List Bindings) : List Bindings :=
  let xs :=
    match c.vars with
    | some vars => xs.map (·.project vars)
    | none => xs
  if c.distinct then xs.eraseDups else xs

/-- The rows that a query asks for, in the order of SPARQL's solution modifiers.  There may be one
OFFSET and one LIMIT. -/
def meaning? (c : Clauses) (xs : List Bindings) : Option (List Bindings) :=
  if c.offsets.length ≤ 1 ∧ c.limits.length ≤ 1 then
    some (window (c.offsets.headD 0) c.limits.head? (c.selected xs))
  else none

end Clauses

/-- The clauses that are written for the layers of a select.  An empty list of variables is not
written. -/
def Select.clauses (s : Select) : Clauses where
  distinct := s.layers.contains .distinct
  vars := (s.projection.map (·.vars)).filter fun vars => !vars.isEmpty
  modifiers := s.layers.flatMap Layer.modifiers

/-- The group pattern of selects around a pattern. -/
def Select.nested : List Select → String → String
  | [], body => body
  | s :: inner, body => QueryText.braced (s.clauses.text (Select.nested inner body))

/-- The query of selects around a pattern. -/
def Select.written : List Select → String → String
  | [], body => body
  | s :: inner, body => s.clauses.text (Select.nested inner body)

/-- The rows that the text of selects asks for. -/
def Select.meanings? (selects : List Select) (xs : List Bindings) : Option (List Bindings) :=
  selects.foldr (fun s inner => inner.bind s.clauses.meaning?) (some xs)

namespace QueryText

/-- The clauses of layers that have been met, and of a projection, as a head. -/
def headOf (layers : List Layer) (vars : Option (List String)) : SelectHead where
  distinct := layers.contains .distinct
  vars := vars
  modifiers := Modifier.texts (layers.flatMap Layer.modifiers)

theorem texts_append (ms ns : List Modifier) :
    Modifier.texts (ms ++ ns) = Modifier.texts ms ++ Modifier.texts ns := by
  induction ms with
  | nil => simp [Modifier.texts]
  | cons m ms ih =>
    simp only [Modifier.texts, List.cons_append, List.foldr_cons] at ih ⊢
    rw [ih, String.append_assoc]

variable {front : List Layer} {vars : Option (List String)}

theorem headOf_slice (offset : Nat) (limit : Option Nat) :
    (headOf front vars).slice offset limit = headOf (front ++ [.slice offset limit]) vars := by
  have written : Modifier.texts (Layer.modifiers (.slice offset limit)) =
      (if offset = 0 then "" else " OFFSET " ++ toString offset) ++
        (limit.map fun n => " LIMIT " ++ toString n).getD "" := by
    rw [Layer.modifiers, texts_append]
    congr 1
    · split
      · rfl
      · exact String.append_empty
    · cases limit with
      | none => rfl
      | some n => exact String.append_empty
  simp only [SelectHead.slice, headOf, List.flatMap_append, texts_append, List.flatMap_singleton,
    written, String.append_assoc]
  congr 1
  simp

theorem headOf_distinct :
    { headOf front vars with distinct := true } = headOf (front ++ [.distinct]) vars := by
  simp [headOf, Layer.modifiers]

theorem close_headOf (s : Select) (body : String) :
    (headOf s.layers (s.projection.map (·.vars))).close body = s.clauses.text body := by
  unfold SelectHead.close Clauses.text Select.clauses headOf
  cases s.projection with
  | none => rfl
  | some p =>
    obtain ⟨vars, below⟩ := p
    cases vars with
    | nil => rfl
    | cons v vs => rfl

/-- What stands in the braces of a select that has met a projection. -/
def bodyOf (s : Select) (inner : List Select) (body : String) : String :=
  match s.projection with
  | none => Select.nested inner body
  | some p => Select.nested ({ projection := some p } :: inner) body

end QueryText

namespace QueryText

theorem headOf_nil (vars : Option (List String)) : headOf [] vars = { vars } := rfl

/-- Below a projection: further layers are taken in until the next one. -/
theorem render_headOf_some (a : Algebra) (front : List Layer) (vars : List String) {s : Select}
    {inner : List Select} (h : a.selects = s :: inner) :
    render (some (headOf front (some vars))) a =
      (headOf (front ++ s.above) (some vars)).close (bodyOf s inner (group a.core)) := by
  induction a generalizing front vars s inner with
  | slice offset limit a ih =>
    obtain ⟨s', inner', h'⟩ := a.selects_ne_nil
    rw [Algebra.selects, h', Select.push] at h
    cases h
    rw [render, enter, headOf_slice, ih _ vars h', List.append_assoc]
    rfl
  | distinct a ih =>
    obtain ⟨s', inner', h'⟩ := a.selects_ne_nil
    rw [Algebra.selects, h', Select.push] at h
    cases h
    rw [render, enter, headOf_distinct, ih _ vars h', List.append_assoc]
    rfl
  | project vars' a ih =>
    obtain ⟨s', inner', h'⟩ := a.selects_ne_nil
    -- the sub-select takes in what is on top of the projection below it
    have sub := ih [] vars' h'
    rw [List.nil_append, headOf_nil] at sub
    have taken (body : String) : (headOf s'.above (some vars')).close body =
        Clauses.text { projection := some ⟨vars', s'.above⟩ : Select }.clauses body :=
      close_headOf { projection := some ⟨vars', s'.above⟩ } body
    have step : render (some (headOf front (some vars))) (.project vars' a) =
        (headOf front (some vars)).close (braced (render (some { vars := some vars' }) a)) := rfl
    rw [step, sub, taken, Algebra.core]
    rw [Algebra.selects, h', Select.pushProjection] at h
    cases hp : s'.projection with
    | none =>
      simp only [hp] at h
      cases h
      simp only [bodyOf, hp, List.append_nil, Select.nested]
    | some p =>
      simp only [hp] at h
      cases h
      simp only [bodyOf, hp, List.append_nil, Select.nested]
  | _ =>
    cases h
    rw [List.append_nil]
    rfl

/-- Above all projections: layers and a projection are taken in. -/
theorem render_headOf_none (a : Algebra) (front : List Layer) {s : Select} {inner : List Select}
    (h : a.selects = s :: inner) :
    render (some (headOf front none)) a =
      (headOf (front ++ s.layers) (s.projection.map (·.vars))).close
        (Select.nested inner (group a.core)) := by
  induction a generalizing front s inner with
  | slice offset limit a ih =>
    obtain ⟨s', inner', h'⟩ := a.selects_ne_nil
    rw [Algebra.selects, h', Select.push] at h
    cases h
    rw [render, enter, headOf_slice, ih _ h', List.append_assoc]
    rfl
  | distinct a ih =>
    obtain ⟨s', inner', h'⟩ := a.selects_ne_nil
    rw [Algebra.selects, h', Select.push] at h
    cases h
    rw [render, enter, headOf_distinct, ih _ h', List.append_assoc]
    rfl
  | project vars a =>
    obtain ⟨s', inner', h'⟩ := a.selects_ne_nil
    have step : render (some (headOf front none)) (.project vars a) =
        render (some (headOf front (some vars))) a := rfl
    rw [step, render_headOf_some a front vars h', Algebra.core]
    rw [Algebra.selects, h', Select.pushProjection] at h
    cases hp : s'.projection with
    | none =>
      simp only [hp] at h
      cases h
      rw [bodyOf, hp]
      rfl
    | some p =>
      simp only [hp] at h
      cases h
      rw [bodyOf, hp]
      rfl
  | _ =>
    cases h
    have plain : ({} : Select).layers = [] := rfl
    rw [plain, List.append_nil]
    rfl

/-- **The text of a query is that of its selects.** -/
theorem render_eq_written (a : Algebra) :
    render (some {}) a = Select.written a.selects (group a.core) := by
  obtain ⟨s, inner, h⟩ := a.selects_ne_nil
  rw [h, Select.written, ← close_headOf, ← headOf_nil, render_headOf_none a [] h]
  rfl

end QueryText

/-! ### Orders of layers that a text can say -/

namespace Select

variable {s : Select}

/-- The layers that matter if no row of the pattern is repeated: what is projected may be repeated
again. -/
def effective (s : Select) : List Layer := s.above ++ slices s.below

/-- The layers are in an order that the text can say: there are one offset and one limit at most, the
offset comes first, and rows are made distinct before any are cut off.  The order makes no
difference if no row remains, or only the first one. -/
structure InOrder (s : Select) : Prop where
  single : Single s.layers
  order : limits s.layers = [0] ∨ (limits s.layers = [1] ∧ offsets s.layers = []) ∨
    (OffsetsFirst s.effective ∧ (.distinct ∈ s.layers → DistinctFirst s.effective))

theorem offsets_effective (s : Select) : offsets s.effective = offsets s.layers := by
  rw [effective, layers, offsets_append, offsets_append, offsets_slices]

theorem limits_effective (s : Select) : limits s.effective = limits s.layers := by
  rw [effective, layers, limits_append, limits_append, limits_slices]

theorem windowOf_effective (s : Select) (xs : List Bindings) :
    windowOf s.effective xs = windowOf s.layers xs := by
  rw [windowOf, windowOf, offsets_effective, limits_effective]

theorem single_effective (h : Single s.layers) : Single s.effective := by
  constructor
  · rw [offsets_effective]
    exact h.offset
  · rw [limits_effective]
    exact h.limit

/-- Without a projection all layers are above it. -/
theorem below_of_projection (h : s.projection = none) : s.below = [] := by rw [below, h]

theorem keep_of_projection (h : s.projection = none) (row : Bindings) : s.keep row = row := by
  rw [keep, h]

theorem keep_of_some {p : Projection} (h : s.projection = some p) (row : Bindings) :
    s.keep row = row.project p.vars := by rw [keep, h]

/-! ### The meaning of the text of a select -/

theorem offsets_clauses (s : Select) : s.clauses.offsets = offsets s.layers := by
  unfold Clauses.offsets clauses offsets
  generalize s.layers = ls
  induction ls with
  | nil => rfl
  | cons l ls ih =>
    rw [List.flatMap_cons, List.filterMap_append, ih]
    cases l with
    | distinct => rfl
    | slice offset limit => cases offset <;> cases limit <;> rfl

theorem limits_clauses (s : Select) : s.clauses.limits = limits s.layers := by
  unfold Clauses.limits clauses limits
  generalize s.layers = ls
  induction ls with
  | nil => rfl
  | cons l ls ih =>
    rw [List.flatMap_cons, List.filterMap_append, ih]
    cases l with
    | distinct => rfl
    | slice offset limit => cases offset <;> cases limit <;> rfl

/-- The projection of a select has variables. -/
def Named (s : Select) : Prop := ∀ p, s.projection = some p → p.vars ≠ []

/-- What remains when the variables are selected, and repeated rows are left out if the text says
so. -/
def selected (s : Select) (xs : List Bindings) : List Bindings :=
  if .distinct ∈ s.layers then (xs.map s.keep).eraseDups else xs.map s.keep

theorem selected_clauses (named : s.Named) (xs : List Bindings) :
    s.clauses.selected xs = s.selected xs := by
  have kept : (match s.clauses.vars with
      | some vars => xs.map (·.project vars)
      | none => xs) = xs.map s.keep := by
    unfold clauses keep
    cases hp : s.projection with
    | none => simp
    | some p =>
      have written : (some p.vars).filter (fun vars => !vars.isEmpty) = some p.vars := by
        simp [named p hp]
      rw [Option.map_some, written]
  unfold Clauses.selected selected
  rw [kept]
  simp [clauses]

/-- What the text of a select says. -/
theorem meaning?_eq_some_iff (named : s.Named) (xs ys : List Bindings) :
    s.clauses.meaning? xs = some ys ↔ Single s.layers ∧ windowOf s.layers (s.selected xs) = ys := by
  unfold Clauses.meaning?
  rw [offsets_clauses, limits_clauses, selected_clauses named]
  constructor
  · intro h
    split at h
    · next single => exact ⟨⟨single.1, single.2⟩, Option.some.inj h⟩
    · cases h
  · rintro ⟨single, rfl⟩
    rw [if_pos ⟨single.offset, single.limit⟩]
    rfl

/-! ### Layers in order -/

theorem length_rows_le {n : Nat} (h : n ∈ limits s.layers) (xs : List Bindings) :
    (s.rows xs).length ≤ n := by
  rw [layers, limits_append, List.mem_append] at h
  rcases h with h | h
  · exact length_applyAll_le h _
  · apply Nat.le_trans (applyAll_sublist s.above _).length_le
    rw [List.length_map]
    exact length_applyAll_le h xs

theorem head?_rows (hoffsets : offsets s.layers = []) (hlimits : 0 ∉ limits s.layers)
    (xs : List Bindings) : (s.rows xs).head? = (s.selected xs).head? := by
  rw [layers, offsets_append, List.append_eq_nil_iff] at hoffsets
  rw [layers, limits_append, List.mem_append, not_or] at hlimits
  have selected : (s.selected xs).head? = (xs.map s.keep).head? := by
    unfold Select.selected
    split
    · exact head?_eraseDups _
    · rfl
  rw [rows, head?_applyAll hoffsets.1 hlimits.1, selected, List.head?_map, List.head?_map,
    head?_applyAll hoffsets.2 hlimits.2]

theorem rows_of_ordered (single : Single s.layers) (ordered : OffsetsFirst s.effective)
    (early : .distinct ∈ s.layers → DistinctFirst s.effective) (xs : List Bindings) :
    s.rows xs = windowOf s.layers (s.selected xs) := by
  by_cases hdistinct : .distinct ∈ s.layers
  · rw [selected, if_pos hdistinct, rows, ← windowOf_effective]
    apply applyAll_of_distinctFirst (distinct_not_mem_slices s.below) (early hdistinct)
      (single_effective single) ordered (nodup_eraseDups _)
    rintro ⟨hoffsets, hlimits⟩
    rw [offsets_slices] at hoffsets
    rw [limits_slices] at hlimits
    rw [← eraseDups_map_eraseDups, eraseDups_applyAll ⟨hoffsets, hlimits⟩, eraseDups_map_eraseDups]
  · have hbelow : .distinct ∉ s.below := fun h => hdistinct (List.mem_append_right _ h)
    rw [effective, slices_of_not_mem hbelow] at ordered
    rw [selected, if_neg hdistinct, rows, map_applyAll s.keep hbelow, ← applyAll_append]
    exact applyAll_eq_windowOf single ordered fun h => absurd h hdistinct

/-- Layers in order do what their text says. -/
theorem InOrder.windowOf_eq (h : s.InOrder) (xs : List Bindings) :
    windowOf s.layers (s.selected xs) = s.rows xs := by
  rcases h.order with hlimit | ⟨hlimit, hoffsets⟩ | ⟨ordered, early⟩
  · have none : (s.rows xs).length ≤ 0 := length_rows_le (hlimit ▸ List.mem_singleton_self 0) xs
    rw [windowOf, hlimit, List.eq_nil_of_length_eq_zero (Nat.le_zero.1 none)]
    rfl
  · have one : (s.rows xs).length ≤ 1 := length_rows_le (hlimit ▸ List.mem_singleton_self 1) xs
    have first := head?_rows hoffsets (by rw [hlimit]; decide) xs
    rw [windowOf, hoffsets, hlimit]
    show (s.selected xs).take 1 = s.rows xs
    cases hrows : s.rows xs with
    | nil =>
      rw [hrows] at first
      rw [List.head?_eq_none_iff.1 first.symm]
      rfl
    | cons row rest =>
      rw [hrows] at first one
      obtain ⟨others, hothers⟩ := List.head?_eq_some_iff.1 first.symm
      have alone : rest = [] := List.eq_nil_of_length_eq_zero (by simpa using one)
      rw [hothers, alone]
      rfl
  · exact (rows_of_ordered h.single ordered early xs).symm

/-! ### Layers out of order -/

/-- A row with one variable. -/
def marked (v : String) (i : Nat) : Bindings :=
  (∅ : Bindings).insert v (.iri (String.ofList (List.replicate i 'x')))

theorem get?_marked (v w : String) (i : Nat) :
    (marked v i).get? w =
      if w = v then some (.iri (String.ofList (List.replicate i 'x'))) else none := by
  rw [marked, Bindings.get?_insert, Bindings.get?_empty]

theorem marked_injective (v : String) : Function.Injective (marked v) := by
  intro i j h
  have terms := congrArg (·.get? v) h
  simp only [get?_marked, if_true, Option.some.injEq, Term.iri.injEq] at terms
  simpa using congrArg String.length terms

theorem project_marked_of_mem {v : String} {vars : List String} (h : v ∈ vars) (i : Nat) :
    (marked v i).project vars = marked v i := by
  apply Bindings.ext_get?
  intro w
  rw [Bindings.get?_project, get?_marked]
  by_cases hw : w = v
  · simp [hw, h]
  · simp [hw]

theorem project_marked_of_not_mem {v : String} {vars : List String} (h : v ∉ vars) (i : Nat) :
    (marked v i).project vars = ∅ := by
  apply Bindings.ext_get?
  intro w
  rw [Bindings.get?_project, get?_marked, Bindings.get?_empty]
  by_cases hw : w = v
  · simp [hw, h]
  · simp [hw]

theorem marked_ne_empty (v : String) (i : Nat) : marked v i ≠ ∅ := by
  intro h
  have := congrArg (·.get? v) h
  simp [get?_marked] at this

/-- Rows that differ in one variable. -/
def numbered (v : String) (n : Nat) : List Bindings := (List.range n).map (marked v)

theorem nodup_numbered (v : String) (n : Nat) : (numbered v n).Nodup :=
  List.nodup_range.map (marked_injective v)

/-- If no row of the pattern is repeated, all that matters is what is projected. -/
theorem rows_eq_applyAll_effective {xs : List Bindings} (nodup : s.projection ≠ none → xs.Nodup) :
    s.rows xs = applyAll s.effective (xs.map s.keep) := by
  rw [effective, applyAll_append, rows, ← map_applyAll s.keep (distinct_not_mem_slices s.below)]
  cases hp : s.projection with
  | none => rw [below_of_projection hp]; rfl
  | some p => rw [applyAll_slices s.below (nodup (by rw [hp]; exact nofun))]

/-- There are any number of rows that are different and remain so. -/
theorem exists_different (named : s.Named) (n : Nat) :
    ∃ xs : List Bindings, xs.length = n ∧ xs.Nodup ∧ xs.map s.keep = xs := by
  cases hp : s.projection with
  | none =>
    refine ⟨numbered "x" n, by simp [numbered], nodup_numbered "x" n, ?_⟩
    rw [funext (keep_of_projection hp), List.map_id']
  | some p =>
    obtain ⟨v, hv⟩ := List.exists_mem_of_ne_nil _ (named p hp)
    refine ⟨numbered v n, by simp [numbered], nodup_numbered v n, ?_⟩
    have kept : ∀ row ∈ numbered v n, s.keep row = row := by
      intro row hrow
      obtain ⟨i, -, rfl⟩ := List.mem_map.1 hrow
      rw [keep_of_some hp, project_marked_of_mem hv]
    exact (List.map_congr_left kept).trans (List.map_id' _)

/-- There are rows some of which become equal: any number of them, and another one behind them. -/
theorem exists_alike (named : s.Named) (n : Nat) :
    ∃ (xs : List Bindings) (a b : Bindings), (s.projection ≠ none → xs.Nodup) ∧
      xs.map s.keep = List.replicate n a ++ [b] ∧ a ≠ b := by
  cases hp : s.projection with
  | none =>
    refine ⟨List.replicate n ∅ ++ [marked "x" 0], ∅, marked "x" 0, absurd rfl, ?_, ?_⟩
    · rw [funext (keep_of_projection hp), List.map_id']
    · exact (marked_ne_empty "x" 0).symm
  | some p =>
    obtain ⟨v, hv⟩ := List.exists_mem_of_ne_nil _ (named p hp)
    obtain ⟨w, hw⟩ := Infinite.exists_notMem_finset p.vars.toFinset
    rw [List.mem_toFinset] at hw
    refine ⟨numbered w n ++ [marked v 0], ∅, marked v 0, ?_, ?_, (marked_ne_empty v 0).symm⟩
    · intro _
      refine List.nodup_append.2 ⟨nodup_numbered w n, List.nodup_singleton _, ?_⟩
      rintro row hrow other hother rfl
      obtain ⟨i, -, heq⟩ := List.mem_map.1 hrow
      rw [List.mem_singleton.1 hother] at heq
      -- only one of them keeps something
      have erased := project_marked_of_not_mem hw i
      rw [heq, project_marked_of_mem hv] at erased
      exact marked_ne_empty v 0 erased
    · have erased : (numbered w n).map s.keep = List.replicate n ∅ := by
        apply List.eq_replicate_iff.2
        refine ⟨by simp [numbered], ?_⟩
        intro row hrow
        obtain ⟨row', hrow', rfl⟩ := List.mem_map.1 hrow
        obtain ⟨i, -, rfl⟩ := List.mem_map.1 hrow'
        rw [keep_of_some hp, project_marked_of_not_mem hw]
      rw [List.map_append, erased, List.map_singleton, keep_of_some hp, project_marked_of_mem hv]

theorem eraseDups_alike {a b : Bindings} (hne : a ≠ b) (n : Nat) :
    (List.replicate (n + 1) a ++ [b]).eraseDups = [a, b] := by
  have others : (List.replicate n a ++ [b]).filter (fun row => !row == a) = [b] := by
    simp [List.filter_append, hne.symm]
  rw [List.replicate_succ, List.cons_append, List.eraseDups_cons, others]
  rfl

/-- An offset above a limit takes away from what the limit has left. -/
theorem exists_ne_of_not_offsetsFirst (named : s.Named) (single : Single s.layers)
    (zero : limits s.layers ≠ [0]) (unordered : ¬ OffsetsFirst s.effective) :
    ∃ xs, windowOf s.layers (s.selected xs) ≠ s.rows xs := by
  have ordered : offsets s.effective = [] ∨ limits s.effective = [] → OffsetsFirst s.effective := by
    rintro (h | h)
    · exact offsetsFirst_of_offsets_eq_nil h
    · exact offsetsFirst_of_limits_eq_nil h
  rw [offsets_effective, limits_effective] at ordered
  obtain ⟨o, ho⟩ := single.offsets_cases.resolve_left fun h => unordered (ordered (.inl h))
  obtain ⟨l, hl⟩ := single.limits_cases.resolve_left fun h => unordered (ordered (.inr h))
  have lpos : l ≠ 0 := fun h => zero (hl.trans (h ▸ rfl))
  obtain ⟨xs, length, nodup, kept⟩ := exists_different named (l + (o + 1))
  have selected : s.selected xs = xs := by
    rw [Select.selected, kept, eraseDups_of_nodup nodup, ite_self]
  have fewer : (s.rows xs).length ≤ l - (o + 1) := by
    rw [rows_eq_applyAll_effective fun _ => nodup]
    exact length_applyAll_le_sub ((offsets_effective s).trans ho) ((limits_effective s).trans hl)
      unordered _
  refine ⟨xs, fun heq => ?_⟩
  have all : (windowOf s.layers (s.selected xs)).length = l := by
    rw [selected, windowOf, ho, hl]
    show ((xs.drop (o + 1)).take l).length = l
    rw [List.length_take, List.length_drop, length]
    omega
  rw [heq] at all
  omega

/-- Repeated rows that are left out too late have taken the places of other rows. -/
theorem exists_ne_of_not_distinctFirst (named : s.Named) (single : Single s.layers)
    (zero : limits s.layers ≠ [0]) (one : ¬ (limits s.layers = [1] ∧ offsets s.layers = []))
    (ordered : OffsetsFirst s.effective) (hdistinct : .distinct ∈ s.layers)
    (late : ¬ DistinctFirst s.effective) :
    ∃ xs, windowOf s.layers (s.selected xs) ≠ s.rows xs := by
  -- `n + 1` rows that become equal, and what the text and the layers make of them
  have alike : ∀ n, ∃ (xs : List Bindings) (a b : Bindings), a ≠ b ∧ s.selected xs = [a, b] ∧
      s.rows xs = applyAll s.effective (List.replicate (n + 1) a ++ [b]) := by
    intro n
    obtain ⟨xs, a, b, nodup, kept, hne⟩ := exists_alike named (n + 1)
    refine ⟨xs, a, b, hne, ?_, ?_⟩
    · rw [selected, if_pos hdistinct, kept, eraseDups_alike hne]
    · rw [rows_eq_applyAll_effective nodup, kept]
  rcases single.offsets_cases with ho | ⟨o, ho⟩
  · rcases single.limits_cases with hl | ⟨l, hl⟩
    · -- nothing is cut off, and three rows remain
      have uncut : Uncut s.layers := ⟨ho, hl⟩
      obtain ⟨xs, a, b, -, selected, rows⟩ := alike 1
      refine ⟨xs, fun heq => ?_⟩
      have same : Uncut s.effective := by rwa [Uncut, offsets_effective, limits_effective]
      rw [windowOf_of_uncut uncut, selected, rows, applyAll_of_uncut same late] at heq
      exact absurd (congrArg List.length heq) (by simp)
    · -- the limit leaves equal rows only
      have several : 2 ≤ l := by
        have : l ≠ 0 := fun h => zero (hl.trans (h ▸ rfl))
        have : l ≠ 1 := fun h => one ⟨hl.trans (h ▸ rfl), ho⟩
        omega
      obtain ⟨k, rfl⟩ := Nat.exists_eq_add_of_le' several
      obtain ⟨xs, a, b, hne, selected, rows⟩ := alike (k + 1)
      refine ⟨xs, fun heq => hne ?_⟩
      have asked : windowOf s.layers [a, b] = [a, b] := by
        rw [windowOf, ho, hl]
        show [a, b].take (k + 2) = [a, b]
        exact List.take_of_length_le (by simp)
      have last : b ∈ s.rows xs := by
        rw [← heq, selected, asked]
        exact List.mem_cons_of_mem a (List.mem_singleton_self b)
      rw [rows] at last
      exact (eq_of_mem_applyAll_of_limit ((offsets_effective s).trans ho)
        ((limits_effective s).trans hl) late last).symm
  · -- an equal row is the first behind the offset
    have positive : 0 ∉ limits s.effective := by
      rw [limits_effective]
      rcases single.limits_cases with hl | ⟨l, hl⟩
      · rw [hl]
        exact List.not_mem_nil
      · intro h
        rw [hl] at h zero
        exact zero (by rw [List.mem_singleton.1 h])
    obtain ⟨xs, a, b, hne, selected, rows⟩ := alike (o + 1)
    refine ⟨xs, fun heq => hne ?_⟩
    have first := head?_applyAll_of_offset (a := a) (b := b) ((offsets_effective s).trans ho)
      positive ordered late
    rw [← rows, ← heq, selected, windowOf, ho, window_eq_window_drop] at first
    have behind : a ∈ [a, b].drop (o + 1) :=
      (window_sublist 0 _ _).subset (List.mem_of_mem_head? first)
    exact List.mem_singleton.1 (List.mem_of_mem_drop behind)

/-- **What the text of a select says is what its layers do, whatever the rows are, exactly if the
layers are in an order that it can say.** -/
theorem inOrder_iff (named : s.Named) :
    (∀ xs, s.clauses.meaning? xs = some (s.rows xs)) ↔ s.InOrder := by
  constructor
  · intro h
    have agrees := fun xs => (meaning?_eq_some_iff named xs _).1 (h xs)
    refine ⟨(agrees []).1, ?_⟩
    by_contra hnot
    rw [not_or, not_or] at hnot
    obtain ⟨zero, one, unordered⟩ := hnot
    have single := (agrees []).1
    have differs : ∃ xs, windowOf s.layers (s.selected xs) ≠ s.rows xs := by
      by_cases ordered : OffsetsFirst s.effective
      · rw [not_and, Classical.not_imp] at unordered
        obtain ⟨hdistinct, late⟩ := unordered ordered
        exact exists_ne_of_not_distinctFirst named single zero one ordered hdistinct late
      · exact exists_ne_of_not_offsetsFirst named single zero ordered
    obtain ⟨xs, hne⟩ := differs
    exact hne (agrees xs).2
  · intro h xs
    exact (meaning?_eq_some_iff named xs _).2 ⟨h.single, h.windowOf_eq xs⟩

theorem meanings?_eq_some {selects : List Select} (h : ∀ s ∈ selects, s.Named ∧ s.InOrder)
    (xs : List Bindings) : meanings? selects xs = some (selects.foldr rows xs) := by
  induction selects with
  | nil => rfl
  | cons s inner ih =>
    obtain ⟨⟨named, inOrder⟩, hinner⟩ := List.forall_mem_cons.1 h
    have below := ih hinner
    rw [meanings?] at below
    rw [meanings?, List.foldr_cons, below, List.foldr_cons]
    exact (inOrder_iff named).2 inOrder _

end Select

namespace Algebra

/-- **A query that is passed on says what the engine would do with it, if the layers of each select
are in an order that the text can say; a query that is written as one select does so for all rows
only if they are.**  The engine applies the layers one after another to the rows of what is below
them. -/
theorem passThrough_agrees (a : Algebra) (named : ∀ s ∈ a.selects, s.Named) :
    (∀ text, QueryText.query ⟨text, .select, a⟩ =
      .ok (Select.written a.selects (QueryText.group a.core))) ∧
    (∃ nested p, (Plan.build a).1 = a.planOver ((Plan.ofAlgebra nested a.core).run p).1) ∧
    (∀ (env : Environment) (answers : Answers) (core : Plan) (xs : List Bindings),
      (env.evaluate core ∅).arrivals answers = .ok (.ofList xs) →
        (env.evaluate (a.planOver core) ∅).arrivals answers = .ok (.ofList (a.layered xs))) ∧
    ((∀ s ∈ a.selects, s.InOrder) →
      ∀ xs, Select.meanings? a.selects xs = some (a.layered xs)) ∧
    (a.selects.length = 1 → (∀ xs, Select.meanings? a.selects xs = some (a.layered xs)) →
      ∀ s ∈ a.selects, s.InOrder) := by
  refine ⟨fun text => congrArg Except.ok (QueryText.render_eq_written a), ?_, ?_, ?_, ?_⟩
  · obtain ⟨nested, p, h⟩ := Plan.exists_run_ofAlgebra_eq a false {}
    exact ⟨nested, p, congrArg Prod.fst h⟩
  · intro env answers core xs h
    exact env.evaluate_planOver answers core xs h a
  · intro inOrder xs
    rw [layered_eq]
    exact Select.meanings?_eq_some (fun s hs => ⟨named s hs, inOrder s hs⟩) xs
  · intro one agrees
    obtain ⟨s, hs⟩ := List.length_eq_one_iff.1 one
    simp only [hs, layered_eq] at named agrees ⊢
    rw [List.forall_mem_singleton] at named ⊢
    exact (Select.inOrder_iff named).1 agrees

/-- The statements of one predicate. -/
def statements : Algebra := .pattern ⟨.var "s", .const (.iri "p"), .var "o"⟩

/-- The first ten subjects, each once. -/
def tenSubjects : Algebra := .slice 0 (some 10) (.distinct (.project ["s"] statements))

/-- Layers in the usual order. -/
theorem passThrough_agrees_in_order :
    (∀ s ∈ tenSubjects.selects, s.Named) ∧ (∀ s ∈ tenSubjects.selects, s.InOrder) ∧
      ∀ xs, Select.meanings? tenSubjects.selects xs = some (tenSubjects.layered xs) := by
  let s : Select := { above := [.slice 0 (some 10), .distinct], projection := some ⟨["s"], []⟩ }
  have selects : tenSubjects.selects = [s] := rfl
  have named : ∀ s ∈ tenSubjects.selects, s.Named := by
    rw [selects, List.forall_mem_singleton]
    rintro p ⟨⟩
    exact List.cons_ne_nil _ _
  have inOrder : ∀ s ∈ tenSubjects.selects, s.InOrder := by
    rw [selects, List.forall_mem_singleton]
    refine ⟨⟨by decide, by decide⟩, .inr (.inr ⟨?_, fun _ => ?_⟩)⟩
    · exact ⟨fun h => absurd rfl h, fun h => absurd rfl h, trivial⟩
    · exact .inr (.inl ⟨rfl, rfl, rfl⟩)
  exact ⟨named, inOrder, (passThrough_agrees tenSubjects named).2.2.2.1 inOrder⟩

/-- All but the first of two statements. -/
def secondOfTwo : Algebra := .slice 1 none (.slice 0 (some 2) statements)

/-- Two of the first five statements. -/
def twoOfFive : Algebra := .slice 0 (some 2) (.slice 0 (some 5) statements)

/-- A limit below an offset is written as if it were above it, so the text asks for two rows where
the engine has one; and of two limits both are written. -/
theorem passThrough_disagrees :
    let row (name : String) : Bindings := (∅ : Bindings).insert "s" (.iri name)
    QueryText.query ⟨"", .select, secondOfTwo⟩ =
        .ok "SELECT * WHERE \x7b ?s <p> ?o . \x7d OFFSET 1 LIMIT 2" ∧
      Select.meanings? secondOfTwo.selects [row "a", row "b", row "c"] =
        some [row "b", row "c"] ∧
      secondOfTwo.layered [row "a", row "b", row "c"] = [row "b"] ∧
      QueryText.query ⟨"", .select, twoOfFive⟩ =
        .ok "SELECT * WHERE \x7b ?s <p> ?o . \x7d LIMIT 2 LIMIT 5" ∧
      Select.meanings? twoOfFive.selects [] = none := by
  refine ⟨?_, ?_, ?_, ?_, ?_⟩
  · rfl
  · rfl
  · rfl
  · rfl
  · rfl

end Algebra

end FederatedSparql
