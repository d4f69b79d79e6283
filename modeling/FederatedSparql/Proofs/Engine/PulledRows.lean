import FederatedSparql.Engine.Federation
import FederatedSparql.Proofs.Machine.Undisturbed

/-!
What rows are pulled of a query.

`Feed.Brings` and `Work.Brings` describe what programs and feeds come to, apart from any run.  A query
is run with the workers of the pools, threads that schedule tasks and a bounded queue for each
executor; its rows are what its program brings nevertheless.

* `Federation.suits_pullRows`: the rows that are pulled have the property that is brought, whatever
  the order of the tasks was, and there is no failure among them.
-/

namespace FederatedSparql

open Machine

namespace Federation

variable {answers : Answers} {m : Machine Bindings} {Q : List Bindings → Prop}

/-- The rows that a query gives of those of its plan: a question has one row without variables if
there is any. -/
def shown (form : QueryForm) (rows : List Bindings) : List Bindings :=
  if form = .ask then (rows.take 1).map fun _ => ∅ else rows

/-- At the end of its rows a query is closed. -/
def closeAtEnd :
    Pulled Bindings × Cursor Bindings → Machine.Action Bindings (Pulled Bindings × Cursor Bindings)
  | (.failure e, c) => do
    close c
    return (.failure e, .closed)
  | (.done, c) => do
    close c
    return (.done, .closed)
  | r => return r

/-- Before the deadline a step of a query pulls. -/
theorem run_stepQuery {c : Cursor Bindings} (hopen : c ≠ .closed)
    (hintime : m.query.checkTimeout m.now = .ok ()) :
    (stepQuery c).run m = (pull .main c >>= closeAtEnd).run m := by
  rw [stepQuery, run_get_bind]
  cases c with
  | closed => exact absurd rfl hopen
  | _ =>
    dsimp only
    rw [hintime]
    rfl

/-- A step of a query gives what its cursor brings. -/
theorem leaves_stepQuery {c : Cursor Bindings} (h : m.Supplies answers c Q) :
    (value (stepQuery c) m).1.Leaves (StaysSupplied answers stepQuery m c) Q := by
  by_cases hclosed : c = .closed
  · subst hclosed
    obtain ⟨d, -, -, hbrings⟩ := h
    exact ⟨hbrings, .inl rfl⟩
  · have hintime : m.query.checkTimeout m.now = .ok () := by
      obtain ⟨d, hhonours, -⟩ := h
      simp [QueryContext.checkTimeout, QueryContext.isExpired, hhonours.calm.deadline]
    have hpull := h.pull
    unfold StaysSupplied value after
    rw [run_stepQuery hclosed hintime, run_bind]
    cases hr : value (pull .main c) m with
    | mk r c' =>
    rw [hr] at hpull
    cases r with
    | failure e => exact hpull.elim
    | done => exact ⟨hpull.1, .inl rfl⟩
    | item x => exact Or.inr hpull
    | progress => exact Or.inr hpull
    | wait => exact Or.inr hpull

/-! ### Whole queries -/

/-- The cursor over the rows of a plan brings what its program brings. -/
theorem supplies_openPlan (hm : m.Fresh answers) {env : Environment} {p : Plan} {b : Bindings}
    (hw : (env.evaluate p b).Brings answers Q) (form : QueryForm) :
    (after (openPlan env p b form) m).Supplies answers (value (openPlan env p b form) m)
      fun ys => ∃ xs, Q xs ∧ ys = shown form xs := by
  have hsupplies := hm.supplies (f := .deferred (env.evaluate p b)) hw
  rw [openPlan, after_get_bind, value_bind, value_get, after_get, hm.calm.deadline]
  by_cases hask : form = .ask
  · subst hask
    obtain ⟨d, hhonours, hgrasps, hbrings⟩ := hsupplies
    have hready : (Run.ready (env.evaluate p b)).Brings answers d.owed Q := hbrings
    exact ⟨d, hhonours, hgrasps, hready.mono fun xs hxs => ⟨xs, hxs, rfl⟩⟩
  · have hshown (rows : List Bindings) : shown form rows = rows := if_neg hask
    simp only [if_neg hask, hshown]
    exact hsupplies.mono fun xs hxs => ⟨xs, hxs, rfl⟩

/-- **The rows that are pulled of a plan have the property that its program brings**, in whatever
order tasks have come to results, and no failure comes. -/
theorem suits_pullRows (hm : m.Fresh answers) {env : Environment} {p : Plan} {b : Bindings}
    (hw : (env.evaluate p b).Brings answers Q) {form : QueryForm} {wanted : Option Nat}
    {taken : Taken Bindings} {after : Bool}
    (htaken : value (pullRows env p b form wanted) m = some (taken, after)) :
    taken.Suits wanted fun ys => ∃ xs, Q xs ∧ ys = shown form xs := by
  rw [pullRows, value_bind, value_bind] at htaken
  refine suits_runMain_takeStep (fun _ _ _ => leaves_stepQuery) (supplies_openPlan hm hw form) ?_
  cases hrun : value (runMain (takeStep wanted stepQuery) stepLimit
      ([], value (openPlan env p b form) m)) (Machine.after (openPlan env p b form) m) with
  | none =>
    rw [hrun] at htaken
    cases htaken
  | some taken' =>
    rw [hrun] at htaken
    dsimp only at htaken
    refine congrArg some ?_
    split at htaken
    · rw [value_bind, value_bind] at htaken
      exact congrArg Prod.fst (Option.some.inj htaken)
    · rw [value_bind, value_bind, value_bind] at htaken
      exact congrArg Prod.fst (Option.some.inj htaken)

end Federation

end FederatedSparql
