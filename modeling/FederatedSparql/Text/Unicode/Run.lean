/-!
Sets of characters as runs of code points: each run has a first and a last code point and a step.
-/

namespace FederatedSparql.Text.Unicode

/-- The first and the last code point of a run, and the distance of neighbours in it. -/
abbrev CodeRun := Nat × Nat × Nat

/-- Whether a code point belongs to a run. -/
def CodeRun.contains (r : CodeRun) (n : Nat) : Bool :=
  r.1 ≤ n && n ≤ r.2.1 && (n - r.1) % r.2.2 == 0

/-- Whether a character belongs to one of the runs. -/
def inRuns (rs : List CodeRun) (c : Char) : Bool := rs.any fun r => r.contains c.toNat

end FederatedSparql.Text.Unicode
