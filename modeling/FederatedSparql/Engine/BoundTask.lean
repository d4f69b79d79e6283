import FederatedSparql.Plan.Basic

/-!
Joins in blocks: rows of the left side are sent to the right argument together.

The first row goes alone; the blocks behind it hold three rows until more than ten rows are on their
way, and then as many as the configuration says.  What an endpoint answers to a block carries the
number of the row it belongs to, and is merged back into that row.
-/

namespace FederatedSparql

/-- How a block is evaluated, decided by its first row. -/
inductive BoundTaskKind where
  /-- One request for all rows to each source of a statement. -/
  | boundJoin
  /-- The statement has no variable left, so a row is kept once if there is any answer to it. -/
  | checkJoin
  /-- One request for all rows to the endpoint of a SERVICE clause. -/
  | serviceJoin
  /-- One request for all rows to each source of each of the statements. -/
  | independentGroupJoin
deriving DecidableEq, Repr, Inhabited

namespace BoundTaskKind

/-- The kind's name. -/
def name : BoundTaskKind → String
  | boundJoin => "BoundJoin"
  | checkJoin => "CheckJoin"
  | serviceJoin => "ServiceJoin"
  | independentGroupJoin => "IndependentGroupJoin"

/-- The kind for a right argument under the first row; `none` if it cannot take blocks. -/
def choose? (right : Plan) (first : Bindings) (serviceAsBoundJoin : Bool) : Option BoundTaskKind :=
  match right with
  | .statement s => some (if s.hasFreeVarsFor first then boundJoin else checkJoin)
  | .service s => if serviceAsBoundJoin && s.bgp?.isSome then some serviceJoin else none
  | .independent _ => some independentGroupJoin
  | _ => none

/-- Whether a right argument can take blocks at all. -/
def supports (right : Plan) (serviceAsBoundJoin : Bool) : Bool :=
  match right with
  | .statement _ => true
  | .independent _ => true
  | .service s => serviceAsBoundJoin && s.bgp?.isSome
  | _ => false

end BoundTaskKind

namespace BoundJoin

/-! ### Blocks -/

/-- Rows in a block until many are on their way. -/
def smallBlockSize : Nat := 3

/-- More rows than this are many. -/
def smallBlockThreshold : Nat := 10

/-- The size of the next block when `total` rows are on their way. -/
def nextBlockSize (configured total : Nat) : Nat :=
  if total ≤ smallBlockThreshold then smallBlockSize else configured

/-- The blocks of rows behind the first `total` ones. -/
def blocksFrom {α : Type} (configured : Nat) (total : Nat) (rows : List α) : List (List α) :=
  match rows with
  | [] => []
  | row :: rest =>
    let size := nextBlockSize (max configured 1) total
    (row :: rest.take (size - 1)) ::
      blocksFrom configured (total + min size (rest.length + 1)) (rest.drop (size - 1))
termination_by rows.length
decreasing_by simp only [List.length_cons, List.length_drop]; omega

/-- All blocks of rows. -/
def blocks {α : Type} (configured : Nat) : List α → List (List α)
  | [] => []
  | row :: rest => [row] :: blocksFrom configured 1 rest

/-- The blocks of rows behind which a failure comes: a block that is not full is given up. -/
def filledBlocks {α : Type} (configured : Nat) (rows : List α) : List (List α) :=
  let all := blocks configured rows
  match all.tail.getLast? with
  | none => all
  | some last =>
    if last.length = nextBlockSize (max configured 1) (rows.length - last.length) then all
    else all.dropLast

/-! ### Answers -/

/-- Merges answers back into the rows of the block they belong to. -/
def demultiplex (block : List Bindings) (tagged : List (Nat × Bindings)) : List Bindings :=
  tagged.filterMap fun (index, row) => (block[index]?).bind (·.merge? row)

/-- The rows of the block to which there is any answer. -/
def confirmed (block : List Bindings) (tagged : List (Nat × Bindings)) : List Bindings :=
  (block.zipIdx.filter fun row => tagged.any fun t => t.1 == row.2).map (·.1)

/-- All merges of a row of the left with one of the right. -/
def mergeAll (left right : List Bindings) : List Bindings :=
  left.flatMap fun l => right.filterMap fun r => l.merge? r

/-- For each row of the block, all ways to extend it by one answer of each statement. -/
def combine (block : List Bindings) (perStatement : List (List (Nat × Bindings))) :
    List Bindings :=
  block.zipIdx.flatMap fun (row, index) =>
    perStatement.foldl (fun partials answers =>
      mergeAll partials ((answers.filter fun t => t.1 == index).map (·.2))) [row]

end BoundJoin

end FederatedSparql
