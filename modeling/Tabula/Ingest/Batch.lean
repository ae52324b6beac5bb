import Tabula.Store.Payload

/-!
# Batches

A batch is a run of rows that is appended at once. Each `Entry` has the id, the payload and
the position of one row; positions are consecutive. One bad row fails the whole batch, and
the failure names the first one.

The ids of a job's rows follow from the job, the batch and the place of the row, so a batch
that is appended again meets its own ids. Other rows get ids from a stamp that no two
batches share and a random ending.
-/

namespace Tabula

/-- One row of a batch. -/
structure Entry where
  id : String
  payload : Payload
  position : Int
  deriving Repr

abbrev Batch := List Entry

namespace Batch

/-- The id of a job's row, the same each time the batch is made. -/
def jobRowId (job : String) (batch : Int) (row : Nat) : String :=
  "row_" ++ job ++ "_" ++ integerText batch ++ "_" ++ toString row

/-- The id of a row that belongs to no job. -/
def looseRowId (stamp : Int) (batch : Int) (row : Nat) (ending : String) : String :=
  "row_" ++ integerText stamp ++ "_" ++ integerText batch ++ "_" ++ toString row ++ "_" ++ ending

/-- Checks the entries of a row one by one. -/
def checkCells : List (Value × Value) → Except BadRow Cells
  | [] => .ok []
  | (.text column, v) :: es =>
    match v.classify with
    | none => .error (.cell column v)
    | some _ =>
      match checkCells es with
      | .ok cells => .ok ((column, v) :: cells)
      | .error why => .error why
  | (key, _) :: _ => .error (.columnId key)

/-- The cells of a row, which is a mapping of column ids to texts, finite numbers and
nothing. -/
def cellsOf : Value → Except BadRow Cells
  | .dict es => checkCells es
  | v => .error (.notMapping v.kindName)

/-- The payload of a row. -/
def encodeRow (batch row : Int) (v : Value) : Except Failure Payload :=
  match cellsOf v with
  | .ok cells => .ok ⟨cells, .compact⟩
  | .error why => .error (.badRow batch row why)

/-- Encodes rows from place `row` on, `idOf` being the id of the row in each place. -/
def encodeFrom (idOf : Nat → String) (batch : Int) (start : Int) (row : Nat) :
    List Value → Except Failure Batch
  | [] => .ok []
  | v :: vs =>
    match encodeRow batch row v with
    | .error f => .error f
    | .ok payload =>
      match encodeFrom idOf batch start (row + 1) vs with
      | .error f => .error f
      | .ok entries => .ok (⟨idOf row, payload, start + row⟩ :: entries)

/-- The batch of rows whose ids `idOf` gives, the first at position `start`. -/
def encode (idOf : Nat → String) (batch : Int) (start : Int) (rows : List Value) :
    Except Failure Batch :=
  encodeFrom idOf batch start 0 rows

end Batch

end Tabula
