import Tabula.Cell
import Tabula.Random.Twister

/-!
# Sources of rows

A source makes the rows of a batch, the same ones each time it is asked. The synthetic
source draws numbers for number columns and names job, batch and row in text columns; each
batch has draws of its own, so batches can be made in any order.
-/

namespace Tabula

/-- The rows of a batch, by its offset, its size and its index. -/
abbrev Source := Int → Int → Int → Except Failure (List Value)

namespace Source

/-- The text in a text column of a synthetic row. -/
def syntheticText (job : String) (batch : Int) (row : Nat) : String :=
  "Job" ++ job ++ "-B" ++ integerText batch ++ "-R" ++ toString row

/-- The cells of one synthetic row under some columns, numbers being below `most`. -/
def syntheticCells (job : String) (most : Nat) (batch : Int) (row : Nat) :
    List (String × ColumnType) → Random.Twister → Cells → Cells × Random.Twister
  | [], t, cells => (cells, t)
  | (column, .number) :: columns, t, cells =>
    let (n, t) := t.below most
    syntheticCells job most batch row columns t (Cells.set column (.int n) cells)
  | (column, .text) :: columns, t, cells =>
    syntheticCells job most batch row columns t
      (Cells.set column (.text (syntheticText job batch row)) cells)

/-- `n` synthetic rows from place `row` on. -/
def syntheticRows (job : String) (columns : List (String × ColumnType)) (most : Nat) (batch : Int) :
    Nat → Nat → Random.Twister → List Cells
  | 0, _, _ => []
  | n + 1, row, t =>
    let (cells, t) := syntheticCells job most batch row columns t []
    cells :: syntheticRows job columns most batch n (row + 1) t

/-- The text that seeds the draws of a batch. -/
def seedText (job : String) (batch : Int) : String := job ++ ":" ++ integerText batch

/-- The bound of the numbers for a configured one : at least one. -/
def numberBound (n : Int) : Nat := (max 1 n).toNat

/-- The source of made-up rows. -/
def synthetic (job : String) (columns : List (String × ColumnType)) (most : Nat) : Source :=
  fun _ size batch =>
    let t := Random.Twister.ofText (seedText job batch)
    .ok ((syntheticRows job columns most batch size.toNat 0 t).map Value.object)

end Source

end Tabula
