import Tabula.Workspace.Tables

/-!
# Columns of an actor's tables

A column that is to hold numbers has its stored values made numbers first, in one
transaction that fails if a value is none. A column is deleted with its key in every row.
-/

namespace Tabula.Workspace

def addColumn (actor table : String) (name type order : Value) : Action Value := do
  let _ ← Catalog.ensureOwner actor table
  let order ← if order.isNull then do
      let columns ← Catalog.getColumns table
      pure (.int columns.length)
    else pure order
  return (← Catalog.createColumn table name type order).toValue

/-- The row with the cell of a column as a number. A row without the cell, or with one that
is nothing or a number, stays as it is. -/
def retypedRow (now : Moment) (column : String) (r : Row) : Except Failure Row :=
  match r.payload.cells.get? column with
  | none => .ok r
  | some old =>
    match ColumnType.coerce .number old with
    | .error _ => .error (.invalid (.retype column r.id old))
    | .ok v =>
      match old with
      | .text _ =>
        .ok { r with payload := ⟨Cells.set column v r.payload.cells, .spaced⟩, updatedAt := now }
      | _ => .ok r

/-- The first row, in the order of position, whose cell cannot become a number. -/
def retypeFailure (now : Moment) (column : String) : List Row → Except Failure Unit
  | [] => .ok ()
  | r :: rs =>
    match retypedRow now column r with
    | .error e => .error e
    | .ok _ => retypeFailure now column rs

/-- The rows with the cells of a column of a table as numbers. -/
def retypedRows (now : Moment) (table column : String) (rows : Store.Rows) : Store.Rows :=
  rows.map fun r =>
    if r.table == table then
      match retypedRow now column r with
      | .ok r => r
      | .error _ => r
    else r

/-- The database with the cells of a column as numbers. -/
def retyped (now : Moment) (table column : String) (db : Database) :
    Except Failure (Unit × Database) :=
  match retypeFailure now column (Store.Rows.byPosition table db.rows) with
  | .error e => .error e
  | .ok () => .ok ((), { db with rows := retypedRows now table column db.rows })

/-- Changes a column. Null leaves a field as it is. -/
def updateColumn (actor id : String) (name type order : Value) : Action Value := do
  let column ← Catalog.getColumn id
  let _ ← Catalog.ensureOwner actor column.table
  if !type.isNull then
    let target ← ColumnType.parse type
    if target = .number && column.type ≠ .number then
      let now ← Action.now
      Action.transaction (retyped now column.table id)
  return (← Catalog.updateColumn id name type order).toValue

/-- Deletes a column and counts the rows that had its key. -/
def deleteColumn (actor id : String) : Action Nat := do
  let column ← Catalog.getColumn id
  let _ ← Catalog.ensureOwner actor column.table
  let now ← Action.now
  Action.transaction fun db =>
    let (n, db) := RowStore.withoutKey now column.table id db
    .ok (n, { db with columns := db.columns.filter fun c => c.id != id })

end Tabula.Workspace
