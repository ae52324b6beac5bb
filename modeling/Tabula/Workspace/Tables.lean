import Tabula.Catalog
import Tabula.RowStore
import Tabula.Text.Shorten
import Tabula.Workspace.Page

/-!
# Bases and tables of an actor

Operations on bases and tables on behalf of an actor. A new table has columns and sample
rows from the start, all made in one transaction; a table is deleted with everything that
belongs to it.
-/

namespace Tabula.Workspace

def createBase (actor : Option String) (name : Value) : Action Value := do
  return (← Catalog.createBase actor name).toValue

def listBases (actor : String) : Action Value := do
  return .list ((← Catalog.listBases actor).map Base.toValue)

/-- The columns of a new table. -/
def defaultColumns : Nat := 5

/-- The rows of a new table. -/
def sampleRows : Nat := 50

/-- The columns of a new table, from place `k` on. -/
def newColumns (table : String) (k : Nat) : Nat → Action (List Column)
  | 0 => return []
  | n + 1 => do
    let id ← Action.newId "col"
    let now ← Action.now
    let column : Column := ⟨id, table, "Column " ++ toString (k + 1), .text, k, now⟩
    let rest ← newColumns table (k + 1) n
    return column :: rest

/-- A row with a random text in every column. -/
def sampleRow : List Column → Action Cells
  | [] => return []
  | c :: cs => do
    let ending ← Action.ending 6
    let rest ← sampleRow cs
    return (c.id, .text ("sample_" ++ ending)) :: rest

def sampleData (columns : List Column) : Nat → Action (List Cells)
  | 0 => return []
  | n + 1 => do
    let row ← sampleRow columns
    let rest ← sampleData columns n
    return row :: rest

/-- The batch of rows that belong to no job, with ids from a new stamp. -/
def looseBatch (batch start : Int) (rows : List Value) : Action Batch := do
  let stamp ← Action.stamp
  let endings ← Action.endings rows.length
  Batch.encode (fun i => Batch.looseRowId stamp batch i (endings.getD i "")) batch start rows

/-- Creates a table with its columns and sample rows. -/
def createTable (actor base : String) (name : Value) : Action Value := do
  let _ ← Catalog.ensureBaseOwner actor base
  let name ← Catalog.nameOf .table name
  let id ← Action.newId "tbl"
  let now ← Action.now
  let table : Table := ⟨id, base, name, now⟩
  let columns ← newColumns id 0 defaultColumns
  let sample ← sampleData columns sampleRows
  let batch ← looseBatch 0 0 (sample.map Value.object)
  Action.transaction fun db => do
    let (_, db) ← RowStore.appended now id batch db
    return ((), { db with tables := db.tables ++ [table], columns := db.columns ++ columns })
  return .object [("table", table.toValue), ("columns", .list (columns.map Column.toValue))]

/-- The answer form of a table with its columns. -/
def tableValue (table : Table) (columns : List Column) : Value :=
  .object (table.fields ++ [("columns", .list (columns.map Column.toValue))])

def getTable (actor id : String) : Action Value := do
  let table ← Catalog.ensureOwner actor id
  return tableValue table (← Catalog.getColumns id)

/-- The database without a table, its rows, jobs, columns and views. -/
def withoutTable (id : String) (db : Database) : Database :=
  { db with
    tables := db.tables.filter fun t => t.id != id
    columns := db.columns.filter fun c => c.table != id
    views := db.views.filter fun v => v.table != id
    rows := Store.Rows.eraseTable id db.rows
    jobs := db.jobs.filter fun j => j.table != id }

def deleteTable (actor id : String) : Action Unit := do
  let _ ← Catalog.ensureOwner actor id
  Action.transaction fun db => .ok ((), withoutTable id db)

end Tabula.Workspace
