import Tabula.World

/-!
# Row store operations

The operations on rows as actions, each a transaction of its own. A refusal of the store is
a failure that says what was asked.
-/

namespace Tabula.RowStore

open Store

/-- The answer to a question that the store may refuse. -/
def answered {α : Type} (action : RowAction) : Except Refusal α → Except Failure α
  | .ok a => .ok a
  | .error why => .error (.rowStore action why.message)

/-- The database with a batch appended, and the number of new rows. -/
def appended (now : Moment) (table : String) (batch : Batch) (db : Database) :
    Except Failure (Nat × Database) :=
  if batch.all fun e => fitsInteger e.position then
    let (rows, n) := Rows.append now table batch db.rows
    .ok (n, { db with rows := rows })
  else .error (.fault .integerTooLarge)

/-- Appends a batch and counts the rows that were not there. -/
def append (table : String) (batch : Batch) : Action Nat := do
  if batch.isEmpty then return 0
  let now ← Action.now
  Action.rowStore .append (Action.transaction (appended now table batch))

/-- The kinds of databases that take a batch in one statement. -/
def appendDialects : List String := ["postgresql", "sqlite"]

/-- Appends a batch to a database of the given kind, of which only some are supported. -/
def appendOn (dialect table : String) (batch : Batch) : Action Nat := do
  if batch.isEmpty then return 0
  if !appendDialects.contains dialect then throw (.noAppend dialect)
  append table batch

/-- The row with this id. -/
def find (id : String) (db : Database) : Except Failure Row :=
  match db.rows.find? id with
  | some r => .ok r
  | none => .error (.notFound .row id)

def get (id : String) : Action Row :=
  Action.rowStore .lookup (Action.query (find id))

/-- The payload with one cell set, and what is kept of it : cells that are equal to the old
ones are not written. -/
def edited (column : String) (value : Value) (old : Payload) : Except Failure (Payload × Payload) :=
  match Payload.edited (Cells.set column value old.cells) with
  | .ok new => .ok (new, if (old.cells.get? column).any (·.same value) then old else new)
  | .error why => .error (.fault (.statement why.message))

/-- Sets one cell of a row : its cells are read, and written back as a whole. -/
def updateCell (id column : String) (value : Value) : Action Row := do
  let now ← Action.now
  Action.rowStore .update <| Action.transaction fun db => do
    let row ← find id db
    let (new, kept) ← edited column value row.payload
    return ({ row with payload := new, updatedAt := now },
      { db with rows := Rows.write now id kept db.rows })

def delete (id : String) : Action Unit :=
  Action.rowStore .delete <| Action.transaction fun db => do
    let _ ← find id db
    return ((), { db with rows := Rows.erase id db.rows })

/-- Deletes the rows of a table and counts them. -/
def deleteTable (table : String) : Action Nat :=
  Action.rowStore .delete <| Action.transaction fun db =>
    .ok ((db.rows.ofTable table).length, { db with rows := Rows.eraseTable table db.rows })

/-- The database with a key removed from the rows of a table, and the number of rows that
had it. -/
def withoutKey (now : Moment) (table column : String) (db : Database) : Nat × Database :=
  (Rows.countKey table column db.rows, { db with rows := Rows.removeKey now table column db.rows })

/-- Removes a key from the rows of a table and counts the rows that had it. -/
def removeKey (table column : String) : Action Nat := do
  let now ← Action.now
  Action.rowStore .keyRemoval (Action.transaction fun db => .ok (withoutKey now table column db))

/-- Removes a key row by row, for a store that cannot edit payloads. -/
def removeKeyByRow (table column : String) : Action Nat := do
  let now ← Action.now
  Action.rowStore .keyRemoval <| Action.transaction fun db =>
    .ok (Rows.countCells table column db.rows,
      { db with rows := Rows.withoutCell now table column db.rows })

/-- Whether the numbers of a page are within the store's integers. -/
def pageFits (limit : Option Int) (offset : Int) : Bool :=
  fitsInteger offset && limit.all fitsInteger

/-- A page of the rows of a table that match a plan, in its order. -/
def scan (table : String) (plan : Query.Plan) (limit : Option Int) (offset : Int) :
    Action (List Row) :=
  Action.rowStore .scan <| Action.query fun db =>
    if pageFits limit offset then answered .scan (Rows.scan table plan limit offset db.rows)
    else .error (.fault .integerTooLarge)

/-- The number of rows of a table that pass a compiled filter. -/
def count (table : String) (selection : Query.Selection) : Action Nat :=
  Action.rowStore .count (Action.query fun db => answered .count (Rows.count table selection db.rows))

/-- The number of rows of a table that a job wrote. -/
def countJob (table job : String) : Action Nat :=
  Action.rowStore .count (Action.query fun db => answered .count (Rows.countJob table job db.rows))

/-- The position after the last row of a table. -/
def nextPosition (table : String) : Action Int :=
  Action.rowStore .lookup (Action.query fun db => .ok (Rows.nextPosition table db.rows))

/-- All rows of a table in order. -/
def all (table : String) : Action (List Row) :=
  Action.rowStore .scan (Action.query fun db => .ok (Rows.inOrder table db.rows))

/-- The first rows of some tables of which a cell contains the needle. -/
def search (tables : List String) (needle : Value) (limit : Int) : Action (List Row) := do
  if tables.isEmpty || limit ≤ 0 then return []
  Action.rowStore .search <| Action.query fun db =>
    answered .search (Rows.search tables needle limit db.rows)

end Tabula.RowStore
