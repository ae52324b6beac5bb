import Tabula.Workspace.Tables

/-!
# Rows of an actor's tables

Listing, counting and searching rows, and editing them. What is written is coerced to the
declared types first, and a column that the table does not have is refused before
anything is written.
-/

namespace Tabula.Workspace

/-- The column types a query on a table is compiled with. -/
def typesFor (table : String) : Action Query.ColumnTypes := do
  return some (← Catalog.columnTypes table)

/-- One page of the rows that match a filter, in the order of a sort. -/
def listRows (settings : Settings) (actor table : String) (filter sort limit offset : Value) :
    Action Value := do
  let _ ← Catalog.ensureOwner actor table
  let (limit, offset) ← parsePage limit offset settings.limits
  let types ← typesFor table
  let plan ← Query.compile types filter sort
  return .list ((← RowStore.scan table plan (some limit) offset).map Row.toValue)

def countRows (actor table : String) (filter : Value) : Action Nat := do
  let _ ← Catalog.ensureOwner actor table
  let types ← typesFor table
  let selection ← Query.compileFilter types filter
  RowStore.count table selection

/-- The value stored under a column, whose id may be given as any value. -/
def coerceCell (types : List (String × ColumnType)) (column value : Value) :
    Except Failure (String × Value) :=
  match column with
  | .text s =>
    match types.lookup s with
    | some type => do return (s, ← type.coerce value)
    | none => .error (.notFound .column s)
  | .list _ | .dict _ => .error (.fault (.wrongKind ("unhashable type: '" ++ column.kindName ++ "'")))
  | v => .error (.notFound .column v.plainText)

/-- The cells of a row to be inserted. -/
def coerceCells (types : List (String × ColumnType)) :
    List (Value × Value) → Except Failure Cells
  | [] => .ok []
  | (column, value) :: es => do
    let cell ← coerceCell types column value
    let cells ← coerceCells types es
    return cell :: cells

/-- The rows to be inserted, from place `i` on. -/
def prepareRows (types : List (String × ColumnType)) (i : Nat) : List Value → Except Failure (List Cells)
  | [] => .ok []
  | .dict es :: rows => do
    let cells ← coerceCells types es
    let rest ← prepareRows types (i + 1) rows
    return cells :: rest
  | _ :: _ => .error (.invalid (.rowNotObject i))

/-- Appends chunks of rows one after the other, each in a transaction of its own. -/
def insertChunks (table : String) (position : Int) (batch : Int) : List (List Cells) → Action Nat
  | [] => return 0
  | chunk :: chunks => do
    let entries ← looseBatch batch position (chunk.map Value.object)
    let n ← RowStore.append table entries
    let rest ← insertChunks table (position + chunk.length) (batch + 1) chunks
    return n + rest

/-- Appends rows after the last one and counts them. -/
def insertRows (settings : Settings) (actor table : String) (rows : Value) : Action Nat := do
  let _ ← Catalog.ensureOwner actor table
  let rows ← match rows with
    | .list vs => pure vs
    | .tuple vs => pure vs
    | _ => throw (.invalid .rowsNotList)
  let types ← Catalog.columnTypes table
  let prepared ← prepareRows types 0 rows
  let position ← RowStore.nextPosition table
  match chunks? settings.insertBatch prepared with
  | some chunks => insertChunks table position 0 chunks
  | none => throw (.fault (.badValue "range() arg 3 must not be zero"))

def updateCell (actor row : String) (column value : Value) : Action Value := do
  let r ← RowStore.get row
  let _ ← Catalog.ensureOwner actor r.table
  let types ← Catalog.columnTypes r.table
  let (column, value) ← coerceCell types column value
  return (← RowStore.updateCell row column value).toValue

def deleteRow (actor row : String) : Action Unit := do
  let r ← RowStore.get row
  let _ ← Catalog.ensureOwner actor r.table
  RowStore.delete row

/-- The rows of the actor's tables of which a cell contains a text. -/
def search (settings : Settings) (actor : String) (text limit : Value) : Action Value := do
  match text with
  | .text s =>
    if Text.isBlankText s then throw (.invalid .blankSearch)
    let (limit, _) ← parsePage limit (.int 0) settings.limits
    let tables ← Catalog.ownedTableIds actor
    return .list ((← RowStore.search tables text limit).map Row.toValue)
  | _ => throw (.invalid .blankSearch)

end Tabula.Workspace
