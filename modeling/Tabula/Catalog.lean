import Tabula.World

/-!
# The catalog

Bases, tables, columns and views : how they are made, looked up and changed. A name is
required and kept without white space at its ends. A table belongs to the owner of its
base; `ensureOwner` is the gate that every operation on behalf of an actor passes.
-/

namespace Tabula.Catalog

/-! ## Names -/

/-- The name a record is to have. A name that is no text is a fault. -/
def nameOf (what : Entity) (name : Value) : Except Failure String :=
  if !name.truthy then .error (.invalid (.blankName what))
  else match name with
    | .text s => if Text.isBlankText s then .error (.invalid (.blankName what)) else .ok (Text.trim s)
    | v => .error (.fault (.missingOperation v.kindName "strip"))

/-- The name a column is to have, the text of whatever value is given. -/
def columnNameOf (name : Value) : Except Failure String :=
  let s := name.plainText
  if Text.isBlankText s then .error (.invalid (.blankName .column)) else .ok (Text.trim s)

/-- The place of a column among the others : an integer that is not negative. -/
def orderOf : Value → Except Failure Int
  | .int n => if 0 ≤ n then .ok n else .error (.invalid .columnOrder)
  | _ => .error (.invalid .columnOrder)

/-- The id that a value is compared as in a look-up. A sequence or a mapping is none, nor is an
integer that the store cannot hold. -/
def idOf : Value → Except Failure String
  | .list _ => .error (.fault (.wrongKind "Error binding parameter 1: type 'list' is not supported"))
  | .dict _ => .error (.fault (.wrongKind "Error binding parameter 1: type 'dict' is not supported"))
  | .int n => do return integerText (← Ledger.storable n)
  | v => .ok v.plainText

/-! ## Bases -/

def createBase (owner : Option String) (name : Value) : Action Base := do
  let name ← nameOf .base name
  let id ← Action.newId "base"
  let now ← Action.now
  Action.transaction fun db => do
    let base : Base := ⟨id, name, ← Failure.required "bases.owner_id" owner, now⟩
    return (base, { db with bases := db.bases ++ [base] })

/-- The bases of an owner, oldest first. -/
def ownBases (owner : String) (db : Database) : List Base :=
  (db.bases.filter fun b => b.owner == owner).mergeSort
    fun a b => a.createdAt.micros ≤ b.createdAt.micros

def listBases (owner : String) : Action (List Base) :=
  Action.query fun db => .ok (ownBases owner db)

def findBase (id : String) (db : Database) : Except Failure Base :=
  match db.bases.find? fun b => b.id == id with
  | some b => .ok b
  | none => .error (.notFound .base id)

def getBase (id : String) : Action Base := Action.query (findBase id)

/-- The base, which the actor must own. -/
def ensureBaseOwner (actor id : String) : Action Base := do
  let base ← getBase id
  if base.owner ≠ actor then throw .forbidden
  return base

/-! ## Tables -/

def createTable (base : Option String) (name : Value) : Action Table := do
  let name ← nameOf .table name
  let id ← Action.newId "tbl"
  let now ← Action.now
  Action.transaction fun db => do
    let table : Table := ⟨id, ← Failure.required "grid_tables.base_id" base, name, now⟩
    return (table, { db with tables := db.tables ++ [table] })

def findTable (id : String) (db : Database) : Except Failure Table :=
  match db.tables.find? fun t => t.id == id with
  | some t => .ok t
  | none => .error (.notFound .table id)

def getTable (id : String) : Action Table := Action.query (findTable id)

/-- The owner of the base of a table. -/
def ownerOf (t : Table) (db : Database) : Option String :=
  (db.bases.find? fun b => b.id == t.base).map Base.owner

/-- The table, which must lie in a base of the actor. A table without its base is not
found. -/
def ownedTable (actor id : String) (db : Database) : Except Failure Table := do
  let table ← findTable id db
  match ownerOf table db with
  | none => throw (.notFound .table id)
  | some owner => if owner = actor then return table else throw .forbidden

/-- The ownership gate. -/
def ensureOwner (actor id : String) : Action Table := Action.query (ownedTable actor id)

/-- The ids of the tables in the bases of an owner. -/
def tableIdsOf (owner : String) (db : Database) : List String :=
  (db.tables.filter fun t => ownerOf t db == some owner).map Table.id

def ownedTableIds (owner : String) : Action (List String) :=
  Action.query fun db => .ok (tableIdsOf owner db)

/-! ## Columns -/

/-- The columns of a table by their order, then by age. -/
def columnsOf (table : String) (db : Database) : List Column :=
  (db.columns.filter fun c => c.table == table).mergeSort fun a b =>
    a.order < b.order || (a.order == b.order && a.createdAt.micros ≤ b.createdAt.micros)

def getColumns (table : String) : Action (List Column) :=
  Action.query fun db => .ok (columnsOf table db)

/-- The declared types of the columns of a table. -/
def typesOf (table : String) (db : Database) : List (String × ColumnType) :=
  (columnsOf table db).map fun c => (c.id, c.type)

def columnTypes (table : String) : Action (List (String × ColumnType)) :=
  Action.query fun db => .ok (typesOf table db)

def createColumn (table : Option String) (name type order : Value) : Action Column := do
  if !name.truthy then throw (.invalid (.blankName .column))
  let name ← columnNameOf name
  let order ← orderOf order
  let id ← Action.newId "col"
  let type ← ColumnType.parse type
  let now ← Action.now
  Action.transaction fun db => do
    let order ← Ledger.storable order
    let table ← Failure.required "grid_columns.table_id" table
    let column : Column := ⟨id, table, name, type, order, now⟩
    return (column, { db with columns := db.columns ++ [column] })

def findColumn (id : String) (db : Database) : Except Failure Column :=
  match db.columns.find? fun c => c.id == id with
  | some c => .ok c
  | none => .error (.notFound .column id)

def getColumn (id : String) : Action Column := Action.query (findColumn id)

/-- The column with some of its fields changed; null leaves a field as it is. -/
def editedColumn (name type order : Value) (c : Column) : Except Failure Column := do
  let name ← if name.isNull then pure c.name else columnNameOf name
  let type ← if type.isNull then pure c.type else ColumnType.parse type
  let order ← if order.isNull then pure c.order else orderOf order
  let order ← Ledger.storable order
  return { c with name := name, type := type, order := order }

/-- Changes some fields of a column. -/
def updateColumn (id : String) (name type order : Value) : Action Column :=
  Action.transaction fun db => do
    let column ← editedColumn name type order (← findColumn id db)
    return (column, { db with columns := db.columns.map fun c => if c.id == id then column else c })

/-! ## Views -/

/-- A value that the store keeps as JSON. -/
def storable (v : Value) : Except Failure Value :=
  match Json.write .spaced v with
  | .ok _ => .ok v.stored
  | .error why => .error (.fault (.statement why.message))

def createView (table : Option String) (name filter sort : Value) : Action View := do
  let name ← nameOf .view name
  let id ← Action.newId "view"
  let now ← Action.now
  Action.transaction fun db => do
    let filter ← storable filter
    let sort ← storable sort
    let table ← Failure.required "table_views.table_id" table
    let view : View := ⟨id, table, name, filter, sort, now⟩
    return (view, { db with views := db.views ++ [view] })

def findView (id : String) (db : Database) : Except Failure View :=
  match db.views.find? fun v => v.id == id with
  | some v => .ok v
  | none => .error (.notFound .view id)

def getView (id : String) : Action View := Action.query (findView id)

/-- The views of a table, oldest first. -/
def viewsOf (table : String) (db : Database) : List View :=
  (db.views.filter fun v => v.table == table).mergeSort
    fun a b => a.createdAt.micros ≤ b.createdAt.micros

def listViews (table : String) : Action (List View) :=
  Action.query fun db => .ok (viewsOf table db)

/-- The name a view gets : the old one unless something is given, without white space at its
ends. -/
def viewNameOf (old : String) (name : Value) : Except Failure String :=
  if !name.truthy then .ok old
  else match name with
    | .text s => .ok (Text.trim s)
    | v => .error (.fault (.missingOperation v.kindName "strip"))

/-- The value for a field of a view, the old one if null is given. -/
def viewField (old given : Value) : Except Failure Value :=
  if given.isNull then .ok old else storable given

/-- What is kept of a field for a new value : an equal one is not written. -/
def keptField (old new : Value) : Value := if old.same new then old else new

/-- Changes some fields of a view; null leaves a field as it is. -/
def updateView (id : String) (name filter sort : Value) : Action View :=
  Action.transaction fun db => do
    let old ← findView id db
    let name ← viewNameOf old.name name
    let filter ← viewField old.filter filter
    let sort ← viewField old.sort sort
    let kept := { old with
      name := name, filter := keptField old.filter filter, sort := keptField old.sort sort }
    return ({ old with name := name, filter := filter, sort := sort },
      { db with views := db.views.map fun v => if v.id == id then kept else v })

end Tabula.Catalog
