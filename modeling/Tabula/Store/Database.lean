import Tabula.Ingest.Ledger
import Tabula.Store.Rows

/-!
# The database

The records of the catalog : bases, which have an owner, their tables, the columns and views
of tables. With the rows and the jobs they are the six tables of the database, each a list
in the order in which the records were added.
-/

namespace Tabula

/-- A workspace of one owner. -/
structure Base where
  id : String
  name : String
  owner : String
  createdAt : Moment
  deriving DecidableEq, Repr

structure Table where
  id : String
  base : String
  name : String
  createdAt : Moment
  deriving DecidableEq, Repr

/-- A column. Its id is the key of its cells in every row. -/
structure Column where
  id : String
  table : String
  name : String
  type : ColumnType
  order : Int
  createdAt : Moment
  deriving DecidableEq, Repr

/-- A named filter and sort. -/
structure View where
  id : String
  table : String
  name : String
  filter : Value
  sort : Value
  createdAt : Moment
  deriving Repr

/-- The records of all tables. -/
structure Database where
  bases : List Base
  tables : List Table
  columns : List Column
  views : List View
  rows : Store.Rows
  jobs : Ledger
  deriving Repr

def Database.empty : Database := ⟨[], [], [], [], [], []⟩

/-! ## Answer forms -/

def Base.toValue (b : Base) : Value :=
  .object [("id", .text b.id), ("name", .text b.name), ("owner_id", .text b.owner),
    ("created_at", b.createdAt.toValue)]

def Table.fields (t : Table) : List (String × Value) :=
  [("id", .text t.id), ("base_id", .text t.base), ("name", .text t.name),
    ("created_at", t.createdAt.toValue)]

def Table.toValue (t : Table) : Value := .object t.fields

def Column.toValue (c : Column) : Value :=
  .object [("id", .text c.id), ("table_id", .text c.table), ("name", .text c.name),
    ("type", .text c.type.label), ("order", .int c.order)]

def View.toValue (v : View) : Value :=
  .object [("id", .text v.id), ("table_id", .text v.table), ("name", .text v.name),
    ("filter_config", if v.filter.truthy then v.filter else .dict []),
    ("sort_config", if v.sort.truthy then v.sort else .list [])]

end Tabula
