import Tabula.Ingest.Batch
import Tabula.Store.Clause
import Tabula.Time.Moment

/-!
# The row store

The rows of all tables in the order in which they were appended. `append` leaves out rows
whose id is taken, so appending a batch again changes nothing. `scan`, `count` and `search`
evaluate a query as the store does; edits change one row at a time.
-/

namespace Tabula

/-- A stored row. -/
structure Row where
  id : String
  table : String
  position : Int
  payload : Payload
  createdAt : Moment
  updatedAt : Moment
  deriving Repr

/-- The answer form of a row. -/
def Row.toValue (r : Row) : Value :=
  .object [("id", .text r.id), ("table_id", .text r.table), ("position", .int r.position),
    ("data", r.payload.toValue), ("created_at", r.createdAt.toValue),
    ("updated_at", r.updatedAt.toValue)]

namespace Store

abbrev Rows := List Row

namespace Rows

def find? (rows : Rows) (id : String) : Option Row := List.find? (fun r => r.id == id) rows

def has (rows : Rows) (id : String) : Bool := rows.any fun r => r.id == id

/-- The rows of one table. -/
def ofTable (rows : Rows) (table : String) : Rows := rows.filter fun r => r.table == table

/-! ## Changes -/

/-- Appends the entries whose id is not taken, and counts them. -/
def append (now : Moment) (table : String) : Batch → Rows → Rows × Nat
  | [], rows => (rows, 0)
  | e :: es, rows =>
    if rows.has e.id then append now table es rows
    else
      let (rows, n) := append now table es (rows ++ [⟨e.id, table, e.position, e.payload, now, now⟩])
      (rows, n + 1)

/-- Applies a change to the row with this id. -/
def modify (id : String) (change : Row → Row) (rows : Rows) : Rows :=
  rows.map fun r => if r.id == id then change r else r

/-- Writes a payload back to a row. -/
def write (now : Moment) (id : String) (payload : Payload) (rows : Rows) : Rows :=
  modify id (fun r => { r with payload := payload, updatedAt := now }) rows

def erase (id : String) (rows : Rows) : Rows := rows.filter fun r => r.id != id

/-- Removes the rows of a table. -/
def eraseTable (table : String) (rows : Rows) : Rows := rows.filter fun r => r.table != table

/-- Removes a key from the rows of a table in one statement of the store. -/
def removeKey (now : Moment) (table column : String) (rows : Rows) : Rows :=
  rows.map fun r =>
    if r.table == table && Store.hasKey r.payload column then
      { r with payload := Store.removeKey r.payload column, updatedAt := now }
    else r

/-- The number of rows from which `removeKey` removes a key. -/
def countKey (table column : String) (rows : Rows) : Nat :=
  rows.countP fun r => r.table == table && Store.hasKey r.payload column

/-- Removes a key from the rows of a table row by row. -/
def withoutCell (now : Moment) (table column : String) (rows : Rows) : Rows :=
  rows.map fun r =>
    if r.table == table && r.payload.cells.has column then
      { r with payload := ⟨Cells.erase r.payload.cells column, .spaced⟩, updatedAt := now }
    else r

/-- The number of rows that `withoutCell` changes. -/
def countCells (table column : String) (rows : Rows) : Nat :=
  rows.countP fun r => r.table == table && r.payload.cells.has column

/-! ## Questions -/

/-- The position after the last row of a table. -/
def nextPosition (table : String) (rows : Rows) : Int :=
  match (rows.ofTable table).map Row.position with
  | [] => 0
  | p :: ps => ps.foldl max p + 1

/-- The rows that pass, the store's evaluation ending at the first refusal. -/
def select (keep : Row → Except Refusal Bool) : Rows → Except Refusal Rows
  | [] => .ok []
  | r :: rs =>
    match keep r with
    | .error why => .error why
    | .ok b =>
      match select keep rs with
      | .error why => .error why
      | .ok kept => .ok (if b then r :: kept else kept)

/-- The rows of a table that pass a compiled filter. -/
def matching (table : String) (s : Query.Selection) (rows : Rows) : Except Refusal Rows :=
  select (fun r => (clauseOfSelection s).holds r.payload) (rows.ofTable table)

/-- The ranks of a row under some keys. -/
def ranks (order : List Query.OrderKey) (r : Row) : Except Refusal (List Rank) :=
  order.mapM fun k => rankOf r.payload k

/-- The rows with their ranks. -/
def withRanks (order : List Query.OrderKey) : Rows → Except Refusal (List (List Rank × Row))
  | [] => .ok []
  | r :: rs =>
    match ranks order r with
    | .error why => .error why
    | .ok ranks =>
      match withRanks order rs with
      | .error why => .error why
      | .ok rest => .ok ((ranks, r) :: rest)

/-- The order of rows without keys : by position, then id. -/
def placeLt (a b : Row) : Bool :=
  a.position < b.position || (a.position == b.position && a.id < b.id)

/-- The rows in the order of the keys, then by position and id. -/
def sort (order : List Query.OrderKey) (rows : Rows) : Except Refusal Rows :=
  match withRanks order rows with
  | .error why => .error why
  | .ok ranked =>
    let le (a b : List Rank × Row) : Bool := !ranksLt (placeLt b.2 a.2) order b.1 a.1
    .ok ((ranked.mergeSort le).map (·.2))

/-- The rows from an offset on, at most `limit` of them. A negative offset counts as zero, a
negative limit as none. -/
def cut (limit : Option Int) (offset : Int) (rows : Rows) : Rows :=
  let rest := rows.drop offset.toNat
  match limit with
  | some n => if n < 0 then rest else rest.take n.toNat
  | none => rest

/-- A page of the rows of a table that match a plan, in its order. -/
def scan (table : String) (plan : Query.Plan) (limit : Option Int) (offset : Int) (rows : Rows) :
    Except Refusal Rows := do
  let found ← matching table plan.selection rows
  let sorted ← sort plan.order found
  return cut limit offset sorted

/-- The number of rows of a table that pass a compiled filter. -/
def count (table : String) (s : Query.Selection) (rows : Rows) : Except Refusal Nat :=
  (matching table s rows).map List.length

/-- The rows of a table in the order of position and id. -/
def inOrder (table : String) (rows : Rows) : Rows :=
  (rows.ofTable table).mergeSort fun a b => !placeLt b a

/-- The rows of a table in the order of position, rows with one position as they were
appended. -/
def byPosition (table : String) (rows : Rows) : Rows :=
  (rows.ofTable table).mergeSort fun a b => a.position ≤ b.position

/-- The pattern of the ids of a job's rows. -/
def jobPattern (job : String) : String := Text.beginsPattern ("row_" ++ job ++ "_")

/-- The number of rows of a table that a job wrote, which their ids tell. -/
def countJob (table job : String) (rows : Rows) : Except Refusal Nat :=
  (select (fun r => likeText (jobPattern job) (some r.id)) (rows.ofTable table)).map List.length

/-- A text as it stands inside the JSON text of a payload. -/
def writtenNeedle (needle : Value) : String := Json.escape (needle.cellText?.getD "")

/-- Whether some cell contains the needle. -/
def holdsText (needle : Value) (r : Row) : Bool :=
  r.payload.cells.any fun e => e.2.containsText needle

/-- The order of search results : by table, then position and id. -/
def tablePlaceLt (a b : Row) : Bool :=
  a.table < b.table || (a.table == b.table && placeLt a b)

/-- The first `limit` rows of some tables of which a cell contains the needle. The store
looks for the needle in the whole payload first. -/
def search (tables : List String) (needle : Value) (limit : Int) (rows : Rows) :
    Except Refusal Rows :=
  if tables.isEmpty || limit ≤ 0 then .ok []
  else do
    let pattern := Text.containsPattern (writtenNeedle needle)
    let found ← select (fun r => likeText pattern (some r.payload.text))
      (rows.filter fun r => tables.contains r.table)
    let sorted := found.mergeSort fun a b => !tablePlaceLt b a
    return (sorted.filter (holdsText needle)).take limit.toNat

end Rows

end Store

end Tabula
