import Tabula.RowStore

/-!
# Requests that take turns

The database serves the requests of several clients step by step. To set a cell, a request reads
the row at one turn and writes its payload back as a whole at the next; the removal of a key is a
single statement. Nothing is locked in between. `turn` is one turn of a request, and a `Race` is two
requests to one database, of which a schedule says whose turn it is.
-/

namespace Tabula.RowStore

open Store

/-- A request that changes cells. -/
inductive Request where
  /-- Sets a cell of a row. -/
  | update (row column : String) (value : Value)
  /-- Removes a key from the rows of a table. -/
  | remove (table column : String)
  deriving Repr

/-- What a request is answered : the row as it was edited, or the number of rows that had the key. -/
inductive Answer where
  | row (r : Row)
  | count (n : Nat)
  deriving Repr

/-- How far a request has come. -/
inductive Stage where
  | asked (request : Request)
  /-- The row was read, the cell is still to be set. -/
  | read (row : Row) (column : String) (value : Value)
  | answered (answer : Except Failure Answer)

/-- Whether a cell is equal to what it is set to. Then its payload is not written. -/
def isUnchanged (column : String) (value : Value) (p : Payload) : Bool :=
  (p.cells.get? column).any (·.same value)

/-- The rows with an edited row written back. -/
def writtenBack (now : Moment) (row : Row) (column : String) (value : Value) (new : Payload)
    (rows : Rows) : Rows :=
  if isUnchanged column value row.payload then
    Rows.modify row.id (fun r => { r with updatedAt := now }) rows
  else Rows.write now row.id new rows

/-- One turn of a request. -/
def turn (now : Moment) : Stage → Database → Stage × Database
  | .asked (.update id column value), db =>
    match find id db with
    | .ok row => (.read row column value, db)
    | .error e => (.answered (.error (Action.asRowStore .update e)), db)
  | .asked (.remove table column), db =>
    let (n, db) := withoutKey now table column db
    (.answered (.ok (.count n)), db)
  | .read row column value, db =>
    match edited column value row.payload with
    | .ok (new, _) =>
      (.answered (.ok (.row { row with payload := new, updatedAt := now })),
        { db with rows := writtenBack now row column value new db.rows })
    | .error e => (.answered (.error (Action.asRowStore .update e)), db)
  | .answered answer, db => (.answered answer, db)

/-- The two requests of a race. -/
inductive Runner where
  | first
  | second
  deriving DecidableEq, Repr

def Runner.other : Runner → Runner
  | first => second
  | second => first

/-- Two requests under way, and the database that they share. -/
structure Race where
  stage : Runner → Stage
  db : Database

namespace Race

/-- Two requests that have not begun. -/
def start (requests : Runner → Request) (db : Database) : Race :=
  ⟨fun t => .asked (requests t), db⟩

/-- A turn of one of the two, `now` being the time of each. -/
def take (now : Runner → Moment) (race : Race) (t : Runner) : Race :=
  let (stage, db) := turn (now t) (race.stage t) race.db
  ⟨fun u => if u = t then stage else race.stage u, db⟩

/-- Turns by a schedule. -/
def run (now : Runner → Moment) (schedule : List Runner) (race : Race) : Race :=
  schedule.foldl (take now) race

end Race

/-- The number of turns a request needs. -/
def Request.turns : Request → Nat
  | update .. => 2
  | remove .. => 1

/-- A schedule that gives both requests their turns, in any order. -/
def IsSchedule (requests : Runner → Request) (schedule : List Runner) : Prop :=
  ∀ t, schedule.count t = (requests t).turns

end Tabula.RowStore
