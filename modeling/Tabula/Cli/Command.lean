import Tabula.Cli.Help
import Tabula.Config.Address
import Tabula.Ingest.Worker
import Tabula.Text.Case

/-!
# Commands

Two commands work on the database from the command line. `Setup.run` makes its tables, and
drops old ones first if that is confirmed. `Ingest.run` claims or makes an ingestion job for a
table and works it off.

A command is run at a `Site`, which knows the address of the database at hand. The report is
what a command wrote and the code with which it ended.
-/

namespace Tabula.Cli

/-- What a command wrote, and the code with which it ended. -/
structure Report where
  code : Nat
  output : String
  deriving DecidableEq, Repr

/-- What commands find where they are run. -/
structure Site where
  /-- The address of the database at hand. -/
  address : String
  /-- The settings on databases. -/
  database : Value
  /-- The settings on ingestion. -/
  ingestion : Value
  deriving Repr

/-- Where a database is. -/
inductive Place where
  /-- It is the one at hand. -/
  | here
  /-- It is an empty one in memory. -/
  | memory
  /-- It cannot be reached. -/
  | away
  deriving DecidableEq, Repr

namespace Site

/-- Where the database of a connection is. -/
def placeOf (c : Config.Connection) : Place :=
  if c.dialect = .sqlite && (c.address.name = "" || c.address.name = ":memory:") then .memory else .away

/-- The kind of the database at an address, and where it is. A blank address is the one at
hand. -/
def locate (site : Site) (address : String) : Except Failure (Config.Dialect × Place) :=
  if address = "" || address = site.address then .ok (.sqlite, .here)
  else do
    let c ← Config.Connection.ofSettings site.database address
    return (c.dialect, placeOf c)

end Site

/-- Does something with the database of a place. -/
def Place.within {α : Type} (place : Place) (x : Action α) : Action α := fun s w =>
  match place with
  | .here => x s w
  | .memory =>
    let (r, after) := x s { w with storage := .bare }
    (r, { after with storage := w.storage })
  | .away =>
    let (r, after) := x s { w with storage := .unreachable }
    (r, { after with storage := w.storage })

namespace Report

/-- The report on a command that was called wrongly or asked for help. -/
def ofStop (name about : String) (switches : List Switch) : Stop → Report
  | .help => ⟨0, Help.text name about switches⟩
  | .misuse => ⟨2, ""⟩

/-- The report with something written before it. -/
def after (output : String) (r : Report) : Report := { r with output := output ++ r.output }

/-- The report on a failure. -/
def ofFailure (f : Failure) : Report := ⟨1, "\nError: " ++ f.message ++ "\n"⟩

end Report

/-- A title between two rules. -/
def banner (title : String) : String :=
  let rule := String.ofList (List.replicate 50 '=')
  "\n" ++ rule ++ "\n" ++ title ++ "\n" ++ rule ++ "\n"

/-- The report of an action, or on its failure. -/
def reporting (x : Action Report) : Action Report := do
  match ← Action.attempt x with
  | .ok r => return r
  | .error f => return .ofFailure f

/-! ## Making the tables -/

namespace Setup

def about : String := "Initialize gridbase database schema"

def switches : List Switch := [
  ⟨["--drop"], .nothing, "Drop existing tables before creating (DANGEROUS)"⟩,
  ⟨["--yes"], .nothing, "Do not ask for confirmation before dropping"⟩,
  ⟨["--url"], .text, "SQLAlchemy database URL (defaults to the configured database)"⟩]

/-- The names of the tables in order. -/
def tableNames : List String :=
  ["bases", "grid_columns", "grid_rows", "grid_tables", "ingestion_jobs", "table_views"]

/-- What is asked before tables are dropped. -/
def question : String := "Are you sure you want to drop all tables? (yes/no): "

/-- The first line of an input, none if there is no input. -/
def firstLine? (input : String) : Option String :=
  if input = "" then none else some (String.ofList (input.toList.takeWhile (· != '\n')))

/-- Whether an answer is a yes, in capitals or small letters. -/
def isYes (s : String) : Bool := Text.lower s.toList == "yes".toList

/-- Makes the tables and lists them. -/
def create : Action Report := do
  Action.createTables
  let list := String.join (tableNames.map fun n => "  - " ++ n ++ "\n")
  return ⟨0, banner "Database Initialized Successfully" ++ "\nTables created: " ++
    toString tableNames.length ++ "\n" ++ list⟩

/-- Drops the tables and makes them again. -/
def recreate : Action Report := do
  Action.dropTables
  return (← reporting create).after "All tables dropped\n"

/-- Drops the tables if the answer to the question is a yes. -/
def recreateIfConfirmed (input : String) : Action Report :=
  match firstLine? input with
  | none => return (Report.ofFailure (.fault .endOfInput)).after question
  | some line => do
    if isYes line then return (← reporting recreate).after question
    else return ⟨0, question ++ "Cancelled\n"⟩

/-- Makes the tables of a database, dropping old ones first if that is chosen. -/
def prepare (dialect : Config.Dialect) (chosen : Chosen) (input : String) : Action Report := do
  if !(← Action.isReachable) then return ⟨1, "Error: Cannot connect to database\n"⟩
  let x := if !chosen.isOn "--drop" then create
    else if chosen.isOn "--yes" then recreate
    else recreateIfConfirmed input
  return (← reporting x).after ("Database connection successful (" ++ dialect.label ++ ")\n")

/-- Runs the command under a name. -/
def run (site : Site) (name : String) (arguments : List String) (input : String) : Action Report :=
  match Switch.readAll switches arguments with
  | .error stop => return .ofStop name about switches stop
  | .ok chosen => reporting do
    let (dialect, place) ← site.locate (chosen.text "--url")
    place.within (prepare dialect chosen input)

end Setup

/-! ## Ingesting -/

namespace Ingest

def about : String := "Run a gridbase bulk ingestion job"

def switches : List Switch := [
  ⟨["--table"], .text, "Target table id (needed to create a job when none is pending)"⟩,
  ⟨["--rows"], .integer, "Total rows for a newly created job (default 1,000,000)"⟩,
  ⟨["--batch-size"], .integer, "Override ingestion.batch_size"⟩,
  ⟨["--concurrency"], .integer, "Override ingestion.concurrency"⟩,
  ⟨["--url"], .text, "SQLAlchemy database URL (defaults to the configured database)"⟩,
  ⟨["-v", "--verbose"], .nothing, "Log per-batch timings (DEBUG)"⟩]

/-- The rows of a new job if no number is given. -/
def defaultRows : Value := .int 1000000

/-- Settings with one of them replaced by what a switch was set to, unless that counts as
false. -/
def withChosen (chosen : Chosen) (switch key : String) (settings : Value) : Value :=
  match settings, chosen.get? switch with
  | .dict es, some v => if v.truthy then .dict (Value.put (.text key) v es) else settings
  | _, _ => settings

/-- The settings on ingestion with what was chosen. -/
def settings (site : Site) (chosen : Chosen) : Value :=
  withChosen chosen "--concurrency" "concurrency"
    (withChosen chosen "--batch-size" "batch_size" site.ingestion)

/-- Digits in groups of three from the right. -/
def groups : List Char → List Char
  | a :: b :: c :: d :: rest => a :: b :: c :: ',' :: groups (d :: rest)
  | cs => cs

/-- A count with its digits in groups of three. -/
def countText (n : Int) : String :=
  let size := String.ofList (groups (Nat.toDigits 10 n.natAbs).reverse).reverse
  if n < 0 then "-" ++ size else size

/-- What is written about a job that was worked off. -/
def summary (job : Job) : String :=
  banner "Ingestion Complete" ++ "Job ID: " ++ job.id ++ "\n" ++ "Table: " ++ job.table ++ "\n" ++
    "Status: " ++ job.status.label ++ "\n" ++ "Rows Processed: " ++ countText job.processed ++ " / " ++
    countText job.total ++ "\n" ++ "Progress: " ++ job.progress.fixedText ++ "%\n"

/-- Claims or makes a job and works it off. -/
def work (site : Site) (chosen : Chosen) : Action Report := do
  let worker ← Worker.ofConfig (settings site chosen) none
  let table := match chosen.get? "--table" with
    | some (.text s) => some s
    | _ => none
  let job ← Jobs.claim table ((chosen.get? "--rows").getD defaultRows)
  return ⟨0, summary (← worker.run job.id)⟩

/-- Runs the command under a name. -/
def run (site : Site) (name : String) (arguments : List String) : Action Report :=
  match Switch.readAll switches arguments with
  | .error stop => return .ofStop name about switches stop
  | .ok chosen => reporting do
    let (_, place) ← site.locate (chosen.text "--url")
    place.within (work site chosen)

end Ingest

end Tabula.Cli
