import Tabula.Value.Conversion
import Tabula.World

/-!
# Jobs and checkpoints as actions

The operations of the ledger as transactions, and those of the checkpoints on the folder. A
checkpoint is only looked for or written under a job id that is safe as a file name.
-/

namespace Tabula

namespace Jobs

/-- A change of the ledger, all of it or nothing. -/
def change {α : Type} (f : Ledger → Except Failure (α × Ledger)) : Action α :=
  Action.transaction fun db => do
    let (a, jobs) ← f db.jobs
    return (a, { db with jobs := jobs })

/-- Makes a job of a table for a row total that is given as any value. -/
def create (table : Option String) (total : Value) : Action Job := do
  let total ← Ledger.rowTotal "total_rows" total
  let id ← Action.newId "job"
  let now ← Action.now
  change fun ledger => do
    let total ← Ledger.storable total
    Ledger.create now id (← Failure.required "ingestion_jobs.table_id" table) total ledger

def get (id : String) : Action Job := Action.query fun db => db.jobs.get id

def findActive (table : Option String) : Action (Option Job) :=
  Action.query fun db => .ok (Ledger.findActive db.jobs table)

/-- The active job to work on, or a new one if a table and a row total are given. -/
def claim (table : Option String) (total : Value) : Action Job := do
  match ← findActive table with
  | some job => return job
  | none =>
    match table with
    | some t => if total.isNull then throw .noPendingJob else create t total
    | none => throw .noPendingJob

/-- At most `limit` jobs of a table, newest first. -/
def recent (table : Option String) (limit : Option Int) : Action (List Job) :=
  Action.query fun db =>
    if limit.all Store.fitsInteger then .ok (Ledger.recent db.jobs table limit)
    else .error (.fault .integerTooLarge)

def markProcessing (id : String) (resumeFrom base : Option Int) : Action Job := do
  let now ← Action.now
  change (Ledger.markProcessing now id resumeFrom base)

def advance (id : String) (delta : Int) : Action Binary64 := do
  let now ← Action.now
  change (Ledger.advance now id delta)

def complete (id : String) : Action Job := do
  let now ← Action.now
  change (Ledger.complete now id)

def fail (id detail : String) : Action Job := do
  let now ← Action.now
  change (Ledger.fail now id detail)

end Jobs

namespace Checkpoints

/-- The file name of the checkpoint of a job, whose id is given as any value. -/
def fileName (job : Value) : Except Failure String :=
  (Checkpoint.jobId job).map Checkpoint.fileName

def read (job : Value) : Action (Option Checkpoint) := do
  let job ← Checkpoint.jobId job
  let today ← Action.today
  Action.askFolder (Checkpoint.read today job)

def load (job : Value) : Action (Option Int) := do
  return (← read job).map Checkpoint.rows

/-- Writes the checkpoint of a job for a count that is given as any value. -/
def save (job rows : Value) : Action Unit := do
  let job ← Checkpoint.jobId job
  let now ← Action.now
  Action.changeFolder fun folder =>
    match folder, rows.toInteger with
    | .entries _, .error e => .error e
    | .entries es, .ok n => Checkpoint.save now job n (.entries es)
    | .blocked, _ => Checkpoint.save now job 0 .blocked

def clear (job : Value) : Action Unit := do
  let job ← Checkpoint.jobId job
  Action.changeFolder (Checkpoint.clear job)

end Checkpoints

end Tabula
