import Tabula.Ingest.Descriptor
import Tabula.Ingest.Jobs
import Tabula.Ingest.Source
import Tabula.RowStore

/-!
# Running the batches of a job

A run takes the batches of a job in ascending order, with a bounded number of them in
flight. Executing a batch makes, encodes and appends its rows; settling a finished one
counts its rows in the ledger and then writes a checkpoint. A checkpoint that cannot be
written is passed over.

After the first failure no batch is started, those in flight are settled, and the job
fails with that failure. Without one the job is completed and its checkpoint removed.
-/

namespace Tabula

/-- Why a run failed : the first failure, and the batch it befell if it was one. -/
structure RunFailure where
  why : Failure
  batch : Option Descriptor
  deriving Repr

/-- The detail that is recorded for a failed job. -/
def RunFailure.detail (f : RunFailure) : String :=
  let reason := f.why.kind ++ ": " ++ f.why.message
  match f.batch with
  | none => reason
  | some d =>
    "Batch " ++ integerText d.index ++ " (offset " ++ integerText d.offset ++ ", size " ++
      integerText d.size ++ ") failed: " ++ reason

/-- Where a run is. -/
structure Run where
  /-- The rows that are stored and counted. -/
  processed : Int
  failure : Option RunFailure
  /-- The ledger refused to count, so nothing more is settled. -/
  halted : Bool
  deriving Repr

/-- A batch that has been executed. -/
abbrev Finished := Descriptor × Except Failure Nat

namespace Run

def start (processed : Int) : Run := ⟨processed, none, false⟩

/-- Keeps the first failure. -/
def record (r : Run) (why : Failure) (batch : Option Descriptor) : Run :=
  match r.failure with
  | some _ => r
  | none => { r with failure := some ⟨why, batch⟩ }

/-- Whether a failure comes from the files, not from what was asked. -/
def isFileFault : Failure → Bool
  | .fault (.fileExists _) => true
  | .fault (.notADirectory _) => true
  | .fault (.isADirectory _) => true
  | .fault (.nameTooLong _) => true
  | _ => false

/-- Makes, encodes and appends the rows of a batch, and counts the new ones. -/
def execute (job : Job) (source : Source) (d : Descriptor) : Action Nat := do
  let rows ← source d.offset d.size d.index
  let start := job.basePosition.getD 0 + d.offset
  let batch ← Batch.encode (Batch.jobRowId job.id d.index) d.index start rows
  RowStore.append job.table batch

/-- Writes the checkpoint of a job unless the files are in the way. -/
def mark (job : String) (processed : Int) : Action Unit := do
  match ← Action.attempt (Checkpoints.save (.text job) (.int processed)) with
  | .ok () => return ()
  | .error e => if isFileFault e then return () else throw e

/-- Counts the rows of a batch that is stored. -/
def count (job : String) (d : Descriptor) (r : Run) : Action Run := do
  let processed := r.processed + d.size
  let _ ← Jobs.advance job d.size
  mark job processed
  return { r with processed := processed }

/-- Settles a finished batch. -/
def settle (job : String) (r : Run) (f : Finished) : Action Run := do
  if r.halted then return r
  match f with
  | (d, .error why) => return r.record why (some d)
  | (d, .ok _) =>
    match ← Action.attempt (count job d r) with
    | .ok r => return r
    | .error why => return { r.record why none with halted := true }

/-- Settles finished batches in their order. -/
def settleAll (job : String) : Run → List Finished → Action Run
  | r, [] => return r
  | r, f :: fs => do
    let r ← settle job r f
    settleAll job r fs

/-- Whether one more batch would be too many in flight. -/
def isFull (concurrency : Int) (inFlight : List Finished) : Bool := concurrency ≤ inFlight.length

/-- Executes the batches that remain, with those in flight settled when there are too many
of them, or when none remain. -/
def drive (concurrency : Int) (job : Job) (source : Source) :
    List Descriptor → List Finished → Run → Action Run
  | [], inFlight, r => settleAll job.id r inFlight
  | d :: ds, inFlight, r => do
    let r ← if isFull concurrency inFlight then settleAll job.id r inFlight else pure r
    let inFlight := if isFull concurrency inFlight then [] else inFlight
    if r.failure.isSome then settleAll job.id r inFlight
    else
      let result ← Action.attempt (execute job source d)
      drive concurrency job source ds (inFlight ++ [(d, result)]) r

/-- Ends the job of a run : failed with its failure, or completed. -/
def finish (job : String) (r : Run) : Action Job := do
  match r.failure with
  | some f =>
    let _ ← Action.attempt (Jobs.fail job f.detail)
    throw f.why
  | none =>
    let done ← Jobs.complete job
    Checkpoints.clear (.text job)
    return done

end Run

/-- How batches are cut and how many may be in flight. -/
structure Pace where
  batchSize : Int
  concurrency : Int
  deriving Repr

namespace Pace

/-- A pace that a run can have. -/
def check (p : Pace) : Except Failure Pace :=
  if p.concurrency < 1 then .error (.invalid .concurrency)
  else if p.batchSize < 1 then .error (.invalid .batchSize)
  else .ok p

/-- Writes the rows of a processing job from `processed` on. The answer is the completed
job. -/
def run (p : Pace) (job : Job) (source : Source) (processed : Int) : Action Job := do
  let ds ← descriptors processed p.batchSize job.total
  let r ← Run.drive p.concurrency job source ds [] (Run.start processed)
  Run.finish job.id r

end Pace

end Tabula
