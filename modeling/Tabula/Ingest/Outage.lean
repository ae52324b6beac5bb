import Tabula.Ingest.Worker

/-!
# Runs while checkpoint files fail

The files of checkpoints may fail a run at any time : the disk is full, or a directory cannot be
searched. An `Outage` says which uses of the files the system refuses, besides those that the
folder itself is in the way of. The definitions here are those of a worker with every use of a file
asked for under an outage; without refusals they are the worker's own.
-/

namespace Tabula

/-- A use of the checkpoint file of a job. -/
inductive FileCall where
  /-- Asks whether the file is there. -/
  | look (job : String)
  | read (job : String)
  | save (job : String) (rows : Int)
  | clear (job : String)
  deriving DecidableEq, Repr

/-- The uses of files that are refused, each with the fault that it meets. -/
structure Outage where
  refusal : FileCall → Option Failure
  isFileFault : ∀ call e, refusal call = some e → Run.isFileFault e = true

namespace Outage

/-- Nothing is refused. -/
def none : Outage := ⟨fun _ => .none, fun _ _ h => nomatch h⟩

/-- Whether a fault says that there is no folder, and so no file. -/
def isNoFolder : Failure → Bool
  | .fault (.notADirectory _) => true
  | _ => false

/-- The stored rows of a job according to its checkpoint. A file that cannot be read counts as
absent. -/
def load (o : Outage) (job : String) : Action (Option Int) := do
  let _ ← Checkpoint.jobId (.text job)
  match o.refusal (.look job) with
  | some e => if isNoFolder e then return .none else throw e
  | .none =>
    let saved ← Checkpoints.load (.text job)
    return if (o.refusal (.read job)).isSome then .none else saved

/-- Writes the checkpoint of a job. -/
def save (o : Outage) (job : String) (rows : Int) : Action Unit := do
  let _ ← Checkpoint.jobId (.text job)
  match o.refusal (.save job rows) with
  | some e => throw e
  | .none => Checkpoints.save (.text job) (.int rows)

/-- Removes the checkpoint of a job. -/
def clear (o : Outage) (job : String) : Action Unit := do
  let _ ← Checkpoint.jobId (.text job)
  match o.refusal (.clear job) with
  | some e => throw e
  | .none => Checkpoints.clear (.text job)

/-! ## The run of a job -/

/-- Writes the checkpoint of a job unless the files are in the way. -/
def mark (o : Outage) (job : String) (processed : Int) : Action Unit := do
  match ← Action.attempt (o.save job processed) with
  | .ok () => return ()
  | .error e => if Run.isFileFault e then return () else throw e

/-- Counts the rows of a batch that is stored. -/
def count (o : Outage) (job : String) (d : Descriptor) (r : Run) : Action Run := do
  let processed := r.processed + d.size
  let _ ← Jobs.advance job d.size
  o.mark job processed
  return { r with processed := processed }

/-- Settles a finished batch. -/
def settle (o : Outage) (job : String) (r : Run) (f : Finished) : Action Run := do
  if r.halted then return r
  match f with
  | (d, .error why) => return r.record why (some d)
  | (d, .ok _) =>
    match ← Action.attempt (o.count job d r) with
    | .ok r => return r
    | .error why => return { r.record why .none with halted := true }

/-- Settles finished batches in their order. -/
def settleAll (o : Outage) (job : String) : Run → List Finished → Action Run
  | r, [] => return r
  | r, f :: fs => do
    let r ← o.settle job r f
    o.settleAll job r fs

/-- Executes the batches that remain, with those in flight settled when there are too many
of them, or when none remain. -/
def drive (o : Outage) (concurrency : Int) (job : Job) (source : Source) :
    List Descriptor → List Finished → Run → Action Run
  | [], inFlight, r => o.settleAll job.id r inFlight
  | d :: ds, inFlight, r => do
    let r ← if Run.isFull concurrency inFlight then o.settleAll job.id r inFlight else pure r
    let inFlight := if Run.isFull concurrency inFlight then [] else inFlight
    if r.failure.isSome then o.settleAll job.id r inFlight
    else
      let result ← Action.attempt (Run.execute job source d)
      o.drive concurrency job source ds (inFlight ++ [(d, result)]) r

/-- Ends the job of a run : failed with its failure, or completed. -/
def finish (o : Outage) (job : String) (r : Run) : Action Job := do
  match r.failure with
  | some f =>
    let _ ← Action.attempt (Jobs.fail job f.detail)
    throw f.why
  | .none =>
    let done ← Jobs.complete job
    o.clear job
    return done

/-- Writes the rows of a processing job from `processed` on. -/
def runBatches (o : Outage) (p : Pace) (job : Job) (source : Source) (processed : Int) :
    Action Job := do
  let ds ← descriptors processed p.batchSize job.total
  let r ← o.drive p.concurrency job source ds [] (Run.start processed)
  o.finish job.id r

/-! ## The worker -/

/-- The stored rows of a job : from where it resumes. -/
def resumeOffset (o : Outage) (job : Job) : Action Int := do
  match ← o.load job.id with
  | some saved => return min saved job.total
  | .none =>
    if job.status = .processing then
      let stored ← RowStore.countJob job.table job.id
      return min (stored : Int) job.total
    else return 0

/-- Runs a job from where it resumes. -/
def run (o : Outage) (w : Worker) (id : String) : Action Job := do
  let job ← Jobs.get id
  if job.status.isTerminal then throw (.jobState id (.alreadyEnded job.status))
  let processed ← o.resumeOffset job
  let base ← Worker.basePosition job
  let job ← Jobs.markProcessing job.id (some processed) (some base)
  let columns ← Catalog.columnTypes job.table
  let source ← w.source job columns
  o.runBatches w.pace job source processed

/-- Works off active jobs until none is left or the newest one has been tried. -/
def drain (o : Outage) (w : Worker) (table : Option String) :
    Nat → List String → Action (List Job)
  | 0, _ => return []
  | fuel + 1, tried => do
    match ← Jobs.findActive table with
    | .none => return []
    | some job =>
      if tried.contains job.id then return []
      else
        match ← Action.attempt (o.run w job.id) with
        | .ok done => do
          let rest ← o.drain w table fuel (job.id :: tried)
          return done :: rest
        | .error _ => o.drain w table fuel (job.id :: tried)

/-- Works off all active jobs. The answer has those whose runs gave one. -/
def runPending (o : Outage) (w : Worker) (table : Option String) : Action (List Job) := do
  o.drain w table ((← Worker.jobCount) + 1) []

end Outage

end Tabula
