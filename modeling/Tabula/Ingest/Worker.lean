import Tabula.Catalog
import Tabula.Ingest.Run

/-!
# Working off jobs

A worker finds where a job resumes, runs it, and works off all active jobs, the newest
first. A checkpoint of the job says how many of its rows are stored; without one a job
that was processing resumes after the rows it wrote, which their ids tell. A resumed job
keeps its base position.
-/

namespace Tabula

/-- Makes the source of a job from the columns of its table. -/
abbrev SourceFactory := Job → List (String × ColumnType) → Except Failure Source

/-- The configuration of a worker as it is given. -/
structure Worker where
  pace : Pace
  source : SourceFactory

namespace Worker

/-- The factory of synthetic sources. The configuration bounds their numbers. -/
def syntheticFactory (config : Value) : SourceFactory := fun job columns => do
  let most ← (← config.require "number_max").toInteger
  return Source.synthetic job.id columns (Source.numberBound most)

/-- The worker of a configuration, with the synthetic source unless another is given. -/
def ofConfig (config : Value) (factory : Option SourceFactory) : Except Failure Worker := do
  let size ← (← config.require "batch_size").toInteger
  let concurrency ← (← config.require "concurrency").toInteger
  let _ ← (← config.require "stagger_seconds").toFloat
  let pace ← Pace.check ⟨size, concurrency⟩
  return ⟨pace, factory.getD (syntheticFactory config)⟩

/-- The stored rows of a job : from where it resumes. -/
def resumeOffset (job : Job) : Action Int := do
  match ← Checkpoints.load (.text job.id) with
  | some saved => return min saved job.total
  | none =>
    if job.status = .processing then
      let stored ← RowStore.countJob job.table job.id
      return min (stored : Int) job.total
    else return 0

/-- The base position of a job : its own, or the position after the last row of its table. -/
def basePosition (job : Job) : Action Int := do
  match job.basePosition with
  | some p => return p
  | none => RowStore.nextPosition job.table

/-- Runs a job from where it resumes. -/
def run (w : Worker) (id : String) : Action Job := do
  let job ← Jobs.get id
  if job.status.isTerminal then throw (.jobState id (.alreadyEnded job.status))
  let processed ← resumeOffset job
  let base ← basePosition job
  let job ← Jobs.markProcessing job.id (some processed) (some base)
  let columns ← Catalog.columnTypes job.table
  let source ← w.source job columns
  w.pace.run job source processed

/-- Works off active jobs until none is left or the newest one has been tried. -/
def drain (w : Worker) (table : Option String) : Nat → List String → Action (List Job)
  | 0, _ => return []
  | fuel + 1, tried => do
    match ← Jobs.findActive table with
    | none => return []
    | some job =>
      if tried.contains job.id then return []
      else
        match ← Action.attempt (w.run job.id) with
        | .ok done => do
          let rest ← w.drain table fuel (job.id :: tried)
          return done :: rest
        | .error _ => w.drain table fuel (job.id :: tried)

/-- The number of jobs, which bounds how many can be tried. -/
def jobCount : Action Nat := Action.query fun db => .ok db.jobs.length

/-- Works off all active jobs. The answer has those that were completed. -/
def runPending (w : Worker) (table : Option String) : Action (List Job) := do
  w.drain table ((← jobCount) + 1) []

/-- Appends some batches of a job in order, counting each. -/
def runBatches (job : Job) (source : Source) : List Descriptor → Action Unit
  | [] => return ()
  | d :: ds => do
    let _ ← Run.execute job source d
    let _ ← Jobs.advance job.id d.size
    runBatches job source ds

/-- Starts a job and stops after its first batches, with a checkpoint if one is given. -/
def interrupt (w : Worker) (id : String) (batches : Nat) (checkpoint : Option Int) : Action Job := do
  let job ← Jobs.get id
  let base ← RowStore.nextPosition job.table
  let job ← Jobs.markProcessing id none (some base)
  let columns ← Catalog.columnTypes job.table
  let source ← w.source job columns
  let ds ← descriptors 0 w.pace.batchSize job.total
  runBatches job source (ds.take batches)
  match checkpoint with
  | some n => Checkpoints.save (.text id) (.int n)
  | none => Pure.pure ()
  Jobs.get id

/-- Runs the batches of a job from an offset on, without looking where it resumes. -/
def runFrom (w : Worker) (id : String) (processed : Int) : Action Job := do
  let job ← Jobs.get id
  let columns ← Catalog.columnTypes job.table
  let source ← w.source job columns
  w.pace.run job source processed

end Worker

end Tabula
