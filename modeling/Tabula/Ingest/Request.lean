import Tabula.Catalog
import Tabula.Ingest.Jobs

/-!
# Asking for ingestion

What an actor may ask : to start a job on a table of his, and how a job is doing. Without an
actor the state of a job is told to anyone.
-/

namespace Tabula.Ingestion

/-- Makes a job for a table of the actor and announces it. The job stands even if that
fails. -/
def start (announce : String → Action Unit) (actor table : String) (total : Value) :
    Action String := do
  let _ ← Ledger.rowTotal "totalRows" total
  let _ ← Catalog.ensureOwner actor table
  let job ← Jobs.create table total
  let _ ← Action.attempt (announce job.id)
  return job.id

/-- The job, whose table the actor must own if one is named. -/
def visibleJob (id : String) (actor : Option String) : Action Job := do
  let job ← Jobs.get id
  match actor with
  | some a =>
    let _ ← Catalog.ensureOwner a job.table
    return job
  | none => return job

def jobStatus (id : String) (actor : Option String) : Action Value := do
  return (← visibleJob id actor).statusValue

def getJob (id : String) (actor : Option String) : Action Value := do
  return (← visibleJob id actor).toValue

/-- The newest jobs of a table of the actor. -/
def listJobs (actor table : String) (limit : Int) : Action Value := do
  let _ ← Catalog.ensureOwner actor table
  return .list ((← Jobs.recent (some table) (some limit)).map Job.toValue)

end Tabula.Ingestion
