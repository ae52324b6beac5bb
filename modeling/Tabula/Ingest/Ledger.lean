import Tabula.Ingest.Job
import Tabula.Text.Shorten

/-!
# The ledger of jobs

A job goes from pending to processing and then to completed or failed, where it stays. The
operations are functions on the list of jobs in the order in which they were made; one that
fails leaves nothing behind. Progress only goes up, stays below one hundred until the job
is completed, and the base position and the start are set once.
-/

namespace Tabula

abbrev Ledger := List Job

namespace Ledger

/-- The most characters of the detail of a failed job. -/
def detailLimit : Int := 1000

/-- The row total a value stands for : an integer that is not negative. -/
def rowTotal (name : String) : Value → Except Failure Int
  | .int n => if 0 ≤ n then .ok n else .error (.invalid (.rowTotal name))
  | _ => .error (.invalid (.rowTotal name))

/-- An integer that the store can hold. -/
def storable (n : Int) : Except Failure Int :=
  if Store.fitsInteger n then .ok n else .error (.fault .integerTooLarge)

def find? (ledger : Ledger) (id : String) : Option Job := List.find? (fun j => j.id == id) ledger

def get (ledger : Ledger) (id : String) : Except Failure Job :=
  match ledger.find? id with
  | some j => .ok j
  | none => .error (.notFound .job id)

/-- Puts a job in the place of the one with its id. -/
def put (ledger : Ledger) (job : Job) : Ledger :=
  ledger.map fun j => if j.id == job.id then job else j

/-- Whether the first job is at least as new as the second. Of two jobs made at the same
moment the one with the greater id counts as newer. -/
def newerOrSame (a b : Job) : Bool :=
  b.createdAt.micros < a.createdAt.micros ||
    (a.createdAt == b.createdAt && !(a.id < b.id))

/-- Whether a job belongs to the table, any job if no table is named. -/
def isOf (table : Option String) (j : Job) : Bool :=
  match table with
  | some t => t == "" || j.table == t
  | none => true

/-- The jobs of a table, newest first. -/
def newestFirst (ledger : Ledger) (table : Option String) : List Job :=
  (ledger.filter (isOf table)).mergeSort newerOrSame

/-- The newest job that still has work to do. -/
def findActive (ledger : Ledger) (table : Option String) : Option Job :=
  (ledger.newestFirst table).find? Job.isActive

/-- At most `limit` jobs of a table, newest first. A negative limit is none. -/
def recent (ledger : Ledger) (table : Option String) (limit : Option Int) : List Job :=
  let jobs := ledger.newestFirst table
  match limit with
  | some n => if n < 0 then jobs else jobs.take n.toNat
  | none => jobs

/-- A new pending job. -/
def create (now : Moment) (id table : String) (total : Int) (ledger : Ledger) :
    Except Failure (Job × Ledger) := do
  let total ← storable total
  let job : Job := ⟨id, table, .pending, total, 0, none, .zero, none, now, now, none, none⟩
  return (job, ledger ++ [job])

/-- The job once it is processing : the first time its start is noted. -/
def started (now : Moment) (j : Job) : Job :=
  if j.status = .pending then { j with status := .processing, startedAt := some now } else j

/-- The job with its base position, of which only the first one given is kept. -/
def based (base : Option Int) (j : Job) : Job :=
  match j.basePosition, base with
  | none, some p => { j with basePosition := some (max 0 p) }
  | _, _ => j

/-- The job with the processed count it resumes from. -/
def resumed (resumeFrom : Option Int) (j : Job) : Except Failure Job :=
  match resumeFrom with
  | none => .ok j
  | some n => do
    let processed := min (max 0 n) j.total
    let progress ← Job.runningProgress processed j.total
    return { j with processed := processed, progress := j.progress.max progress }

/-- Moves a job to processing. On a job that is processing only the count it resumes from
changes. -/
def markProcessing (now : Moment) (id : String) (resumeFrom base : Option Int) (ledger : Ledger) :
    Except Failure (Job × Ledger) := do
  let j ← ledger.get id
  if !j.isActive then throw (.jobState id (.cannotStart j.status))
  let j ← resumed resumeFrom (based base (started now j))
  let j := { j with updatedAt := now }
  let _ ← storable (j.basePosition.getD 0)
  return (j, ledger.put j)

/-- Counts `delta` more rows of a processing job. The answer has its progress. -/
def advance (now : Moment) (id : String) (delta : Int) (ledger : Ledger) :
    Except Failure (Binary64 × Ledger) := do
  if delta < 0 then throw (.invalid .negativeDelta)
  let _ ← storable delta
  let j ← ledger.get id
  if j.status ≠ .processing then throw (.jobState id (.cannotAdvance j.status))
  let processed := Store.sum j.processed delta
  let progress := j.progress.max (← Job.runningProgress processed j.total)
  return (progress, ledger.put { j with processed := processed, progress := progress, updatedAt := now })

/-- Ends a processing job. -/
def ended (now : Moment) (id : String) (target : JobStatus) (ledger : Ledger) : Except Failure Job := do
  let j ← ledger.get id
  if j.status ≠ .processing then throw (.jobState id (.cannotBecome j.status target))
  return { j with status := target, updatedAt := now, completedAt := some now }

/-- Completes a processing job. -/
def complete (now : Moment) (id : String) (ledger : Ledger) : Except Failure (Job × Ledger) := do
  let j ← ended now id .completed ledger
  let j := { j with progress := Job.hundred }
  return (j, ledger.put j)

/-- Fails a processing job, with the detail cut to its limit. -/
def fail (now : Moment) (id detail : String) (ledger : Ledger) : Except Failure (Job × Ledger) := do
  let j ← ended now id .failed ledger
  let j := { j with error := some (Text.shorten detailLimit detail) }
  return (j, ledger.put j)

end Ledger

end Tabula
