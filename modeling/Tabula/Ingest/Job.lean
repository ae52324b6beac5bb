import Tabula.Store.Extract
import Tabula.Time.Moment

/-!
# Ingestion jobs

A job is to write a number of rows into a table. `progress` is the share that is done, in
percent; while the job runs it stays below one hundred.
-/

namespace Tabula

/-- An ingestion job. -/
structure Job where
  id : String
  table : String
  status : JobStatus
  total : Int
  processed : Int
  /-- The position of the job's first row, fixed when the job first runs. -/
  basePosition : Option Int
  progress : Binary64
  error : Option String
  createdAt : Moment
  updatedAt : Moment
  startedAt : Option Moment
  completedAt : Option Moment
  deriving DecidableEq, Repr

namespace Job

/-- A job that still has work to do. -/
def isActive (j : Job) : Bool := !j.status.isTerminal

/-- The most a running job's progress can be. -/
def progressCeiling : Binary64 := .ofRatio 9999 100

def hundred : Binary64 := .ofInt 100

/-- The progress of a running job, in percent. -/
def runningProgress (processed total : Int) : Except Failure Binary64 :=
  if total ≤ 0 then .ok .zero
  else
    let share := Binary64.ofRatio processed total.toNat
    if share.isFinite then .ok (((share.mul hundred).min hundred).min progressCeiling)
    else .error (.fault .quotientTooLarge)

def optionText : Option String → Value
  | some s => .text s
  | none => .null

/-- The answer form of a job. -/
def toValue (j : Job) : Value :=
  .object [("id", .text j.id), ("table_id", .text j.table), ("status", .text j.status.label),
    ("total_rows", .int j.total), ("processed_rows", Store.sumValue j.processed),
    ("base_position", match j.basePosition with
      | some p => .int p
      | none => .null),
    ("progress", .float j.progress.roundHundredths), ("error_message", optionText j.error),
    ("created_at", j.createdAt.toValue), ("updated_at", j.updatedAt.toValue),
    ("started_at", Moment.optionValue j.startedAt),
    ("completed_at", Moment.optionValue j.completedAt)]

/-- The entries of the short answer form : how far the job is, and why it failed if it did. -/
def statusEntries (j : Job) : List (String × Value) :=
  let detail := match j.error with
    | some s => if s = "" then [] else [("errorDetail", .text s)]
    | none => []
  [("status", .text j.status.label), ("progress", .float j.progress.roundHundredths)] ++ detail

/-- The short answer form of a job. -/
def statusValue (j : Job) : Value := .object j.statusEntries

end Job

end Tabula
