import Tabula.Ingest.Checkpoint

/-!
# Saving in steps

A save writes the new checkpoint under a temporary name in the folder, and puts it in the place of
the old one when it is complete. The file system may refuse each of the steps; what stands under
the temporary name is removed then. `Checkpoint.save` is the save of which no step is refused.

A `CheckpointCall` is a use of the checkpoints of a folder, by any of the runs that share it.
-/

namespace Tabula

namespace Folder

/-- The entries without the one under `name`. -/
def remove (name : String) (es : List (String × FileEntry)) : List (String × FileEntry) :=
  es.filter fun e => e.1 != name

/-- The entries with the one under `old` in the place of the one under `name`. -/
def rename (old name : String) (es : List (String × FileEntry)) : List (String × FileEntry) :=
  match lookup es old with
  | some entry => put name entry (remove old es)
  | none => es

end Folder

/-- The random part of a temporary name. -/
structure Ending where
  text : String
  size : text.utf8ByteSize = 8

/-- What a save meets. -/
structure Saving where
  now : Moment
  /-- The endings that are tried for the temporary name, in this order. -/
  endings : List Ending
  /-- The failure with which the file system refuses to make the folder, if it does. -/
  noFolder : Option Failure
  /-- The one with which it refuses to create the temporary file. -/
  noFile : Option Failure
  /-- The one with which it refuses to write it. -/
  noWrite : Option Failure
  /-- The one with which it refuses to put it in the place of the old file. -/
  noReplace : Option Failure

namespace Saving

open Checkpoint

/-- The name under which a new checkpoint is written. -/
def temporaryName (job : String) (ending : Ending) : String :=
  "." ++ job ++ "." ++ ending.text ++ ".tmp"

/-- The step, unless the file system refuses it. -/
def permit (refusal : Option Failure) {α : Type} (step : Except Failure α) : Except Failure α :=
  match refusal with
  | some e => .error e
  | none => step

/-- Whether a count has no more digits than are written. -/
def isShort (rows : Int) : Bool := (Nat.toDigits 10 rows.natAbs).length ≤ Text.integerDigitLimit

/-- Makes the folder and the text that is to be written. -/
def prepare (c : Saving) (job : String) (rows : Int) : Except Failure String :=
  permit c.noFolder <|
    if isShort rows then .ok (fileText c.now job rows)
    else .error (.fault (.badValue ("Exceeds the limit (4300 digits) for integer string " ++
      "conversion; use sys.set_int_max_str_digits() to increase the limit")))

/-- Creates a file under the first temporary name that is free, which is the answer. -/
def create (c : Saving) (job : String) (es : List (String × FileEntry)) : Except Failure String :=
  if nameLimit < job.utf8ByteSize + temporaryExtra then .error (.fault (.nameTooLong (fileName job)))
  else permit c.noFile <|
    match c.endings.find? fun e => (Folder.lookup es (temporaryName job e)).isNone with
    | some e => .ok (temporaryName job e)
    | none => .error (.fault (.fileExists (fileName job)))

/-- Writes the file that is under the temporary name. -/
def write (c : Saving) (temporary text : String) (es : List (String × FileEntry)) :
    Except Failure (List (String × FileEntry)) :=
  permit c.noWrite <| .ok (Folder.put temporary (.file (Text.utf8Encode text)) es)

/-- Puts the file in the place of the old checkpoint. -/
def replace (c : Saving) (temporary job : String) (es : List (String × FileEntry)) :
    Except Failure (List (String × FileEntry)) :=
  permit c.noReplace <|
    match Folder.lookup es (fileName job) with
    | some .directory => .error (.fault (.isADirectory (fileName job)))
    | _ => .ok (Folder.rename temporary (fileName job) es)

/-- Replaces the checkpoint of a job, and cleans up if that fails. -/
def save (c : Saving) (job : String) (rows : Int) (folder : Folder) :
    Except Failure Unit × Folder :=
  match folder with
  | .blocked => (.error (.fault (.fileExists ".")), .blocked)
  | .entries es =>
    let begun := do
      let text ← c.prepare job rows
      return (text, ← c.create job es)
    match begun with
    | .error e => (.error e, .entries es)
    | .ok (text, temporary) =>
      let created := Folder.put temporary (.file []) es
      match c.write temporary text created >>= c.replace temporary job with
      | .ok es => (.ok (), .entries es)
      | .error e => (.error e, .entries (Folder.remove temporary created))

end Saving

/-- A use of the checkpoint of a job. -/
inductive CheckpointCall where
  | save (c : Saving) (job : String) (rows : Nat)
  | load (today : Date) (job : String)
  /-- A removal, with the failure with which the file system refuses it, if it does. -/
  | clear (noRemoval : Option Failure) (job : String)

namespace CheckpointCall

def job : CheckpointCall → String
  | save _ job _ => job
  | load _ job => job
  | clear _ job => job

/-- What a call answers, a count for a load, and the folder behind it. The id of the job is checked
before anything else. -/
def run (call : CheckpointCall) (folder : Folder) : Except Failure (Option Int) × Folder :=
  match Checkpoint.jobId (.text call.job) with
  | .error e => (.error e, folder)
  | .ok _ =>
    match call with
    | save c job rows =>
      let (answer, folder) := c.save job rows folder
      (answer.map fun _ => none, folder)
    | load today job => (Checkpoint.load today job folder, folder)
    | clear noRemoval job =>
      match Saving.permit noRemoval (Checkpoint.clear job folder) with
      | .ok folder => (.ok none, folder)
      | .error e => (.error e, folder)

/-- The folder after a history of calls. -/
def after (calls : List CheckpointCall) (folder : Folder) : Folder :=
  calls.foldl (fun folder call => (call.run folder).2) folder

end CheckpointCall

end Tabula
