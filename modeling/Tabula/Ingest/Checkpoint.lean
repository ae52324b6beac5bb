import Tabula.Failure
import Tabula.Json.Nesting
import Tabula.Time.Timestamp

/-!
# Checkpoints

A checkpoint is a file that says how many rows of a job are stored : one JSON object with
the job, the count and a timestamp. A file that is no checkpoint of the job counts as
absent. A save puts the new file in the place of the old one, so a reader sees one or the
other.

The files are entries of a `Folder`, by name; an entry may also be a directory, and
something else may stand where the folder should be.
-/

namespace Tabula

/-- What a name in a folder stands for. -/
inductive FileEntry where
  | file (bytes : List UInt8)
  | directory
  deriving DecidableEq, Repr

/-- The place of the checkpoints. -/
inductive Folder where
  /-- The folder with its entries, without any until the first save. -/
  | entries (es : List (String × FileEntry))
  /-- A file stands in the folder's place. -/
  | blocked
  deriving Repr

namespace Folder

def empty : Folder := entries []

def lookup (es : List (String × FileEntry)) (name : String) : Option FileEntry :=
  (es.find? fun e => e.1 == name).map (·.2)

/-- The entry under a name. -/
def get? : Folder → String → Option FileEntry
  | entries es, name => lookup es name
  | blocked, _ => none

/-- The entries with the one under `name` replaced, or with a new last one. -/
def put (name : String) (entry : FileEntry) : List (String × FileEntry) → List (String × FileEntry)
  | [] => [(name, entry)]
  | e :: es => if e.1 == name then (name, entry) :: es else e :: put name entry es

/-- The entries in the order of their names. -/
def sorted : Folder → List (String × FileEntry)
  | entries es => es.mergeSort fun a b => !(b.1 < a.1)
  | blocked => []

end Folder

/-- How far a job is. -/
structure Checkpoint where
  job : String
  rows : Int
  timestamp : Option Time.Timestamp
  deriving DecidableEq, Repr

namespace Checkpoint

/-- The bytes a file name may have. -/
def nameLimit : Nat := 255

/-- The characters that a temporary file's name has besides the job's id. -/
def temporaryExtra : Nat := 14

def isSafe (c : Char) : Bool :=
  c.isAlpha || c.isDigit || c = '_' || c = '.' || c = '-'

/-- Whether a checkpoint file may be named for the job : its id has only letters and digits
of ASCII, underscores, points and hyphens, a line feed at the end aside. -/
def isSafeId (s : String) : Bool :=
  let cs := s.toList
  let body := if cs.getLast? = some '\n' then cs.dropLast else cs
  !body.isEmpty && body.all isSafe

/-- The job id that a value is. -/
def jobId (v : Value) : Except Failure String :=
  if !v.truthy then .error (.invalid (.jobId v))
  else match v with
    | .text s => if isSafeId s then .ok s else .error (.invalid (.jobId v))
    | .bytes _ => .error (.fault (.wrongKind "cannot use a string pattern on a bytes-like object"))
    | v => .error (.fault (.wrongKind ("expected string or bytes-like object, got '" ++ v.kindName ++ "'")))

/-- The name of a job's checkpoint file. -/
def fileName (job : String) : String := job ++ ".json"

/-- The checkpoint that a job's file holds, `none` if it holds none of this job. -/
def ofBytes (today : Date) (job : String) (bytes : List UInt8) : Option Checkpoint :=
  match Text.utf8Decode bytes with
  | .error _ => none
  | .ok cs =>
    match Json.readChars cs with
    | .error _ => none
    | .ok v =>
      match v.get "jobId", v.get "rowsProcessed" with
      | .text s, .int n =>
        if s == job && 0 ≤ n then some ⟨job, n, Time.Timestamp.ofValue? today (v.get "timestamp")⟩
        else none
      | _, _ => none

/-- Whether a file is a text that is nested too deep to be read. -/
def isTooDeep (bytes : List UInt8) : Bool :=
  match Text.utf8Decode bytes with
  | .error _ => false
  | .ok cs => Json.isTooDeep cs

/-- The checkpoint of a job. -/
def read (today : Date) (job : String) (folder : Folder) : Except Failure (Option Checkpoint) :=
  match folder with
  | .blocked => .ok none
  | .entries es =>
    if nameLimit < (fileName job).utf8ByteSize then .error (.fault (.nameTooLong (fileName job)))
    else match Folder.lookup es (fileName job) with
      | some (.file bytes) =>
        if isTooDeep bytes then .error (.fault .tooDeep) else .ok (ofBytes today job bytes)
      | _ => .ok none

/-- The stored rows of a job according to its checkpoint. -/
def load (today : Date) (job : String) (folder : Folder) : Except Failure (Option Int) :=
  (read today job folder).map fun c => c.map Checkpoint.rows

/-- The text of a checkpoint file. -/
def fileText (now : Moment) (job : String) (rows : Int) : String :=
  "\x7b\"jobId\": " ++ Json.writeText job ++ ", \"rowsProcessed\": " ++ integerText rows ++
    ", \"timestamp\": " ++ Json.writeText now.offsetText ++ "\x7d"

/-- The folder with the checkpoint of a job replaced. -/
def save (now : Moment) (job : String) (rows : Int) (folder : Folder) : Except Failure Folder :=
  match folder with
  | .blocked => .error (.fault (.fileExists "."))
  | .entries es =>
    if nameLimit < job.utf8ByteSize + temporaryExtra then .error (.fault (.nameTooLong (fileName job)))
    else match Folder.lookup es (fileName job) with
      | some .directory => .error (.fault (.isADirectory (fileName job)))
      | _ => .ok (.entries (Folder.put (fileName job)
          (.file (Text.utf8Encode (fileText now job rows))) es))

/-- The folder without the checkpoint of a job. -/
def clear (job : String) (folder : Folder) : Except Failure Folder :=
  match folder with
  | .blocked => .error (.fault (.notADirectory (fileName job)))
  | .entries es =>
    if nameLimit < (fileName job).utf8ByteSize then .error (.fault (.nameTooLong (fileName job)))
    else match Folder.lookup es (fileName job) with
      | some .directory => .error (.fault (.isADirectory (fileName job)))
      | _ => .ok (.entries (es.filter fun e => e.1 != fileName job))

/-- The answer form of a checkpoint. An offset of a day or more has no text. -/
def toValue (c : Checkpoint) : Except Failure Value :=
  let form (t : Value) : Value :=
    .object [("jobId", .text c.job), ("rowsProcessed", .int c.rows), ("timestamp", t)]
  match c.timestamp with
  | none => .ok (form .null)
  | some t =>
    if t.offsetFits then .ok (form (.text t.text))
    else .error (.fault (.badValue "offset must be strictly between a day and its negative"))

end Checkpoint

end Tabula
