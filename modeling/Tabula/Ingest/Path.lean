import Tabula.Ingest.Checkpoint

/-!
# Paths of files

A path is where it starts and the names on the way, as the text of a path is read : neither an
empty name nor `.` is a step, and `..` is one. `Checkpoint.path` is the path of a job's checkpoint in
a directory.
-/

namespace Tabula

/-- A path. -/
structure Path where
  /-- Where an absolute path starts, empty for a relative one. -/
  root : String
  names : List String
  deriving DecidableEq, Repr

namespace Path

/-- The root that a text begins with. Two slashes are one of their own, more are one slash. -/
def rootOf (text : String) : String :=
  match (text.toList.takeWhile (· = '/')).length with
  | 0 => ""
  | 2 => "//"
  | _ => "/"

/-- The names in a text. -/
def namesOf (text : String) : List String :=
  ((text.toList.splitOn '/').map String.ofList).filter fun name => name != "" && name != "."

/-- The path that a text says. -/
def ofText (text : String) : Path := ⟨rootOf text, namesOf text⟩

/-- The path of a text as seen from a directory. An absolute one is where it says. -/
def join (directory : Path) (text : String) : Path :=
  if rootOf text = "" then ⟨directory.root, directory.names ++ namesOf text⟩ else ofText text

/-- The directory that a path is in. -/
def parent (p : Path) : Path := ⟨p.root, p.names.dropLast⟩

/-- The last name of a path, empty if it has none. -/
def name (p : Path) : String := p.names.getLast?.getD ""

end Path

namespace Checkpoint

/-- The path of the checkpoint of a job, whose id is given as any value. -/
def path (directory : Path) (job : Value) : Except Failure Path :=
  (jobId job).map fun job => directory.join (fileName job)

end Checkpoint

end Tabula
