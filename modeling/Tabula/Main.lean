import Std.Time.DateTime.Timestamp
import Tabula.Cli.Command
import Tabula.Config.Loading
import Tabula.Random.Digest

/-!
# The command line

The database is in memory and lives as long as the program. With arguments the program runs
one command, whose name comes first : `setup` or `ingest`. Without arguments every line of
the input is a command, its words parted by blanks, and all of them work on one database.

The configuration is the file `config.yaml` of the directory that `CONFIG_DIR` names, by
default `config`; without such a file it is the one that the service comes with.
-/

namespace Tabula

/-- The address by which commands reach the database at hand. -/
def memoryAddress : String := "sqlite://"

/-- The number with the given base-256 digits, the most significant first. -/
def numberOfBytes (bs : List UInt8) : Nat := bs.foldl (fun n b => 256 * n + b.toNat) 0

/-- The `k`-th number of 128 bits that a seed gives. -/
def seededNumber (seed : List UInt8) (k : Nat) : Nat :=
  numberOfBytes ((Random.digest512 (seed ++ (toString k).toUTF8.toList)).take 16)

/-- The digits of a number to base 16, at least 32 of them. -/
def tokenText (n : Nat) : String :=
  let ds := Nat.toDigits 16 n
  String.ofList (List.replicate (32 - ds.length) '0' ++ ds)

/-- What surrounds an action, given the nanoseconds since 1970 and a seed. -/
def surroundingsAt (nanoseconds : Int) (seed : List UInt8) : Surroundings where
  now := ⟨nanoseconds.fdiv 1000⟩
  clock := .ofRatio nanoseconds 1000000000
  token k := tokenText (seededNumber (0 :: seed) k)
  draw k := seededNumber (1 :: seed) k

/-- A world with no tables, no checkpoints and nothing counted yet. -/
def blankWorld : World := ⟨.bare, .empty, 0, 0, 0, []⟩

/-- The report on a command line. -/
def runCommand (site : Cli.Site) (words : List String) (input : String) : Action Cli.Report :=
  match words with
  | "setup" :: rest => Cli.Setup.run site "setup" rest input
  | "ingest" :: rest => Cli.Ingest.run site "ingest" rest
  | _ => return ⟨2, ""⟩

/-- The words of a line. -/
def wordsOf (line : String) : List String :=
  (line.splitToList Char.isWhitespace).filter (· ≠ "")

/-- The report, also on a failure that no command reports itself. -/
def Cli.Report.ofResult : Except Failure Cli.Report → Cli.Report
  | .ok r => r
  | .error f => .ofFailure f

/-- The present moment and fresh randomness. -/
def surroundings : IO Surroundings := do
  let time ← Std.Time.Timestamp.now
  let seed ← IO.getRandomBytes 32
  return surroundingsAt time.toNanosecondsSinceUnixEpoch.val seed.toList

/-- The configuration text, if there is a file with one. -/
def configText : IO String := do
  let folder := (← IO.getEnv "CONFIG_DIR").getD "config"
  try IO.FS.readFile (folder ++ "/config.yaml")
  catch _ => return Config.standardText

/-- The values of the variables that a text refers to. -/
def environmentFor (text : String) : IO (String → Option String) := do
  let names := (Config.references text.toList).map fun r => String.ofList r.name
  let values ← names.mapM fun n => do return (n, ← IO.getEnv n)
  return fun n => (values.lookup n).join

/-- Runs a command in a world, prints what it wrote and hands on the world. -/
def perform (site : Cli.Site) (words : List String) (input : String) (w : World) : IO (UInt32 × World) := do
  let (result, after) := runCommand site words input (← surroundings) { w with tokens := 0, draws := 0 }
  let report := Cli.Report.ofResult result
  IO.print report.output
  return (report.code.toUInt32, after)

/-- Runs the commands of some lines one after the other. The code is that of the last. -/
def performLines (site : Cli.Site) : List String → World → UInt32 → IO UInt32
  | [], _, code => return code
  | line :: lines, w, code =>
    match wordsOf line with
    | [] => performLines site lines w code
    | words => do
      let (code, w) ← perform site words "" w
      performLines site lines w code

end Tabula

open Tabula in
/-- Runs the command of the arguments, or those of the input. -/
def main (arguments : List String) : IO UInt32 := do
  let text ← configText
  match Config.loadSettings (← environmentFor text) (some text) with
  | .error f =>
    IO.print (Cli.Report.ofFailure f).output
    return 1
  | .ok settings =>
    let site : Cli.Site := ⟨memoryAddress, settings.database, settings.ingestion⟩
    let input ← (← IO.getStdin).readToEnd
    if arguments.isEmpty then
      performLines site (input.splitToList (· = '\n')) blankWorld 0
    else
      return (← perform site arguments input blankWorld).1
