import Tabula.Config.Settings
import Tabula.Text.Case

/-!
# Where messages go

The logging settings decide at which level messages are kept, in which format, and whether
they go to the console, to a file that is turned over at a certain size, or to both. Some
loggers that say too much are lowered to warnings, and the settings may name more of them.
`Logging.ofSettings` is the set-up that the settings ask for.
-/

namespace Tabula.Config

/-- The importance of a message, greater being more. -/
abbrev Level := Nat

def warning : Level := 30

/-- The names of the levels. -/
def levelNames : List (String × Level) := [
  ("NOTSET", 0), ("DEBUG", 10), ("INFO", 20), ("WARN", 30), ("WARNING", 30), ("ERROR", 40),
  ("CRITICAL", 50), ("FATAL", 50)]

/-- The level that a value names in capitals or small letters, that of information if it
names none. -/
def levelOf (v : Value) : Level :=
  let name := if v.truthy then v.plainText else ""
  (levelNames.lookup (Text.asciiUpper name)).getD 20

/-! ## Formats -/

/-- What follows a width or a precision : a star or digits. -/
def afterAmount : List Char → List Char
  | '*' :: rest => rest
  | cs => cs.dropWhile Char.isDigit

/-- What follows a precision, which is a point with an amount. -/
def afterPrecision : List Char → List Char
  | '.' :: c :: rest =>
    if c == '*' || c.isDigit then afterAmount (c :: rest) else '.' :: c :: rest
  | cs => cs

/-- Whether a conversion stands here : marks, a width, a precision, a letter. -/
def startsConversion (cs : List Char) : Bool :=
  match afterPrecision (afterAmount (cs.dropWhile fun c => "#0+ -".toList.contains c)) with
  | c :: _ => "diouxefgcrsaDIOUXEFGCRSA%".toList.contains c
  | [] => false

/-- Whether a field of a message starts here : a name in parentheses after a percent sign,
and its conversion. -/
def startsField : List Char → Bool
  | '%' :: '(' :: cs =>
    let name := cs.takeWhile fun c => c.isAlphanum || c == '_' || Text.isCased c
    match cs.drop name.length with
    | ')' :: rest => !name.isEmpty && startsConversion rest
    | _ => false
  | _ => false

/-- Whether a format shows anything of a message. -/
def hasField : List Char → Bool
  | [] => false
  | c :: cs => startsField (c :: cs) || hasField cs

/-- The format that holds where none is given. -/
def defaultFormat : String :=
  "%(asctime)s - %(name)s - %(levelname)s - [%(threadName)s] %(message)s"

/-- The format in the settings. One that shows nothing of a message is refused. -/
def formatOf (v : Value) : Except Failure String :=
  if !v.truthy then .ok defaultFormat
  else match v with
    | .text s =>
      if hasField s.toList then .ok s
      else .error (.fault (.badValue ("Invalid format '" ++ s ++ "' for '%' style")))
    | _ => .error (.fault (.wrongKind "expected string or bytes-like object"))

/-! ## The set-up -/

/-- Where messages are written. -/
inductive Sink where
  | console
  /-- A file, turned over at a size, of which some old ones are kept. -/
  | file (path : String) (maxBytes backups : Int)
  deriving DecidableEq, Repr

/-- How messages are treated. -/
structure Logging where
  level : Level
  format : String
  sinks : List Sink
  /-- The loggers that are lowered to warnings. -/
  quiet : List String
  deriving Repr

/-- The loggers that always say too much. -/
def alwaysQuiet : List String := ["sqlalchemy.engine", "sqlalchemy.pool", "apscheduler", "werkzeug"]

/-- The logger that all others inherit from. -/
def rootLogger : String := "root"

/-- The name of a logger. A blank one is the root. -/
def loggerName (v : Value) : Except Failure String :=
  if !v.truthy then .ok rootLogger
  else match v with
    | .text s => .ok s
    | _ => .error (.fault (.wrongKind "A logger name must be a string"))

/-- The names of some loggers. -/
def loggerNames : List Value → Except Failure (List String)
  | [] => .ok []
  | v :: vs => do
    let name ← loggerName v
    let names ← loggerNames vs
    return name :: names

/-- The file that messages go to, if one is named. -/
def fileSink (settings : Value) : Except Failure (List Sink) :=
  let file := settings.get "file"
  if !file.truthy then .ok []
  else match file with
    | .text path => do
      let most ← ((settings.get? "max_bytes").getD (.int 10485760)).toInteger
      let backups ← ((settings.get? "backup_count").getD (.int 5)).toInteger
      return [.file path most backups]
    | v =>
      .error (.fault (.wrongKind
        ("expected str, bytes or os.PathLike object, not " ++ v.kindName)))

/-- The set-up for settings with others laid over them. -/
def Logging.ofSettings (settings overrides : Value) : Except Failure Logging := do
  let base ← lay [] settings
  let settings := Value.dict (← overlay base overrides)
  let format ← formatOf (settings.get "format")
  let toConsole := ((settings.get? "console").getD (.bool true)).truthy
  let file ← fileSink settings
  let extra := settings.get "quiet"
  let quiet ← loggerNames (← if extra.truthy then extra.items else pure [])
  return {
    level := levelOf (settings.get "level")
    format := format
    sinks := (if toConsole then [.console] else []) ++ file
    quiet := alwaysQuiet ++ quiet }

/-- The level of a logger's own, zero if it has none. -/
def Logging.levelOfLogger (l : Logging) (name : String) : Level :=
  if l.quiet.contains name then warning
  else if name = rootLogger then l.level
  else 0

end Tabula.Config
