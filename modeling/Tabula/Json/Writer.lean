import Tabula.Number.Decimal
import Tabula.Text.Quoted
import Tabula.Value.Display

/-!
# Writing JSON

`Json.write` writes a value as JSON text. A `Layout` says whether a blank follows the
separators. Only the quote, the backslash and the control characters are escaped. A float
is written with the fewest digits that read back; infinities and the value that is not a
number are refused, as are bytes and keys that are no simple values.
-/

namespace Tabula.Json

/-- The blanks of a JSON text. -/
inductive Layout where
  /-- No blanks. -/
  | compact
  /-- One blank after each comma and colon. -/
  | spaced
  deriving DecidableEq, Repr

def Layout.comma : Layout → String
  | compact => ","
  | spaced => ", "

def Layout.colon : Layout → String
  | compact => ":"
  | spaced => ": "

/-- Why a value has no JSON text. -/
inductive WriteError where
  /-- A float that is not finite. -/
  | notFinite
  /-- A value of a kind that JSON lacks. -/
  | unsupported (kind : String)
  /-- A key of a kind that has no name. -/
  | badKey (kind : String)
  deriving DecidableEq, Repr

def WriteError.message : WriteError → String
  | notFinite => "Out of range float values are not JSON compliant"
  | unsupported kind => "Object of type " ++ kind ++ " is not JSON serializable"
  | badKey kind => "keys must be str, int, float, bool or None, not " ++ kind

/-- One character of a JSON text. -/
def escapeChar (c : Char) : List Char :=
  if c = '"' then ['\\', '"']
  else if c = '\\' then ['\\', '\\']
  else if c = '\n' then ['\\', 'n']
  else if c = '\r' then ['\\', 'r']
  else if c = '\t' then ['\\', 't']
  else if c = '\x08' then ['\\', 'b']
  else if c = '\x0c' then ['\\', 'f']
  else if c.toNat < 0x20 then '\\' :: 'u' :: Text.hexDigits 4 c.toNat
  else [c]

/-- A text as it stands between quotes in JSON. -/
def escape (s : String) : String := String.ofList (s.toList.flatMap escapeChar)

/-- The JSON text of a text. -/
def writeText (s : String) : String := "\"" ++ escape s ++ "\""

/-- The JSON text of a float. -/
def writeFloat (x : Binary64) : Except WriteError String :=
  if x.isFinite then .ok x.text else .error .notFinite

/-- The name that a key becomes. -/
def keyName : Value → Except WriteError String
  | .text s => .ok s
  | .int n => .ok (integerText n)
  | .float x => writeFloat x
  | .bool b => .ok (if b then "true" else "false")
  | .null => .ok "null"
  | v => .error (.badKey v.kindName)

mutual

/-- The JSON text of a value. -/
def write (layout : Layout) : Value → Except WriteError String
  | .null => .ok "null"
  | .bool b => .ok (if b then "true" else "false")
  | .int n => .ok (integerText n)
  | .float x => writeFloat x
  | .text s => .ok (writeText s)
  | .bytes bs => .error (.unsupported (Value.bytes bs).kindName)
  | .list xs => do
    let ts ← writeAll layout xs
    return "[" ++ layout.comma.intercalate ts ++ "]"
  | .tuple xs => do
    let ts ← writeAll layout xs
    return "[" ++ layout.comma.intercalate ts ++ "]"
  | .dict es => do
    let ts ← writeMembers layout es
    return "\x7b" ++ layout.comma.intercalate ts ++ "\x7d"

/-- The JSON texts of some values. -/
def writeAll (layout : Layout) : List Value → Except WriteError (List String)
  | [] => .ok []
  | x :: xs => do
    let t ← write layout x
    let ts ← writeAll layout xs
    return t :: ts

/-- The JSON texts of some members. -/
def writeMembers (layout : Layout) : List (Value × Value) → Except WriteError (List String)
  | [] => .ok []
  | (k, v) :: es => do
    let name ← keyName k
    let t ← write layout v
    let ts ← writeMembers layout es
    return (writeText name ++ layout.colon ++ t) :: ts

end

end Tabula.Json
