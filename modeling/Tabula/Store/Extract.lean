import Tabula.Store.Payload

/-!
# Cells as the store sees them

The store finds a cell by the name of its key as it stands in the JSON text of the payload,
and has four kinds of values of its own. An integer of more than 64 bits is a float to it,
a truth value an integer, and a text ends where a zero character would stand in it.
`StoreValue.asText` and `StoreValue.asFloat` are the store's conversions; nothing has
neither.
-/

namespace Tabula.Store

/-- Why the store refuses to evaluate a clause. -/
inductive Refusal where
  /-- The path to a cell does not end with its key. -/
  | badPath
  /-- A pattern of more than 50000 bytes. -/
  | longPattern
  deriving DecidableEq, Repr

def Refusal.message : Refusal → String
  | badPath => "JSON path error"
  | longPattern => "LIKE or GLOB pattern too complex"

inductive StoreValue where
  | null
  | integer (n : Int)
  | real (x : Binary64)
  | text (s : String)
  deriving DecidableEq, Repr

/-- The integers of the store. -/
def fitsInteger (n : Int) : Bool := -0x8000000000000000 ≤ n && n < 0x8000000000000000

/-- The sum of two integers of the store : beyond its integers the nearest float. -/
def sum (m n : Int) : Int :=
  if fitsInteger (m + n) then m + n else ((Binary64.ofInt m).add (.ofInt n)).truncate

/-- The value of a number that the store has added up. -/
def sumValue (n : Int) : Value := if fitsInteger n then .int n else .float (.ofInt n)

/-- The text up to its first zero character. -/
def upToZero (s : String) : String := String.ofList (s.toList.takeWhile (·.toNat ≠ 0))

namespace StoreValue

/-- The store's value for a cell. -/
def ofValue : Value → StoreValue
  | .null => null
  | .bool b => integer (if b then 1 else 0)
  | .int n => if fitsInteger n then integer n else real (.ofInt n)
  | .float x => real x
  | .text s => text (upToZero s)
  | v =>
    match Json.write .compact v with
    | .ok s => text s
    | .error _ => null

/-- The text of a value, `none` for nothing. -/
def asText : StoreValue → Option String
  | null => none
  | integer n => some (integerText n)
  | real x => some x.storeText
  | text s => some s

/-- The float of a value, `none` for nothing. A text counts as the number it begins with. -/
def asFloat : StoreValue → Option Binary64
  | null => none
  | integer n => some (.ofInt n)
  | real x => some x
  | text s => some (.ofLeadingText s)

end StoreValue

/-- The cell whose key is written `name` in the payload. -/
def writtenCell (p : Payload) (name : String) : Option Value :=
  (p.cells.find? fun e => Json.escape e.1 == name).map (·.2)

/-- The store's value of the cell under a column id. A quote in the id ends the key early :
what follows is an error if there is a cell under that key. -/
def extract (p : Payload) (column : String) : Except Refusal StoreValue :=
  if column.toList.contains '"' then
    let name := String.ofList (column.toList.takeWhile (· ≠ '"'))
    match writtenCell p name with
    | some _ => .error .badPath
    | none => .ok .null
  else
    match writtenCell p column with
    | some v => .ok (.ofValue v)
    | none => .ok .null

/-- Whether the store finds a key to remove under a column id. -/
def hasKey (p : Payload) (column : String) : Bool :=
  !column.toList.contains '"' && (writtenCell p column).isSome

/-- The payload without the key that the store finds under a column id. -/
def removeKey (p : Payload) (column : String) : Payload :=
  ⟨p.cells.filter fun e => Json.escape e.1 != column, .compact⟩

end Tabula.Store
