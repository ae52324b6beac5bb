import Tabula.Cell
import Tabula.Json.Writer

/-!
# Payloads

A payload is what the store keeps for the cells of a row : the cells in order and the
layout of their JSON text. A batch is written without blanks, an edited row with them, and
the store itself leaves none when it removes a key.

`Value.stored` is a value as it comes back from the store : keys are texts, a tuple is a
list, and of equal keys the last value counts.
-/

namespace Tabula

namespace Value

/-- The text key that a key becomes. -/
def storedKey (key : Value) : String :=
  match Json.keyName key with
  | .ok name => name
  | .error _ => key.plainText

mutual

/-- The value that comes back once its JSON text is read. -/
def stored : Value → Value
  | list xs => list (storedAll xs)
  | tuple xs => list (storedAll xs)
  | dict es => ofEntries (storedEntries es)
  | null => null
  | bool b => bool b
  | int n => int n
  | float x => float x
  | text s => text s
  | bytes bs => bytes bs

def storedAll : List Value → List Value
  | [] => []
  | x :: xs => stored x :: storedAll xs

def storedEntries : List (Value × Value) → List (Value × Value)
  | [] => []
  | (k, v) :: es => (text (storedKey k), stored v) :: storedEntries es

end

end Value

/-- The cells of a row as they are kept. -/
structure Payload where
  cells : Cells
  layout : Json.Layout
  deriving Repr

namespace Payload

/-- The JSON text of the cells, `none` if a cell has none. -/
def text? (p : Payload) : Except Json.WriteError String :=
  Json.write p.layout (.object p.cells)

/-- The JSON text of the cells. -/
def text (p : Payload) : String :=
  match p.text? with
  | .ok s => s
  | .error _ => ""

/-- The payload of edited cells. A cell with no JSON text is refused. -/
def edited (cells : Cells) : Except Json.WriteError Payload :=
  match Json.write .spaced (.object cells) with
  | .ok _ => .ok ⟨cells.map fun e => (e.1, e.2.stored), .spaced⟩
  | .error why => .error why

/-- The payload without a key. -/
def erase (p : Payload) (column : String) : Payload := ⟨Cells.erase p.cells column, .compact⟩

/-- The cells as a value. -/
def toValue (p : Payload) : Value := .object p.cells

end Payload

end Tabula
