import Tabula.Failure
import Tabula.Number.Reading
import Tabula.Text.Case
import Tabula.Text.Search

/-!
# Cells

A cell holds nothing, a text or a finite number; `classify` tells which, and refuses every
other value. `Value.number` is the numeric view of a cell, `Value.cellText` its text view,
by which it is compared, searched and shown. A column is declared to hold texts or
numbers, and `ColumnType.coerce` is the value that is stored for an edit.
-/

namespace Tabula

/-- What a column is declared to hold. -/
inductive ColumnType where
  | text
  | number
  deriving DecidableEq, Repr

/-- What a cell holds. -/
inductive CellKind where
  | text
  | number
  | empty
  deriving DecidableEq, Repr

def CellKind.label : CellKind → String
  | text => "text"
  | number => "number"
  | empty => "empty"

namespace ColumnType

def label : ColumnType → String
  | text => "TEXT"
  | number => "NUMBER"

/-- The type a value names, in letters of either case. -/
def parse (v : Value) : Except Failure ColumnType :=
  let name := Text.asciiUpper v.plainText
  if name = "TEXT" then .ok text
  else if name = "NUMBER" then .ok number
  else .error (.invalid (.columnType v))

end ColumnType

namespace Value

/-- The kind of cell a value is, `none` if it is not to be stored. -/
def classify : Value → Option CellKind
  | null => some .empty
  | text _ => some .text
  | int _ => some .number
  | float x => if x.isFinite then some .number else none
  | _ => none

/-- Nothing and the empty text count as empty. -/
def isEmptyCell : Value → Bool
  | null => true
  | text s => s == ""
  | _ => false

/-- The finite float a text spells, white space around it aside. -/
def textNumber? (s : String) : Option Binary64 :=
  (Binary64.ofText? (Text.trim s)).filter Binary64.isFinite

/-- The numeric view of an integer. One beyond the largest float is a fault. -/
def integerNumber (n : Int) : Except Failure (Option Binary64) :=
  (Binary64.ofInt? n).elim (.error (.fault .floatTooLarge)) fun x => .ok (some x)

/-- The numeric view of a cell, `none` if it has none. -/
def number : Value → Except Failure (Option Binary64)
  | int n => integerNumber n
  | float x => .ok (if x.isFinite then some x else none)
  | text s => .ok (textNumber? s)
  | _ => .ok none

/-- The text view of a value : a whole float as an integer, everything else as it is
displayed. -/
def cellText : Value → String
  | float x => if x.isInteger then integerText x.truncate else x.text
  | v => v.plainText

/-- The text view of a cell, `none` for nothing. -/
def cellText? (v : Value) : Option String :=
  if v.isNull then none else some v.cellText

/-- Whether the text view of a cell contains that of `needle`, letter case aside. Nothing
contains no text at all. -/
def containsText (v needle : Value) : Bool :=
  !v.isNull && Text.contains (Text.lower v.cellText.toList) (Text.lower needle.cellText.toList)

end Value

namespace ColumnType

/-- The number stored for a finite float, an integer if it is whole. -/
def storedNumber (x : Binary64) : Value :=
  if x.isInteger then .int x.truncate else .float x

/-- The value stored for an edit of a cell under a column of this type. -/
def coerce (type : ColumnType) (v : Value) : Except Failure Value :=
  match v.classify, type with
  | none, _ => .error (.invalid (.cell v))
  | some .empty, _ => .ok .null
  | some .number, number => .ok v
  | some .number, text => .ok (.text v.cellText)
  | some .text, text => .ok v
  | some .text, number =>
    match v with
    | .text s =>
      if s = "" then .ok .null
      else
        match Value.textNumber? s with
        | some x => .ok (storedNumber x)
        | none => .error (.invalid (.number v))
    | _ => .ok v

end ColumnType

end Tabula
