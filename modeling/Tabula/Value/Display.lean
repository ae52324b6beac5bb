import Std.Data.String.ToInt
import Tabula.Number.Decimal
import Tabula.Text.Quoted
import Tabula.Value

/-!
# Values as text

`Value.display` is how a message shows a value : texts are quoted, everything else is
written so that its kind can be seen. `Value.plainText` is the same except that a text
stands for itself; it is the text a cell is compared and searched by.
-/

namespace Tabula

/-- The decimal text of an integer. -/
def integerText (n : Int) : String := toString n

theorem isDigit_of_mem_repr {n : Nat} {c : Char} (h : c ∈ n.repr.toList) : c.isDigit = true := by
  rw [Nat.toList_repr] at h
  exact Nat.isDigit_of_mem_toDigits (by decide) (by decide) h

theorem eq_or_isDigit_of_mem_integerText {n : Int} {c : Char} (h : c ∈ (integerText n).toList) :
    c = '-' ∨ c.isDigit = true := by
  rw [integerText, Int.toString_eq_repr, Int.repr_eq_if] at h
  split at h
  · exact .inr (isDigit_of_mem_repr h)
  · rw [String.toList_append, List.mem_append] at h
    exact h.imp (by simpa using ·) isDigit_of_mem_repr

namespace Value

mutual

/-- The text that shows a value in a message. -/
def display : Value → String
  | null => "None"
  | bool b => if b then "True" else "False"
  | int n => integerText n
  | float x => x.text
  | text s => Text.quoted s
  | bytes bs => Text.quotedBytes bs
  | list xs => "[" ++ ", ".intercalate (displayAll xs) ++ "]"
  | tuple xs =>
    match displayAll xs with
    | [x] => "(" ++ x ++ ",)"
    | ts => "(" ++ ", ".intercalate ts ++ ")"
  | dict es => "\x7b" ++ ", ".intercalate (displayEntries es) ++ "\x7d"

def displayAll : List Value → List String
  | [] => []
  | x :: xs => display x :: displayAll xs

def displayEntries : List (Value × Value) → List String
  | [] => []
  | (k, v) :: es => (display k ++ ": " ++ display v) :: displayEntries es

end

/-- The text of a value, a text being its own. -/
def plainText : Value → String
  | text s => s
  | v => v.display

end Value

end Tabula
