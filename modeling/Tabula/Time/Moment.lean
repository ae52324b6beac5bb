import Tabula.Value.Display

/-!
# Moments

A `Moment` is a point of universal time in microseconds since the first day of 1970. Its
text has six digits after the second only if the second is not whole.
-/

namespace Tabula

/-- A day of the Gregorian calendar. -/
structure Date where
  year : Int
  month : Nat
  day : Nat
  deriving DecidableEq, Repr

namespace Date

/-- The day that comes `n` days after the first of January 1970. The year begins in March
while counting, so that a leap day comes last, and an era is 400 years. -/
def ofDays (n : Int) : Date :=
  let z := n + 719468
  let era := z.fdiv 146097
  let dayOfEra := (z - era * 146097).toNat
  let yearOfEra := (dayOfEra - dayOfEra / 1460 + dayOfEra / 36524 - dayOfEra / 146096) / 365
  let dayOfYear := dayOfEra - (365 * yearOfEra + yearOfEra / 4 - yearOfEra / 100)
  let shifted := (5 * dayOfYear + 2) / 153
  let day := dayOfYear - (153 * shifted + 2) / 5 + 1
  let month := if shifted < 10 then shifted + 3 else shifted - 9
  let year : Int := yearOfEra + era * 400
  ⟨if month ≤ 2 then year + 1 else year, month, day⟩

def isLeap (year : Int) : Bool :=
  year % 4 == 0 && (year % 100 != 0 || year % 400 == 0)

def daysIn (year : Int) (month : Nat) : Nat :=
  if month = 2 then (if isLeap year then 29 else 28)
  else if month = 4 || month = 6 || month = 9 || month = 11 then 30
  else 31

/-- Whether the day exists, in a year of at most four digits. -/
def isValid (d : Date) : Bool :=
  1 ≤ d.year && d.year ≤ 9999 && 1 ≤ d.month && d.month ≤ 12 &&
  1 ≤ d.day && d.day ≤ daysIn d.year d.month

end Date

/-- A number with zeros before it, at least `width` digits. -/
def padded (width n : Nat) : String :=
  let ds := Nat.toDigits 10 n
  String.ofList (List.replicate (width - ds.length) '0' ++ ds)

def Date.text (d : Date) : String :=
  padded 4 d.year.toNat ++ "-" ++ padded 2 d.month ++ "-" ++ padded 2 d.day

/-- The text of a time of day, given in microseconds. -/
def timeText (micros : Nat) : String :=
  let seconds := micros / 1000000
  let rest := micros % 1000000
  padded 2 (seconds / 3600) ++ ":" ++ padded 2 (seconds / 60 % 60) ++ ":" ++ padded 2 (seconds % 60) ++
    (if rest = 0 then "" else "." ++ padded 6 rest)

/-- A point of universal time. -/
structure Moment where
  micros : Int
  deriving DecidableEq, Repr, Inhabited

namespace Moment

def microsPerDay : Int := 86400000000

/-- The text of a moment, without an offset. -/
def text (m : Moment) : String :=
  let days := m.micros.fdiv microsPerDay
  (Date.ofDays days).text ++ "T" ++ timeText (m.micros - days * microsPerDay).toNat

/-- The text of a moment with the offset of universal time. -/
def offsetText (m : Moment) : String := m.text ++ "+00:00"

def toValue (m : Moment) : Value := .text m.text

/-- The value of a moment that may be missing. -/
def optionValue : Option Moment → Value
  | some m => m.toValue
  | none => .null

end Moment

end Tabula
