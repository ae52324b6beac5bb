import Tabula.Number.Decimal
import Tabula.Text.Case
import Tabula.Time.Moment
import Tabula.Time.Token

/-!
# Timestamps

A `Timestamp` is a date and a time of day, with or without an offset from universal time.
`Timestamp.parse?` reads one from loosely written text : ISO dates and times, dates with
names of months, hours with `h` or `pm`, zones by offset or as `UTC` and `Z`. Of a date
that is written in part, the rest is taken from the day `today`.
-/

namespace Tabula.Time

/-- A date and a time of day in microseconds, perhaps with an offset in seconds. -/
structure Timestamp where
  date : Date
  micros : Nat
  offset : Option Int
  deriving DecidableEq, Repr

/-- The text of an offset, in hours, minutes and seconds unless they are zero. -/
def offsetText (seconds : Int) : String :=
  let n := seconds.natAbs
  (if seconds < 0 then "-" else "+") ++ padded 2 (n / 3600) ++ ":" ++ padded 2 (n / 60 % 60) ++
    (if n % 60 = 0 then "" else ":" ++ padded 2 (n % 60))

/-- Whether the offset is less than a day. -/
def Timestamp.offsetFits (t : Timestamp) : Bool :=
  match t.offset with
  | some seconds => seconds.natAbs < 86400
  | none => true

def Timestamp.text (t : Timestamp) : String :=
  t.date.text ++ "T" ++ timeText t.micros ++
    (match t.offset with
    | some seconds => offsetText seconds
    | none => "")

/-! ## Words -/

def lowerText (s : String) : String := String.ofList (Text.lower s.toList)

/-- The place of the list that holds the word, letter case aside. -/
def placeOf (lists : List (List String)) (word : String) : Option Nat :=
  lists.findIdx? fun l => l.contains (lowerText word)

def weekday? : String → Option Nat :=
  placeOf [["mon", "monday"], ["tue", "tuesday"], ["wed", "wednesday"], ["thu", "thursday"],
    ["fri", "friday"], ["sat", "saturday"], ["sun", "sunday"]]

def month? (word : String) : Option Nat :=
  (placeOf [["jan", "january"], ["feb", "february"], ["mar", "march"], ["apr", "april"],
    ["may"], ["jun", "june"], ["jul", "july"], ["aug", "august"],
    ["sep", "sept", "september"], ["oct", "october"], ["nov", "november"],
    ["dec", "december"]] word).map (· + 1)

/-- The unit of a time that a word names : hours, minutes or seconds. -/
def unit? : String → Option Nat :=
  placeOf [["h", "hour", "hours"], ["m", "minute", "minutes"], ["s", "second", "seconds"]]

/-- The half of the day that a word names. -/
def half? : String → Option Nat := placeOf [["am", "a"], ["pm", "p"]]

/-- A token that may stand between the parts. -/
def isJump (word : String) : Bool :=
  [" ", ".", ",", ";", "-", "/", "'", "at", "on", "and", "ad", "m", "t", "of", "st", "nd", "rd",
    "th"].contains (lowerText word)

def isUniversal (zone : String) : Bool := ["UTC", "GMT", "Z", "z"].contains zone

/-! ## Numbers -/

/-- The number that digits of any script spell, `none` for no digits or anything else. -/
def natOf? (cs : List Char) : Option Nat :=
  if cs.isEmpty then none
  else cs.foldlM (fun n c => (Text.digitValue? c).map (10 * n + ·)) 0

/-- A number of a timestamp : its whole part and the digits after its point. -/
structure Numeral where
  whole : Nat
  part : List Char

/-- Whether the number is not whole. -/
def Numeral.hasPart (n : Numeral) : Bool := n.part.any fun c => (Text.digitValue? c).any (0 < ·)

/-- The part after the point, in sixtieths. -/
def Numeral.sixtieths (n : Numeral) : Nat :=
  60 * (natOf? n.part).getD 0 / Nat.pow 10 n.part.length

/-- The number a token spells. -/
def numeral? (token : String) : Option Numeral := do
  let cs := token.toList
  let part := (cs.dropWhile (· ≠ '.')).drop 1
  let whole ← natOf? (cs.takeWhile (· ≠ '.'))
  if part.all isDigit then some ⟨whole, part⟩ else none

/-- Whether a token is a word for infinity or no number, which no timestamp holds. -/
def isNumberWord (token : String) : Bool := ["inf", "infinity", "nan"].contains (lowerText token)

def isDigits (token : String) : Bool := token.toList.all isDigit && token ≠ ""

/-! ## Reading -/

/-- What has been read of a timestamp. The parts of the date are numbers in the order of
the text; places tell which of them is known to be the year or the month. -/
structure Draft where
  parts : List Nat := []
  yearAt : Option Nat := none
  monthAt : Option Nat := none
  longYear : Bool := false
  hour : Option Nat := none
  minute : Option Nat := none
  second : Option Nat := none
  micros : Option Nat := none
  half : Option Nat := none
  weekday : Option Nat := none
  zone : Option String := none
  offset : Option Int := none

namespace Draft

/-- Whether nothing has been read. -/
def isEmpty (d : Draft) : Bool :=
  d.parts.isEmpty && d.hour.isNone && d.minute.isNone && d.second.isNone && d.micros.isNone &&
    d.half.isNone && d.weekday.isNone && d.zone.isNone && d.offset.isNone

/-- Adds a part that is the year. -/
def addYear? (d : Draft) (n : Nat) (long : Bool) : Option Draft :=
  if d.yearAt.isSome then none
  else some { d with parts := d.parts ++ [n], yearAt := some d.parts.length,
                     longYear := d.longYear || long }

/-- Adds a part that is the month. -/
def addMonth? (d : Draft) (n : Nat) : Option Draft :=
  if d.monthAt.isSome then none
  else some { d with parts := d.parts ++ [n], monthAt := some d.parts.length }

/-- Adds digits : more than two of them are the year. -/
def addDigits? (d : Draft) (cs : List Char) : Option Draft := do
  let n ← natOf? cs
  if 2 < cs.length then d.addYear? n true else some { d with parts := d.parts ++ [n] }

/-- Adds the whole part of a number : one beyond a hundred is the year. -/
def addNumeral? (d : Draft) (n : Numeral) : Option Draft :=
  if 100 < n.whole || (n.whole = 100 && n.hasPart) then d.addYear? n.whole true
  else some { d with parts := d.parts ++ [n.whole] }

/-- Whether a number may be the day, as far as the month and year are known. -/
def mayBeDay (d : Draft) (n : Numeral) : Bool :=
  let most := match d.monthAt.bind (d.parts[·]?) with
    | none => 31
    | some month =>
      match d.yearAt.bind (d.parts[·]?) with
      | none => Date.daysIn 2000 month
      | some year => Date.daysIn year month
  1 ≤ n.whole && (n.whole < most || (n.whole = most && !n.hasPart))

/-- Seconds with the digits after their point. -/
def setSeconds? (d : Draft) (cs : List Char) : Option Draft :=
  if cs.contains '.' then do
    let second ← natOf? (cs.takeWhile (· ≠ '.'))
    let digits := (cs.dropWhile (· ≠ '.')).drop 1
    let micros ← natOf? ((digits ++ List.replicate (6 - digits.length) '0').take 6)
    some { d with second := some second, micros := some micros }
  else do
    let second ← natOf? cs
    some { d with second := some second, micros := some 0 }

/-- Minutes, their part after the point being seconds. -/
def setMinutes (d : Draft) (n : Numeral) : Draft :=
  { d with minute := some n.whole, second := if n.hasPart then some n.sixtieths else none }

/-- Sets hours, minutes or seconds. -/
def setUnit? (d : Draft) (unit : Nat) (token : String) (n : Numeral) : Option Draft :=
  if unit = 0 then
    let d := { d with hour := some n.whole }
    some (if n.hasPart then { d with minute := some n.sixtieths } else d)
  else if unit = 1 then some (d.setMinutes n)
  else if unit = 2 then d.setSeconds? token.toList
  else some d

/-- The hour of the day for an hour of one of its halves. -/
def hourOf (hour half : Nat) : Nat :=
  if hour < 12 && half = 1 then hour + 12
  else if hour = 12 && half = 0 then 0
  else hour

/-- Whether a token may name a zone here. -/
def mayBeZone (d : Draft) (token : String) : Bool :=
  d.hour.isSome && d.zone.isNone && d.offset.isNone && token.length ≤ 5 &&
    (token.toList.all Char.isUpper || isUniversal token)

end Draft

/-- The place of the unit that goes with the number at place `i`. -/
def unitPlace? (ts : Array String) (i : Nat) : Option Nat :=
  let unitAt (k : Nat) : Bool := (ts[k]?.bind unit?).isSome
  let blankAt (k : Nat) : Bool := ts[k]? == some " "
  if unitAt (i + 1) then some (i + 1)
  else if blankAt (i + 1) && unitAt (i + 2) then some (i + 2)
  else if 0 < i && unitAt (i - 1) then some (i - 1)
  else if 1 < i && i + 1 = ts.size && blankAt (i - 1) && unitAt (i - 2) then some (i - 2)
  else none

/-- Reads the number at place `i`. The answer has the place of the last token read. -/
def readNumber? (ts : Array String) (i : Nat) (token : String) (n : Numeral) (d : Draft) :
    Option (Nat × Draft) :=
  let cs := token.toList
  let size := cs.length
  let next := ts[i + 1]?
  let timeFollows := next == some ":" || (next.bind unit?).isSome
  if d.parts.length = 3 && (size = 2 || size = 4) && d.hour.isNone && !timeFollows then do
    let hour ← natOf? (cs.take 2)
    if size = 4 then
      let minute ← natOf? (cs.drop 2)
      return (i, { d with hour := some hour, minute := some minute })
    else return (i, { d with hour := some hour })
  else if size = 6 || (6 < size && (cs.takeWhile (· ≠ '.')).length = 6 && cs.contains '.') then
    if d.parts.isEmpty && !cs.contains '.' then do
      let d ← d.addDigits? (cs.take 2)
      let d ← d.addDigits? ((cs.drop 2).take 2)
      let d ← d.addDigits? (cs.drop 4)
      return (i, d)
    else do
      let hour ← natOf? (cs.take 2)
      let minute ← natOf? ((cs.drop 2).take 2)
      let d ← { d with hour := some hour, minute := some minute }.setSeconds? (cs.drop 4)
      return (i, d)
  else if size = 8 || size = 12 || size = 14 then do
    let year ← natOf? (cs.take 4)
    let d ← d.addYear? year true
    let d ← d.addDigits? ((cs.drop 4).take 2)
    let d ← d.addDigits? ((cs.drop 6).take 2)
    if size = 8 then return (i, d)
    else
      let hour ← natOf? ((cs.drop 8).take 2)
      let minute ← natOf? ((cs.drop 10).take 2)
      let d := { d with hour := some hour, minute := some minute }
      if size = 12 then return (i, d)
      else
        let second ← natOf? (cs.drop 12)
        return (i, { d with second := some second })
  else
    match unitPlace? ts i with
    | some k => do
      let unit ← ts[k]?.bind unit?
      if i < k then return (k, ← d.setUnit? unit token n)
      else return (i, ← d.setUnit? (unit + 1) token n)
    | none =>
      if i + 2 < ts.size && next == some ":" then do
        let minutes ← ts[i + 2]?.bind numeral?
        let d := { d with hour := some n.whole }.setMinutes minutes
        if i + 4 < ts.size && ts[i + 3]? == some ":" then
          let seconds ← ts[i + 4]?
          return (i + 4, ← d.setSeconds? seconds.toList)
        else return (i + 2, d)
      else if next == some "-" || next == some "/" || next == some "." then do
        let d ← d.addDigits? cs
        match ts[i + 2]? with
        | none => return (i + 1, d)
        | some second =>
          if isJump second then return (i + 1, d)
          let d ← if isDigits second then d.addDigits? second.toList
            else (month? second).bind d.addMonth?
          if ts[i + 3]? == next then
            let third ← ts[i + 4]?
            let d ← match month? third with
              | some month => d.addMonth? month
              | none => d.addDigits? third.toList
            return (i + 4, d)
          else return (i + 2, d)
      else if next.all isJump then
        match ts[i + 2]?.bind half? with
        | some half => return (i + 2, { d with hour := some (Draft.hourOf n.whole half) })
        | none => return (i + 1, ← d.addNumeral? n)
      else
        match next.bind half? with
        | some half =>
          if n.whole < 24 then return (i + 1, { d with hour := some (Draft.hourOf n.whole half) })
          else if d.mayBeDay n then return (i, ← d.addNumeral? n)
          else none
        | none => if d.mayBeDay n then return (i, ← d.addNumeral? n) else none

/-- Reads the offset after the sign at place `i`. -/
def readOffset? (ts : Array String) (i : Nat) (sign : Int) (d : Draft) : Option (Nat × Draft) := do
  let token ← ts[i + 1]?
  let cs := token.toList
  let (hours, minutes, last) ←
    if cs.length = 4 then do
      pure (← natOf? (cs.take 2), ← natOf? (cs.drop 2), i + 1)
    else if ts[i + 2]? == some ":" then do
      pure (← natOf? cs, ← ts[i + 3]?.bind (natOf? ·.toList), i + 3)
    else if cs.length ≤ 2 then do
      pure (← natOf? cs, 0, i + 1)
    else none
  let d := { d with offset := some (sign * (hours * 3600 + minutes * 60 : Nat)) }
  let named := last + 4 < ts.size && (ts[last + 1]?).any isJump && ts[last + 2]? == some "(" &&
    ts[last + 4]? == some ")"
  match ts[last + 3]? with
  | some zone =>
    if named && 3 ≤ zone.length && { d with offset := none }.mayBeZone zone then
      return (last + 4, { d with zone := some zone })
    else return (last, d)
  | none => return (last, d)

/-- Reads the name of a month at place `i` and the parts that belong to it. -/
def readMonth? (ts : Array String) (i month : Nat) (d : Draft) : Option (Nat × Draft) := do
  let d ← d.addMonth? month
  let next := ts[i + 1]?
  if next == some "-" || next == some "/" then
    let d ← d.addDigits? (← ts[i + 2]?).toList
    if ts[i + 3]? == next then
      let d ← d.addDigits? (← ts[i + 4]?).toList
      return (i + 4, d)
    else return (i + 2, d)
  else if next == some " " && ts[i + 3]? == some " " && ts[i + 2]?.any (lowerText · == "of") then
    match ts[i + 4]? with
    | some year => return (i + 4, ← if isDigits year then d.addDigits? year.toList else some d)
    | none => return (i, d)
  else return (i, d)

/-- Reads the token at place `i`. -/
def readToken? (ts : Array String) (i : Nat) (token : String) (d : Draft) :
    Option (Array String × Nat × Draft) :=
  let unchanged (r : Option (Nat × Draft)) : Option (Array String × Nat × Draft) :=
    r.map fun r => (ts, r)
  match numeral? token with
  | some n => unchanged (readNumber? ts i token n d)
  | none =>
    if isNumberWord token then none
    else match weekday? token with
    | some day => some (ts, i, { d with weekday := some day })
    | none =>
      match month? token with
      | some month => unchanged (readMonth? ts i month d)
      | none =>
        match half? token with
        | some half =>
          match d.hour with
          | some hour =>
            if hour ≤ 12 then some (ts, i, { d with hour := some (Draft.hourOf hour half), half := some half })
            else none
          | none => none
        | none =>
          if d.mayBeZone token then
            let d := { d with zone := some token, offset := if isUniversal token then some 0 else none }
            let next := ts[i + 1]?
            if next == some "+" || next == some "-" then
              let ts := ts.set! (i + 1) (if next == some "+" then "-" else "+")
              some (ts, i, { d with offset := none, zone := if isUniversal token then none else some token })
            else some (ts, i, d)
          else if d.hour.isSome && (token = "+" || token = "-") then
            unchanged (readOffset? ts i (if token = "+" then 1 else -1) d)
          else if isJump token then some (ts, i, d)
          else none

/-- Reads the tokens from place `i` on. `fuel` is at least their number. -/
def readTokens? : Nat → Array String → Nat → Draft → Option Draft
  | 0, _, _, d => some d
  | fuel + 1, ts, i, d =>
    match ts[i]? with
    | none => some d
    | some token =>
      match readToken? ts i token d with
      | some (ts, last, d) => readTokens? fuel ts (last + 1) d
      | none => none

/-- Year, month and day, as far as they are written. -/
structure WrittenDate where
  year : Option Nat
  month : Option Nat
  day : Option Nat

/-- Which part of the date is which. A known year and month fix the day; otherwise a part
beyond 31 is the year, and the month comes before the day unless it is beyond 12. -/
def Draft.date? (d : Draft) : Option WrittenDate :=
  match d.parts, d.yearAt, d.monthAt with
  | [], _, _ => some ⟨none, none, none⟩
  | [a], some _, _ => some ⟨some a, none, none⟩
  | [a], none, some _ => some ⟨none, some a, none⟩
  | [a], none, none => some (if 31 < a then ⟨some a, none, none⟩ else ⟨none, none, some a⟩)
  | [a, b], some y, some _ => some (if y = 0 then ⟨some a, some b, none⟩ else ⟨some b, some a, none⟩)
  | [a, b], none, some m =>
    let (month, other) := if m = 0 then (a, b) else (b, a)
    some (if 31 < other then ⟨some other, some month, none⟩ else ⟨none, some month, some other⟩)
  | [a, b], _, none =>
    some (if 31 < a then ⟨some a, some b, none⟩
      else if 31 < b then ⟨some b, some a, none⟩
      else ⟨none, some a, some b⟩)
  | [a, b, c], some y, some m =>
    let parts := [a, b, c]
    let rest := (List.range 3).find? fun k => k ≠ y && k ≠ m
    some ⟨parts[y]?, parts[m]?, rest.bind (parts[·]?)⟩
  | [a, b, c], none, some 0 =>
    some (if 31 < b then ⟨some b, some a, some c⟩ else ⟨some c, some a, some b⟩)
  | [a, b, c], none, some 1 =>
    some (if 31 < a then ⟨some a, some b, some c⟩ else ⟨some c, some b, some a⟩)
  | [a, b, c], none, some _ =>
    some (if 31 < b then ⟨some b, some c, some a⟩ else ⟨some a, some c, some b⟩)
  | [a, b, c], y, none =>
    some (if 31 < a || y = some 0 then ⟨some a, some b, some c⟩
      else if 12 < a then ⟨some c, some b, some a⟩
      else ⟨some c, some a, some b⟩)
  | _, _, _ => none

/-- The year for one written with two digits, the nearest to this year. -/
def fullYear (thisYear : Int) (long : Bool) (year : Nat) : Int :=
  if 100 ≤ year || long then year
  else
    let y := year + thisYear / 100 * 100
    if thisYear + 50 ≤ y then y - 100 else if y < thisYear - 50 then y + 100 else y

/-- The offset of the zone that is written. -/
def Draft.zoneOffset (d : Draft) : Option Int :=
  match d.offset, d.zone with
  | some n, some zone => if isUniversal zone then some 0 else some n
  | some n, none => some n
  | none, some zone => if isUniversal zone then some 0 else none
  | none, none => none

/-- The timestamp of a draft. -/
def Draft.timestamp? (today : Date) (d : Draft) : Option Timestamp := do
  if d.isEmpty then none
  else
    let w ← d.date?
    let year := (w.year.map (fullYear today.year d.longYear)).getD today.year
    let month := w.month.getD today.month
    let day := w.day.getD (min today.day (Date.daysIn year month))
    let date : Date := ⟨year, month, day⟩
    let hour := d.hour.getD 0
    let minute := d.minute.getD 0
    let second := d.second.getD 0
    if date.isValid && hour < 24 && minute < 60 && second < 60 then
      some ⟨date, ((hour * 60 + minute) * 60 + second) * 1000000 + d.micros.getD 0, d.zoneOffset⟩
    else none

/-- The timestamp a text writes. -/
def Timestamp.parse? (today : Date) (s : String) : Option Timestamp := do
  let ts := (tokens s).toArray
  let draft ← readTokens? (ts.size + 1) ts 0 {}
  draft.timestamp? today

/-- The timestamp a value writes : anything but a text writes none. -/
def Timestamp.ofValue? (today : Date) : Value → Option Timestamp
  | .text s => if s = "" then none else Timestamp.parse? today s
  | _ => none

end Tabula.Time
