import Tabula.Number.Binary64

/-!
# Decimal forms of floats

A `Decimal` is a row of digits with the place of its point. `Magnitude.shortest` is the
one with the fewest digits that reads back as the same size, the nearest among those;
`Magnitude.significant` has a given number of digits. A `DecimalStyle` says how a form is
written : which ones go without an exponent, and whether the digits before an exponent
always have a point. There are two : `displayStyle` and `storeStyle`.
-/

namespace Tabula

/-- The digits of `0.d₁d₂d₃… * 10 ^ place`. -/
structure Decimal where
  digits : List Char
  place : Int
  deriving DecidableEq, Repr

/-- The digits without the zeros at their end. -/
def dropEndZeros (ds : List Char) : List Char :=
  (ds.reverse.dropWhile (· == '0')).reverse

namespace Magnitude

/-- The least `p` with the size below `10 ^ p`, for a size that is not zero. -/
def decimalPlace (m : Magnitude) : Int :=
  (Nat.toDigits 10 (m.units * Nat.pow 10 330 / unitsPerOne)).length - 330

/-- The size in steps of `10 ^ e`, as numerator and denominator. -/
def inSteps (m : Magnitude) (e : Int) : Nat × Nat :=
  (m.units * Nat.pow 10 (-e).toNat, unitsPerOne * Nat.pow 10 e.toNat)

/-- Whether `d * 10 ^ e` is among the numbers whose nearest size is that of rank `r` : it
lies between the middles to the next ranks, a middle counting for the even rank. -/
def nearestOf (r : Nat) (d : Nat) (e : Int) : Bool :=
  let scale := Nat.pow 10 (-e).toNat
  let below := (unitsOfRank (r - 1) + unitsOfRank r) * scale
  let above := (unitsOfRank r + unitsOfRank (r + 1)) * scale
  let at2 := 2 * d * unitsPerOne * Nat.pow 10 e.toNat
  if r % 2 = 0 then below ≤ at2 && at2 ≤ above else below < at2 && at2 < above

/-- The neighbour of the size on the grid of `n` digits that reads back, the nearer one if
both do. -/
def onGrid? (m : Magnitude) (n : Nat) : Option Decimal :=
  let e := m.decimalPlace - n
  let (num, den) := m.inSteps e
  let low := num / den
  let rest := num % den
  let chosen? :=
    match nearestOf m.rank low e, nearestOf m.rank (low + 1) e with
    | true, true => some (if 2 * rest < den || (2 * rest == den && low % 2 == 0) then low else low + 1)
    | true, false => some low
    | false, true => some (low + 1)
    | false, false => none
  chosen?.map fun d =>
    let ds := Nat.toDigits 10 d
    ⟨dropEndZeros ds, m.decimalPlace + (ds.length - n)⟩

/-- The size rounded to `n` digits, a tie away from zero. -/
def significant (m : Magnitude) (n : Nat) : Decimal :=
  if m.rank = 0 then ⟨['0'], 1⟩
  else
    let (num, den) := m.inSteps (m.decimalPlace - n)
    let ds := Nat.toDigits 10 (roundHalfUp num den)
    ⟨dropEndZeros ds, m.decimalPlace + (ds.length - n)⟩

/-- The fewest digits that read back as the same size. -/
def shortest (m : Magnitude) : Decimal :=
  if m.rank = 0 then ⟨['0'], 1⟩
  else ((List.range 17).findSome? fun i => m.onGrid? (i + 1)).getD (m.significant 17)

end Magnitude

/-- How a decimal form is written. -/
structure DecimalStyle where
  /-- The least place written with an exponent. -/
  exponentFrom : Int
  /-- Whether a single digit before an exponent gets `.0`. -/
  pointBeforeExponent : Bool

/-- Sixteen places before the point go without an exponent, and `1e+16` has no point. -/
def displayStyle : DecimalStyle := ⟨17, false⟩

/-- Fifteen places before the point go without an exponent, and `1.0e+15` has a point. -/
def storeStyle : DecimalStyle := ⟨16, true⟩

/-- A sign and at least two digits. -/
def exponentText (e : Int) : List Char :=
  let ds := Nat.toDigits 10 e.natAbs
  (if e < 0 then '-' else '+') :: (if ds.length < 2 then '0' :: ds else ds)

/-- The written form : from `0.0001` on without an exponent, and always with a point or an
exponent. -/
def DecimalStyle.render (style : DecimalStyle) (d : Decimal) : List Char :=
  if d.place < -3 || style.exponentFrom ≤ d.place then
    let tail := 'e' :: exponentText (d.place - 1)
    match d.digits with
    | [] => '0' :: tail
    | [x] => if style.pointBeforeExponent then x :: '.' :: '0' :: tail else x :: tail
    | x :: ds => x :: '.' :: ds ++ tail
  else if d.place ≤ 0 then
    '0' :: '.' :: List.replicate (-d.place).toNat '0' ++ d.digits
  else
    let n := d.place.toNat
    let whole := d.digits.take n
    let part := d.digits.drop n
    whole ++ List.replicate (n - whole.length) '0' ++ '.' :: (if part.isEmpty then ['0'] else part)

namespace Binary64

/-- The text of a float with the fewest digits : `0.1`, `5.0`, `-0.0`, `1e+16`, `nan`. -/
def text : Binary64 → String
  | nan => "nan"
  | signed s m =>
    let size := if m.isFinite then displayStyle.render m.shortest else "inf".toList
    String.ofList (if s then '-' :: size else size)

/-- The text of a float in the store, of fifteen digits : `0.3`, `5.0`, `1.0e+16`. A zero has
no sign. -/
def storeText : Binary64 → String
  | nan => ""
  | signed s m =>
    let size := if m.isFinite then storeStyle.render (m.significant 15) else "Inf".toList
    String.ofList (if s && m.rank != 0 then '-' :: size else size)

/-- The text of a finite float with two decimal places, a tie to the even hundredth. -/
def fixedText (x : Binary64) : String :=
  let hundredths := roundHalfEven (x.units.natAbs * 100) Magnitude.unitsPerOne
  let part := Nat.toDigits 10 (hundredths % 100)
  let whole := Nat.toDigits 10 (hundredths / 100)
  let size := whole ++ '.' :: (if part.length < 2 then '0' :: part else part)
  String.ofList (match x with
    | signed true _ => '-' :: size
    | _ => size)

end Binary64

end Tabula
