/-!
# Binary floating-point numbers

`Magnitude` is the size of a 64-bit binary float: `rank` counts the sizes below it,
so one size is less than another exactly when its rank is. `Magnitude.units` is the
value in units of the smallest positive float, a natural number, and
`Magnitude.ofRatio` the size nearest a quotient, a tie going to the even rank. All of it
is arithmetic on natural numbers.

`Binary64` adds a sign and the value that is not a number. `Binary64.key` is the order :
two zeros of different sign have one key.
-/

namespace Tabula

/-- The quotient rounded to the nearest integer, a tie to the even one. -/
def roundHalfEven (num den : Nat) : Nat :=
  let q := num / den
  let r := num % den
  if 2 * r < den then q
  else if den < 2 * r then q + 1
  else if q % 2 = 0 then q else q + 1

/-- The quotient rounded to the nearest integer, a tie upwards. -/
def roundHalfUp (num den : Nat) : Nat :=
  (2 * num + den) / (2 * den)

/-- The number of sizes in a binade : a significand has 52 bits after its first. -/
def binadeSize : Nat := 0x10000000000000

/-- The rank of infinity : above it there is no size. -/
def infinityRank : Nat := 2047 * binadeSize

/-- The size of a float, by the number of smaller sizes. -/
structure Magnitude where
  rank : Nat
  le_infinityRank : rank ≤ infinityRank
  deriving DecidableEq, Repr

namespace Magnitude

def zero : Magnitude := ⟨0, Nat.zero_le _⟩

def infinity : Magnitude := ⟨infinityRank, Nat.le_refl _⟩

def isFinite (m : Magnitude) : Bool := m.rank < infinityRank

/-- A unit is `2 ^ (-1074)`, the smallest positive size. -/
def unitsPerOne : Nat := 1 <<< 1074

/-- The units of the size of rank `r` : in the first binade the rank itself, above it a
53-bit significand shifted by the binade. -/
def unitsOfRank (r : Nat) : Nat :=
  if r < binadeSize then r else (binadeSize + r % binadeSize) <<< (r / binadeSize - 1)

def units (m : Magnitude) : Nat := unitsOfRank m.rank

/-- The rank nearest `num / den` units : the binade fixes how many low bits are
rounded away. -/
def rankOfUnits (num den : Nat) : Nat :=
  let shift := (num / den).log2 - 52
  shift * binadeSize + roundHalfEven num (den <<< shift)

/-- The size nearest `num / den` units. -/
def ofUnits (num den : Nat) : Magnitude :=
  ⟨min (rankOfUnits num den) infinityRank, Nat.min_le_right _ _⟩

/-- The size nearest `num / den`. -/
def ofRatio (num den : Nat) : Magnitude :=
  ofUnits (num * unitsPerOne) den

/-- The whole part of a finite size. -/
def floor (m : Magnitude) : Nat := m.units / unitsPerOne

def isInteger (m : Magnitude) : Bool := m.isFinite && m.units % unitsPerOne == 0

end Magnitude

/-- A 64-bit binary float. -/
inductive Binary64 where
  | nan
  | signed (negative : Bool) (size : Magnitude)
  deriving DecidableEq, Repr

namespace Binary64

def zero : Binary64 := signed false .zero

def infinity : Binary64 := signed false .infinity

/-- Neither infinite nor the value that is not a number. -/
def isFinite : Binary64 → Bool
  | nan => false
  | signed _ m => m.isFinite

def isInteger : Binary64 → Bool
  | nan => false
  | signed _ m => m.isInteger

def isZero : Binary64 → Bool
  | nan => false
  | signed _ m => m.rank == 0

/-- The place in the order, `none` for the value that is not a number. -/
def key : Binary64 → Option Int
  | nan => none
  | signed true m => some (-(m.rank : Int))
  | signed false m => some m.rank

/-- Numeric equality, false whenever one side is not a number. -/
def eq (x y : Binary64) : Bool :=
  match x.key, y.key with
  | some a, some b => a == b
  | _, _ => false

/-- Numeric order, false whenever one side is not a number. -/
def lt (x y : Binary64) : Bool :=
  match x.key, y.key with
  | some a, some b => a < b
  | _, _ => false

/-- The value in units, zero for the value that is not a number. -/
def units : Binary64 → Int
  | nan => 0
  | signed true m => -(m.units : Int)
  | signed false m => m.units

/-- The float nearest `num / den` units. -/
def ofUnits (num : Int) (den : Nat) : Binary64 :=
  signed (num < 0) (.ofUnits num.natAbs den)

/-- The float nearest `num / den`. -/
def ofRatio (num : Int) (den : Nat) : Binary64 :=
  signed (num < 0) (.ofRatio num.natAbs den)

/-- The float nearest an integer, infinite when the integer is out of range. -/
def ofInt (n : Int) : Binary64 := ofRatio n 1

/-- The float nearest an integer, `none` when the integer is out of range. -/
def ofInt? (n : Int) : Option Binary64 :=
  let x := ofInt n
  if x.isFinite then some x else none

/-- The whole part, toward zero. -/
def truncate : Binary64 → Int
  | nan => 0
  | signed true m => -(m.floor : Int)
  | signed false m => m.floor

/-- Sum of two finite floats. -/
def add (x y : Binary64) : Binary64 :=
  ofUnits (x.units + y.units) 1

/-- Product of two finite floats. -/
def mul (x y : Binary64) : Binary64 :=
  match x, y with
  | signed s m, signed t n => signed (s != t) (.ofUnits (m.units * n.units) Magnitude.unitsPerOne)
  | _, _ => nan

/-- The smaller of two numbers, the first when they are equal. -/
def min (x y : Binary64) : Binary64 := if y.lt x then y else x

/-- The larger of two numbers, the first when they are equal. -/
def max (x y : Binary64) : Binary64 := if x.lt y then y else x

/-- The nearest float with two decimal places, a tie to the even hundredth. -/
def roundHundredths : Binary64 → Binary64
  | nan => nan
  | signed s m =>
    if m.isFinite then
      signed s (.ofRatio (roundHalfEven (m.units * 100) Magnitude.unitsPerOne) 100)
    else signed s m

/-- The float nearest `coefficient * 10 ^ exponent`, decided by the digit count alone far
outside the range. -/
def ofDecimal (negative : Bool) (coefficient : Nat) (exponent : Int) : Binary64 :=
  let place := (Nat.toDigits 10 coefficient).length + exponent
  if coefficient = 0 || place < -330 then signed negative .zero
  else if 310 < place then signed negative .infinity
  else if 0 ≤ exponent then signed negative (.ofRatio (coefficient * Nat.pow 10 exponent.toNat) 1)
  else signed negative (.ofRatio coefficient (Nat.pow 10 (-exponent).toNat))

end Binary64

end Tabula
