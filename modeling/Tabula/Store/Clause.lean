import Tabula.Query.Plan
import Tabula.Store.Extract
import Tabula.Text.Like

/-!
# Queries in the store's terms

A `Clause` is what the store evaluates for a compiled filter. A comparison with nothing
does not hold, and clauses are evaluated from left to right until the outcome is known.
`Selection.clause` and `OrderKey` ranks give a plan the store's meaning, which differs from
the meaning in memory where the store converts cells in its own way : a text in a number
column counts as zero, a float in a text column has its own text, and only ASCII letters
are compared without their case.
-/

namespace Tabula.Store

open Query

/-- The comparisons of a text cell. -/
inductive TextRelation where
  | equal
  | notEqual
  | greater
  | less
  deriving DecidableEq, Repr

def TextRelation.holds (r : TextRelation) (s operand : String) : Bool :=
  match r with
  | equal => s == operand
  | notEqual => s != operand
  | greater => operand < s
  | less => s < operand

/-- A condition that the store evaluates. -/
inductive Clause where
  | number (column : String) (comparison : Comparison) (operand : Binary64)
  | text (column : String) (relation : TextRelation) (operand : String)
  | isNull (column : String)
  | isNotNull (column : String)
  | contains (column : String) (pattern : String)
  | all (clauses : List Clause)
  | any (clauses : List Clause)
  deriving Repr

/-- The longest pattern in bytes. -/
def patternLimit : Nat := 50000

/-- Whether a text matches a pattern for the store, which reads both up to a zero
character, but refuses a pattern for all of its bytes. -/
def likeText (pattern : String) (s : Option String) : Except Refusal Bool :=
  if patternLimit < pattern.utf8ByteSize then .error .longPattern
  else .ok (s.any fun s => Text.like (upToZero pattern).toList (upToZero s).toList)

/-- The text of a cell in the store, `none` for nothing. -/
def textCell (p : Payload) (column : String) : Except Refusal (Option String) :=
  match extract p column with
  | .ok v => .ok v.asText
  | .error why => .error why

/-- The float of a cell in the store, `none` for nothing. -/
def floatCell (p : Payload) (column : String) : Except Refusal (Option Binary64) :=
  match extract p column with
  | .ok v => .ok v.asFloat
  | .error why => .error why

mutual

/-- Whether the clause holds of a payload. -/
def Clause.holds (p : Payload) : Clause → Except Refusal Bool
  | .number column c operand =>
    (floatCell p column).map fun x => x.any fun x => c.holdsNumber x operand
  | .text column r operand => (textCell p column).map fun s => s.any fun s => r.holds s operand
  | .isNull column => (textCell p column).map Option.isNone
  | .isNotNull column => (textCell p column).map Option.isSome
  | .contains column pattern =>
    match textCell p column with
    | .ok s => likeText pattern s
    | .error why => .error why
  | .all cs => Clause.allHold p cs
  | .any cs => Clause.anyHolds p cs

def Clause.allHold (p : Payload) : List Clause → Except Refusal Bool
  | [] => .ok true
  | c :: cs =>
    match Clause.holds p c with
    | .ok true => Clause.allHold p cs
    | r => r

def Clause.anyHolds (p : Payload) : List Clause → Except Refusal Bool
  | [] => .ok false
  | c :: cs =>
    match Clause.holds p c with
    | .ok false => Clause.anyHolds p cs
    | r => r

end

/-- The clause of a test of one column. -/
def clauseOf (column : String) : Test → Clause
  | .number c operand => .number column c operand
  | .text .equals operand => .text column .equal operand
  | .text .greaterThan operand => .all [.text column .notEqual "", .text column .greater operand]
  | .text .lessThan operand => .all [.text column .notEqual "", .text column .less operand]
  | .contains needle => .contains column (Text.containsPattern needle.cellText)
  | .isEmpty => .any [.isNull column, .text column .equal ""]
  | .isNotEmpty => .all [.isNotNull column, .text column .notEqual ""]

/-- The clause of a compiled filter. -/
def clauseOfSelection (s : Selection) : Clause :=
  let clauses := s.tests.map fun t => clauseOf t.column t.test
  if s.matchesAll then .all []
  else match s.logic with
    | .and => .all clauses
    | .or => .any clauses

/-! ## Sorting -/

/-- What the store compares under one sort key : whether the cell ranks last, and its
value. -/
inductive Rank where
  | number (x : Option Binary64)
  | text (s : Option String)
  deriving DecidableEq, Repr

namespace Rank

/-- Whether the row goes behind those with a value. -/
def isLast : Rank → Bool
  | number x => x.isNone
  | text s => s.isNone || s == some ""

/-- The order of values, nothing coming first. -/
def valueLt : Rank → Rank → Bool
  | number none, number (some _) => true
  | number (some x), number (some y) => x.lt y
  | text none, text (some _) => true
  | text (some s), text (some t) => s < t
  | _, _ => false

/-- Whether the first goes strictly before the second. -/
def lt (direction : Direction) (a b : Rank) : Bool :=
  if a.isLast != b.isLast then b.isLast
  else match direction with
    | .ascending => a.valueLt b
    | .descending => b.valueLt a

end Rank

/-- The rank of a payload under a key. -/
def rankOf (p : Payload) (k : OrderKey) : Except Refusal Rank :=
  match k.type with
  | .number => (floatCell p k.column).map .number
  | .text => (textCell p k.column).map .text

/-- Whether ranks go strictly before others, the first difference deciding. `tie` decides
where there is none. -/
def ranksLt (tie : Bool) : List OrderKey → List Rank → List Rank → Bool
  | k :: ks, a :: as, b :: bs =>
    if a.lt k.direction b then true
    else if b.lt k.direction a then false
    else ranksLt tie ks as bs
  | _, _, _ => tie

end Tabula.Store
