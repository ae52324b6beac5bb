import Tabula.Query.Filter

/-!
# Compiled queries in memory

Compiling a filter or sort looks up the declared type of each column. A condition becomes
a `Test` : numeric on number columns, by the text view on text columns. A `Plan` is a
compiled filter and sort; `Plan.apply` filters, sorts and pages rows in memory.

A test never holds of an empty cell, the test for emptiness aside. Under a sort key the
rows without a comparable value come last in either direction; later keys settle ties of
earlier ones, then the tie-break does, then the order the rows came in. An integer beyond
the largest float has no numeric view, and meeting one under a number column is a fault.
-/

namespace Tabula.Query

/-- The declared types by column id; without any, every column holds texts. -/
abbrev ColumnTypes := Option (List (String × ColumnType))

inductive Comparison where
  | equals
  | greaterThan
  | lessThan
  deriving DecidableEq, Repr

/-- A compiled test of one cell. -/
inductive Test where
  | number (comparison : Comparison) (operand : Binary64)
  | text (comparison : Comparison) (operand : String)
  | contains (needle : Value)
  | isEmpty
  | isNotEmpty
  deriving Repr

/-- A compiled condition. -/
structure ColumnTest where
  column : String
  test : Test
  deriving Repr

/-- A compiled filter. -/
structure Selection where
  tests : List ColumnTest
  logic : Logic
  deriving Repr

/-- A compiled sort key. -/
structure OrderKey where
  column : String
  type : ColumnType
  direction : Direction
  deriving DecidableEq, Repr

structure Plan where
  selection : Selection
  order : List OrderKey
  deriving Repr

/-! ## Compiling -/

def typeOf (types : ColumnTypes) (column : String) : Except Failure ColumnType :=
  match types with
  | none => .ok .text
  | some known =>
    match known.lookup column with
    | some type => .ok type
    | none => .error (.notFound .column column)

/-- The test that compares a cell of a column of this type with a value. -/
def comparisonTest (type : ColumnType) (comparison : Comparison) (v : Value) : Except Failure Test :=
  match type with
  | .text => .ok (.text comparison v.cellText)
  | .number => do
    match ← v.number with
    | some x => return .number comparison x
    | none => throw (.invalid (.number v))

def Condition.compile (types : ColumnTypes) (c : Condition) : Except Failure ColumnTest := do
  let type ← typeOf types c.column
  let test ← match c.operator with
    | .equals => comparisonTest type .equals c.value
    | .greaterThan => comparisonTest type .greaterThan c.value
    | .lessThan => comparisonTest type .lessThan c.value
    | .contains => pure (.contains c.value)
    | .isEmpty => pure .isEmpty
    | .isNotEmpty => pure .isNotEmpty
  return ⟨c.column, test⟩

def Filter.compile (types : ColumnTypes) (f : Filter) : Except Failure Selection := do
  let tests ← f.conditions.mapM (Condition.compile types)
  return ⟨tests, f.logic⟩

def SortKey.compile (types : ColumnTypes) (k : SortKey) : Except Failure OrderKey := do
  let type ← typeOf types k.column
  return ⟨k.column, type, k.direction⟩

def compileSort (types : ColumnTypes) (keys : List SortKey) : Except Failure (List OrderKey) :=
  keys.mapM (SortKey.compile types)

/-- Reads and compiles a raw filter. -/
def compileFilter (types : ColumnTypes) (raw : Value) : Except Failure Selection := do
  (← Filter.parse raw).compile types

/-- Reads and compiles a raw filter and a raw sort. -/
def compile (types : ColumnTypes) (filter sort : Value) : Except Failure Plan := do
  let selection ← compileFilter types filter
  let order ← compileSort types (← parseSort sort)
  return ⟨selection, order⟩

/-! ## Selecting -/

namespace Comparison

def holdsNumber (c : Comparison) (x operand : Binary64) : Bool :=
  match c with
  | equals => x.eq operand
  | greaterThan => operand.lt x
  | lessThan => x.lt operand

def holdsText (c : Comparison) (s operand : String) : Bool :=
  match c with
  | equals => s == operand
  | greaterThan => operand < s
  | lessThan => s < operand

end Comparison

/-- Whether a cell passes the test. -/
def Test.accepts (t : Test) (cell : Value) : Except Failure Bool :=
  match t with
  | number c operand => do
    match ← cell.number with
    | some x => return c.holdsNumber x operand
    | none => return false
  | text .equals operand => .ok (!cell.isNull && cell.cellText == operand)
  | text c operand => .ok (!cell.isEmptyCell && c.holdsText cell.cellText operand)
  | contains needle => .ok (cell.containsText needle)
  | isEmpty => .ok cell.isEmptyCell
  | isNotEmpty => .ok !cell.isEmptyCell

def ColumnTest.accepts (t : ColumnTest) (cells : Cells) : Except Failure Bool :=
  t.test.accepts (cells.get t.column)

namespace Selection

/-- Whether there is nothing to test. -/
def matchesAll (s : Selection) : Bool := s.tests.isEmpty

/-- Whether the cells pass. Tests that no longer matter are left out. -/
def accepts (s : Selection) (cells : Cells) : Except Failure Bool :=
  if s.matchesAll then .ok true
  else match s.logic with
    | .and => s.tests.allM fun t => t.accepts cells
    | .or => s.tests.anyM fun t => t.accepts cells

end Selection

/-! ## Sorting -/

/-- What the cells of one key are compared by. -/
inductive SortValue where
  | number (x : Binary64)
  | text (s : String)
  deriving DecidableEq, Repr

namespace SortValue

def lt : SortValue → SortValue → Bool
  | number x, number y => x.lt y
  | text s, text t => s < t
  | number _, text _ => true
  | text _, number _ => false

/-- Whether the first may stand before the second. -/
def le (direction : Direction) (a b : SortValue) : Bool :=
  match direction with
  | .ascending => !b.lt a
  | .descending => !a.lt b

end SortValue

/-- The comparable value of a row under a key, `none` for an empty cell. -/
def OrderKey.valueOf (k : OrderKey) (cells : Cells) : Except Failure (Option SortValue) :=
  let cell := cells.get k.column
  match k.type with
  | .number => do return (← cell.number).map .number
  | .text => .ok (if cell.isEmptyCell then none else some (.text cell.cellText))

/-- The items of a list with their values under a key. -/
def OrderKey.withValues {α : Type} (k : OrderKey) (cellsOf : α → Cells) :
    List α → Except Failure (List (Option SortValue × α))
  | [] => .ok []
  | a :: rest => do
    let v ← k.valueOf (cellsOf a)
    let vs ← k.withValues cellsOf rest
    return (v, a) :: vs

/-- The items that have a value, with it. -/
def presentItems {α : Type} (vs : List (Option SortValue × α)) : List (SortValue × α) :=
  vs.filterMap fun e => e.1.map (·, e.2)

/-- The items that have no value. -/
def emptyItems {α : Type} (vs : List (Option SortValue × α)) : List α :=
  vs.filterMap fun e => if e.1.isNone then some e.2 else none

/-- One stable pass : the rows with a value by that value, then the others. -/
def OrderKey.pass {α : Type} (k : OrderKey) (cellsOf : α → Cells) (items : List α) :
    Except Failure (List α) := do
  let vs ← k.withValues cellsOf items
  let sorted := (presentItems vs).mergeSort fun a b => SortValue.le k.direction a.1 b.1
  return sorted.map (·.2) ++ emptyItems vs

/-- Sorts by the keys, the last key first, after the tie-break. -/
def sortRows {α : Type} (order : List OrderKey) (cellsOf : α → Cells)
    (tiebreak : Option (α → α → Bool)) (items : List α) : Except Failure (List α) :=
  let start := match tiebreak with
    | some le => items.mergeSort le
    | none => items
  order.foldr (fun k sorted => do k.pass cellsOf (← sorted)) (.ok start)

/-! ## Paging -/

/-- A place in a list of `length` items, a negative one counting from the end. -/
def placeIn (length : Nat) (i : Int) : Nat :=
  if i < 0 then (i + length).toNat else min i.toNat length

/-- The items from `offset` on, at most `limit` of them. -/
def page {α : Type} (limit : Option Int) (offset : Int) (items : List α) : List α :=
  let first := placeIn items.length offset
  let last := match limit with
    | some n => placeIn items.length (offset + n)
    | none => items.length
  (items.take last).drop first

/-- The items that pass. -/
def Selection.select {α : Type} (s : Selection) (cellsOf : α → Cells) :
    List α → Except Failure (List α)
  | [] => .ok []
  | a :: rest => do
    let keep ← s.accepts (cellsOf a)
    let kept ← s.select cellsOf rest
    return if keep then a :: kept else kept

/-- Filters, sorts and pages rows in memory. -/
def Plan.apply {α : Type} (p : Plan) (cellsOf : α → Cells) (tiebreak : Option (α → α → Bool))
    (limit : Option Int) (offset : Int) (items : List α) : Except Failure (List α) := do
  let kept ← p.selection.select cellsOf items
  let sorted ← sortRows p.order cellsOf tiebreak kept
  return page limit offset sorted

end Tabula.Query
