import Tabula.Cell
import Tabula.Json.Nesting

/-!
# Filters and sorts as they are asked for

A `Filter` is a list of conditions joined by `Logic`, a sort a list of `SortKey`s. Both are
read from a raw value or from its JSON text; nothing and a blank text ask for nothing.
`Filter.toValue` and `sortValue` are the form in which a view keeps them, which reads back
as the same filter and sort.
-/

namespace Tabula.Query

/-- What a condition asks of a cell. -/
inductive Operator where
  | equals
  | contains
  | greaterThan
  | lessThan
  | isEmpty
  | isNotEmpty
  deriving DecidableEq, Repr

namespace Operator

def label : Operator → String
  | equals => "equals"
  | contains => "contains"
  | greaterThan => "greaterThan"
  | lessThan => "lessThan"
  | isEmpty => "isEmpty"
  | isNotEmpty => "isNotEmpty"

def all : List Operator := [equals, contains, greaterThan, lessThan, isEmpty, isNotEmpty]

/-- Whether a condition with this operator compares with a value. -/
def needsValue : Operator → Bool
  | isEmpty => false
  | isNotEmpty => false
  | _ => true

end Operator

/-- How the conditions of a filter are joined. -/
inductive Logic where
  | and
  | or
  deriving DecidableEq, Repr

def Logic.label : Logic → String
  | and => "AND"
  | or => "OR"

inductive Direction where
  | ascending
  | descending
  deriving DecidableEq, Repr

def Direction.label : Direction → String
  | ascending => "asc"
  | descending => "desc"

/-- A condition on one column. The value is null if the operator needs none. -/
structure Condition where
  column : String
  operator : Operator
  value : Value
  deriving Repr

structure Filter where
  conditions : List Condition
  logic : Logic
  deriving Repr

structure SortKey where
  column : String
  direction : Direction
  deriving DecidableEq, Repr

/-- The filter that asks for nothing. -/
def Filter.everything : Filter := ⟨[], .and⟩

/-! ## Written form -/

def Condition.toValue (c : Condition) : Value :=
  let head := [("columnId", Value.text c.column), ("operator", .text c.operator.label)]
  .object (if c.value.isNull then head else head ++ [("value", c.value)])

def Filter.toValue (f : Filter) : Value :=
  .object [("conditions", .list (f.conditions.map Condition.toValue)), ("logic", .text f.logic.label)]

def SortKey.toValue (k : SortKey) : Value :=
  .object [("columnId", .text k.column), ("direction", .text k.direction.label)]

def sortValue (keys : List SortKey) : Value := .list (keys.map SortKey.toValue)

/-! ## Reading -/

/-- Whether bytes are blank. -/
def areBlank (bs : List UInt8) : Bool := bs.all fun b => Text.isAsciiBlank (Char.ofNat b.toNat)

/-- The raw value behind a text or bytes of JSON, null for a blank one. Any other value is
its own. -/
def load (what : String) (raw : Value) : Except Failure Value :=
  let parsed (r : Except Json.ReadError Value) : Except Failure Value :=
    r.mapError fun why => .invalid (.queryJson what why)
  match raw with
  | .text s =>
    if Text.isBlankText s then .ok .null
    else if Json.isTooDeep s.toList then .error (.fault .tooDeep)
    else parsed (Json.read s)
  | .bytes bs =>
    if areBlank bs then .ok .null
    else if Json.areTooDeep bs then .error (.fault .tooDeep)
    else parsed (Json.readBytes bs)
  | v => .ok v

/-- The choice whose label the value is. -/
def choose {α : Type} (what : String) (label : α → String) (choices : List α) (v : Value) :
    Except Failure α :=
  match choices.find? fun c => v.isText (label c) with
  | some c => .ok c
  | none => .error (.invalid (.choice what v (choices.map label)))

/-- The column id of a condition or sort key. -/
def columnOf (part : QueryPart) (raw : Value) : Except Failure String :=
  match raw.get "columnId" with
  | .text s => if s = "" then .error (.invalid (.columnId part)) else .ok s
  | _ => .error (.invalid (.columnId part))

/-- Whether a condition may compare with the value. -/
def isOperand (v : Value) : Bool :=
  match v.classify with
  | some .text => true
  | some .number => true
  | _ => false

def Condition.parse (index : Nat) (raw : Value) : Except Failure Condition :=
  match raw with
  | .dict _ => do
    let column ← columnOf (.condition index) raw
    let operator ← choose "filter operator" Operator.label Operator.all (raw.get "operator")
    let value := raw.get "value"
    if !value.isNull && !isOperand value then throw (.invalid (.conditionValue index))
    if operator.needsValue && value.isNull then
      throw (.invalid (.conditionNeedsValue index operator.label))
    return ⟨column, operator, if operator.needsValue then value else .null⟩
  | _ => .error (.invalid (.partNotObject (.condition index)))

/-- Parses the items of a list, each with its index. -/
def parseEach {α : Type} (parse : Nat → Value → Except Failure α) (index : Nat) :
    List Value → Except Failure (List α)
  | [] => .ok []
  | v :: vs => do
    let x ← parse index v
    let xs ← parseEach parse (index + 1) vs
    return x :: xs

def Filter.parse (raw : Value) : Except Failure Filter := do
  match ← load "filter" raw with
  | .null => return Filter.everything
  | .dict es =>
    let raw := Value.dict es
    let conditions ← match raw.get "conditions" with
      | .null => pure []
      | .list vs => pure vs
      | _ => throw (.invalid .conditionsNotList)
    let conditions ← parseEach Condition.parse 0 conditions
    let logic := raw.get "logic"
    let logic ← if logic.truthy then choose "filter logic" Logic.label [.and, .or] logic else pure .and
    return ⟨conditions, logic⟩
  | _ => throw (.invalid .filterNotObject)

def SortKey.parse (index : Nat) (raw : Value) : Except Failure SortKey :=
  match raw with
  | .dict _ => do
    let column ← columnOf (.sortKey index) raw
    let direction ← match raw.get? "direction" with
      | none => pure .ascending
      | some v => choose "sort direction" Direction.label [.ascending, .descending] v
    return ⟨column, direction⟩
  | _ => .error (.invalid (.partNotObject (.sortKey index)))

def parseSort (raw : Value) : Except Failure (List SortKey) := do
  match ← load "sort" raw with
  | .null => return []
  | .list vs => parseEach SortKey.parse 0 vs
  | _ => throw (.invalid .sortNotList)

end Tabula.Query
