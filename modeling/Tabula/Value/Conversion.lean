import Tabula.Failure
import Tabula.Number.Reading

/-!
# Values as plain numbers

A setting or an argument that must be a number may come as one, as a truth value or as a
text. `Value.toInteger` cuts a float to its whole part, `Value.toFloat` reads an integer as
the nearest float; what is no number is a fault. `Value.items` and `Value.setting` take a
sequence or a mapping apart.
-/

namespace Tabula.Value

/-- The integer a value stands for. -/
def toInteger : Value → Except Failure Int
  | int n => .ok n
  | bool b => .ok (if b then 1 else 0)
  | float .nan => .error (.fault .undefinedInteger)
  | float x => if x.isFinite then .ok x.truncate else .error (.fault .infiniteInteger)
  | text s =>
    match integerOfText? s with
    | some n => .ok n
    | none => .error (.fault (.integerText (text s)))
  | bytes bs =>
    match integerOfText? (String.ofList (bs.map fun b => Char.ofNat b.toNat)) with
    | some n => .ok n
    | none => .error (.fault (.integerText (bytes bs)))
  | v => .error (.fault (.integerKind v.kindName))

/-- The float a value stands for. -/
def toFloat : Value → Except Failure Binary64
  | float x => .ok x
  | bool b => .ok (.ofInt (if b then 1 else 0))
  | int n =>
    match Binary64.ofInt? n with
    | some x => .ok x
    | none => .error (.fault .floatTooLarge)
  | text s =>
    match Binary64.ofText? s with
    | some x => .ok x
    | none => .error (.fault (.floatText (text s)))
  | bytes bs =>
    match Binary64.ofText? (String.ofList (bs.map fun b => Char.ofNat b.toNat)) with
    | some x => .ok x
    | none => .error (.fault (.floatText (bytes bs)))
  | v => .error (.fault (.floatKind v.kindName))

/-- The value of a mapping under a key that must be there. -/
def require (key : String) (v : Value) : Except Failure Value :=
  match v.get? key with
  | some x => .ok x
  | none => .error (.fault (.missingKey (text key)))

/-- The items of a sequence, the characters of a text, the keys of a mapping. -/
def items? : Value → Option (List Value)
  | list xs => some xs
  | tuple xs => some xs
  | text s => some (s.toList.map fun c => text (String.ofList [c]))
  | bytes bs => some (bs.map fun b => int b.toNat)
  | dict es => some (es.map (·.1))
  | _ => none

/-- The items of a value that must have some. -/
def items (v : Value) : Except Failure (List Value) :=
  match v.items? with
  | some xs => .ok xs
  | none => .error (.fault (.wrongKind ("'" ++ v.kindName ++ "' object is not iterable")))

/-- The value under a key of a mapping, which it need not have. -/
def setting? (key : String) (v : Value) : Except Failure (Option Value) :=
  match v with
  | dict es => .ok (lookup key es)
  | v => .error (.fault (.missingOperation v.kindName "get"))

/-- The value under a key of a mapping, or `default`. -/
def setting (key : String) (v default : Value) : Except Failure Value := do
  return (← v.setting? key).getD default

end Tabula.Value
