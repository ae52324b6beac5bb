import Tabula.Failure
import Tabula.Number.Reading

/-!
# Plain scalars

A scalar without quotes is nothing, a truth value, an integer or a float if it is written
like one, and a text otherwise. Integers may be binary, octal, decimal, hexadecimal or in
base sixty with colons; floats need a point, and their exponent a sign. Underscores among the digits
do not count.
-/

namespace Tabula.Config.Yaml

/-- A failure of reading. -/
def stop {α : Type} (stage : ReadingStage) : Except Failure α := .error (.fault (.unreadable stage))

/-- The words for nothing. -/
def nullWords : List String := ["", "~", "null", "Null", "NULL"]

def trueWords : List String := ["yes", "Yes", "YES", "true", "True", "TRUE", "on", "On", "ON"]

def falseWords : List String := ["no", "No", "NO", "false", "False", "FALSE", "off", "Off", "OFF"]

/-- Words that stand for no value by themselves. -/
def reservedWords : List String := ["<<", "="]

def isDigitMark (c : Char) : Bool := c.isDigit || c == '_'

/-- Digits and underscores, with a digit first. -/
def isDigits : List Char → Bool
  | c :: cs => c.isDigit && cs.all isDigitMark
  | [] => false

/-- Digits and underscores of which the first is no zero. -/
def isCount (cs : List Char) : Bool := isDigits cs && cs.head? != some '0'

/-- Whether the text is a place in base sixty : one or two digits below sixty. -/
def isSixtieth : List Char → Bool
  | [a] => a.isDigit
  | [a, b] => '0' ≤ a && a ≤ '5' && b.isDigit
  | _ => false

def withoutMarks (cs : List Char) : List Char := cs.filter (· != '_')

/-- The value of digits in a base that all of them fit, none if there are no digits. -/
def valueInBase (base : Nat) (cs : List Char) : Except Failure Int :=
  let ds := withoutMarks cs
  if ds.isEmpty then .error (.fault (.integerText (.text "")))
  else .ok (ds.foldl (fun n c => n * base + (Json.hexValue? c).getD 0) 0 : Nat)

/-- The value of decimal digits, of which there must not be too many. -/
def decimalValue (cs : List Char) : Except Failure Int :=
  let s := String.ofList (withoutMarks cs)
  match integerOfText? s with
  | some n => .ok n
  | none => .error (.fault (.integerText (.text s)))

/-- The value of places in base sixty. -/
def sixtiethsValue (parts : List (List Char)) : Except Failure Int :=
  parts.foldlM (fun n part => return n * 60 + (← decimalValue part)) 0

/-- The size of an integer, none if the text is not written like one. -/
def integerSize? (cs : List Char) : Option (Except Failure Int) :=
  match cs with
  | ['0'] => some (.ok 0)
  | '0' :: 'b' :: d :: ds =>
    if (d :: ds).all fun c => c == '0' || c == '1' || c == '_' then some (valueInBase 2 (d :: ds))
    else none
  | '0' :: 'x' :: d :: ds =>
    if (d :: ds).all fun c => (Json.hexValue? c).isSome || c == '_' then
      some (valueInBase 16 (d :: ds))
    else none
  | '0' :: d :: ds =>
    if (d :: ds).all fun c => ('0' ≤ c && c ≤ '7') || c == '_' then some (valueInBase 8 ('0' :: d :: ds))
    else none
  | cs =>
    match cs.splitOn ':' with
    | [whole] => if isCount whole then some (decimalValue whole) else none
    | whole :: parts =>
      if isCount whole && parts.all isSixtieth then some (sixtiethsValue (whole :: parts)) else none
    | [] => none

/-- Whether the text is an exponent, or nothing. -/
def isExponent : List Char → Bool
  | [] => true
  | e :: sign :: d :: ds =>
    (e == 'e' || e == 'E') && (sign == '+' || sign == '-') && (d :: ds).all Char.isDigit
  | _ => false

/-- Whether the text after a point is written like the rest of a float. -/
def isFraction (cs : List Char) : Bool := isExponent (cs.dropWhile isDigitMark)

/-- The float that a text in base ten spells. -/
def decimalFloat (cs : List Char) : Except Failure Binary64 :=
  let s := String.ofList (withoutMarks cs)
  match Binary64.ofText? s with
  | some x => .ok x
  | none => .error (.fault (.floatText (.text s)))

/-- The float that places in base sixty spell, the last one first. -/
def sixtiethsFloat (base : Nat) : List (List Char) → Except Failure Binary64
  | [] => .ok .zero
  | part :: parts => do
    let x ← decimalFloat part
    let rest ← sixtiethsFloat (base * 60) parts
    return (x.mul (.ofInt base)).add rest

/-- The size of a float, none if the text is not written like one. A float that starts with
its point has no sign, which `signed` says. -/
def floatSize? (signed : Bool) (cs : List Char) : Option (Except Failure Binary64) :=
  if ["inf", "Inf", "INF"].contains (String.ofList (cs.drop 1)) && cs.head? = some '.' then
    some (.ok .infinity)
  else if !signed && ["nan", "NaN", "NAN"].contains (String.ofList (cs.drop 1)) && cs.head? = some '.' then
    some (.ok .nan)
  else
    let whole := cs.takeWhile (· != '.')
    match cs.drop whole.length with
    | '.' :: part =>
      if whole.isEmpty then
        if !signed && (part.head?.any Char.isDigit) && isFraction part then some (decimalFloat cs) else none
      else if isDigits whole && isFraction part then some (decimalFloat cs)
      else match whole.splitOn ':' with
        | first :: p :: parts =>
          if isDigits first && (p :: parts).all isSixtieth && part.all isDigitMark then
            let places := ((first :: p :: parts).dropLast) ++ [(p :: parts).getLastD [] ++ '.' :: part]
            some (sixtiethsFloat 1 places.reverse)
          else none
        | _ => none
    | _ => none

/-- The value of a plain scalar. -/
def plainValue (s : String) : Except Failure Value :=
  if nullWords.contains s then .ok .null
  else if trueWords.contains s then .ok (.bool true)
  else if falseWords.contains s then .ok (.bool false)
  else if reservedWords.contains s then stop .construction
  else
    let (negative, size) := Text.takeSign s.toList
    let signed := size.length < s.length
    match floatSize? signed size with
    | some x => x.map fun x => .float (if negative then (Binary64.ofInt (-1)).mul x else x)
    | none =>
      match integerSize? size with
      | some n => n.map fun n => .int (if negative then -n else n)
      | none => .ok (.text s)

end Tabula.Config.Yaml
