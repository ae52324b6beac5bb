import Tabula.Json.Reader

/-!
# Nested brackets

Reading goes one level deeper at each bracket that opens a list or an object, and there is room for so
many levels only. `isTooDeep` says whether reading a text comes to a bracket for which there is no room
left. Brackets next to one another, within a text or behind a mistake do not count.
-/

namespace Tabula.Json

/-- The levels for which there is room. -/
def levelLimit : Nat := 980

mutual

/-- Whether reading the value that stands here goes deeper than `levels`. `fuel` bounds what is read, as
in `readValue`. -/
def valueExceeds : Nat → Nat → List Char → Bool
  | _, 0, _ => false
  | levels, fuel + 1, cs =>
    match cs, levels with
    | '[' :: _, 0 => true
    | '[' :: rest, levels + 1 =>
      match skipBlanks rest with
      | ']' :: _ => false
      | rest => elementsExceed levels fuel rest
    | '\x7b' :: _, 0 => true
    | '\x7b' :: rest, levels + 1 =>
      match skipBlanks rest with
      | '\x7d' :: _ => false
      | rest => membersExceed levels fuel rest
    | _, _ => false

/-- The same of the elements of a list that remain. -/
def elementsExceed : Nat → Nat → List Char → Bool
  | _, 0, _ => false
  | levels, fuel + 1, cs =>
    valueExceeds levels fuel cs ||
      match readValue fuel cs with
      | .error _ => false
      | .ok (_, rest) =>
        match skipBlanks rest with
        | ',' :: rest => elementsExceed levels fuel (skipBlanks rest)
        | _ => false

/-- The same of the members of an object that remain. -/
def membersExceed : Nat → Nat → List Char → Bool
  | _, 0, _ => false
  | levels, fuel + 1, cs =>
    match readName cs with
    | .error _ => false
    | .ok (_, rest) =>
      valueExceeds levels fuel rest ||
        match readValue fuel rest with
        | .error _ => false
        | .ok (_, rest) =>
          match skipBlanks rest with
          | ',' :: rest => membersExceed levels fuel (skipBlanks rest)
          | _ => false

end

/-- Whether reading a text goes deeper than there is room. -/
def isTooDeep (cs : List Char) : Bool :=
  valueExceeds levelLimit (2 * cs.length + 1) (skipBlanks cs)

/-- Whether reading bytes does, in the encoding they show. -/
def areTooDeep (bs : List UInt8) : Bool :=
  match Text.detectDecode bs with
  | .ok cs => isTooDeep cs
  | .error _ => false

end Tabula.Json
