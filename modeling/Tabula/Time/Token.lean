import Tabula.Text.Blank
import Tabula.Text.Digit

/-!
# Tokens of a timestamp

A timestamp is cut into numbers, words and single characters. A number may have a point or
a comma in it; a comma counts as a point. Words and numbers with more points, or with a
point at their end, fall apart at the points.
-/

namespace Tabula.Time

def isDigit (c : Char) : Bool := (Text.digitValue? c).isSome

/-- A letter, every character beyond ASCII that is neither digit nor blank counting as one. -/
def isLetter (c : Char) : Bool :=
  if c.toNat < 0x80 then c.isAlpha else !isDigit c && !Text.isBlank c

/-- The run that is being read. -/
inductive Run where
  | word
  | number
  | dottedWord
  | dottedNumber
  deriving DecidableEq

/-- The run that `c` carries on with, `none` if the token ends before it. `size` and `last`
are those of the token so far. -/
def Run.next? (run : Run) (size : Nat) (last c : Char) : Option Run :=
  match run with
  | word => if isLetter c then some word else if c = '.' then some dottedWord else none
  | number =>
    if isDigit c then some number
    else if c = '.' || (c = ',' && 2 ≤ size) then some dottedNumber
    else none
  | dottedWord =>
    if c = '.' || isLetter c then some dottedWord
    else if isDigit c && last = '.' then some dottedNumber
    else none
  | dottedNumber =>
    if c = '.' || isDigit c then some dottedNumber
    else if isLetter c && last = '.' then some dottedWord
    else none

/-- The characters of a token, last one first, and what it is at its end. -/
structure Piece where
  run : Run
  sawWord : Bool
  reversed : List Char

/-- Reads on in a token. -/
def readPiece (p : Piece) : List Char → Piece × List Char
  | [] => (p, [])
  | c :: cs =>
    match p.run.next? p.reversed.length (p.reversed.headD ' ') c with
    | some run =>
      readPiece ⟨run, p.sawWord || p.run = .word || p.run = .dottedWord, c :: p.reversed⟩ cs
    | none => (⟨p.run, p.sawWord || p.run = .word || p.run = .dottedWord, p.reversed⟩, c :: cs)

def isPoint (c : Char) : Bool := c = '.' || c = ','

/-- Cuts at every point, the points being tokens of their own. -/
def cutAtPoints (acc : List Char) : List Char → List (List Char)
  | [] => if acc.isEmpty then [] else [acc.reverse]
  | c :: cs =>
    if isPoint c then
      let rest := [c] :: cutAtPoints [] cs
      if acc.isEmpty then rest else acc.reverse :: rest
    else cutAtPoints (c :: acc) cs

/-- The tokens that a piece is made of. -/
def Piece.tokens (p : Piece) : List (List Char) :=
  let cs := p.reversed.reverse
  match p.run with
  | .word | .number => [cs]
  | run =>
    if p.sawWord || 1 < cs.count '.' || isPoint (p.reversed.headD ' ') then cutAtPoints [] cs
    else if run = .dottedNumber && cs.count '.' = 0 then
      [cs.map fun c => if c = ',' then '.' else c]
    else [cs]

/-- The tokens of a text. `fuel` is at least its length. -/
def tokensFrom : Nat → List Char → List (List Char)
  | 0, _ => []
  | _ + 1, [] => []
  | fuel + 1, c :: cs =>
    if isLetter c then
      let (p, rest) := readPiece ⟨.word, false, [c]⟩ cs
      p.tokens ++ tokensFrom fuel rest
    else if isDigit c then
      let (p, rest) := readPiece ⟨.number, false, [c]⟩ cs
      p.tokens ++ tokensFrom fuel rest
    else (if Text.isBlank c then [' '] else [c]) :: tokensFrom fuel cs

/-- The tokens of a text, zero characters left out. -/
def tokens (s : String) : List String :=
  let cs := s.toList.filter fun c => c.toNat ≠ 0
  (tokensFrom cs.length cs).map String.ofList

end Tabula.Time
