import Tabula.Text.Case

/-!
# Patterns with wildcards

In a pattern `%` stands for any characters, `_` for one character, and a backslash makes
the next character stand for itself. Patterns match whole texts, the case of ASCII
letters aside, and read U+FFFE and U+FFFF, which stand for no characters, as U+FFFD
(`foldChar`). `escapeWildcards` makes a text stand for itself.
-/

namespace Tabula.Text

/-- One part of a pattern. -/
inductive PatternPart where
  | anything
  | anyChar
  | exactly (c : Char)
  deriving DecidableEq, Repr

/-- The parts of a pattern, `none` if it ends in a backslash that makes nothing stand for
itself. -/
def patternParts : List Char → Option (List PatternPart)
  | [] => some []
  | ['\\'] => none
  | '\\' :: c :: rest => (patternParts rest).map (.exactly c :: ·)
  | '%' :: rest => (patternParts rest).map (.anything :: ·)
  | '_' :: rest => (patternParts rest).map (.anyChar :: ·)
  | c :: rest => (patternParts rest).map (.exactly c :: ·)

/-- The text and everything that remains of it after its first characters. -/
def remainders : List Char → List (List Char)
  | [] => [[]]
  | c :: cs => (c :: cs) :: remainders cs

/-- A character as patterns compare it. -/
def foldChar (c : Char) : Char :=
  if c.toNat = 0xFFFE || c.toNat = 0xFFFF then Char.ofNat 0xFFFD else asciiLowerChar c

/-- A text as patterns compare it. -/
def fold (cs : List Char) : List Char := cs.map foldChar

theorem foldChar_eq_asciiLowerChar {c : Char} (h : c.toNat ≠ 0xFFFE ∧ c.toNat ≠ 0xFFFF) :
    foldChar c = asciiLowerChar c := by
  rw [foldChar, if_neg (by simpa using h)]

/-- Whether the parts match the whole text. -/
def matchParts : List PatternPart → List Char → Bool
  | [], cs => cs.isEmpty
  | .anything :: parts, cs => (remainders cs).any (matchParts parts)
  | .anyChar :: parts, _ :: cs => matchParts parts cs
  | .exactly d :: parts, c :: cs => foldChar c == foldChar d && matchParts parts cs
  | _ :: _, [] => false

/-- Whether a pattern matches the whole text. -/
def like (pattern cs : List Char) : Bool :=
  match patternParts pattern with
  | some parts => matchParts parts cs
  | none => false

/-- The text with a backslash before each wildcard and backslash. -/
def escapeWildcards (cs : List Char) : List Char :=
  cs.flatMap fun c => if c = '\\' || c = '%' || c = '_' then ['\\', c] else [c]

/-- The pattern that matches every text with `needle` in it. -/
def containsPattern (needle : String) : String :=
  String.ofList ('%' :: escapeWildcards needle.toList ++ ['%'])

/-- The pattern that matches every text that begins with `start`. -/
def beginsPattern (start : String) : String :=
  String.ofList (escapeWildcards start.toList ++ ['%'])

end Tabula.Text
