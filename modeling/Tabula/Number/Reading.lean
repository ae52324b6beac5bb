import Tabula.Number.Binary64
import Tabula.Text.Blank
import Tabula.Text.Digit

/-!
# Numbers read from text

`Binary64.ofText?` and `integerOfText?` read a whole text : white space at its ends, a sign,
digits of any script with single underscores between them. A float may also be one of
the words for infinity or for no number. `Binary64.ofLeadingText` is the store's reading :
the longest beginning that is a number, zero if there is none.
-/

namespace Tabula

namespace Text

/-- The number of digits an integer text may have. -/
def integerDigitLimit : Nat := 4300

/-- The text with the digits of every script as ASCII ones and every white space beyond ASCII
as a blank. -/
def plainDigits (cs : List Char) : List Char :=
  cs.map fun c =>
    if c.toNat < 0x80 then c
    else if isBlank c then ' '
    else match digitValue? c with
      | some d => d.digitChar
      | none => c

/-- The text without its underscores, `none` if one does not stand between two digits. -/
def joinDigits? (afterDigit : Bool) : List Char → Option (List Char)
  | [] => some []
  | '_' :: c :: rest =>
    if afterDigit && c.isDigit then (joinDigits? true rest).map (c :: ·) else none
  | ['_'] => none
  | c :: rest => (joinDigits? c.isDigit rest).map (c :: ·)

/-- A leading sign, whether it is negative, and the rest. -/
def takeSign : List Char → Bool × List Char
  | '-' :: rest => (true, rest)
  | '+' :: rest => (false, rest)
  | cs => (false, cs)

/-- The leading digits and the rest. -/
def spanDigits (cs : List Char) : List Char × List Char :=
  (cs.takeWhile Char.isDigit, cs.dropWhile Char.isDigit)

end Text

open Text

/-- The digits of a decimal number, as a coefficient and a power of ten. -/
structure Scientific where
  coefficient : Nat
  exponent : Int

/-- Reads an exponent, `none` if none stands here. -/
def takeExponent? : List Char → Option (Int × List Char)
  | c :: rest =>
    if c = 'e' || c = 'E' then
      let (negative, rest) := takeSign rest
      let (ds, rest) := spanDigits rest
      if ds.isEmpty then none
      else
        let n : Int := Nat.ofDigitChars 10 ds 0
        some (if negative then -n else n, rest)
    else none
  | [] => none

/-- The fraction digits that follow a point, none and nothing read if no point stands here. -/
def takeFraction (cs : List Char) : List Char × List Char :=
  match cs with
  | '.' :: rest => spanDigits rest
  | _ => ([], cs)

/-- Reads an unsigned decimal number : digits, a point and digits, at least one digit in
all, and an exponent. -/
def takeScientific? (cs : List Char) : Option (Scientific × List Char) :=
  let (whole, rest) := spanDigits cs
  let (part, rest) := takeFraction rest
  if whole.isEmpty && part.isEmpty then none
  else
    let (e, rest) := (takeExponent? rest).getD (0, rest)
    some (⟨Nat.ofDigitChars 10 (whole ++ part) 0, e - part.length⟩, rest)

/-- The integer a text spells in full. -/
def integerOfText? (s : String) : Option Int := do
  let cs ← joinDigits? false (trimChars isAsciiBlank (plainDigits s.toList))
  let (negative, ds) := takeSign cs
  if ds.isEmpty || !ds.all Char.isDigit || integerDigitLimit < ds.length then none
  else
    let n : Int := Nat.ofDigitChars 10 ds 0
    some (if negative then -n else n)

namespace Binary64

/-- The float a text spells in full. -/
def ofText? (s : String) : Option Binary64 := do
  let cs ← joinDigits? false (trimChars isAsciiBlank (plainDigits s.toList))
  let (negative, size) := takeSign cs
  let word := String.ofList (size.map Char.toLower)
  if word = "inf" || word = "infinity" then some (signed negative .infinity)
  else if word = "nan" then some nan
  else
    match takeScientific? size with
    | some (x, []) => some (ofDecimal negative x.coefficient x.exponent)
    | _ => none

/-- The float at the beginning of a text after blanks, zero if there is none. -/
def ofLeadingText (s : String) : Binary64 :=
  let (negative, size) := takeSign (s.toList.dropWhile isAsciiBlank)
  match takeScientific? size with
  | some (x, _) => ofDecimal negative x.coefficient x.exponent
  | none => zero

end Binary64

end Tabula
