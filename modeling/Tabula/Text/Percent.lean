import Tabula.Text.Utf8

/-!
# Percent codes

In the path of an address a percent sign with two hexadecimal digits stands for a byte of
UTF-8. `percentDecode` puts the characters in place of the codes. A percent sign that starts no code
stands for itself, and bytes that are no character become the replacement character.
-/

namespace Tabula.Text

/-- The value of a hexadecimal digit. -/
def hexDigitValue? (c : Char) : Option Nat :=
  if c.isDigit then some (c.toNat - '0'.toNat)
  else if 'a' ≤ c && c ≤ 'f' then some (c.toNat - 'a'.toNat + 10)
  else if 'A' ≤ c && c ≤ 'F' then some (c.toNat - 'A'.toNat + 10)
  else none

/-- The bytes of a text in which codes stand for bytes. -/
def percentBytes : List Char → List UInt8
  | '%' :: a :: b :: rest =>
    match hexDigitValue? a, hexDigitValue? b with
    | some x, some y => UInt8.ofNat (x * 16 + y) :: percentBytes rest
    | _, _ => 0x25 :: percentBytes (a :: b :: rest)
  | c :: rest => utf8EncodeChar c ++ percentBytes rest
  | [] => []

/-- The characters of bytes in UTF-8, those that are none being replaced. -/
def utf8Replaced : Nat → List UInt8 → List Char
  | fuel + 1, a :: rest =>
    match utf8Step a.toNat ((rest.take 3).map UInt8.toNat) with
    | .character code count => characterOf code :: utf8Replaced fuel (rest.drop (count - 1))
    | .bad count _ => '\ufffd' :: utf8Replaced fuel (rest.drop (count - 1))
  | _, _ => []

/-- The characters of a text in which codes stand for bytes. -/
def percentDecode (cs : List Char) : List Char :=
  let bytes := percentBytes cs
  utf8Replaced bytes.length bytes

end Tabula.Text
