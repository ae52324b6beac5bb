import Tabula.Text.Quoted

/-!
# Texts as bytes

`utf8Decode` reads a text from its bytes in UTF-8 and says which bytes stand in the way :
the first bytes that begin no character, and what is wrong with them. The other
encodings that a JSON text may have are read here too. Half of a surrogate pair, which is
no character, becomes the replacement character where it is let through.
-/

namespace Tabula.Text

/-- Bytes that do not decode : the encoding, the bytes from the first bad one on, how many
of them are bad, their place and what is wrong. -/
structure Undecodable where
  encoding : String
  bytes : List UInt8
  count : Nat
  position : Nat
  reason : String
  deriving Repr

/-- The words for bytes that do not decode. -/
def Undecodable.message (u : Undecodable) : String :=
  "'" ++ u.encoding ++ "' codec can't decode " ++
  (if u.count = 1 then
    let b := (u.bytes.headD 0).toNat
    "byte 0x" ++ String.ofList (hexDigits 2 b) ++ " in position " ++ toString u.position
  else
    "bytes in position " ++ toString u.position ++ "-" ++ toString (u.position + u.count - 1)) ++
  ": " ++ u.reason

/-- The character of a code point, the replacement character for half of a surrogate pair. -/
def characterOf (n : Nat) : Char :=
  if h : n.isValidChar then Char.ofNatAux n h else Char.ofNat 0xFFFD

def isHighSurrogate (n : Nat) : Bool := 0xD800 ≤ n && n ≤ 0xDBFF

def isLowSurrogate (n : Nat) : Bool := 0xDC00 ≤ n && n ≤ 0xDFFF

/-- The code point of a surrogate pair. -/
def joinSurrogates (high low : Nat) : Nat :=
  0x10000 + (high - 0xD800) * 0x400 + (low - 0xDC00)

/-- A byte that continues a character. -/
def isTail (b : Nat) : Bool := 0x80 ≤ b && b ≤ 0xBF

/-- Whether `b` may follow the first byte `a` of a character. -/
def isSecond (a b : Nat) : Bool :=
  isTail b && !(a == 0xE0 && b < 0xA0) && !(a == 0xED && 0xA0 ≤ b) &&
  !(a == 0xF0 && b < 0x90) && !(a == 0xF4 && 0x90 ≤ b)

/-- The number of bytes of the character that begins with `a`, zero if none does. -/
def lengthFrom (a : Nat) : Nat :=
  if a < 0x80 then 1
  else if a < 0xC2 then 0
  else if a < 0xE0 then 2
  else if a < 0xF0 then 3
  else if a < 0xF5 then 4
  else 0

/-- What one step of decoding finds : a character with the number of its bytes, or the
number of bad bytes and what is wrong with them. -/
inductive Utf8Step where
  | character (code count : Nat)
  | bad (count : Nat) (reason : String)

/-- The first character of some bytes, which are not empty. -/
def utf8Step (a : Nat) (rest : List Nat) : Utf8Step :=
  let invalid := "invalid continuation byte"
  let short := "unexpected end of data"
  match lengthFrom a, rest with
  | 1, _ => .character a 1
  | 2, [] => .bad 1 short
  | 2, b :: _ => if isTail b then .character ((a - 0xC0) * 0x40 + (b - 0x80)) 2 else .bad 1 invalid
  | 3, [] => .bad 1 short
  | 3, [b] => if isSecond a b then .bad 2 short else .bad 1 invalid
  | 3, b :: c :: _ =>
    if !isSecond a b then .bad 1 invalid
    else if !isTail c then .bad 2 invalid
    else .character ((a - 0xE0) * 0x1000 + (b - 0x80) * 0x40 + (c - 0x80)) 3
  | 4, [] => .bad 1 short
  | 4, [b] => if isSecond a b then .bad 2 short else .bad 1 invalid
  | 4, [b, c] =>
    if !isSecond a b then .bad 1 invalid
    else if !isTail c then .bad 2 invalid
    else .bad 3 short
  | 4, b :: c :: d :: _ =>
    if !isSecond a b then .bad 1 invalid
    else if !isTail c then .bad 2 invalid
    else if !isTail d then .bad 3 invalid
    else .character ((a - 0xF0) * 0x40000 + (b - 0x80) * 0x1000 + (c - 0x80) * 0x40 + (d - 0x80)) 4
  | _, _ => .bad 1 "invalid start byte"

/-- Whether three bytes are half of a surrogate pair. -/
def isSurrogateHalf (a b c : Nat) : Bool := a == 0xED && isTail b && 0xA0 ≤ b && isTail c

/-- Decodes bytes that stand at `position`, `acc` being the characters before them, last
one first. With `lenient` half of a surrogate pair is let through. -/
def utf8DecodeFrom (lenient : Bool) : Nat → Nat → List Char → List UInt8 →
    Except Undecodable (List Char)
  | 0, _, acc, _ => .ok acc.reverse
  | _ + 1, _, acc, [] => .ok acc.reverse
  | fuel + 1, position, acc, a :: rest =>
    match utf8Step a.toNat ((rest.take 3).map UInt8.toNat) with
    | .character code count =>
      utf8DecodeFrom lenient fuel (position + count) (characterOf code :: acc) (rest.drop (count - 1))
    | .bad count reason =>
      match lenient, rest with
      | true, b :: c :: tail =>
        if isSurrogateHalf a.toNat b.toNat c.toNat then
          utf8DecodeFrom lenient fuel (position + 3) (Char.ofNat 0xFFFD :: acc) tail
        else .error ⟨"utf-8", a :: rest, count, position, reason⟩
      | _, _ => .error ⟨"utf-8", a :: rest, count, position, reason⟩

/-- The text of bytes in UTF-8. -/
def utf8Decode (bs : List UInt8) : Except Undecodable (List Char) :=
  utf8DecodeFrom false bs.length 0 [] bs

/-- The order of the bytes in a unit of more than one. -/
inductive ByteOrder where
  | little
  | big
  deriving DecidableEq

/-- The number that some bytes spell. -/
def ByteOrder.number (order : ByteOrder) (bs : List UInt8) : Nat :=
  let high := match order with
    | little => bs.reverse
    | big => bs
  high.foldl (fun n b => n * 256 + b.toNat) 0

def ByteOrder.suffixText : ByteOrder → String
  | little => "le"
  | big => "be"

/-- Decodes units of two bytes, a surrogate pair being one character. -/
def utf16DecodeFrom (order : ByteOrder) : Nat → Nat → List Char → List UInt8 →
    Except Undecodable (List Char)
  | 0, _, acc, _ => .ok acc.reverse
  | _ + 1, _, acc, [] => .ok acc.reverse
  | _ + 1, position, _, [a] =>
    .error ⟨"utf-16-" ++ order.suffixText, [a], 1, position, "truncated data"⟩
  | fuel + 1, position, acc, a :: b :: rest =>
    let unit := order.number [a, b]
    let next := order.number (rest.take 2)
    if isHighSurrogate unit && 2 ≤ (rest.take 2).length && isLowSurrogate next then
      utf16DecodeFrom order fuel (position + 4) (characterOf (joinSurrogates unit next) :: acc) (rest.drop 2)
    else utf16DecodeFrom order fuel (position + 2) (characterOf unit :: acc) rest

/-- Decodes units of four bytes. -/
def utf32DecodeFrom (order : ByteOrder) : Nat → Nat → List Char → List UInt8 →
    Except Undecodable (List Char)
  | 0, _, acc, _ => .ok acc.reverse
  | _ + 1, _, acc, [] => .ok acc.reverse
  | fuel + 1, position, acc, a :: b :: c :: d :: rest =>
    let code := order.number [a, b, c, d]
    if 0x10FFFF < code then
      .error ⟨"utf-32-" ++ order.suffixText, a :: b :: c :: d :: rest, 4, position,
        "code point not in range(0x110000)"⟩
    else utf32DecodeFrom order fuel (position + 4) (characterOf code :: acc) rest
  | _ + 1, position, _, rest =>
    .error ⟨"utf-32-" ++ order.suffixText, rest, rest.length, position, "truncated data"⟩

/-- Decodes bytes whose encoding shows in a mark at their beginning or in the zeros among
the first four of them. -/
def detectDecode (bs : List UInt8) : Except Undecodable (List Char) :=
  let n := bs.length
  match bs with
  | 0xFF :: 0xFE :: 0 :: 0 :: rest => utf32DecodeFrom .little n 4 [] rest
  | 0 :: 0 :: 0xFE :: 0xFF :: rest => utf32DecodeFrom .big n 4 [] rest
  | 0xFF :: 0xFE :: rest => utf16DecodeFrom .little n 2 [] rest
  | 0xFE :: 0xFF :: rest => utf16DecodeFrom .big n 2 [] rest
  | 0xEF :: 0xBB :: 0xBF :: rest => utf8DecodeFrom true n 0 [] rest
  | a :: b :: c :: d :: _ =>
    if a = 0 then
      if b = 0 then utf32DecodeFrom .big n 0 [] bs else utf16DecodeFrom .big n 0 [] bs
    else if b = 0 then
      if c = 0 && d = 0 then utf32DecodeFrom .little n 0 [] bs else utf16DecodeFrom .little n 0 [] bs
    else utf8DecodeFrom true n 0 [] bs
  | [a, b] =>
    if a = 0 then utf16DecodeFrom .big n 0 [] bs
    else if b = 0 then utf16DecodeFrom .little n 0 [] bs
    else utf8DecodeFrom true n 0 [] bs
  | _ => utf8DecodeFrom true n 0 [] bs

/-- The bytes of one character in UTF-8. -/
def utf8EncodeChar (c : Char) : List UInt8 :=
  let n := c.toNat
  let tail (k : Nat) : UInt8 := UInt8.ofNat (0x80 + n / Nat.pow 0x40 k % 0x40)
  if n < 0x80 then [UInt8.ofNat n]
  else if n < 0x800 then [UInt8.ofNat (0xC0 + n / 0x40), tail 0]
  else if n < 0x10000 then [UInt8.ofNat (0xE0 + n / 0x1000), tail 1, tail 0]
  else [UInt8.ofNat (0xF0 + n / 0x40000), tail 2, tail 1, tail 0]

/-- The bytes of a text in UTF-8. -/
def utf8Encode (s : String) : List UInt8 := s.toList.flatMap utf8EncodeChar

end Tabula.Text
