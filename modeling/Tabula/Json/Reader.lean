import Tabula.Number.Reading
import Tabula.Text.Utf8
import Tabula.Value

/-!
# Reading JSON

`Json.read` reads a text that is one JSON value with blanks around it. Besides the standard
it takes `NaN`, `Infinity` and `-Infinity` as numbers; of two equal names in an object
the last value counts. A number without fraction and exponent is an integer of any size up
to 4300 digits.

The readers work on the characters that remain, and a mistake carries the characters
that remain where it was found, so its place is known from their number.
-/

namespace Tabula.Json

/-- What is wrong with a JSON text. -/
inductive Mistake where
  | noValue
  | noName
  | noColon
  | noComma
  | extraData
  | unterminatedText
  | controlCharacter
  | badEscape
  | badCodeEscape
  | byteOrderMark
  deriving DecidableEq, Repr

def Mistake.words : Mistake → String
  | noValue => "Expecting value"
  | noName => "Expecting property name enclosed in double quotes"
  | noColon => "Expecting ':' delimiter"
  | noComma => "Expecting ',' delimiter"
  | extraData => "Extra data"
  | unterminatedText => "Unterminated string starting at"
  | controlCharacter => "Invalid control character at"
  | badEscape => "Invalid \\escape"
  | badCodeEscape => "Invalid \\uXXXX escape"
  | byteOrderMark => "Unexpected UTF-8 BOM (decode using utf-8-sig)"

/-- Why reading stopped : a mistake and what remains there, or an integer with too many
digits. -/
inductive Stop where
  | mistake (what : Mistake) (rest : List Char)
  | longInteger (digits : Nat)

/-- Why a text or bytes are not JSON. -/
inductive ReadError where
  | mistake (what : Mistake) (line column position : Nat)
  | longInteger (digits : Nat)
  | undecodable (why : Text.Undecodable)
  deriving Repr

/-- The words for a reading error. -/
def ReadError.message : ReadError → String
  | mistake what line column position =>
    what.words ++ ": line " ++ toString line ++ " column " ++ toString column ++
      " (char " ++ toString position ++ ")"
  | longInteger digits =>
    "Exceeds the limit (" ++ toString Text.integerDigitLimit ++
      " digits) for integer string conversion: value has " ++ toString digits ++
      " digits; use sys.set_int_max_str_digits() to increase the limit"
  | undecodable why => why.message

/-- The reading error for a stop in the text `cs`. -/
def Stop.toError (cs : List Char) : Stop → ReadError
  | mistake what rest =>
    let position := cs.length - rest.length
    let before := cs.take position
    let line := before.countP (· = '\n') + 1
    let column := (before.reverse.takeWhile (· ≠ '\n')).length + 1
    .mistake what line column position
  | longInteger digits => .longInteger digits

def isBlank (c : Char) : Bool := c = ' ' || c = '\t' || c = '\n' || c = '\r'

/-- What remains after blanks. -/
def skipBlanks (cs : List Char) : List Char := cs.dropWhile isBlank

/-- What remains after a word, `none` if it does not stand here. -/
def after? : List Char → List Char → Option (List Char)
  | [], cs => some cs
  | w :: ws, c :: cs => if w = c then after? ws cs else none
  | _ :: _, [] => none

/-- The value of a hexadecimal digit. -/
def hexValue? (c : Char) : Option Nat :=
  if c.isDigit then some (c.toNat - 48)
  else if 'a' ≤ c && c ≤ 'f' then some (c.toNat - 87)
  else if 'A' ≤ c && c ≤ 'F' then some (c.toNat - 55)
  else none

/-- The number that four hexadecimal digits spell. -/
def hexNumber? (a b c d : Char) : Option Nat := do
  let a ← hexValue? a
  let b ← hexValue? b
  let c ← hexValue? c
  let d ← hexValue? d
  pure (((a * 16 + b) * 16 + c) * 16 + d)

/-- The character that a letter stands for after a backslash. -/
def escaped? (c : Char) : Option Char :=
  if c = '"' || c = '\\' || c = '/' then some c
  else if c = 'b' then some '\x08'
  else if c = 'f' then some '\x0c'
  else if c = 'n' then some '\n'
  else if c = 'r' then some '\r'
  else if c = 't' then some '\t'
  else none

/-- The characters of `\u` escapes : `rest` follows the first `u`. The answer is the
character and what remains; a high surrogate joins a low one that follows it. -/
def takeCodeEscape (rest : List Char) : Except Stop (Char × List Char) :=
  match rest with
  | a :: b :: c :: d :: next :: tail =>
    match hexNumber? a b c d with
    | none => .error (.mistake .badCodeEscape ('u' :: rest))
    | some n =>
      if Text.isHighSurrogate n then
        match next :: tail with
        | '\\' :: 'u' :: e :: f :: g :: h :: last :: more =>
          match hexNumber? e f g h with
          | none => .error (.mistake .badCodeEscape ('u' :: e :: f :: g :: h :: last :: more))
          | some m =>
            if Text.isLowSurrogate m then
              .ok (Text.characterOf (Text.joinSurrogates n m), last :: more)
            else .ok (Text.characterOf n, next :: tail)
        | _ => .ok (Text.characterOf n, next :: tail)
      else .ok (Text.characterOf n, next :: tail)
  | _ => .error (.mistake .badCodeEscape ('u' :: rest))

/-- Reads a text to its closing quote. `opening` is what remained at the opening one, `acc`
the characters read, last one first. -/
def readText (opening : List Char) : Nat → List Char → List Char → Except Stop (String × List Char)
  | 0, _, _ => .error (.mistake .unterminatedText opening)
  | _ + 1, _, [] => .error (.mistake .unterminatedText opening)
  | fuel + 1, acc, c :: rest =>
    if c = '"' then .ok (String.ofList acc.reverse, rest)
    else if c = '\\' then
      match rest with
      | [] => .error (.mistake .unterminatedText opening)
      | e :: tail =>
        if e = 'u' then
          match takeCodeEscape tail with
          | .ok (x, tail) => readText opening fuel (x :: acc) tail
          | .error stop => .error stop
        else
          match escaped? e with
          | some x => readText opening fuel (x :: acc) tail
          | none => .error (.mistake .badEscape (c :: rest))
    else if c.toNat < 0x20 then .error (.mistake .controlCharacter (c :: rest))
    else readText opening fuel (c :: acc) rest

/-- The digits after a point, nothing read if none stand here. -/
def takePart (cs : List Char) : List Char × List Char :=
  match cs with
  | '.' :: rest =>
    let (ds, rest) := Text.spanDigits rest
    if ds.isEmpty then ([], cs) else (ds, rest)
  | _ => ([], cs)

/-- Reads the digits before the point : a single zero, or digits that do not begin with one. -/
def takeWhole? : List Char → Option (List Char × List Char)
  | [] => none
  | c :: rest =>
    if c = '0' then some ([c], rest)
    else if c.isDigit then some (Text.spanDigits (c :: rest))
    else none

/-- Reads a number. -/
def readNumber (cs : List Char) : Except Stop (Value × List Char) :=
  let (negative, rest) := match cs with
    | '-' :: rest => (true, rest)
    | _ => (false, cs)
  match takeWhole? rest with
  | none => .error (.mistake .noValue cs)
  | some (whole, rest) =>
    let (part, rest) := takePart rest
    let exponent? := takeExponent? rest
    if part.isEmpty && exponent?.isNone then
      if Text.integerDigitLimit < whole.length then .error (.longInteger whole.length)
      else
        let n : Int := Nat.ofDigitChars 10 whole 0
        .ok (.int (if negative then -n else n), rest)
    else
      let (e, rest) := exponent?.getD (0, rest)
      let x := Binary64.ofDecimal negative (Nat.ofDigitChars 10 (whole ++ part) 0) (e - part.length)
      .ok (.float x, rest)

/-- Reads a word that is a value. -/
def readWord? (cs : List Char) : Option (Value × List Char) :=
  let word (w : String) (v : Value) := (after? w.toList cs).map fun rest => (v, rest)
  word "null" .null <|> word "true" (.bool true) <|> word "false" (.bool false) <|>
    word "NaN" (.float .nan) <|> word "Infinity" (.float .infinity) <|>
    word "-Infinity" (.float (.signed true .infinity))

/-- Reads the name of a member and its colon. -/
def readName (cs : List Char) : Except Stop (String × List Char) :=
  match cs with
  | '"' :: rest =>
    match readText cs cs.length [] rest with
    | .error stop => .error stop
    | .ok (name, rest) =>
      match skipBlanks rest with
      | ':' :: rest => .ok (name, skipBlanks rest)
      | rest => .error (.mistake .noColon rest)
  | _ => .error (.mistake .noName cs)

mutual

/-- Reads a value that stands here. `fuel` bounds the depth and the length of what is read : a list
that opens takes two of it, one for the list and one for its first element. -/
def readValue : Nat → List Char → Except Stop (Value × List Char)
  | 0, cs => .error (.mistake .noValue cs)
  | fuel + 1, cs =>
    match cs with
    | '"' :: rest => (readText cs cs.length [] rest).map fun r => (.text r.1, r.2)
    | '[' :: rest =>
      match skipBlanks rest with
      | ']' :: rest => .ok (.list [], rest)
      | rest => readElements fuel [] rest
    | '\x7b' :: rest =>
      match skipBlanks rest with
      | '\x7d' :: rest => .ok (.dict [], rest)
      | rest => readMembers fuel [] rest
    | _ =>
      match readWord? cs with
      | some r => .ok r
      | none => readNumber cs

/-- Reads the elements of a list to its end, `acc` being those before, last one first. -/
def readElements : Nat → List Value → List Char → Except Stop (Value × List Char)
  | 0, _, cs => .error (.mistake .noValue cs)
  | fuel + 1, acc, cs =>
    match readValue fuel cs with
    | .error stop => .error stop
    | .ok (v, rest) =>
      match skipBlanks rest with
      | ']' :: rest => .ok (.list (v :: acc).reverse, rest)
      | ',' :: rest => readElements fuel (v :: acc) (skipBlanks rest)
      | rest => .error (.mistake .noComma rest)

/-- Reads the members of an object to its end, `acc` being those before, last one first. -/
def readMembers : Nat → List (Value × Value) → List Char → Except Stop (Value × List Char)
  | 0, _, cs => .error (.mistake .noValue cs)
  | fuel + 1, acc, cs =>
    match readName cs with
    | .error stop => .error stop
    | .ok (name, rest) =>
      match readValue fuel rest with
      | .error stop => .error stop
      | .ok (v, rest) =>
        let acc := (.text name, v) :: acc
        match skipBlanks rest with
        | '\x7d' :: rest => .ok (Value.ofEntries acc.reverse, rest)
        | ',' :: rest => readMembers fuel acc (skipBlanks rest)
        | rest => .error (.mistake .noComma rest)

end

/-- Reads characters that are one JSON value with blanks around it. -/
def readDocument (cs : List Char) : Except ReadError Value :=
  match readValue (2 * cs.length + 1) (skipBlanks cs) with
  | .error stop => .error (stop.toError cs)
  | .ok (v, rest) =>
    match skipBlanks rest with
    | [] => .ok v
    | rest => .error (Stop.toError cs (.mistake .extraData rest))

/-- Reads characters that are one JSON value, a byte order mark being refused. -/
def readChars (cs : List Char) : Except ReadError Value :=
  if cs.head? = some '\ufeff' then .error (Stop.toError cs (.mistake .byteOrderMark cs))
  else readDocument cs

/-- Reads a text that is one JSON value. -/
def read (s : String) : Except ReadError Value := readChars s.toList

/-- Reads bytes that are one JSON value, in the encoding they show. -/
def readBytes (bs : List UInt8) : Except ReadError Value :=
  match Text.detectDecode bs with
  | .ok cs => readDocument cs
  | .error why => .error (.undecodable why)

end Tabula.Json
