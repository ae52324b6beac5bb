import Mathlib.Data.List.TakeWhile
import Mathlib.Tactic.IntervalCases
import Mathlib.Tactic.SplitIfs
import Tabula.Json.Reader
import Tabula.Json.Writer

/-!
# What is written is read back

The bytes of a text in UTF-8 decode to its characters (`utf8Decode_utf8Encode`), an escaped
text between quotes reads as that text (`readText_escape`), and the digits of a number, with no
more of them than are read, as that number (`readNumber_repr`). Each is stated with whatever may
follow, so that the readers can go through a document piece by piece; behind a number this is a
character that cannot go on it (`EndsNumber`).
-/

namespace Tabula

namespace Text

/-! ## Bytes -/

theorem toNat_ofNat_byte {n : Nat} (h : n < 256) : (UInt8.ofNat n).toNat = n := by
  simpa using h

theorem isTail_of_lt {b : Nat} (h : b < 0x40) : isTail (0x80 + b) = true := by
  simp only [isTail, Bool.and_eq_true, decide_eq_true_eq]
  omega

theorem utf8Step_one {a : Nat} (h : a < 0x80) (rest : List Nat) :
    utf8Step a rest = .character a 1 := by
  have hl : lengthFrom a = 1 := by
    unfold lengthFrom
    rw [if_pos h]
  simp [utf8Step, hl]

theorem utf8Step_two {a b : Nat} (ha : 2 ≤ a) (ha' : a < 0x20) (hb : b < 0x40) (rest : List Nat) :
    utf8Step (0xC0 + a) ((0x80 + b) :: rest) = .character (a * 0x40 + b) 2 := by
  have hl : lengthFrom (0xC0 + a) = 2 := by
    unfold lengthFrom
    split_ifs <;> omega
  simp [utf8Step, hl, isTail_of_lt hb]

theorem utf8Step_three {a b c : Nat} (ha : a < 0x10) (hb : b < 0x40) (hc : c < 0x40)
    (hlow : a = 0 → 0x20 ≤ b) (hsurrogate : a = 0xD → b < 0x20) (rest : List Nat) :
    utf8Step (0xE0 + a) ((0x80 + b) :: (0x80 + c) :: rest) =
      .character (a * 0x1000 + b * 0x40 + c) 3 := by
  have hl : lengthFrom (0xE0 + a) = 3 := by
    unfold lengthFrom
    split_ifs <;> omega
  have hs : isSecond (0xE0 + a) (0x80 + b) = true := by
    simp only [isSecond, isTail_of_lt hb, Bool.true_and, Bool.and_eq_true, Bool.not_eq_true',
      Bool.and_eq_false_iff, beq_eq_false_iff_ne, decide_eq_false_iff_not]
    omega
  simp [utf8Step, hl, isTail_of_lt hc, hs]

theorem utf8Step_four {a b c d : Nat} (ha : a < 5) (hb : b < 0x40) (hc : c < 0x40) (hd : d < 0x40)
    (hlow : a = 0 → 0x10 ≤ b) (hhigh : a = 4 → b < 0x10) :
    utf8Step (0xF0 + a) [0x80 + b, 0x80 + c, 0x80 + d] =
      .character (a * 0x40000 + b * 0x1000 + c * 0x40 + d) 4 := by
  have hl : lengthFrom (0xF0 + a) = 4 := by
    unfold lengthFrom
    split_ifs <;> omega
  have hs : isSecond (0xF0 + a) (0x80 + b) = true := by
    simp only [isSecond, isTail_of_lt hb, Bool.true_and, Bool.and_eq_true, Bool.not_eq_true',
      Bool.and_eq_false_iff, beq_eq_false_iff_ne, decide_eq_false_iff_not]
    omega
  simp [utf8Step, hl, isTail_of_lt hc, isTail_of_lt hd, hs]

/-- A code point lies below the surrogates or above them. -/
theorem toNat_valid (c : Char) : c.toNat < 0xD800 ∨ 0xDFFF < c.toNat ∧ c.toNat < 0x110000 :=
  c.valid

/-- A step of decoding takes the bytes of one character. -/
theorem utf8Step_utf8EncodeChar (c : Char) (rest : List UInt8) :
    ∃ a bs, utf8EncodeChar c = a :: bs ∧
      utf8Step a.toNat (((bs ++ rest).take 3).map UInt8.toNat) =
        .character c.toNat (bs.length + 1) := by
  have hvalid := toNat_valid c
  obtain ⟨n, hn⟩ : ∃ n, c.toNat = n := ⟨_, rfl⟩
  rw [hn] at hvalid ⊢
  have htail : ∀ k, (UInt8.ofNat (0x80 + n / Nat.pow 0x40 k % 0x40)).toNat =
      0x80 + n / Nat.pow 0x40 k % 0x40 := fun k => toNat_ofNat_byte (by omega)
  have hmod : ∀ k, n / Nat.pow 0x40 k % 0x40 < 0x40 := fun k => Nat.mod_lt _ (by decide)
  have h0 : n / Nat.pow 0x40 0 = n := Nat.div_one n
  have h1 : n / Nat.pow 0x40 1 = n / 0x40 := rfl
  have h2 : n / Nat.pow 0x40 2 = n / 0x1000 := rfl
  simp only [utf8EncodeChar, hn]
  by_cases hn1 : n < 0x80
  · refine ⟨_, _, if_pos hn1, ?_⟩
    rw [toNat_ofNat_byte (by omega), utf8Step_one hn1]
    rfl
  rw [if_neg hn1]
  by_cases hn2 : n < 0x800
  · refine ⟨_, _, if_pos hn2, ?_⟩
    rw [List.cons_append, List.take_succ_cons, List.map_cons, htail, toNat_ofNat_byte (by omega),
      utf8Step_two (by omega) (by omega) (hmod 0), h0]
    refine congrArg₂ Utf8Step.character ?_ rfl
    omega
  rw [if_neg hn2]
  by_cases hn3 : n < 0x10000
  · refine ⟨_, _, if_pos hn3, ?_⟩
    rw [List.cons_append, List.cons_append, List.take_succ_cons, List.take_succ_cons,
      List.map_cons, List.map_cons, htail, htail, toNat_ofNat_byte (by omega),
      utf8Step_three (by omega) (hmod 1) (hmod 0) (by omega) (by omega), h0, h1]
    refine congrArg₂ Utf8Step.character ?_ rfl
    omega
  · refine ⟨_, _, if_neg hn3, ?_⟩
    rw [List.cons_append, List.cons_append, List.cons_append, List.take_succ_cons,
      List.take_succ_cons, List.take_succ_cons, List.take_zero, List.map_cons, List.map_cons,
      List.map_cons, List.map_nil, htail, htail, htail, toNat_ofNat_byte (by omega),
      utf8Step_four (by omega) (hmod 2) (hmod 1) (hmod 0) (by omega) (by omega), h0, h1, h2]
    refine congrArg₂ Utf8Step.character ?_ rfl
    omega

theorem characterOf_toNat (c : Char) : characterOf c.toNat = c := by
  have h : c.toNat.isValidChar := c.valid
  rw [characterOf, dif_pos h]
  exact Char.ext (UInt32.toNat_inj.mp rfl)

theorem utf8DecodeFrom_utf8Encode (lenient : Bool) :
    ∀ (cs : List Char) (fuel position : Nat) (acc : List Char),
      (cs.flatMap utf8EncodeChar).length ≤ fuel →
        utf8DecodeFrom lenient fuel position acc (cs.flatMap utf8EncodeChar) =
          .ok (acc.reverse ++ cs)
  | [], fuel, position, acc, _ => by
    cases fuel <;> simp [utf8DecodeFrom]
  | c :: cs, fuel, position, acc, h => by
    obtain ⟨a, bs, hc, hstep⟩ := utf8Step_utf8EncodeChar c (cs.flatMap utf8EncodeChar)
    rw [List.flatMap_cons, hc, List.cons_append] at h ⊢
    obtain ⟨n, rfl⟩ : ∃ n, fuel = n + 1 := ⟨fuel - 1, by simp at h; omega⟩
    rw [utf8DecodeFrom, hstep]
    simp only [characterOf_toNat, Nat.add_sub_cancel, List.drop_left']
    rw [utf8DecodeFrom_utf8Encode lenient cs]
    · simp
    · simp at h ⊢
      omega

/-- The bytes of a text decode to its characters. -/
theorem utf8Decode_utf8Encode (s : String) : utf8Decode (utf8Encode s) = .ok s.toList :=
  utf8DecodeFrom_utf8Encode false s.toList _ _ _ (Nat.le_refl _)

end Text

namespace Json

/-! ## Texts -/

/-- The code of a control character reads as its number. -/
theorem hexNumber?_hexDigits :
    ∀ n < 0x20, ∃ a b c d, Text.hexDigits 4 n = [a, b, c, d] ∧ hexNumber? a b c d = some n := by
  intro n hn
  interval_cases n <;> exact ⟨_, _, _, _, rfl, rfl⟩

theorem takeCodeEscape_hexDigits {c : Char} (hc : c.toNat < 0x20) (x : Char) (tail : List Char) :
    takeCodeEscape (Text.hexDigits 4 c.toNat ++ x :: tail) = .ok (c, x :: tail) := by
  obtain ⟨p, q, r, s, hd, hn⟩ := hexNumber?_hexDigits c.toNat hc
  have hs : Text.isHighSurrogate c.toNat = false := by
    simp only [Text.isHighSurrogate, Bool.and_eq_false_iff, decide_eq_false_iff_not]
    omega
  rw [hd]
  simp only [takeCodeEscape, List.cons_append, List.nil_append, hn, hs, Bool.false_eq_true,
    if_false, Text.characterOf_toNat]

/-- One character is read from its escaped form, whatever follows up to the closing quote. -/
theorem readText_escapeChar (opening : List Char) (fuel : Nat) (acc : List Char) (c x : Char)
    (tail : List Char) :
    readText opening (fuel + 1) acc (escapeChar c ++ x :: tail) =
      readText opening fuel (c :: acc) (x :: tail) := by
  unfold escapeChar
  split_ifs with h₁ h₂ h₃ h₄ h₅ h₆ h₇ h₈
  · simp [readText, escaped?, h₁]
  · simp [readText, escaped?, h₂]
  · simp [readText, escaped?, h₃]
  · simp [readText, escaped?, h₄]
  · simp [readText, escaped?, h₅]
  · simp [readText, escaped?, h₆]
  · simp [readText, escaped?, h₇]
  · simp [readText, takeCodeEscape_hexDigits h₈]
  · simp [readText, h₁, h₂, h₈]

/-- An escaped text is read to its closing quote. -/
theorem readText_escape (opening : List Char) (tail : List Char) :
    ∀ (cs : List Char) (fuel : Nat) (acc : List Char), cs.length < fuel →
      readText opening fuel acc (cs.flatMap escapeChar ++ '"' :: tail) =
        .ok (String.ofList (acc.reverse ++ cs), tail)
  | [], fuel + 1, acc, _ => by simp [readText]
  | c :: cs, fuel + 1, acc, h => by
    obtain ⟨x, rest, hx⟩ : ∃ x rest, cs.flatMap escapeChar ++ '"' :: tail = x :: rest :=
      List.exists_cons_of_ne_nil (by simp)
    have ih := readText_escape opening tail cs fuel (c :: acc) (by simpa using h)
    rw [List.flatMap_cons, List.append_assoc, hx, readText_escapeChar, ← hx, ih]
    simp

/-- The JSON text of a text, in front of what follows. -/
def textChars (s : String) : List Char := s.toList.flatMap escapeChar ++ ['"']

theorem toList_writeText (s : String) : (writeText s).toList = '"' :: textChars s := by
  simp [writeText, escape, textChars]

theorem length_le_textChars (s : String) : s.toList.length < (textChars s).length := by
  have h : ∀ cs : List Char, cs.length ≤ (cs.flatMap escapeChar).length := by
    intro cs
    induction cs with
    | nil => simp
    | cons c cs ih =>
      have hc : 1 ≤ (escapeChar c).length := by
        unfold escapeChar
        split_ifs <;> simp
      simp only [List.flatMap_cons, List.length_append, List.length_cons]
      omega
  have := h s.toList
  simp only [textChars, List.length_append, List.length_singleton]
  omega

theorem skipBlanks_cons {c : Char} (h : isBlank c = false) (cs : List Char) :
    skipBlanks (c :: cs) = c :: cs := by
  simp [skipBlanks, h]

theorem skipBlanks_space (cs : List Char) : skipBlanks (' ' :: cs) = skipBlanks cs := by
  simp [skipBlanks, isBlank]

theorem ne_of_isDigit {c x : Char} (hc : c.isDigit = true) (hx : x.isDigit = false) : c ≠ x := by
  rintro rfl
  exact Bool.noConfusion (hx.symm.trans hc)

theorem isBlank_of_isDigit {c : Char} (h : c.isDigit = true) : isBlank c = false := by
  simp [isBlank, ne_of_isDigit h]

/-- The name of a member is read up to its value, whatever blanks are between them. -/
theorem readName_append (s : String) (more : List Char) :
    readName ('"' :: (textChars s ++ ':' :: more)) = .ok (s, skipBlanks more) := by
  have hlen := length_le_textChars s
  have h := readText_escape ('"' :: (textChars s ++ ':' :: more)) (':' :: more) s.toList
    ('"' :: (textChars s ++ ':' :: more)).length [] (by simp; omega)
  simp only [textChars, List.append_assoc, List.singleton_append] at h ⊢
  rw [readName, h]
  simp [skipBlanks_cons (show isBlank ':' = false by decide), String.ofList_toList]

/-- The name of a member, and what follows its colon and blank. -/
theorem readName_textChars (s : String) {c : Char} (hc : isBlank c = false) (tail : List Char) :
    readName ('"' :: (textChars s ++ ':' :: ' ' :: c :: tail)) = .ok (s, c :: tail) := by
  rw [readName_append, skipBlanks_space, skipBlanks_cons hc]

theorem readValue_textChars (s : String) (fuel : Nat) (tail : List Char) :
    readValue (fuel + 1) ('"' :: (textChars s ++ tail)) = .ok (.text s, tail) := by
  have hlen := length_le_textChars s
  have h := readText_escape ('"' :: (textChars s ++ tail)) tail s.toList
    ('"' :: (textChars s ++ tail)).length [] (by simp; omega)
  simp only [textChars, List.append_assoc, List.singleton_append] at h ⊢
  rw [readValue, h]
  simp [Except.map, String.ofList_toList]

theorem readValue_object (fuel : Nat) (more : List Char) :
    readValue (fuel + 1) ('\x7b' :: '"' :: more) = readMembers fuel [] ('"' :: more) := by
  rw [readValue, skipBlanks_cons (show isBlank '"' = false by decide)]
  rfl

/-! ## Numbers -/

/-- A character that cannot go on a number. -/
structure EndsNumber (c : Char) : Prop where
  digit : c.isDigit = false
  point : c ≠ '.'
  exponent : ¬(c = 'e' ∨ c = 'E')

theorem spanDigits_append {ds : List Char} (hds : ∀ d ∈ ds, d.isDigit = true) {c : Char}
    (hc : c.isDigit = false) (tail : List Char) :
    Text.spanDigits (ds ++ c :: tail) = (ds, c :: tail) := by
  rw [Text.spanDigits, List.takeWhile_append_of_pos hds, List.dropWhile_append_of_pos hds]
  simp [hc]

theorem takeWhole?_append {d : Char} {ds : List Char} (hd : d ≠ '0')
    (hds : ∀ x ∈ d :: ds, x.isDigit = true) {c : Char} (hc : c.isDigit = false) (tail : List Char) :
    takeWhole? (d :: (ds ++ c :: tail)) = some (d :: ds, c :: tail) := by
  rw [takeWhole?, if_neg hd, if_pos (hds d List.mem_cons_self), ← List.cons_append,
    spanDigits_append hds hc]

theorem takeWhole?_zero (rest : List Char) : takeWhole? ('0' :: rest) = some (['0'], rest) := by
  rw [takeWhole?, if_pos rfl]

theorem takePart_of_ne {c : Char} (hc : c ≠ '.') (tail : List Char) :
    takePart (c :: tail) = ([], c :: tail) := by
  rw [takePart]
  intro rest h
  exact hc (List.cons.inj h).1

theorem takeExponent?_of_ne {c : Char} (hc : ¬(c = 'e' ∨ c = 'E')) (tail : List Char) :
    takeExponent? (c :: tail) = none := by
  simp only [takeExponent?]
  rw [if_neg (by simpa using hc)]

/-- The characters of a number with a sign before them if it is negative. -/
def signChars (negative : Bool) (cs : List Char) : List Char := if negative then '-' :: cs else cs

theorem readNumber_signChars (negative : Bool) {d : Char} (hd : d.isDigit = true) {ds : List Char}
    {whole rest : List Char} (hwhole : takeWhole? (d :: ds) = some (whole, rest)) :
    readNumber (signChars negative (d :: ds)) =
      let (part, rest) := takePart rest
      let exponent? := takeExponent? rest
      if part.isEmpty && exponent?.isNone then
        if Text.integerDigitLimit < whole.length then .error (.longInteger whole.length)
        else .ok (.int (if negative then -(Nat.ofDigitChars 10 whole 0 : Int)
          else Nat.ofDigitChars 10 whole 0), rest)
      else
        let (e, rest) := exponent?.getD (0, rest)
        .ok (.float (Binary64.ofDecimal negative (Nat.ofDigitChars 10 (whole ++ part) 0)
          (e - part.length)), rest) := by
  have hminus : d ≠ '-' := ne_of_isDigit hd (by decide)
  unfold readNumber
  split
  rename_i negative' rest' heq
  have hsign : negative' = negative ∧ rest' = d :: ds := by
    cases negative
    · simp only [signChars, Bool.false_eq_true, if_false] at heq
      split at heq
      · rename_i h
        exact absurd (List.cons.inj h).1 hminus
      · exact ⟨(Prod.mk.inj heq).1.symm, (Prod.mk.inj heq).2.symm⟩
    · exact ⟨(Prod.mk.inj heq).1.symm, (Prod.mk.inj heq).2.symm⟩
  obtain ⟨rfl, rfl⟩ := hsign
  simp only [hwhole]

/-- An integer, which has neither a part after a point nor an exponent. -/
theorem readNumber_int (negative : Bool) {d c : Char} (hd : d.isDigit = true)
    {ds whole tail : List Char} (hwhole : takeWhole? (d :: ds) = some (whole, c :: tail))
    (hc : EndsNumber c) (hlength : whole.length ≤ Text.integerDigitLimit) :
    readNumber (signChars negative (d :: ds)) = .ok (.int (if negative then
      -(Nat.ofDigitChars 10 whole 0 : Int) else Nat.ofDigitChars 10 whole 0), c :: tail) := by
  rw [readNumber_signChars negative hd hwhole]
  simp only [takePart_of_ne hc.point, takeExponent?_of_ne hc.exponent, List.isEmpty_nil,
    Option.isNone_none, Bool.and_self, if_true, if_neg (not_lt.mpr hlength)]

theorem signChars_append (negative : Bool) (cs tail : List Char) :
    signChars negative cs ++ tail = signChars negative (cs ++ tail) := by
  cases negative <;> rfl

/-- The first digit of a number is zero only if the number is. -/
theorem exists_cons_toDigits {n : Nat} (hn : 0 < n) :
    ∃ c cs, Nat.toDigits 10 n = c :: cs ∧ c ≠ '0' := by
  induction n using Nat.strong_induction_on with
  | _ n ih =>
    by_cases h : n < 10
    · rw [Nat.toDigits_of_lt_base h]
      refine ⟨_, [], rfl, ?_⟩
      interval_cases n <;> decide
    · obtain ⟨c, cs, hcs, hc⟩ := ih (n / 10) (by omega) (by omega)
      rw [Nat.toDigits_of_base_le (by decide) (by omega), hcs]
      exact ⟨c, _, rfl, hc⟩

theorem takeWhole?_repr (n : Nat) {c : Char} (hc : c.isDigit = false) (tail : List Char) :
    takeWhole? (n.repr.toList ++ c :: tail) = some (n.repr.toList, c :: tail) := by
  rcases Nat.eq_zero_or_pos n with rfl | hn
  · rw [Nat.toList_repr, Nat.toDigits_zero]
    exact takeWhole?_zero _
  · obtain ⟨d, ds, hd, hne⟩ := exists_cons_toDigits hn
    rw [← Nat.toList_repr] at hd
    have hdigits : ∀ x ∈ d :: ds, x.isDigit = true := fun x hx => isDigit_of_mem_repr (hd ▸ hx)
    rw [hd, List.cons_append, takeWhole?_append hne hdigits hc]

theorem exists_cons_repr (n : Nat) : ∃ d ds, n.repr.toList = d :: ds ∧ d.isDigit = true := by
  obtain ⟨d, ds, hd⟩ := List.exists_cons_of_ne_nil
    (show n.repr.toList ≠ [] by rw [Nat.toList_repr]; exact Nat.toDigits_ne_nil)
  exact ⟨d, ds, hd, isDigit_of_mem_repr (by rw [hd]; exact List.mem_cons_self)⟩

/-- The digits of a number with no more digits than are read, behind its sign. -/
theorem readNumber_repr (negative : Bool) {n : Nat}
    (hn : n.repr.toList.length ≤ Text.integerDigitLimit) {c : Char} (hc : EndsNumber c)
    (tail : List Char) : readNumber (signChars negative (n.repr.toList ++ c :: tail)) =
      .ok (.int (if negative then -(n : Int) else n), c :: tail) := by
  obtain ⟨d, ds, hd, hdigit⟩ := exists_cons_repr n
  have hwhole := takeWhole?_repr n hc.digit tail
  have hvalue : Nat.ofDigitChars 10 n.repr.toList 0 = n := by
    rw [Nat.toList_repr, Nat.ofDigitChars_ten_toDigits]
  rw [hd, List.cons_append] at hwhole ⊢
  rw [hd] at hvalue hn
  rw [readNumber_int negative hdigit hwhole hc hn, hvalue]

theorem readWord?_of_isDigit {d : Char} (hd : d.isDigit = true) (ds : List Char) :
    readWord? (d :: ds) = none := by
  have hafter : ∀ (x : Char) (xs : List Char), x.isDigit = false →
      after? (x :: xs) (d :: ds) = none := by
    intro x xs hx
    rw [after?, if_neg (ne_of_isDigit hd hx).symm]
  simp [readWord?, hafter]

theorem readWord?_minus {d : Char} (hd : d.isDigit = true) (ds : List Char) :
    readWord? ('-' :: d :: ds) = none := by
  have hne : d ≠ 'I' := ne_of_isDigit hd (by decide)
  simp [readWord?, after?, hne.symm]

/-- A number is the value that stands there. -/
theorem readValue_signChars (negative : Bool) {y : Char} (hy : y.isDigit = true) (ys : List Char)
    (fuel : Nat) :
    readValue (fuel + 1) (signChars negative (y :: ys)) =
      readNumber (signChars negative (y :: ys)) := by
  have hne : ∀ x : Char, x.isDigit = false → y ≠ x := fun _ => ne_of_isDigit hy
  have hword : readWord? (signChars negative (y :: ys)) = none := by
    cases negative
    · exact readWord?_of_isDigit hy ys
    · exact readWord?_minus hy ys
  obtain ⟨x, xs, hx, hopens⟩ : ∃ x xs, signChars negative (y :: ys) = x :: xs ∧
      x ≠ '"' ∧ x ≠ '[' ∧ x ≠ '\x7b' := by
    cases negative
    · exact ⟨y, ys, rfl, hne _ (by decide), hne _ (by decide), hne _ (by decide)⟩
    · exact ⟨'-', y :: ys, rfl, by decide, by decide, by decide⟩
  rw [hx] at hword ⊢
  unfold readValue
  split
  · rename_i heq
    exact absurd (List.cons.inj heq).1 hopens.1
  · rename_i heq
    exact absurd (List.cons.inj heq).1 hopens.2.1
  · rename_i heq
    exact absurd (List.cons.inj heq).1 hopens.2.2
  · rw [hword]

/-- A number is the value that stands there. -/
theorem readValue_repr {n : Nat} (hn : n.repr.toList.length ≤ Text.integerDigitLimit) {c : Char}
    (hc : EndsNumber c) (fuel : Nat) (tail : List Char) :
    readValue (fuel + 1) (n.repr.toList ++ c :: tail) = .ok (.int n, c :: tail) := by
  obtain ⟨d, ds, hd, hdigit⟩ := exists_cons_repr n
  have hnumber := readNumber_repr false hn hc tail
  have hvalue := readValue_signChars false hdigit (ds ++ c :: tail) fuel
  rw [← List.cons_append, ← hd] at hvalue
  exact hvalue.trans hnumber

end Json

end Tabula
