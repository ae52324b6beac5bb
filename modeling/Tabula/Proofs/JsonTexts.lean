import Tabula.Proofs.NumberTexts
import Tabula.Proofs.OwnTables
import Tabula.Proofs.StoredValues

/-!
# JSON texts are read back

A JSON value (`Value.IsJson`) has a text, and the text is read as the value wherever nothing
follows that could go on a number (`Json.IsTextOf`, `Json.isTextOf_write`). In the text of a list or
an object a comma or the closing bracket follows each item, so items are read one by one, in either
layout (`Json.readElements_write`, `Json.readMembers_write`).

There is one exception : an integer with more digits than are read stops the reading of the whole
text, and the first such integer is the one that the failure is about (`Value.longInteger?`,
`Json.read_write`). A row has a text that is read back if it has no such integer and no key twice
(`Json.read_of_write`).
-/

namespace Tabula

open Store

namespace Value

/-- A value that JSON has : no bytes, no tuple, no infinity, and mappings by distinct texts. -/
inductive IsJson : Value → Prop
  | null : IsJson null
  | bool (b : Bool) : IsJson (bool b)
  | int (n : Int) : IsJson (int n)
  | float {x : Binary64} (h : x.isFinite = true) : IsJson (float x)
  | text (s : String) : IsJson (text s)
  | list {xs : List Value} (h : ∀ x ∈ xs, IsJson x) : IsJson (list xs)
  | object {es : List (String × Value)} (hkeys : (es.map Prod.fst).Nodup)
    (h : ∀ e ∈ es, IsJson e.2) : IsJson (object es)

mutual

/-- The number of digits of the first integer in the value that has more than are read. -/
def longInteger? : Value → Option Nat
  | int n =>
    let digits := (Nat.toDigits 10 n.natAbs).length
    if Text.integerDigitLimit < digits then some digits else none
  | list xs => longIntegerIn? xs
  | dict es => longIntegerUnder? es
  | _ => none

def longIntegerIn? : List Value → Option Nat
  | [] => none
  | x :: xs => (longInteger? x).or (longIntegerIn? xs)

def longIntegerUnder? : List (Value × Value) → Option Nat
  | [] => none
  | (_, v) :: es => (longInteger? v).or (longIntegerUnder? es)

end

theorem longInteger?_list (xs : List Value) :
    (list xs).longInteger? = xs.findSome? longInteger? := by
  rw [longInteger?]
  induction xs with
  | nil => rfl
  | cons x xs ih => rw [longIntegerIn?, ih, List.findSome?_cons]; cases x.longInteger? <;> rfl

theorem longInteger?_object (es : List (String × Value)) :
    (object es).longInteger? = es.findSome? fun e => e.2.longInteger? := by
  rw [object, longInteger?]
  induction es with
  | nil => rfl
  | cons e es ih =>
    rw [List.map_cons, longIntegerUnder?, ih, List.findSome?_cons]
    cases e.2.longInteger? <;> rfl

/-- An integer among the cells has at most as many digits as are read. -/
def IsShort : Value → Prop
  | .int n => (Nat.toDigits 10 n.natAbs).length ≤ Text.integerDigitLimit
  | _ => True

/-- Cells are JSON values. -/
theorem isJson_of_classify {v : Value} (h : v.classify ≠ none) : v.IsJson := by
  cases v with
  | null => exact .null
  | int n => exact .int n
  | text s => exact .text s
  | float x =>
    refine .float ?_
    by_contra hx
    simp [classify, hx] at h
  | _ => exact absurd rfl h

theorem longInteger?_of_isShort {v : Value} (hcell : v.classify ≠ none) (h : v.IsShort) :
    v.longInteger? = none := by
  cases v with
  | int n => exact if_neg (not_lt.mpr h)
  | null | text | float => rfl
  | _ => exact absurd rfl hcell

theorem ofEntries_object {cells : Cells} (hkeys : (cells.map Prod.fst).Nodup) :
    ofEntries (cells.map fun e => (text e.1, e.2)) = object cells := by
  have htexts : ∀ e ∈ cells.map fun e => (text e.1, e.2), ∃ k, e.1 = text k := by
    rintro e he
    obtain ⟨e', -, rfl⟩ := List.mem_map.mp he
    exact ⟨e'.1, rfl⟩
  have hnodup : ((cells.map fun e => (text e.1, e.2)).map Prod.fst).Nodup := by
    have hmap : (cells.map fun e => (text e.1, e.2)).map Prod.fst =
        (cells.map Prod.fst).map text := by
      rw [List.map_map, List.map_map]
      rfl
    rw [hmap]
    exact hkeys.map fun _ _ h => Value.text.inj h
  rw [ofEntries, foldl_put_eq_append htexts [] (by simp) (by simpa using hnodup)]
  rfl

end Value

namespace Json

/-! ## Numbers at the end -/

theorem spanDigits_blank (cs : List Char) :
    Text.spanDigits (cs ++ [' ']) =
      ((Text.spanDigits cs).1, (Text.spanDigits cs).2 ++ [' ']) := by
  induction cs with
  | nil => rfl
  | cons c cs ih =>
    simp only [Text.spanDigits, Prod.mk.injEq] at ih
    by_cases hc : c.isDigit = true <;> simp [Text.spanDigits, hc, ih.1, ih.2]

theorem takeWhole?_blank (cs : List Char) :
    takeWhole? (cs ++ [' ']) = (takeWhole? cs).map fun r => (r.1, r.2 ++ [' ']) := by
  rcases cs with _ | ⟨c, cs⟩
  · rfl
  · rw [List.cons_append, takeWhole?, takeWhole?, ← List.cons_append, spanDigits_blank]
    split_ifs <;> rfl

theorem takePart_blank (cs : List Char) :
    takePart (cs ++ [' ']) = ((takePart cs).1, (takePart cs).2 ++ [' ']) := by
  rcases cs with _ | ⟨c, cs⟩
  · rfl
  · by_cases hc : c = '.'
    · rw [hc, List.cons_append, takePart, takePart, spanDigits_blank]
      dsimp only
      split <;> rfl
    · rw [List.cons_append, takePart_of_ne hc, takePart_of_ne hc]
      rfl

theorem takeSign_blank (cs : List Char) :
    Text.takeSign (cs ++ [' ']) = ((Text.takeSign cs).1, (Text.takeSign cs).2 ++ [' ']) := by
  rcases cs with _ | ⟨c, cs⟩
  · rfl
  · by_cases hminus : c = '-'
    · rw [hminus]
      rfl
    · by_cases hplus : c = '+'
      · rw [hplus]
        rfl
      · simp [Text.takeSign, hminus, hplus]

theorem takeExponent?_blank (cs : List Char) :
    takeExponent? (cs ++ [' ']) = (takeExponent? cs).map fun r => (r.1, r.2 ++ [' ']) := by
  rcases cs with _ | ⟨c, cs⟩
  · rfl
  · rw [List.cons_append, takeExponent?, takeExponent?, takeSign_blank]
    simp only [spanDigits_blank]
    split_ifs <;> rfl

theorem exists_takeWhole? {d : Char} (hd : d.isDigit = true) (ds : List Char) :
    ∃ whole rest, takeWhole? (d :: ds) = some (whole, rest) := by
  rw [takeWhole?]
  split_ifs
  exacts [⟨_, _, rfl⟩, ⟨_, _, rfl⟩]

/-- A blank behind a number is left behind it. -/
theorem readNumber_blank (negative : Bool) {d : Char} (hd : d.isDigit = true) (ds : List Char) :
    readNumber (signChars negative (d :: ds) ++ [' ']) =
      (readNumber (signChars negative (d :: ds))).map fun r => (r.1, r.2 ++ [' ']) := by
  obtain ⟨whole, rest, hwhole⟩ := exists_takeWhole? hd ds
  have hwhole' : takeWhole? (d :: (ds ++ [' '])) = some (whole, rest ++ [' ']) := by
    rw [← List.cons_append, takeWhole?_blank, hwhole]
    rfl
  rw [signChars_append, List.cons_append, readNumber_signChars negative hd hwhole,
    readNumber_signChars negative hd hwhole', takePart_blank]
  simp only [takeExponent?_blank, Option.isNone_map]
  cases takeExponent? (takePart rest).2
  · split_ifs <;> rfl
  · split_ifs <;> rfl

/-! ## Values -/

/-- What reading a value gives, of which the first integer with too many digits has `long` : that
failure, or the value and what follows it. -/
def reading (long : Option Nat) (v : Value) (rest : List Char) : Except Stop (Value × List Char) :=
  match long with
  | none => .ok (v, rest)
  | some digits => .error (.longInteger digits)

theorem eq_reading_of_blank {r : Except Stop (Value × List Char)} {long : Option Nat} {v : Value}
    (h : (r.map fun r => (r.1, r.2 ++ [' '])) = reading long v [' ']) : r = reading long v [] := by
  rcases r with stop | ⟨w, rest⟩ <;> rcases long with _ | digits
  · cases h
  · exact congrArg Except.error (Except.error.inj h)
  · obtain ⟨rfl, hrest⟩ := Prod.mk.inj (Except.ok.inj h)
    obtain rfl : rest = [] := by simpa using hrest
    rfl
  · cases h

/-- Nothing stands here that could go on a number. -/
def EndsNumbers (tail : List Char) : Prop := ∀ c ∈ tail.head?, EndsNumber c

theorem endsNumbers_nil : EndsNumbers [] := nofun

theorem endsNumbers_cons {c : Char} (hc : EndsNumber c) (tail : List Char) :
    EndsNumbers (c :: tail) := fun _ h => Option.some.inj h ▸ hc

/-- A character with which a value can begin : an ASCII one that shows, and no closing bracket. -/
structure Begins (c : Char) : Prop where
  low : 0x20 < c.toNat
  high : c.toNat < 0x7F
  notClosing : c ≠ ']'

namespace Begins

variable {c : Char}

theorem of_isDigit (h : c.isDigit = true) : Begins c := by
  obtain ⟨hlow, hhigh⟩ := Char.isDigit_iff_toNat.mp h
  exact ⟨Nat.lt_of_lt_of_le (by decide) hlow, Nat.lt_of_le_of_lt hhigh (by decide),
    ne_of_isDigit h (by decide)⟩

theorem not_isBlank (h : Begins c) : isBlank c = false := by
  have hlow := h.low
  rw [isBlank, Bool.eq_false_iff]
  rintro hblank
  simp only [Bool.or_eq_true, decide_eq_true_eq] at hblank
  rcases hblank with ((rfl | rfl) | rfl) | rfl <;> exact absurd hlow (by decide)

/-- What begins a value is no white space of any script. -/
theorem not_isBlank_text (h : Begins c) : Text.isBlank c = false := by
  have hlow := h.low
  have hhigh := h.high
  rw [Text.isBlank, Bool.eq_false_iff]
  intro hblank
  obtain ⟨r, hr, hc⟩ := Text.inRanges_eq_true_iff.mp hblank
  simp only [Text.blankRanges, List.mem_cons, List.not_mem_nil, or_false] at hr
  rcases hr with rfl | rfl | rfl | rfl | rfl | rfl | rfl | rfl | rfl | rfl <;> simp at hc <;> omega

theorem ne_mark (h : Begins c) : c ≠ '\ufeff' := by
  rintro rfl
  exact absurd h.high (by decide)

end Begins

/-- A text that is read as a value, integers with too many digits aside, wherever nothing follows
that could go on a number. -/
structure IsTextOf (t : String) (v : Value) : Prop where
  first : ∃ x xs, t.toList = x :: xs ∧ Begins x
  read : ∀ fuel tail, t.toList.length ≤ fuel → EndsNumbers tail →
    readValue fuel (t.toList ++ tail) = reading v.longInteger? v tail

/-- A number that is read before a character that ends it is read at the end of the text too. -/
theorem isTextOf_of_readNumber {t : String} {v : Value}
    (hfirst : ∃ negative y ys, t.toList = signChars negative (y :: ys) ∧ y.isDigit = true)
    (hread : ∀ c tail, EndsNumber c →
      readNumber (t.toList ++ c :: tail) = reading v.longInteger? v (c :: tail)) :
    IsTextOf t v := by
  obtain ⟨negative, y, ys, ht, hy⟩ := hfirst
  refine ⟨?_, fun fuel tail hfuel htail => ?_⟩
  · rw [ht]
    cases negative
    · exact ⟨y, ys, rfl, .of_isDigit hy⟩
    · exact ⟨'-', y :: ys, rfl, by decide, by decide, by decide⟩
  · obtain ⟨fuel, rfl⟩ : ∃ n, fuel = n + 1 := by
      refine Nat.exists_eq_succ_of_ne_zero fun h => ?_
      cases negative <;> simp [ht, h, signChars] at hfuel
    rw [ht, signChars_append, List.cons_append, readValue_signChars negative hy, ← List.cons_append,
      ← signChars_append, ← ht]
    rcases tail with _ | ⟨c, tail⟩
    · have hblank := hread ' ' [] ⟨by decide, by decide, by decide⟩
      rw [ht, readNumber_blank negative hy, ← ht] at hblank
      rw [List.append_nil]
      exact eq_reading_of_blank hblank
    · exact hread c tail (htail c rfl)

theorem isTextOf_integerText (n : Int) : IsTextOf (integerText n) (.int n) := by
  by_cases hn : (Nat.toDigits 10 n.natAbs).length ≤ Text.integerDigitLimit
  · have h := isNumberText_integerText hn
    refine isTextOf_of_readNumber h.first fun c tail hc => ?_
    rw [h.read c tail hc, Value.longInteger?, if_neg (not_lt.mpr hn), reading]
  · obtain ⟨y, ys, hy, hdigit⟩ := exists_cons_repr n.natAbs
    refine isTextOf_of_readNumber ⟨n < 0, y, ys, by rw [toList_integerText, hy], hdigit⟩
      fun c tail hc => ?_
    have hwhole := takeWhole?_repr n.natAbs hc.digit tail
    rw [hy, List.cons_append] at hwhole
    rw [toList_integerText, signChars_append, hy, List.cons_append,
      readNumber_signChars _ hdigit hwhole, ← hy, Nat.toList_repr]
    simp only [takePart_of_ne hc.point, takeExponent?_of_ne hc.exponent, List.isEmpty_nil,
      Option.isNone_none, Bool.and_self, if_true, if_pos (not_le.mp hn), Value.longInteger?,
      reading]

theorem isTextOf_word {w : String} {v : Value} (hlong : v.longInteger? = none)
    (hfirst : ∃ x xs, w.toList = x :: xs ∧ Begins x)
    (hread : ∀ fuel tail, readValue (fuel + 1) (w.toList ++ tail) = .ok (v, tail)) :
    IsTextOf w v := by
  refine ⟨hfirst, fun fuel tail hfuel _ => ?_⟩
  obtain ⟨x, xs, hx, -⟩ := hfirst
  obtain ⟨fuel, rfl⟩ : ∃ n, fuel = n + 1 := by
    refine Nat.exists_eq_succ_of_ne_zero fun h => ?_
    simp [hx, h] at hfuel
  rw [hread, hlong, reading]

theorem isTextOf_writeText (s : String) : IsTextOf (writeText s) (.text s) := by
  refine isTextOf_word rfl ⟨'"', _, toList_writeText s, by decide, by decide, by decide⟩
    fun fuel tail => ?_
  rw [toList_writeText, List.cons_append, readValue_textChars]

/-! ## Items -/

theorem skipBlanks_comma (layout : Layout) {c : Char} (hc : isBlank c = false) (tail : List Char) :
    ∃ gap, layout.comma.toList = ',' :: gap ∧ skipBlanks (gap ++ c :: tail) = c :: tail := by
  cases layout
  · exact ⟨[], rfl, skipBlanks_cons hc tail⟩
  · exact ⟨[' '], rfl, (skipBlanks_space _).trans (skipBlanks_cons hc tail)⟩

theorem skipBlanks_colon (layout : Layout) {c : Char} (hc : isBlank c = false) (tail : List Char) :
    ∃ gap, layout.colon.toList = ':' :: gap ∧ skipBlanks (gap ++ c :: tail) = c :: tail := by
  cases layout
  · exact ⟨[], rfl, skipBlanks_cons hc tail⟩
  · exact ⟨[' '], rfl, (skipBlanks_space _).trans (skipBlanks_cons hc tail)⟩

/-- Texts that are joined begin as the first one does. -/
theorem exists_intercalate_cons (sep t : String) (ts : List String) :
    ∃ more, (sep.intercalate (t :: ts)).toList = t.toList ++ more := by
  rcases ts with _ | ⟨u, us⟩
  · exact ⟨[], by simp⟩
  · exact ⟨_, by rw [String.intercalate_cons_cons, String.append_assoc, String.toList_append]⟩

/-- A text and its comma, and behind the comma the texts that follow. -/
theorem exists_comma (layout : Layout) (t : String) {u : String} (us : List String)
    (hu : ∃ z zs, u.toList = z :: zs ∧ Begins z) (tail : List Char) :
    ∃ more, (layout.comma.intercalate (t :: u :: us)).toList ++ tail = t.toList ++ ',' :: more ∧
      skipBlanks more = (layout.comma.intercalate (u :: us)).toList ++ tail := by
  obtain ⟨z, zs, hz, hbegins⟩ := hu
  obtain ⟨rest, hrest⟩ := exists_intercalate_cons layout.comma u us
  rw [hz, List.cons_append] at hrest
  obtain ⟨gap, hgap, hskip⟩ := skipBlanks_comma layout hbegins.not_isBlank (zs ++ rest ++ tail)
  refine ⟨gap ++ z :: (zs ++ rest ++ tail), ?_, ?_⟩
  · rw [String.intercalate_cons_cons, String.toList_append, String.toList_append, hgap, hrest]
    simp
  · rw [hskip, hrest, List.cons_append]

theorem length_intercalate_lt (layout : Layout) (t u : String) (us : List String) :
    t.toList.length + (layout.comma.intercalate (u :: us)).toList.length <
      (layout.comma.intercalate (t :: u :: us)).toList.length := by
  have hcomma : 0 < layout.comma.toList.length := by cases layout <;> decide
  rw [String.intercalate_cons_cons, String.toList_append, String.toList_append, List.length_append,
    List.length_append]
  omega

theorem exists_of_writeAll {layout : Layout} {x : Value} {xs : List Value} {ts : List String}
    (h : writeAll layout (x :: xs) = .ok ts) :
    ∃ t ts', write layout x = .ok t ∧ writeAll layout xs = .ok ts' ∧ ts = t :: ts' := by
  rw [writeAll] at h
  obtain ⟨t, ht, h⟩ := ok_of_bind h
  obtain ⟨ts', hts', h⟩ := ok_of_bind h
  exact ⟨t, ts', ht, hts', (Except.ok.inj h).symm⟩

theorem exists_of_writeMembers {layout : Layout} {name : String} {v : Value}
    {es : List (Value × Value)} {ts : List String}
    (h : writeMembers layout ((.text name, v) :: es) = .ok ts) :
    ∃ t ts', write layout v = .ok t ∧ writeMembers layout es = .ok ts' ∧
      ts = (writeText name ++ layout.colon ++ t) :: ts' := by
  rw [writeMembers, keyName] at h
  obtain ⟨_, hname, h⟩ := ok_of_bind h
  obtain rfl := Except.ok.inj hname
  obtain ⟨t, ht, h⟩ := ok_of_bind h
  obtain ⟨ts', hts', h⟩ := ok_of_bind h
  exact ⟨t, ts', ht, hts', (Except.ok.inj h).symm⟩

variable {layout : Layout}

theorem length_le_member (layout : Layout) (name t : String) :
    t.toList.length ≤ (writeText name ++ layout.colon ++ t).toList.length := by
  rw [String.toList_append, List.length_append]
  omega

/-- How the elements of a list begin. -/
theorem exists_cons_elements {x : Value} {xs : List Value} {ts : List String}
    (hx : ∀ t, write layout x = .ok t → IsTextOf t x) (hts : writeAll layout (x :: xs) = .ok ts)
    (tail : List Char) :
    ∃ z more, (layout.comma.intercalate ts).toList ++ tail = z :: more ∧ Begins z := by
  obtain ⟨t, ts', ht, -, rfl⟩ := exists_of_writeAll hts
  obtain ⟨z, zs, hz, hbegins⟩ := (hx t ht).first
  obtain ⟨more, hmore⟩ := exists_intercalate_cons layout.comma t ts'
  exact ⟨z, zs ++ (more ++ tail), by rw [hmore, hz]; simp, hbegins⟩

/-- How the members of an object begin. -/
theorem exists_cons_members {name : String} {v : Value} {es : List (Value × Value)}
    {ts : List String} (hts : writeMembers layout ((.text name, v) :: es) = .ok ts)
    (tail : List Char) : ∃ more, (layout.comma.intercalate ts).toList ++ tail = '"' :: more := by
  obtain ⟨t, ts', -, -, rfl⟩ := exists_of_writeMembers hts
  obtain ⟨more, hmore⟩ := exists_intercalate_cons layout.comma (writeText name ++ layout.colon ++ t) ts'
  rw [hmore, String.toList_append, String.toList_append, toList_writeText]
  exact ⟨_, rfl⟩

/-- Written elements are read to the end of the list, behind those that were read before. -/
theorem readElements_write : ∀ {xs : List Value} {ts : List String} {fuel : Nat}
    (acc : List Value) (tail : List Char), xs ≠ [] →
      (∀ x ∈ xs, ∀ t, write layout x = .ok t → IsTextOf t x) → writeAll layout xs = .ok ts →
      (layout.comma.intercalate ts).toList.length < fuel →
      readElements fuel acc ((layout.comma.intercalate ts).toList ++ ']' :: tail) =
        reading (xs.findSome? Value.longInteger?) (.list (acc.reverse ++ xs)) tail
  | [], _, _, _, _, hne, _, _, _ => absurd rfl hne
  | x :: xs, ts, fuel, acc, tail, _, hall, hts, hfuel => by
    obtain ⟨fuel, rfl⟩ : ∃ n, fuel = n + 1 := Nat.exists_eq_succ_of_ne_zero (by omega)
    obtain ⟨t, ts', ht, hts', rfl⟩ := exists_of_writeAll hts
    have htext := hall x List.mem_cons_self t ht
    rcases xs with _ | ⟨y, ys⟩
    · -- the last element
      rw [writeAll] at hts'
      obtain rfl := Except.ok.inj hts'
      rw [String.intercalate_singleton] at hfuel ⊢
      rw [readElements, htext.read fuel (']' :: tail) (by omega)
        (endsNumbers_cons ⟨by decide, by decide, by decide⟩ tail), List.findSome?_singleton]
      rcases x.longInteger? with _ | digits
      · simp [reading, skipBlanks_cons (show isBlank ']' = false by decide)]
      · rfl
    · -- an element that is followed by another one
      have hrest := hts'
      obtain ⟨u, us, hu, -, rfl⟩ := exists_of_writeAll hts'
      have hlength := length_intercalate_lt layout t u us
      obtain ⟨more, hmore, hskip⟩ :=
        exists_comma layout t us (hall y (by simp) u hu).first (']' :: tail)
      have ih := readElements_write (x :: acc) tail (List.cons_ne_nil y ys)
        (fun x' hx' => hall x' (List.mem_cons_of_mem x hx')) hrest (show _ < fuel by omega)
      rw [hmore, readElements, htext.read fuel (',' :: more) (by omega)
        (endsNumbers_cons ⟨by decide, by decide, by decide⟩ more), List.findSome?_cons]
      rcases x.longInteger? with _ | digits
      · simp only [reading, skipBlanks_cons (show isBlank ',' = false by decide), hskip, ih]
        simp
      · rfl

/-- The name of a written member, up to its value. -/
theorem readName_write (layout : Layout) (name : String) {t : String} {v : Value}
    (ht : IsTextOf t v) (tail : List Char) :
    readName ((writeText name ++ layout.colon ++ t).toList ++ tail) =
      .ok (name, t.toList ++ tail) := by
  obtain ⟨x, xs, hx, hbegins⟩ := ht.first
  obtain ⟨gap, hgap, hskip⟩ := skipBlanks_colon layout hbegins.not_isBlank (xs ++ tail)
  have htext : (writeText name ++ layout.colon ++ t).toList ++ tail =
      '"' :: (textChars name ++ ':' :: (gap ++ x :: (xs ++ tail))) := by
    rw [String.toList_append, String.toList_append, toList_writeText, hgap, hx]
    simp
  rw [htext, readName_append, hskip, hx, List.cons_append]

theorem exists_cons_member (layout : Layout) (name t : String) :
    ∃ z zs, (writeText name ++ layout.colon ++ t).toList = z :: zs ∧ Begins z := by
  rw [String.toList_append, String.toList_append, toList_writeText]
  exact ⟨'"', _, rfl, by decide, by decide, by decide⟩

/-- Written members are read to the end of the object, behind those that were read before. -/
theorem readMembers_write : ∀ {es : List (String × Value)} {ts : List String} {fuel : Nat}
    (acc : List (Value × Value)) (tail : List Char), es ≠ [] →
      (∀ e ∈ es, ∀ t, write layout e.2 = .ok t → IsTextOf t e.2) →
      writeMembers layout (es.map fun e => (.text e.1, e.2)) = .ok ts →
      (layout.comma.intercalate ts).toList.length < fuel →
      readMembers fuel acc ((layout.comma.intercalate ts).toList ++ '\x7d' :: tail) =
        reading (es.findSome? fun e => e.2.longInteger?)
          (Value.ofEntries (acc.reverse ++ es.map fun e => (.text e.1, e.2))) tail
  | [], _, _, _, _, hne, _, _, _ => absurd rfl hne
  | e :: es, ts, fuel, acc, tail, _, hall, hts, hfuel => by
    obtain ⟨fuel, rfl⟩ : ∃ n, fuel = n + 1 := Nat.exists_eq_succ_of_ne_zero (by omega)
    obtain ⟨t, ts', ht, hts', rfl⟩ := exists_of_writeMembers hts
    have htext := hall e List.mem_cons_self t ht
    have hlength := length_le_member layout e.1 t
    rcases es with _ | ⟨f, es⟩
    · -- the last member
      rw [List.map_nil, writeMembers] at hts'
      obtain rfl := Except.ok.inj hts'
      rw [String.intercalate_singleton] at hfuel ⊢
      rw [readMembers, readName_write layout e.1 htext, List.findSome?_singleton]
      dsimp only
      rw [htext.read fuel ('\x7d' :: tail) (by omega)
        (endsNumbers_cons ⟨by decide, by decide, by decide⟩ tail)]
      rcases e.2.longInteger? with _ | digits
      · simp [reading, skipBlanks_cons (show isBlank '\x7d' = false by decide)]
      · rfl
    · -- a member that is followed by another one
      have hrest := hts'
      obtain ⟨u, us, -, -, rfl⟩ := exists_of_writeMembers hts'
      have hlonger := length_intercalate_lt layout (writeText e.1 ++ layout.colon ++ t)
        (writeText f.1 ++ layout.colon ++ u) us
      obtain ⟨more, hmore, hskip⟩ := exists_comma layout (writeText e.1 ++ layout.colon ++ t) us
        (exists_cons_member layout f.1 u) ('\x7d' :: tail)
      have ih := readMembers_write ((.text e.1, e.2) :: acc) tail (List.cons_ne_nil f es)
        (fun e' he' => hall e' (List.mem_cons_of_mem e he')) hrest (show _ < fuel by omega)
      rw [hmore, readMembers, readName_write layout e.1 htext, List.findSome?_cons]
      dsimp only
      rw [htext.read fuel (',' :: more) (by omega)
        (endsNumbers_cons ⟨by decide, by decide, by decide⟩ more)]
      rcases e.2.longInteger? with _ | digits
      · simp only [reading, skipBlanks_cons (show isBlank ',' = false by decide), hskip, ih]
        simp
      · rfl

/-! ## Lists and objects -/

theorem toList_brackets (t : String) : ("[" ++ t ++ "]").toList = '[' :: (t.toList ++ [']']) := by
  rw [String.toList_append, String.toList_append]
  rfl

theorem toList_braces (t : String) :
    ("\x7b" ++ t ++ "\x7d").toList = '\x7b' :: (t.toList ++ ['\x7d']) := by
  rw [String.toList_append, String.toList_append]
  rfl

theorem readValue_list (fuel : Nat) {z : Char} (hz : Begins z) (more : List Char) :
    readValue (fuel + 1) ('[' :: z :: more) = readElements fuel [] (z :: more) := by
  rw [readValue, skipBlanks_cons hz.not_isBlank]
  split
  · rename_i heq
    exact absurd (List.cons.inj heq).1 hz.notClosing
  · rfl

theorem isTextOf_list {xs : List Value} {ts : List String}
    (hall : ∀ x ∈ xs, ∀ t, write layout x = .ok t → IsTextOf t x)
    (hts : writeAll layout xs = .ok ts) :
    IsTextOf ("[" ++ layout.comma.intercalate ts ++ "]") (.list xs) := by
  have htext := toList_brackets (layout.comma.intercalate ts)
  refine ⟨⟨'[', _, htext, by decide, by decide, by decide⟩, fun fuel tail hfuel _ => ?_⟩
  rw [htext, List.length_cons, List.length_append, List.length_singleton] at hfuel
  obtain ⟨fuel, rfl⟩ : ∃ n, fuel = n + 1 := Nat.exists_eq_succ_of_ne_zero (by omega)
  rw [htext, List.cons_append, List.append_assoc, List.singleton_append, Value.longInteger?_list]
  rcases xs with _ | ⟨x, xs⟩
  · rw [writeAll] at hts
    obtain rfl := Except.ok.inj hts
    rw [readValue]
    rfl
  · have helements := readElements_write [] tail (List.cons_ne_nil x xs) hall hts
      (show _ < fuel by omega)
    obtain ⟨z, more, hmore, hbegins⟩ :=
      exists_cons_elements (hall x List.mem_cons_self) hts (']' :: tail)
    rw [hmore] at helements ⊢
    rw [readValue_list fuel hbegins, helements, List.reverse_nil, List.nil_append]

theorem isTextOf_object {es : List (String × Value)} {ts : List String}
    (hkeys : (es.map Prod.fst).Nodup)
    (hall : ∀ e ∈ es, ∀ t, write layout e.2 = .ok t → IsTextOf t e.2)
    (hts : writeMembers layout (es.map fun e => (.text e.1, e.2)) = .ok ts) :
    IsTextOf ("\x7b" ++ layout.comma.intercalate ts ++ "\x7d") (.object es) := by
  have htext := toList_braces (layout.comma.intercalate ts)
  refine ⟨⟨'\x7b', _, htext, by decide, by decide, by decide⟩, fun fuel tail hfuel _ => ?_⟩
  rw [htext, List.length_cons, List.length_append, List.length_singleton] at hfuel
  obtain ⟨fuel, rfl⟩ : ∃ n, fuel = n + 1 := Nat.exists_eq_succ_of_ne_zero (by omega)
  rw [htext, List.cons_append, List.append_assoc, List.singleton_append, Value.longInteger?_object]
  rcases es with _ | ⟨e, es⟩
  · rw [List.map_nil, writeMembers] at hts
    obtain rfl := Except.ok.inj hts
    rw [readValue]
    rfl
  · have hmembers := readMembers_write [] tail (List.cons_ne_nil e es) hall hts
      (show _ < fuel by omega)
    obtain ⟨more, hmore⟩ := exists_cons_members hts ('\x7d' :: tail)
    rw [hmore] at hmembers ⊢
    rw [readValue_object, hmembers, List.reverse_nil, List.nil_append,
      Value.ofEntries_object hkeys]

/-! ## JSON values -/

/-- The text of a JSON value. -/
theorem isTextOf_write {v : Value} (hv : v.IsJson) :
    ∀ t, write layout v = .ok t → IsTextOf t v := by
  induction hv with
  | null =>
    intro t h
    rw [write] at h
    obtain rfl := Except.ok.inj h
    exact isTextOf_word rfl ⟨'n', _, rfl, by decide, by decide, by decide⟩ fun fuel tail => by
      simp [readValue, readWord?, after?]
  | bool b =>
    intro t h
    rw [write] at h
    obtain rfl := Except.ok.inj h
    cases b
    · exact isTextOf_word rfl ⟨'f', _, rfl, by decide, by decide, by decide⟩ fun fuel tail => by
        simp [readValue, readWord?, after?]
    · exact isTextOf_word rfl ⟨'t', _, rfl, by decide, by decide, by decide⟩ fun fuel tail => by
        simp [readValue, readWord?, after?]
  | int n =>
    intro t h
    rw [write] at h
    obtain rfl := Except.ok.inj h
    exact isTextOf_integerText n
  | float hx =>
    intro t h
    rw [write, writeFloat, if_pos hx] at h
    obtain rfl := Except.ok.inj h
    exact isTextOf_of_readNumber (isNumberText_text hx).first (isNumberText_text hx).read
  | text s =>
    intro t h
    rw [write] at h
    obtain rfl := Except.ok.inj h
    exact isTextOf_writeText s
  | list _ ih =>
    intro t h
    rw [write] at h
    obtain ⟨ts, hts, h⟩ := ok_of_bind h
    obtain rfl := Except.ok.inj h
    exact isTextOf_list ih hts
  | object hkeys _ ih =>
    intro t h
    rw [Value.object, write] at h
    obtain ⟨ts, hts, h⟩ := ok_of_bind h
    obtain rfl := Except.ok.inj h
    exact isTextOf_object hkeys ih hts

/-- A JSON value has a text in either layout. -/
theorem exists_write_of_isJson {v : Value} (hv : v.IsJson) : ∃ t, write layout v = .ok t := by
  induction hv with
  | null | bool | int | text => exact ⟨_, by rw [write]⟩
  | float hx => exact ⟨_, by rw [write, writeFloat, if_pos hx]⟩
  | list _ ih => exact exists_write_list_iff.mpr ih
  | object _ _ ih =>
    refine exists_write_dict_iff.mpr fun e he => ?_
    obtain ⟨e', he', rfl⟩ := List.mem_map.mp he
    exact ⟨⟨e'.1, rfl⟩, ih e' he'⟩

/-- The text of a JSON value is read as the value, unless some integer has too many digits. -/
theorem read_write {v : Value} (hv : v.IsJson) {t : String} (ht : write layout v = .ok t) :
    read t = match v.longInteger? with
      | none => .ok v
      | some digits => .error (.longInteger digits) := by
  have htext := isTextOf_write hv t ht
  obtain ⟨x, xs, hx, hbegins⟩ := htext.first
  have hvalue := htext.read (2 * t.toList.length + 1) [] (by omega) endsNumbers_nil
  rw [List.append_nil] at hvalue
  rw [read, readChars, if_neg (by rw [hx]; simpa using hbegins.ne_mark), readDocument, hx,
    skipBlanks_cons hbegins.not_isBlank, ← hx, hvalue]
  rcases v.longInteger? with _ | digits <;> rfl

/-- The text of a JSON value is not blank. -/
theorem isBlankText_write {v : Value} (hv : v.IsJson) {t : String} (ht : write layout v = .ok t) :
    Text.isBlankText t = false := by
  obtain ⟨x, xs, hx, hbegins⟩ := (isTextOf_write hv t ht).first
  rw [Text.isBlankText, hx, List.all_cons, hbegins.not_isBlank_text, Bool.false_and]

/-! ## Rows -/

/-- The cells of a row are read back from their text in either layout. -/
theorem read_of_write {cells : Cells} {t : String}
    (hall : Source.AllStorable cells) (hshort : ∀ e ∈ cells, e.2.IsShort)
    (hkeys : (cells.map Prod.fst).Nodup) (ht : write layout (.object cells) = .ok t) :
    read t = .ok (.object cells) := by
  have hjson : (Value.object cells).IsJson := .object hkeys fun e he =>
    Value.isJson_of_classify (hall e he)
  have hlong : (Value.object cells).longInteger? = none := by
    rw [Value.longInteger?_object]
    exact List.findSome?_eq_none_iff.mpr fun e he =>
      Value.longInteger?_of_isShort (hall e he) (hshort e he)
  rw [read_write hjson ht, hlong]

end Json

end Tabula
