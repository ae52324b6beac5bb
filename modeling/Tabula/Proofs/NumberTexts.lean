import Tabula.Proofs.ShortestDigits

/-!
# Numbers are read back

The text of an integer with no more digits than are read and the text of a finite float are read as
just these, the float with its sign and its kind (`Json.isNumberText_integerText`,
`Json.isNumberText_text`). The text of a float comes in four shapes; in each the reader finds a
coefficient and an exponent that make the number of the decimal form (`Json.exists_isReading_render`),
and the size nearest that number is the one that was written.
-/

namespace Tabula

namespace Json

/-! ## Parts and exponents -/

theorem takePart_append {ds : List Char} (hne : ds ≠ []) (hds : ∀ d ∈ ds, d.isDigit = true)
    {c : Char} (hc : c.isDigit = false) (tail : List Char) :
    takePart ('.' :: (ds ++ c :: tail)) = (ds, c :: tail) := by
  simp [takePart, spanDigits_append hds hc, hne]

/-- An exponent is a sign and digits, of which there are two at least. -/
theorem exists_exponentText (e : Int) : ∃ ds, exponentText e = (if e < 0 then '-' else '+') :: ds ∧
    ds ≠ [] ∧ (∀ d ∈ ds, d.isDigit = true) ∧ Nat.ofDigitChars 10 ds 0 = e.natAbs := by
  have hall : ∀ d ∈ Nat.toDigits 10 e.natAbs, d.isDigit = true := fun d =>
    Nat.isDigit_of_mem_toDigits (by decide) (by decide)
  refine ⟨_, rfl, ?_⟩
  split
  · refine ⟨List.cons_ne_nil _ _, List.forall_mem_cons.mpr ⟨by decide, hall⟩, ?_⟩
    rw [Nat.ofDigitChars_cons]
    exact Nat.ofDigitChars_ten_toDigits
  · exact ⟨Nat.toDigits_ne_nil, hall, Nat.ofDigitChars_ten_toDigits⟩

theorem takeExponent?_exponentText (e : Int) {c : Char} (hc : c.isDigit = false)
    (tail : List Char) :
    takeExponent? ('e' :: (exponentText e ++ c :: tail)) = some (e, c :: tail) := by
  obtain ⟨ds, hds, hne, hdigits, hvalue⟩ := exists_exponentText e
  have hspan := spanDigits_append hdigits hc tail
  rw [hds, takeExponent?, if_pos (by decide)]
  by_cases hneg : e < 0
  · simp only [if_pos hneg, Text.takeSign, List.cons_append, hspan, List.isEmpty_iff, if_neg hne,
      hvalue, if_true]
    rw [show -((e.natAbs : Nat) : Int) = e by omega]
  · simp only [if_neg hneg, Text.takeSign, List.cons_append, hspan, List.isEmpty_iff, if_neg hne,
      hvalue, Bool.false_eq_true, if_false]
    rw [show ((e.natAbs : Nat) : Int) = e by omega]

/-- A float, which has a part after a point or an exponent. -/
theorem readNumber_float (negative : Bool) {d : Char} (hd : d.isDigit = true)
    {ds whole part rest rest' rest'' : List Char} {e : Int}
    (hwhole : takeWhole? (d :: ds) = some (whole, rest)) (hpart : takePart rest = (part, rest'))
    (hexponent : takeExponent? rest' = some (e, rest'') ∨
      takeExponent? rest' = none ∧ part ≠ [] ∧ e = 0 ∧ rest'' = rest') :
    readNumber (signChars negative (d :: ds)) = .ok (.float (Binary64.ofDecimal negative
      (Nat.ofDigitChars 10 (whole ++ part) 0) (e - part.length)), rest'') := by
  rw [readNumber_signChars negative hd hwhole]
  rcases hexponent with hexponent | ⟨hexponent, hne, rfl, rfl⟩
  · simp [hpart, hexponent]
  · simp [hpart, hexponent, hne]

/-! ## The texts of decimal forms -/

/-- The characters are read as the number of a decimal form. -/
structure IsReading (d : Decimal) (cs : List Char) (coefficient : Nat) (e : Int) : Prop where
  first : ∃ y ys, cs = y :: ys ∧ y.isDigit = true
  read : ∀ negative c tail, EndsNumber c → readNumber (signChars negative (cs ++ c :: tail)) =
    .ok (.float (Binary64.ofDecimal negative coefficient e), c :: tail)
  value : (coefficient * 10 ^ e : ℚ) = d.value

section Render

variable {d : Decimal} {x : Char} {xs : List Char}

/-- Digits with an exponent. -/
theorem exists_isReading_exponent (hdigits : ∀ c ∈ x :: xs, c.isDigit = true) (hx : x ≠ '0')
    (hd : d.digits = x :: xs) :
    ∃ coefficient e, IsReading d
      (if xs = [] then x :: 'e' :: exponentText (d.place - 1)
        else x :: '.' :: xs ++ 'e' :: exponentText (d.place - 1)) coefficient e := by
  have hxd := hdigits x List.mem_cons_self
  have hsingle : ∀ y ∈ [x], y.isDigit = true := by simpa using hxd
  refine ⟨Nat.ofDigitChars 10 (x :: xs) 0, d.place - 1 - xs.length, ?_, fun negative c tail hc => ?_, ?_⟩
  · split <;> exact ⟨x, _, rfl, hxd⟩
  · have hexponent := takeExponent?_exponentText (d.place - 1) hc.digit tail
    split
    · rename_i hxs
      have hwhole := takeWhole?_append hx hsingle
        (show 'e'.isDigit = false by decide) (exponentText (d.place - 1) ++ c :: tail)
      have hread := readNumber_float negative hxd hwhole
        (takePart_of_ne (show 'e' ≠ '.' by decide) _) (.inl hexponent)
      simpa [hxs] using hread
    · rename_i hxs
      have hwhole := takeWhole?_append hx hsingle
        (show '.'.isDigit = false by decide) (xs ++ 'e' :: (exponentText (d.place - 1) ++ c :: tail))
      have hpart := takePart_append hxs (fun c hc => hdigits c (List.mem_cons_of_mem x hc))
        (show 'e'.isDigit = false by decide) (exponentText (d.place - 1) ++ c :: tail)
      have hread := readNumber_float negative hxd hwhole hpart (.inl hexponent)
      simpa using hread
  · rw [Decimal.value, hd, List.length_cons]
    congr 2
    push_cast
    ring

/-- Digits after a point. -/
theorem exists_isReading_part (hdigits : ∀ c ∈ d.digits, c.isDigit = true) (hne : d.digits ≠ [])
    (hplace : d.place ≤ 0) :
    ∃ coefficient e, IsReading d
      ('0' :: '.' :: List.replicate (-d.place).toNat '0' ++ d.digits) coefficient e := by
  obtain ⟨part, hpart⟩ : ∃ part, List.replicate (-d.place).toNat '0' ++ d.digits = part := ⟨_, rfl⟩
  have hall : ∀ c ∈ part, c.isDigit = true := by
    rw [← hpart]
    refine fun c hc => (List.mem_append.mp hc).elim (fun hc => ?_) (hdigits c)
    rw [List.eq_of_mem_replicate hc]
    decide
  refine ⟨Nat.ofDigitChars 10 part 0, -part.length, ⟨'0', _, rfl, by decide⟩,
    fun negative c tail hc => ?_, ?_⟩
  · have htake := takePart_append (by rw [← hpart]; simp [hne]) hall hc.digit tail
    have hread := readNumber_float negative (show '0'.isDigit = true by decide)
      (takeWhole?_zero _) htake (.inr ⟨takeExponent?_of_ne hc.exponent tail, by rw [← hpart]; simp [hne],
        rfl, rfl⟩)
    have hzero : Nat.ofDigitChars 10 ('0' :: part) 0 = Nat.ofDigitChars 10 part 0 := by
      rw [Nat.ofDigitChars_cons]
      rfl
    simpa [hpart, hzero, ← List.append_assoc] using hread
  · rw [Decimal.value, ← hpart, Nat.ofDigitChars_append, Nat.ofDigitChars_replicate_zero,
      List.length_append, List.length_replicate, Nat.mul_zero]
    congr 2
    omega

/-- The digits up to the point, with zeros where there are none, and those behind it, one zero if
there are none, make the number whose point is there. -/
theorem value_around {n : Nat} {ws part : List Char}
    (hws : xs.take n ++ List.replicate (n + 1 - ((xs.take n).length + 1)) '0' = ws)
    (hpart : (if (xs.drop n).isEmpty then ['0'] else xs.drop n) = part) (hd : d.digits = x :: xs)
    (hplace : d.place = (n + 1 : Nat)) :
    (Nat.ofDigitChars 10 (x :: ws ++ part) 0 * 10 ^ (-part.length : Int) : ℚ) = d.value := by
  rw [Decimal.value, hd, hplace]
  by_cases hlong : xs.length ≤ n
  · -- all digits are before the point
    have hdrop : xs.drop n = [] := List.drop_eq_nil_of_le hlong
    have htext : x :: ws ++ part = (x :: xs) ++ List.replicate (n - xs.length + 1) '0' := by
      rw [← hws, ← hpart, hdrop, List.take_of_length_le hlong, List.replicate_succ']
      simp
    have hlength : part.length = 1 := by
      rw [← hpart, hdrop]
      rfl
    rw [htext, Nat.ofDigitChars_append, Nat.ofDigitChars_replicate_zero, hlength]
    push_cast
    rw [mul_comm ((10 : ℚ) ^ (n - xs.length + 1)), mul_assoc, ← zpow_natCast (10 : ℚ),
      ← zpow_add₀ (by norm_num), List.length_cons]
    congr 2
    push_cast [Nat.cast_sub hlong]
    ring
  · have hdrop : xs.drop n ≠ [] := fun h => hlong (List.drop_eq_nil_iff.mp h)
    have hpart' : part = xs.drop n := by
      rw [← hpart, if_neg (by simpa using hdrop)]
    have hws' : ws = xs.take n := by
      rw [← hws, List.length_take, Nat.min_eq_left (not_le.mp hlong).le, Nat.sub_self]
      simp
    rw [hpart', hws', List.cons_append, List.take_append_drop, List.length_drop, List.length_cons]
    congr 2
    push_cast [Nat.cast_sub (not_le.mp hlong).le]
    ring

/-- Digits around a point, or with zeros before it. -/
theorem exists_isReading_whole (hdigits : ∀ c ∈ x :: xs, c.isDigit = true) (hx : x ≠ '0')
    (hd : d.digits = x :: xs) (hplace : 0 < d.place) :
    ∃ coefficient e, IsReading d
      (d.digits.take d.place.toNat ++ List.replicate
          (d.place.toNat - (d.digits.take d.place.toNat).length) '0' ++
        '.' :: (if (d.digits.drop d.place.toNat).isEmpty then ['0']
          else d.digits.drop d.place.toNat)) coefficient e := by
  obtain ⟨n, hn⟩ : ∃ n : Nat, d.place = (n + 1 : Nat) := ⟨d.place.toNat - 1, by omega⟩
  rw [hn, Int.toNat_natCast, hd, List.take_succ_cons, List.drop_succ_cons, List.length_cons]
  obtain ⟨ws, hws⟩ : ∃ ws,
      xs.take n ++ List.replicate (n + 1 - ((xs.take n).length + 1)) '0' = ws := ⟨_, rfl⟩
  obtain ⟨part, hpart⟩ : ∃ part,
      (if (xs.drop n).isEmpty then ['0'] else xs.drop n) = part := ⟨_, rfl⟩
  rw [List.cons_append, hws, hpart]
  have hwsdigits : ∀ c ∈ x :: ws, c.isDigit = true := by
    refine List.forall_mem_cons.mpr ⟨hdigits x List.mem_cons_self, fun c hc => ?_⟩
    rw [← hws] at hc
    rcases List.mem_append.mp hc with hc | hc
    · exact hdigits c (List.mem_cons_of_mem x (List.mem_of_mem_take hc))
    · rw [List.eq_of_mem_replicate hc]
      decide
  have hpartdigits : part ≠ [] ∧ ∀ c ∈ part, c.isDigit = true := by
    rw [← hpart]
    split
    · exact ⟨List.cons_ne_nil _ _, by simp⟩
    · rename_i hne
      exact ⟨by simpa using hne,
        fun c hc => hdigits c (List.mem_cons_of_mem x (List.mem_of_mem_drop hc))⟩
  have hxd := hwsdigits x List.mem_cons_self
  refine ⟨Nat.ofDigitChars 10 (x :: ws ++ part) 0, -part.length, ⟨x, _, rfl, hxd⟩,
    fun negative c tail hc => ?_, value_around hws hpart hd hn⟩
  have hwhole := takeWhole?_append hx hwsdigits (show '.'.isDigit = false by decide)
    (part ++ c :: tail)
  have htake := takePart_append hpartdigits.1 hpartdigits.2 hc.digit tail
  have hread := readNumber_float negative hxd hwhole htake
    (.inr ⟨takeExponent?_of_ne hc.exponent tail, hpartdigits.1, rfl, rfl⟩)
  simpa using hread

end Render

/-- The text of a plain form is read as the number that it stands for. -/
theorem exists_isReading_render {d : Decimal} (h : d.IsPlain) :
    ∃ coefficient e, IsReading d (displayStyle.render d) coefficient e := by
  obtain ⟨x, xs, hd, hx⟩ := h.first
  have hdigits : ∀ c ∈ x :: xs, c.isDigit = true := hd ▸ h.digits
  rw [DecimalStyle.render]
  split
  · have hread := exists_isReading_exponent hdigits hx hd
    rcases xs with _ | ⟨y, ys⟩
    · simpa [hd, displayStyle] using hread
    · simpa [hd] using hread
  · split
    · rename_i hplace
      exact exists_isReading_part h.digits (by simp [hd]) hplace
    · rename_i hplace
      exact exists_isReading_whole hdigits hx hd (not_le.mp hplace)

end Json

/-! ## Finite floats -/

theorem pow_mul_le_ofDigitChars (init : Nat) : ∀ cs : List Char,
    init * 10 ^ cs.length ≤ Nat.ofDigitChars 10 cs init
  | [] => by simp
  | c :: cs => by
    rw [Nat.ofDigitChars_cons]
    calc init * 10 ^ (c :: cs).length = 10 * init * 10 ^ cs.length := by
          rw [List.length_cons, Nat.pow_succ]
          ring
      _ ≤ (10 * init + (c.toNat - '0'.toNat)) * 10 ^ cs.length :=
          Nat.mul_le_mul_right _ (Nat.le_add_right _ _)
      _ ≤ _ := pow_mul_le_ofDigitChars _ cs

theorem ofDigitChars_lt (init : Nat) : ∀ {cs : List Char}, (∀ c ∈ cs, c.isDigit = true) →
    Nat.ofDigitChars 10 cs init < (init + 1) * 10 ^ cs.length
  | [], _ => by simp
  | c :: cs, h => by
    obtain ⟨hc, hcs⟩ := List.forall_mem_cons.mp h
    have hdigit : c.toNat - '0'.toNat ≤ 9 := by
      have hnine : c.toNat ≤ 57 := (Char.isDigit_iff_toNat.mp hc).2
      have hzero : '0'.toNat = 48 := rfl
      omega
    rw [Nat.ofDigitChars_cons]
    calc _ < (10 * init + (c.toNat - '0'.toNat) + 1) * 10 ^ cs.length := ofDigitChars_lt _ hcs
      _ ≤ (10 * (init + 1)) * 10 ^ cs.length := Nat.mul_le_mul_right _ (by omega)
      _ = (init + 1) * 10 ^ (c :: cs).length := by
          rw [List.length_cons, Nat.pow_succ]
          ring

/-- A plain form stands for a number with its first digit in its place. -/
theorem Decimal.IsPlain.value_bounds {d : Decimal} (h : d.IsPlain) :
    (10 : ℚ) ^ (d.place - 1) ≤ d.value ∧ d.value < 10 ^ d.place := by
  obtain ⟨x, xs, hd, hx⟩ := h.first
  have hdigits : ∀ c ∈ x :: xs, c.isDigit = true := hd ▸ h.digits
  have hfirst : 1 ≤ x.toNat - '0'.toNat := by
    have hzero : '0'.toNat = 48 := rfl
    have hle : 48 ≤ x.toNat := (Char.isDigit_iff_toNat.mp (hdigits x List.mem_cons_self)).1
    have hne : x.toNat ≠ 48 := fun h => hx (Char.toNat_inj.mp h)
    omega
  have hlow : 10 ^ xs.length ≤ Nat.ofDigitChars 10 (x :: xs) 0 := by
    rw [Nat.ofDigitChars_cons]
    calc 10 ^ xs.length = 1 * 10 ^ xs.length := (Nat.one_mul _).symm
      _ ≤ (10 * 0 + (x.toNat - '0'.toNat)) * 10 ^ xs.length := Nat.mul_le_mul_right _ (by omega)
      _ ≤ _ := pow_mul_le_ofDigitChars _ xs
  have hhigh : Nat.ofDigitChars 10 (x :: xs) 0 < 10 ^ (xs.length + 1) := by
    simpa using ofDigitChars_lt 0 hdigits
  have hlow : (10 : ℚ) ^ xs.length ≤ Nat.ofDigitChars 10 (x :: xs) 0 := by exact_mod_cast hlow
  have hhigh : (Nat.ofDigitChars 10 (x :: xs) 0 : ℚ) < 10 ^ (xs.length + 1) := by exact_mod_cast hhigh
  have hstep : (0 : ℚ) < 10 ^ (d.place - (xs.length + 1 : Nat)) := zpow_pos (by norm_num) _
  have hpow : ∀ n : Nat, (10 : ℚ) ^ n * 10 ^ (d.place - (xs.length + 1 : Nat)) =
      10 ^ (d.place - (xs.length + 1 : Nat) + n) := fun n => by
    rw [zpow_add₀ (by norm_num), zpow_natCast, mul_comm]
  rw [Decimal.value, hd, List.length_cons]
  constructor
  · have := mul_le_mul_of_nonneg_right hlow hstep.le
    rwa [hpow, show d.place - (xs.length + 1 : Nat) + (xs.length : Int) = d.place - 1 by
      push_cast; ring] at this
  · have := mul_lt_mul_of_pos_right hhigh hstep
    rwa [hpow, sub_add_cancel] at this

/-- The place of a number in decimal form, by its coefficient and its exponent. -/
theorem length_add_eq {c : Nat} (hc : 0 < c) {e place : Int}
    (hlow : (10 : ℚ) ^ (place - 1) ≤ c * 10 ^ e) (hhigh : (c * 10 ^ e : ℚ) < 10 ^ place) :
    (Nat.toDigits 10 c).length + e = place := by
  obtain ⟨k, hk⟩ : ∃ k, (Nat.toDigits 10 c).length = k + 1 :=
    Nat.exists_eq_succ_of_ne_zero (length_toDigits_pos c).ne'
  have hle := pow_le_of_length_toDigits hc
  have hlt := lt_pow_length_toDigits c
  rw [hk] at hle hlt
  have hle : (10 : ℚ) ^ k ≤ c := by exact_mod_cast hle
  have hlt : (c : ℚ) < 10 ^ (k + 1) := by exact_mod_cast hlt
  have hstep : (0 : ℚ) < 10 ^ e := zpow_pos (by norm_num) _
  have hpow : ∀ n : Nat, (10 : ℚ) ^ n * 10 ^ e = 10 ^ (e + n) := fun n => by
    rw [zpow_add₀ (by norm_num), zpow_natCast, mul_comm]
  have h₁ : (10 : ℚ) ^ (e + k) < 10 ^ place := by
    rw [← hpow]
    exact (mul_le_mul_of_nonneg_right hle hstep.le).trans_lt hhigh
  have h₂ : (10 : ℚ) ^ (place - 1) < 10 ^ (e + (k + 1 : Nat)) := by
    rw [← hpow]
    exact hlow.trans_lt (mul_lt_mul_of_pos_right hlt hstep)
  have h₁ := (zpow_lt_zpow_iff_right₀ (by norm_num)).mp h₁
  have h₂ := (zpow_lt_zpow_iff_right₀ (by norm_num)).mp h₂
  rw [hk]
  omega

/-- What stands for the same number as the digits of a size is read as that size. -/
theorem Binary64.ofDecimal_of_isReading {m : Magnitude} (hpos : 0 < m.rank) {d : Decimal} (hd : d.IsPlain)
    (hnear : Magnitude.IsNearest m.rank d.value) {cs : List Char} {coefficient : Nat} {e : Int}
    (h : Json.IsReading d cs coefficient e) (negative : Bool) :
    ofDecimal negative coefficient e = signed negative m := by
  obtain ⟨hlow, hhigh⟩ := hd.value_bounds
  rw [← h.value] at hlow hhigh hnear
  have hc : 0 < coefficient := by
    refine Nat.pos_of_ne_zero fun hzero => ?_
    rw [hzero, Nat.cast_zero, zero_mul] at hlow
    exact absurd hlow (not_le.mpr (zpow_pos (by norm_num) _))
  have hplace := length_add_eq hc hlow hhigh
  exact ofDecimal_of_isNearest hpos hc (by have := hd.low; omega) (by have := hd.high; omega) hnear
    negative

namespace Json

/-- A text that is read as a value wherever a character follows that ends numbers. -/
structure IsNumberText (t : String) (v : Value) : Prop where
  first : ∃ negative y ys, t.toList = signChars negative (y :: ys) ∧ y.isDigit = true
  read : ∀ c tail, EndsNumber c → readNumber (t.toList ++ c :: tail) = .ok (v, c :: tail)

/-- The digits of a size are read as this size. -/
theorem exists_isReading_shortest {m : Magnitude} (hfinite : m.isFinite = true) :
    ∃ coefficient e, IsReading m.shortest (displayStyle.render m.shortest) coefficient e ∧
      ∀ negative, Binary64.ofDecimal negative coefficient e = .signed negative m := by
  rcases Nat.eq_zero_or_pos m.rank with hzero | hpos
  · have hshortest : m.shortest = ⟨['0'], 1⟩ := by rw [Magnitude.shortest, if_pos hzero]
    have htext : displayStyle.render ⟨['0'], 1⟩ = ['0', '.', '0'] := by decide
    rw [hshortest, htext]
    refine ⟨0, -1, ⟨⟨'0', _, rfl, by decide⟩, fun negative c tail hc => ?_, ?_⟩, fun negative => ?_⟩
    · have hpart := takePart_append (List.cons_ne_nil '0' []) (List.forall_mem_singleton.mpr rfl)
        hc.digit tail
      exact readNumber_float negative (by decide) (takeWhole?_zero _) hpart
        (.inr ⟨takeExponent?_of_ne hc.exponent tail, List.cons_ne_nil _ _, rfl, rfl⟩)
    · norm_num [Decimal.value, Nat.ofDigitChars]
    · obtain ⟨rank, hle⟩ := m
      obtain rfl : rank = 0 := hzero
      rfl
  · obtain ⟨hplain, hnear⟩ := Magnitude.spec_shortest hfinite hpos
    obtain ⟨coefficient, e, h⟩ := exists_isReading_render hplain
    exact ⟨coefficient, e, h, Binary64.ofDecimal_of_isReading hpos hplain hnear h⟩

/-- The text of a finite float. -/
theorem isNumberText_text {x : Binary64} (hx : x.isFinite = true) : IsNumberText x.text (.float x) := by
  cases x with
  | nan => cases hx
  | signed negative m =>
    have hfinite : m.isFinite = true := hx
    obtain ⟨coefficient, e, h, hvalue⟩ := exists_isReading_shortest hfinite
    have htext : (Binary64.signed negative m).text.toList =
        signChars negative (displayStyle.render m.shortest) := by
      rw [Binary64.text, String.toList_ofList, hfinite]
      rfl
    obtain ⟨y, ys, hy, hdigit⟩ := h.first
    refine ⟨⟨negative, y, ys, by rw [htext, hy], hdigit⟩, fun c tail hc => ?_⟩
    rw [htext, signChars_append, h.read negative c tail hc, hvalue]

theorem toList_integerText (n : Int) :
    (integerText n).toList = signChars (n < 0) n.natAbs.repr.toList := by
  rw [integerText, Int.toString_eq_repr, Int.repr_eq_if]
  by_cases hneg : 0 ≤ n
  · rw [if_pos hneg, decide_eq_false (not_lt.mpr hneg), show n.toNat = n.natAbs by omega]
    rfl
  · rw [if_neg hneg, decide_eq_true (not_le.mp hneg), String.toList_append,
      show (-n).toNat = n.natAbs by omega]
    rfl

/-- The text of an integer of at most 4300 digits. -/
theorem isNumberText_integerText {n : Int}
    (hn : (Nat.toDigits 10 n.natAbs).length ≤ Text.integerDigitLimit) :
    IsNumberText (integerText n) (.int n) := by
  obtain ⟨y, ys, hy, hdigit⟩ := exists_cons_repr n.natAbs
  refine ⟨⟨n < 0, y, ys, by rw [toList_integerText, hy], hdigit⟩, fun c tail hc => ?_⟩
  rw [toList_integerText, signChars_append, readNumber_repr (n < 0) (by rwa [Nat.toList_repr]) hc]
  congr 3
  split <;> rename_i hneg <;> simp at hneg <;> omega

end Json

end Tabula
