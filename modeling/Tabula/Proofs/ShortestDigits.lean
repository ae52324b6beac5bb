import Mathlib.Data.Nat.Cast.Order.Field
import Mathlib.Data.Nat.Digits.Defs
import Tabula.Proofs.Readback
import Tabula.Proofs.Rounding

/-!
# The fewest digits that read back

The digits that `Magnitude.shortest` finds for a finite size that is not zero make a number to which
the size is nearest (`Magnitude.spec_shortest`). What needs an argument is that seventeen digits are
enough : a number on their grid lies within a part in `2 * 10 ^ 16` of the size, and the middles to the
neighbours of a size are further away than that (`Magnitude.room_above`, `Magnitude.room_below`).
-/

namespace Tabula

/-! ## Lengths of digits -/

theorem length_toDigits_pos (n : Nat) : 0 < (Nat.toDigits 10 n).length :=
  List.length_pos_iff.mpr Nat.toDigits_ne_nil

theorem lt_pow_length_toDigits (n : Nat) : n < 10 ^ (Nat.toDigits 10 n).length :=
  (Nat.length_toDigits_le_iff (by decide) (length_toDigits_pos n)).mp (Nat.le_refl _)

theorem pow_le_of_length_toDigits {n : Nat} (hn : 0 < n) :
    10 ^ ((Nat.toDigits 10 n).length - 1) ≤ n := by
  rcases Nat.eq_zero_or_pos ((Nat.toDigits 10 n).length - 1) with hzero | hpos
  · rw [hzero]
    exact hn
  · by_contra hlt
    have := (Nat.length_toDigits_le_iff (by decide) hpos).mpr (not_le.mp hlt)
    omega

namespace Magnitude

variable {m : Magnitude}

/-! ## The place of a size -/

/-- The size as a number. -/
def ones (m : Magnitude) : ℚ := m.units / unitsPerOne

theorem units_pos (hpos : 0 < m.rank) : 0 < m.units := by
  obtain ⟨s, sig, h⟩ := exists_spacing hpos
  have hsig : 0 < sig := by
    refine Nat.pos_of_ne_zero fun hzero => ?_
    have hrank := h.rank
    rcases h.normal with rfl | hnormal
    · omega
    · rw [hzero] at hnormal
      exact absurd hnormal (by decide)
  rw [units, h.units]
  exact Nat.mul_pos hsig (Nat.two_pow_pos s)

/-- A finite size is below `2 ^ 1024`. -/
theorem units_lt (hfinite : m.isFinite = true) (hpos : 0 < m.rank) {k : Nat} (hk : 2098 ≤ k) :
    m.units < 1 <<< k := by
  obtain ⟨s, sig, h⟩ := exists_spacing hpos
  have hrank : m.rank < 2047 * binadeSize := of_decide_eq_true hfinite
  have hs : 53 + s ≤ k := by
    rcases h.normal with rfl | hnormal
    · omega
    · have : (s + 1) * binadeSize < 2047 * binadeSize := by
        have := h.rank
        linarith
      have := Nat.lt_of_mul_lt_mul_right this
      omega
  rw [units, h.units, Nat.one_shiftLeft]
  refine lt_of_lt_of_le ?_ (Nat.pow_le_pow_right Nat.two_pos hs)
  rw [Nat.pow_add]
  exact Nat.mul_lt_mul_of_pos_right h.significand (Nat.two_pow_pos s)

/-- The place is that of the first digit, as far as natural numbers can tell. -/
theorem exists_decimalPlace (hfinite : m.isFinite = true) (hpos : 0 < m.rank) :
    ∃ k : Nat, k ≤ 638 ∧ m.decimalPlace = k - 329 ∧
      10 ^ k * unitsPerOne ≤ m.units * 10 ^ 330 ∧
      m.units * 10 ^ 330 < 10 ^ (k + 1) * unitsPerOne := by
  obtain ⟨n, hn⟩ : ∃ n, m.units * 10 ^ 330 / unitsPerOne = n := ⟨_, rfl⟩
  have hone : unitsPerOne ≤ 10 ^ 330 := by decide +kernel
  have hlarge : (1 <<< 2098) * 10 ^ 330 ≤ 10 ^ 639 * unitsPerOne := by decide +kernel
  have hn₁ : 0 < n := by
    rw [← hn]
    have hle := hone.trans (Nat.le_mul_of_pos_left (10 ^ 330) (units_pos hpos))
    exact Nat.div_pos hle unitsPerOne_pos
  have hn₂ : n < 10 ^ 639 := by
    rw [← hn, Nat.div_lt_iff_lt_mul unitsPerOne_pos]
    exact lt_of_lt_of_le (Nat.mul_lt_mul_of_pos_right (units_lt hfinite hpos (Nat.le_refl 2098))
      (unitsPerOne_pos.trans_le hone)) hlarge
  have hlength : (Nat.toDigits 10 n).length ≤ 639 :=
    Nat.toDigits_length 10 n 639 (by decide) hn₂
  obtain ⟨k, hk⟩ : ∃ k, (Nat.toDigits 10 n).length = k + 1 :=
    Nat.exists_eq_succ_of_ne_zero (length_toDigits_pos n).ne'
  refine ⟨k, by omega, ?_, ?_, ?_⟩
  · simp only [decimalPlace, Nat.pow_eq, hn, hk]
    push_cast
    ring
  · rw [← Nat.le_div_iff_mul_le unitsPerOne_pos, hn]
    have := pow_le_of_length_toDigits hn₁
    rwa [hk] at this
  · rw [← Nat.div_lt_iff_lt_mul unitsPerOne_pos, hn, ← hk]
    exact lt_pow_length_toDigits n

theorem place_bounds (hfinite : m.isFinite = true) (hpos : 0 < m.rank) :
    -329 ≤ m.decimalPlace ∧ m.decimalPlace ≤ 309 := by
  obtain ⟨k, hk, hplace, -, -⟩ := exists_decimalPlace hfinite hpos
  omega

/-- The place is that of the first digit. -/
theorem ones_bounds (hfinite : m.isFinite = true) (hpos : 0 < m.rank) :
    (10 : ℚ) ^ (m.decimalPlace - 1) ≤ m.ones ∧ m.ones < 10 ^ m.decimalPlace := by
  obtain ⟨k, -, hplace, hlow, hhigh⟩ := exists_decimalPlace hfinite hpos
  obtain ⟨w, hw⟩ : ∃ w : Nat, w = 330 := ⟨_, rfl⟩
  have hU : (0 : ℚ) < unitsPerOne := Nat.cast_pos.mpr unitsPerOne_pos
  have hshift : ∀ n : Nat, (10 : ℚ) ^ ((n : Int) - w) = 10 ^ n / 10 ^ w := fun n => by
    rw [zpow_sub₀ (by norm_num), zpow_natCast, zpow_natCast]
  have hten : (0 : ℚ) < 10 ^ w := pow_pos (by norm_num) w
  rw [← hw] at hlow hhigh
  have hlow : (10 : ℚ) ^ k * unitsPerOne ≤ m.units * 10 ^ w := by exact_mod_cast hlow
  have hhigh : (m.units : ℚ) * 10 ^ w < 10 ^ (k + 1) * unitsPerOne := by exact_mod_cast hhigh
  constructor
  · rw [show m.decimalPlace - 1 = (k : Int) - w by omega, hshift, ones, div_le_div_iff₀ hten hU]
    exact hlow
  · rw [show m.decimalPlace = ((k + 1 : Nat) : Int) - w by omega, hshift, ones,
      div_lt_div_iff₀ hU hten]
    exact hhigh

/-! ## Room around a size -/

theorem room_above {r : Nat} (hr : 0 < r) :
    unitsOfRank r + 10 ^ 16 * unitsOfRank r < 10 ^ 16 * unitsOfRank (r + 1) := by
  obtain ⟨s, sig, h⟩ := exists_spacing hr
  have hsig : sig < 10 ^ 16 := h.significand.trans (by decide)
  have := Nat.mul_lt_mul_of_pos_right hsig (Nat.two_pow_pos s)
  rw [h.units, h.above]
  linarith

theorem room_below {r : Nat} (hr : 0 < r) :
    unitsOfRank r + 10 ^ 16 * unitsOfRank (r - 1) < 10 ^ 16 * unitsOfRank r := by
  obtain ⟨s, sig, h⟩ := exists_spacing hr
  by_cases hlater : s = 0 ∨ binadeSize < sig
  · obtain ⟨k, rfl⟩ : ∃ k, sig = k + 1 := by
      refine Nat.exists_eq_succ_of_ne_zero fun hzero => ?_
      have := h.rank
      rcases hlater with rfl | hlater <;> omega
    have hsig : k + 1 < 10 ^ 16 := h.significand.trans (by decide)
    have := Nat.mul_lt_mul_of_pos_right hsig (Nat.two_pow_pos s)
    rw [h.units, h.below hlater, Nat.add_sub_cancel]
    linarith
  · obtain ⟨hs, hsig⟩ := not_or.mp hlater
    obtain rfl : sig = binadeSize := by
      have := h.normal.resolve_left hs
      omega
    obtain ⟨t, rfl⟩ : ∃ t, s = t + 1 := ⟨s - 1, by omega⟩
    rw [h.units, h.first t rfl rfl, Nat.pow_succ']
    obtain ⟨b, hb⟩ : ∃ b, 2 * binadeSize = b + 1 := ⟨_, rfl⟩
    have hsmall : 2 * binadeSize * 2 ^ t < 10 ^ 16 * 2 ^ t :=
      Nat.mul_lt_mul_of_pos_right (by decide) (Nat.two_pow_pos t)
    have hlast : 2 * binadeSize * 2 ^ t = b * 2 ^ t + 2 ^ t := by rw [hb, Nat.succ_mul]
    rw [hb, Nat.add_sub_cancel]
    linarith

/-- Within a part in `2 * 10 ^ 16` of a size there are only numbers that it is nearest to. -/
theorem isNearest_of_close (hpos : 0 < m.rank) {x : ℚ} (h : 2 * 10 ^ 16 * |x - m.ones| ≤ m.ones) :
    IsNearest m.rank x := by
  have hU : (0 : ℚ) < unitsPerOne := Nat.cast_pos.mpr unitsPerOne_pos
  have habove : m.ones < 2 * 10 ^ 16 * (middle m.rank - m.ones) := by
    have hroom : (unitsOfRank m.rank : ℚ) + 10 ^ 16 * unitsOfRank m.rank <
        10 ^ 16 * unitsOfRank (m.rank + 1) := by exact_mod_cast room_above hpos
    have hgap : 2 * 10 ^ 16 * (middle m.rank - m.ones) =
        10 ^ 16 * (unitsOfRank (m.rank + 1) - unitsOfRank m.rank) / unitsPerOne := by
      rw [middle, ones, units]
      field_simp
      ring
    rw [hgap, ones, units, div_lt_div_iff_of_pos_right hU]
    linarith
  have hbelow : m.ones < 2 * 10 ^ 16 * (m.ones - middle (m.rank - 1)) := by
    have hroom : (unitsOfRank m.rank : ℚ) + 10 ^ 16 * unitsOfRank (m.rank - 1) <
        10 ^ 16 * unitsOfRank m.rank := by exact_mod_cast room_below hpos
    have hgap : 2 * 10 ^ 16 * (m.ones - middle (m.rank - 1)) =
        10 ^ 16 * (unitsOfRank m.rank - unitsOfRank (m.rank - 1)) / unitsPerOne := by
      rw [middle, Nat.sub_add_cancel hpos, ones, units]
      field_simp
      ring
    rw [hgap, ones, units, div_lt_div_iff_of_pos_right hU]
    linarith
  obtain ⟨hneg, hpos⟩ := abs_le.mp (le_refl |x - m.ones|)
  have hlow : middle (m.rank - 1) < x := by linarith
  have hhigh : x < middle m.rank := by linarith
  exact ⟨hlow.le, hhigh.le, fun _ => ⟨hlow, hhigh⟩⟩

/-! ## Grids of digits -/

/-- The size in steps, as a quotient. -/
theorem inSteps_eq (e : Int) : 0 < (m.inSteps e).2 ∧
    ((m.inSteps e).1 : ℚ) / (m.inSteps e).2 = m.ones / 10 ^ e := by
  have hU : (unitsPerOne : ℚ) ≠ 0 := Nat.cast_ne_zero.mpr unitsPerOne_pos.ne'
  refine ⟨Nat.mul_pos unitsPerOne_pos (Nat.pow_pos (by decide)), ?_⟩
  simp only [inSteps, Nat.pow_eq]
  rw [ten_zpow_eq, ones, Nat.cast_mul, Nat.cast_mul]
  have hnum : ((10 ^ e.toNat : Nat) : ℚ) ≠ 0 := Nat.cast_ne_zero.mpr (Nat.pow_pos (by decide)).ne'
  have hden : ((10 ^ (-e).toNat : Nat) : ℚ) ≠ 0 := Nat.cast_ne_zero.mpr (Nat.pow_pos (by decide)).ne'
  field_simp

/-- The number of steps below the size. -/
theorem floor_inSteps (e : Int) : (((m.inSteps e).1 / (m.inSteps e).2 : Nat) : ℚ) ≤ m.ones / 10 ^ e ∧
    m.ones / 10 ^ e < ((m.inSteps e).1 / (m.inSteps e).2 : Nat) + 1 := by
  obtain ⟨hden, hquotient⟩ := inSteps_eq (m := m) e
  rw [← hquotient]
  refine ⟨Nat.cast_div_le, ?_⟩
  have hpos : (0 : ℚ) < (m.inSteps e).2 := Nat.cast_pos.mpr hden
  rw [div_lt_iff₀ hpos]
  rw [mul_comm]
  exact_mod_cast Nat.lt_mul_div_succ (m.inSteps e).1 hden

/-- What the grid of some digits has to offer. -/
theorem exists_of_onGrid? {n : Nat} {d : Decimal} (h : m.onGrid? n = some d) :
    ∃ c, (c = (m.inSteps (m.decimalPlace - n)).1 / (m.inSteps (m.decimalPlace - n)).2 ∨
        c = (m.inSteps (m.decimalPlace - n)).1 / (m.inSteps (m.decimalPlace - n)).2 + 1) ∧
      nearestOf m.rank c (m.decimalPlace - n) = true ∧
      d = ⟨dropEndZeros (Nat.toDigits 10 c), m.decimalPlace + ((Nat.toDigits 10 c).length - n)⟩ := by
  rw [onGrid?] at h
  obtain ⟨c, hc, rfl⟩ := Option.map_eq_some_iff.mp h
  refine ⟨c, ?_, ?_, rfl⟩
  · split at hc
    · obtain rfl := Option.some.inj hc
      split
      · exact .inl rfl
      · exact .inr rfl
    · exact .inl (Option.some.inj hc).symm
    · exact .inr (Option.some.inj hc).symm
    · cases hc
  · split at hc
    · rename_i hlow hhigh
      obtain rfl := Option.some.inj hc
      split
      · exact hlow
      · exact hhigh
    · rename_i hlow _
      exact Option.some.inj hc ▸ hlow
    · rename_i _ hhigh
      exact Option.some.inj hc ▸ hhigh
    · cases hc

/-- The step below a size on the grid of `n` digits has `n` digits. -/
theorem bounds_of_inSteps (hfinite : m.isFinite = true) (hpos : 0 < m.rank) (n : Nat) :
    10 ^ n ≤ (m.inSteps (m.decimalPlace - (n + 1))).1 / (m.inSteps (m.decimalPlace - (n + 1))).2 ∧
      (m.inSteps (m.decimalPlace - (n + 1))).1 / (m.inSteps (m.decimalPlace - (n + 1))).2 <
        10 ^ (n + 1) := by
  obtain ⟨hlow, hhigh⟩ := ones_bounds hfinite hpos
  obtain ⟨hfloor, hfloor'⟩ := floor_inSteps (m := m) (m.decimalPlace - (n + 1))
  have hstep : (0 : ℚ) < 10 ^ (m.decimalPlace - (n + 1)) := zpow_pos (by norm_num) _
  have hpow : ∀ k : Nat, (10 : ℚ) ^ k * 10 ^ (m.decimalPlace - (n + 1)) =
      10 ^ (m.decimalPlace - (n + 1) + k) := fun k => by
    rw [zpow_add₀ (by norm_num), zpow_natCast, mul_comm]
  constructor
  · have hten : (10 : ℚ) ^ n ≤ m.ones / 10 ^ (m.decimalPlace - (n + 1)) := by
      rw [le_div_iff₀ hstep, hpow, show m.decimalPlace - (n + 1) + (n : Int) = m.decimalPlace - 1 by ring]
      exact hlow
    have hlt := hten.trans_lt hfloor'
    exact Nat.lt_succ_iff.mp (by exact_mod_cast hlt)
  · have hten : m.ones / 10 ^ (m.decimalPlace - (n + 1)) < (10 : ℚ) ^ (n + 1) := by
      rw [div_lt_iff₀ hstep, hpow,
        show m.decimalPlace - (n + 1) + ((n + 1 : Nat) : Int) = m.decimalPlace by push_cast; ring]
      exact hhigh
    have hlt := hfloor.trans_lt hten
    exact_mod_cast hlt

/-- On the grid of seventeen digits there is always a number that reads back. -/
theorem exists_onGrid?_seventeen (hfinite : m.isFinite = true) (hpos : 0 < m.rank) :
    ∃ d, m.onGrid? 17 = some d := by
  obtain ⟨e, he⟩ : ∃ e, m.decimalPlace - (17 : Nat) = e := ⟨_, rfl⟩
  obtain ⟨low, hlow⟩ : ∃ low, (m.inSteps e).1 / (m.inSteps e).2 = low := ⟨_, rfl⟩
  obtain ⟨hfloor, hfloor'⟩ := floor_inSteps (m := m) e
  rw [hlow] at hfloor hfloor'
  have hstep : (0 : ℚ) < 10 ^ e := zpow_pos (by norm_num) _
  have hlead : 10 ^ 16 * (10 : ℚ) ^ e ≤ m.ones := by
    rw [← zpow_natCast (10 : ℚ) 16, ← zpow_add₀ (by norm_num),
      show ((16 : Nat) : Int) + e = m.decimalPlace - 1 by omega]
    exact (ones_bounds hfinite hpos).1
  have hclose : ∀ c : Nat, |(c : ℚ) - m.ones / 10 ^ e| ≤ 1 / 2 → nearestOf m.rank c e = true := by
    intro c hc
    have hscaled : (c : ℚ) * 10 ^ e - m.ones = (c - m.ones / 10 ^ e) * 10 ^ e := by
      rw [sub_mul, div_mul_cancel₀ _ hstep.ne']
    have hhalf := mul_le_mul_of_nonneg_right hc hstep.le
    rw [nearestOf_iff hpos]
    refine isNearest_of_close hpos ?_
    rw [hscaled, abs_mul, abs_of_pos hstep]
    linarith
  have hnear : nearestOf m.rank low e = true ∨ nearestOf m.rank (low + 1) e = true := by
    rcases le_total (m.ones / 10 ^ e) (low + 1 / 2) with hhalf | hhalf
    · exact .inl (hclose low (abs_le.mpr ⟨by linarith, by linarith⟩))
    · refine .inr (hclose (low + 1) (abs_le.mpr ⟨?_, ?_⟩)) <;> push_cast <;> linarith
  rw [onGrid?]
  simp only [he, hlow]
  rcases hnear with hnear | hnear <;> rw [hnear]
  · cases nearestOf m.rank (low + 1) e <;> exact ⟨_, rfl⟩
  · cases nearestOf m.rank low e <;> exact ⟨_, rfl⟩

end Magnitude

/-! ## The form that is found -/

/-- A decimal form as it stands in texts : digits of which the first is not zero, with a place in the
range of the sizes. -/
structure Decimal.IsPlain (d : Decimal) : Prop where
  digits : ∀ c ∈ d.digits, c.isDigit = true
  first : ∃ c cs, d.digits = c :: cs ∧ c ≠ '0'
  low : -329 ≤ d.place
  high : d.place ≤ 310

/-- The number that a decimal form stands for. -/
def Decimal.value (d : Decimal) : ℚ :=
  Nat.ofDigitChars 10 d.digits 0 * 10 ^ (d.place - d.digits.length)

theorem exists_dropEndZeros (ds : List Char) : ∃ k, ds = dropEndZeros ds ++ List.replicate k '0' := by
  refine ⟨(ds.reverse.takeWhile (· == '0')).length, ?_⟩
  have hzeros : (ds.reverse.takeWhile (· == '0')) =
      List.replicate (ds.reverse.takeWhile (· == '0')).length '0' :=
    List.eq_replicate_of_mem fun c hc => by simpa using List.mem_takeWhile_imp hc
  have hsplit := List.takeWhile_append_dropWhile (p := (· == '0')) (l := ds.reverse)
  rw [hzeros] at hsplit
  rw [dropEndZeros, ← List.reverse_replicate, ← List.reverse_append, hsplit, List.reverse_reverse]

/-- The digits of a number with their point somewhere, without the zeros at their end. -/
theorem value_dropEndZeros (c : Nat) (place : Int) :
    Decimal.value ⟨dropEndZeros (Nat.toDigits 10 c), place⟩ =
      c * 10 ^ (place - (Nat.toDigits 10 c).length) := by
  obtain ⟨k, hk⟩ := exists_dropEndZeros (Nat.toDigits 10 c)
  obtain ⟨ds, hds⟩ : ∃ ds, dropEndZeros (Nat.toDigits 10 c) = ds := ⟨_, rfl⟩
  rw [hds] at hk
  have hvalue : c = 10 ^ k * Nat.ofDigitChars 10 ds 0 := by
    rw [← Nat.ofDigitChars_replicate_zero, ← Nat.ofDigitChars_append, ← hk,
      Nat.ofDigitChars_ten_toDigits]
  have hlength : (Nat.toDigits 10 c).length = ds.length + k := by
    rw [hk, List.length_append, List.length_replicate]
  rw [Decimal.value, hds, hlength]
  conv_rhs => rw [hvalue]
  rw [show place - (ds.length : Int) = place - ((ds.length + k : Nat) : Int) + k by push_cast; ring,
    zpow_add₀ (by norm_num), zpow_natCast]
  push_cast
  ring

theorem exists_cons_dropEndZeros {c : Nat} (hc : 0 < c) :
    ∃ d ds, dropEndZeros (Nat.toDigits 10 c) = d :: ds ∧ d ≠ '0' := by
  obtain ⟨d, ds, hd, hne⟩ := Json.exists_cons_toDigits hc
  obtain ⟨k, hk⟩ := exists_dropEndZeros (Nat.toDigits 10 c)
  rcases h : dropEndZeros (Nat.toDigits 10 c) with _ | ⟨d', ds'⟩
  · rw [h, List.nil_append, hd] at hk
    exact absurd (List.eq_of_mem_replicate (hk ▸ List.mem_cons_self)) hne
  · rw [h, hd, List.cons_append] at hk
    exact ⟨d', ds', rfl, (List.cons.inj hk).1 ▸ hne⟩

namespace Magnitude

variable {m : Magnitude}

/-- A form on a grid is plain, and the size is nearest its value. -/
theorem spec_of_onGrid? (hfinite : m.isFinite = true) (hpos : 0 < m.rank) {n : Nat} {d : Decimal}
    (h : m.onGrid? (n + 1) = some d) : d.IsPlain ∧ IsNearest m.rank d.value := by
  obtain ⟨c, hc, hnear, rfl⟩ := exists_of_onGrid? h
  obtain ⟨hlow, hhigh⟩ := bounds_of_inSteps hfinite hpos n
  push_cast at hc
  obtain ⟨hlow, hhigh⟩ : 10 ^ n ≤ c ∧ c < 10 ^ (n + 2) := by
    have : (10 : Nat) ^ (n + 1) < 10 ^ (n + 2) := Nat.pow_lt_pow_right (by decide) (by omega)
    rcases hc with rfl | rfl <;> omega
  have hcpos : 0 < c := (Nat.pow_pos (by decide)).trans_le hlow
  have hlength : n + 1 ≤ (Nat.toDigits 10 c).length ∧ (Nat.toDigits 10 c).length ≤ n + 2 := by
    refine ⟨?_, (Nat.length_toDigits_le_iff (by decide) (by omega)).mpr hhigh⟩
    by_contra hlt
    have := lt_pow_length_toDigits c
    have : (10 : Nat) ^ (Nat.toDigits 10 c).length ≤ 10 ^ n :=
      Nat.pow_le_pow_right (by decide) (by omega)
    omega
  obtain ⟨hplace, hplace'⟩ := place_bounds hfinite hpos
  refine ⟨⟨fun x hx => ?_, exists_cons_dropEndZeros hcpos, ?_, ?_⟩, ?_⟩
  · rw [dropEndZeros, List.mem_reverse] at hx
    exact Nat.isDigit_of_mem_toDigits (by decide) (by decide)
      (List.mem_reverse.mp ((List.dropWhile_sublist _).mem hx))
  · show -329 ≤ m.decimalPlace + ((Nat.toDigits 10 c).length - (n + 1 : Nat))
    omega
  · show m.decimalPlace + ((Nat.toDigits 10 c).length - (n + 1 : Nat)) ≤ 310
    omega
  · rw [value_dropEndZeros, ← (nearestOf_iff hpos c _)]
    convert hnear using 2
    ring

/-- The form with the fewest digits is plain, and the size is nearest its value. -/
theorem spec_shortest (hfinite : m.isFinite = true) (hpos : 0 < m.rank) :
    m.shortest.IsPlain ∧ IsNearest m.rank m.shortest.value := by
  have hfound : ∃ d, ((List.range 17).findSome? fun i => m.onGrid? (i + 1)) = some d := by
    obtain ⟨d, hd⟩ := exists_onGrid?_seventeen hfinite hpos
    rw [← Option.ne_none_iff_exists']
    intro hnone
    have := List.findSome?_eq_none_iff.mp hnone 16 (List.mem_range.mpr (by decide))
    cases this.symm.trans hd
  obtain ⟨d, hd⟩ := hfound
  obtain ⟨n, -, hn⟩ := List.exists_of_findSome?_eq_some hd
  rw [shortest, if_neg hpos.ne', hd]
  exact spec_of_onGrid? hfinite hpos hn

end Magnitude

end Tabula
