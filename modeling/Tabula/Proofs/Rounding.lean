import Mathlib.Algebra.Order.Field.Rat
import Mathlib.Data.Nat.Log
import Mathlib.Tactic.FieldSimp
import Mathlib.Tactic.Linarith
import Mathlib.Tactic.Positivity
import Mathlib.Tactic.Ring
import Tabula.Number.Decimal

/-!
# The size nearest a number

A size is nearest the numbers between the middles to its neighbours, and each middle counts for the
even rank. `Magnitude.IsNearest` says so of a rational number, and
`Magnitude.ofRatio_of_isNearest` that rounding a quotient finds the size.

The sizes lie in binades, in each of which they are evenly spaced. `unitsOfRank_binade` writes a
rank as a binade and a significand, where the first size of the next binade may also be written as
the size after the last one of this binade, so that the neighbours of a size need no other case than
that of the first significand of a binade. Rounding keeps the order (`rankOfUnits_mono`).
-/

namespace Tabula

theorem binadeSize_eq : binadeSize = 2 ^ 52 := rfl

/-- The integer nearest a quotient is the one at most half away; of two such it is the even one. -/
theorem roundHalfEven_eq {num den q : Nat} (hden : 0 < den) (hlow : 2 * q * den ≤ 2 * num + den)
    (hhigh : 2 * num ≤ (2 * q + 1) * den)
    (hodd : q % 2 = 1 → 2 * q * den < 2 * num + den ∧ 2 * num < (2 * q + 1) * den) :
    roundHalfEven num den = q := by
  obtain ⟨a, ha⟩ : ∃ a, num / den = a := ⟨_, rfl⟩
  obtain ⟨b, hb⟩ : ∃ b, num % den = b := ⟨_, rfl⟩
  have hnum : num = a * den + b := by rw [← ha, ← hb, Nat.div_add_mod']
  have hlt : b < den := hb ▸ Nat.mod_lt num hden
  have hle : a ≤ q := by
    have : 2 * a * den < (2 * q + 2) * den := by linarith
    have := Nat.lt_of_mul_lt_mul_right this
    omega
  have hge : q ≤ a + 1 := by
    have : 2 * q * den < (2 * a + 3) * den := by linarith
    have := Nat.lt_of_mul_lt_mul_right this
    omega
  rw [roundHalfEven, ha, hb]
  obtain rfl | rfl : q = a ∨ q = a + 1 := by omega
  · have hhalf : 2 * b ≤ den := by linarith
    have hstrict : q % 2 = 1 → 2 * b < den := fun h => by linarith [(hodd h).2]
    split_ifs <;> omega
  · have hhalf : den ≤ 2 * b := by linarith
    have hstrict : (a + 1) % 2 = 1 → den < 2 * b := fun h => by linarith [(hodd h).1]
    split_ifs <;> omega

theorem roundHalfEven_mul (q : Nat) {den : Nat} (hden : 0 < den) :
    roundHalfEven (q * den) den = q := by
  rw [roundHalfEven, Nat.mul_div_cancel _ hden, Nat.mul_mod_left]
  simp [hden]

theorem roundHalfEven_mono {num num' : Nat} (den : Nat) (h : num ≤ num') :
    roundHalfEven num den ≤ roundHalfEven num' den := by
  have hdiv := Nat.div_le_div_right (c := den) h
  have hnum := Nat.div_add_mod num den
  have hnum' := Nat.div_add_mod num' den
  rw [roundHalfEven, roundHalfEven]
  rcases hdiv.lt_or_eq with hlt | heq
  · split_ifs <;> omega
  · -- Of one whole part, the larger number has the larger rest.
    rw [heq] at hnum ⊢
    have hmod : num % den ≤ num' % den := by omega
    split_ifs <;> omega

namespace Magnitude

/-! ## Ranks in their binades -/

/-- The units of a size by its binade and its significand, in front of which there may be as many
sizes as are in two binades. -/
theorem unitsOfRank_binade {s sig : Nat} (hsig : sig ≤ 2 * binadeSize)
    (hs : s = 0 ∨ binadeSize ≤ sig) : unitsOfRank (s * binadeSize + sig) = sig * 2 ^ s := by
  have hB : 0 < binadeSize := by decide
  rw [unitsOfRank]
  by_cases hlow : s * binadeSize + sig < binadeSize
  · obtain rfl : s = 0 := by
      rcases hs with hs | hs
      · exact hs
      · omega
    rw [if_pos hlow]
    simp
  rw [if_neg hlow, Nat.shiftLeft_eq]
  by_cases hlast : sig = 2 * binadeSize
  · rw [show s * binadeSize + sig = (s + 2) * binadeSize by rw [hlast]; ring, Nat.mul_mod_left,
      Nat.mul_div_cancel _ hB, hlast, show s + 2 - 1 = s + 1 by omega, Nat.pow_succ]
    ring
  · obtain ⟨k, rfl⟩ : ∃ k, sig = binadeSize + k := by
      refine ⟨sig - binadeSize, ?_⟩
      rcases hs with rfl | hs <;> omega
    have hk : k < binadeSize := by omega
    rw [show s * binadeSize + (binadeSize + k) = k + (s + 1) * binadeSize by ring,
      Nat.add_mul_mod_self_right, Nat.mod_eq_of_lt hk, Nat.add_mul_div_right _ _ hB,
      Nat.div_eq_of_lt hk, show 0 + (s + 1) - 1 = s by omega]

/-- The binade and the significand of a rank. -/
theorem exists_binade (r : Nat) : ∃ s sig, r = s * binadeSize + sig ∧ sig < 2 * binadeSize ∧
    (s = 0 ∨ binadeSize ≤ sig) := by
  have hB : 0 < binadeSize := by decide
  have hdiv := Nat.div_add_mod' r binadeSize
  have hmod := Nat.mod_lt r hB
  rcases hq : r / binadeSize with _ | s
  · exact ⟨0, r, by omega, by rw [hq] at hdiv; omega, .inl rfl⟩
  · rw [hq, Nat.succ_mul] at hdiv
    exact ⟨s, binadeSize + r % binadeSize, by omega, by omega, .inr (by omega)⟩

/-- What lies around a size : the binade, the significand, and the units of the sizes before and
after it. -/
structure Spacing (r s sig : Nat) : Prop where
  rank : r = s * binadeSize + sig
  significand : sig < 2 * binadeSize
  normal : s = 0 ∨ binadeSize ≤ sig
  units : unitsOfRank r = sig * 2 ^ s
  above : unitsOfRank (r + 1) = (sig + 1) * 2 ^ s
  below : s = 0 ∨ binadeSize < sig → unitsOfRank (r - 1) = (sig - 1) * 2 ^ s
  first : ∀ t, s = t + 1 → sig = binadeSize → unitsOfRank (r - 1) = (2 * binadeSize - 1) * 2 ^ t

theorem exists_spacing {r : Nat} (hr : 0 < r) : ∃ s sig, Spacing r s sig := by
  obtain ⟨s, sig, rfl, hsig, hs⟩ := exists_binade r
  refine ⟨s, sig, rfl, hsig, hs, unitsOfRank_binade hsig.le hs, ?_, fun h => ?_, fun t ht hfirst => ?_⟩
  · rw [Nat.add_assoc]
    exact unitsOfRank_binade hsig (hs.imp_right fun h => h.trans (Nat.le_succ _))
  · have hpos : 0 < sig := by
      rcases h with rfl | h
      · simpa using hr
      · exact (Nat.zero_le _).trans_lt h
    rw [Nat.add_sub_assoc hpos]
    exact unitsOfRank_binade (by omega) (h.imp_right Nat.le_sub_one_of_lt)
  · have hrank : s * binadeSize + sig - 1 = t * binadeSize + (2 * binadeSize - 1) := by
      rw [ht, hfirst, Nat.succ_mul]
      have hB : 0 < binadeSize := by decide
      omega
    rw [hrank]
    exact unitsOfRank_binade (by omega) (.inr (by decide))

/-! ## Rounding to a rank -/

/-- The binade in which a quotient is rounded. -/
theorem rankOfUnits_binade {num den t : Nat} (hden : 0 < den)
    (hlow : t = 0 ∨ binadeSize * 2 ^ t * den ≤ num) (hhigh : num < 2 * binadeSize * 2 ^ t * den) :
    rankOfUnits num den = t * binadeSize + roundHalfEven num (den * 2 ^ t) := by
  have hq : num / den < 2 ^ (53 + t) := by
    rw [Nat.div_lt_iff_lt_mul hden, Nat.pow_add]
    exact hhigh
  have hlog : (num / den).log2 - 52 = t := by
    rcases Nat.eq_zero_or_pos (num / den) with hzero | hpos
    · rcases hlow with rfl | hlow
      · rw [hzero]
        decide
      · exfalso
        have hone : binadeSize * 2 ^ t ≤ num / den := (Nat.le_div_iff_mul_le hden).mpr hlow
        have : 0 < binadeSize * 2 ^ t := Nat.mul_pos (by decide) (Nat.two_pow_pos t)
        omega
    · have hup := (Nat.log2_lt hpos.ne').mpr hq
      rcases hlow with rfl | hlow
      · omega
      · have hge : 2 ^ (52 + t) ≤ num / den := by
          rw [Nat.le_div_iff_mul_le hden, Nat.pow_add]
          exact hlow
        have := (Nat.le_log2 hpos.ne').mpr hge
        omega
  simp only [rankOfUnits, hlog, Nat.shiftLeft_eq]

/-- A quotient in the last half step of a binade is rounded to the first size of the next one. -/
theorem rankOfUnits_last {num den t : Nat} (hden : 0 < den)
    (hlow : ((2 * binadeSize - 1) * 2 ^ t + binadeSize * 2 ^ (t + 1)) * den ≤ 2 * num)
    (hhigh : num < binadeSize * 2 ^ (t + 1) * den) :
    rankOfUnits num den = (t + 1) * binadeSize + binadeSize := by
  have hsize := Nat.mul_pos hden (Nat.two_pow_pos t)
  obtain ⟨b, hb⟩ : ∃ b, 2 * binadeSize = b + 1 := ⟨_, rfl⟩
  rw [hb, Nat.add_sub_cancel, Nat.pow_succ'] at hlow
  rw [Nat.pow_succ'] at hhigh
  have hlast : 2 * binadeSize * (den * 2 ^ t) = b * (den * 2 ^ t) + den * 2 ^ t := by
    rw [hb, Nat.succ_mul]
  have hbelow : (2 * (2 * binadeSize)) * (den * 2 ^ t) ≤ 2 * num + den * 2 ^ t := by linarith
  have hsame : binadeSize * 2 ^ t * den ≤ num := by
    have : den * 2 ^ t ≤ binadeSize * (den * 2 ^ t) := Nat.le_mul_of_pos_left _ (by decide)
    linarith
  rw [rankOfUnits_binade hden (.inr hsame) (by linarith), roundHalfEven_eq hsize hbelow (by linarith)
    fun hk => absurd hk (by decide)]
  ring

/-- A quotient between the middles to the neighbours of a size has the rank of that size. In the
binade below there are only quotients next to the first significand. -/
theorem rankOfUnits_eq {r num den : Nat} (hr : 0 < r) (hden : 0 < den)
    (hlow : (unitsOfRank (r - 1) + unitsOfRank r) * den ≤ 2 * num)
    (hhigh : 2 * num ≤ (unitsOfRank r + unitsOfRank (r + 1)) * den)
    (hodd : r % 2 = 1 → (unitsOfRank (r - 1) + unitsOfRank r) * den < 2 * num ∧
      2 * num < (unitsOfRank r + unitsOfRank (r + 1)) * den) : rankOfUnits num den = r := by
  obtain ⟨s, sig, h⟩ := exists_spacing hr
  have hsize := Nat.mul_pos hden (Nat.two_pow_pos s)
  have hparity : r % 2 = sig % 2 := by
    have heven : s * binadeSize % 2 = 0 := by
      rw [binadeSize_eq, show 2 ^ 52 = 2 ^ 51 * 2 from rfl, ← Nat.mul_assoc, Nat.mul_mod_left]
    rw [h.rank]
    omega
  rw [h.units, h.above] at hhigh hodd
  have hhigh' : 2 * num ≤ (2 * sig + 1) * (den * 2 ^ s) := by linarith
  have hup : num < 2 * binadeSize * 2 ^ s * den := by
    have : (2 * sig + 1) * (den * 2 ^ s) < (2 * (2 * binadeSize)) * (den * 2 ^ s) :=
      Nat.mul_lt_mul_of_pos_right (by have := h.significand; omega) hsize
    linarith
  by_cases hlater : s = 0 ∨ binadeSize < sig
  · -- the size before is in the same binade
    obtain ⟨k, rfl⟩ : ∃ k, sig = k + 1 := by
      refine Nat.exists_eq_succ_of_ne_zero fun hzero => ?_
      have := h.rank
      rcases hlater with rfl | hlater <;> omega
    rw [h.below hlater, h.units, Nat.add_sub_cancel] at hlow
    rw [h.below hlater, hparity, Nat.add_sub_cancel] at hodd
    have hbinade : s = 0 ∨ binadeSize * 2 ^ s * den ≤ num := hlater.imp_right fun hlater => by
      have : binadeSize * (den * 2 ^ s) ≤ k * (den * 2 ^ s) :=
        Nat.mul_le_mul_right _ (Nat.le_of_lt_succ hlater)
      linarith
    rw [rankOfUnits_binade hden hbinade hup, h.rank]
    congr 1
    refine roundHalfEven_eq hsize (by linarith) hhigh' fun hk => ?_
    obtain ⟨hstrict, hstrict'⟩ := hodd hk
    exact ⟨by linarith, by linarith⟩
  · -- the size before is the last one of the binade below
    obtain ⟨hs, hsig⟩ := not_or.mp hlater
    obtain rfl : sig = binadeSize := by
      have := h.normal.resolve_left hs
      omega
    obtain ⟨t, rfl⟩ : ∃ t, s = t + 1 := ⟨s - 1, by omega⟩
    by_cases hbinade : binadeSize * 2 ^ (t + 1) * den ≤ num
    · rw [rankOfUnits_binade hden (.inr hbinade) hup, h.rank]
      congr 1
      exact roundHalfEven_eq hsize (by linarith) hhigh' fun hk => absurd hk (by decide)
    · rw [h.first t rfl rfl, h.units] at hlow
      rw [rankOfUnits_last hden hlow (not_le.mp hbinade), h.rank]

/-! ## The order of rounded quotients -/

/-- Every quotient is rounded in some binade. -/
theorem exists_rankOfUnits {den : Nat} (hden : 0 < den) (num : Nat) :
    ∃ t, (t = 0 ∨ binadeSize * 2 ^ t * den ≤ num) ∧ num < 2 * binadeSize * 2 ^ t * den ∧
      rankOfUnits num den = t * binadeSize + roundHalfEven num (den * 2 ^ t) := by
  obtain ⟨t, ht⟩ : ∃ t, (num / den).log2 - 52 = t := ⟨_, rfl⟩
  have hlow : t = 0 ∨ binadeSize * 2 ^ t * den ≤ num := by
    refine (Nat.eq_zero_or_pos t).imp_right fun hpos => ?_
    have hne : num / den ≠ 0 := fun hzero => by
      rw [hzero, Nat.log2_zero] at ht
      omega
    have hle : 2 ^ (52 + t) ≤ num / den := (Nat.le_log2 hne).mp (by omega)
    rwa [Nat.le_div_iff_mul_le hden, Nat.pow_add] at hle
  have hhigh : num < 2 * binadeSize * 2 ^ t * den := by
    have hlt : num / den < 2 ^ (53 + t) :=
      Nat.lt_log2_self.trans_le (Nat.pow_le_pow_right (by decide) (by omega))
    rwa [Nat.div_lt_iff_lt_mul hden, Nat.pow_add] at hlt
  exact ⟨t, hlow, hhigh, rankOfUnits_binade hden hlow hhigh⟩

/-- In its binade a quotient is rounded to a significand or to the first size of the next one. -/
theorem roundHalfEven_binade {num den t : Nat} (hden : 0 < den)
    (hlow : t = 0 ∨ binadeSize * 2 ^ t * den ≤ num) (hhigh : num < 2 * binadeSize * 2 ^ t * den) :
    (t = 0 ∨ binadeSize ≤ roundHalfEven num (den * 2 ^ t)) ∧
      roundHalfEven num (den * 2 ^ t) ≤ 2 * binadeSize := by
  have hsize : 0 < den * 2 ^ t := Nat.mul_pos hden (Nat.two_pow_pos t)
  have hassoc : ∀ k, k * 2 ^ t * den = k * (den * 2 ^ t) := fun k => by ring
  rw [hassoc] at hlow hhigh
  constructor
  · refine hlow.imp_right fun hlow => ?_
    rw [← roundHalfEven_mul binadeSize hsize]
    exact roundHalfEven_mono _ hlow
  · rw [← roundHalfEven_mul (2 * binadeSize) hsize]
    exact roundHalfEven_mono _ hhigh.le

/-- A larger quotient has no smaller rank : in a later binade ranks begin where those of this one
end. -/
theorem rankOfUnits_mono {num num' den : Nat} (hden : 0 < den) (h : num ≤ num') :
    rankOfUnits num den ≤ rankOfUnits num' den := by
  obtain ⟨s, hlow, hhigh, hs⟩ := exists_rankOfUnits hden num
  obtain ⟨t, hlow', hhigh', ht⟩ := exists_rankOfUnits hden num'
  rw [hs, ht]
  rcases Nat.lt_trichotomy s t with hst | rfl | hts
  · have hfirst := (roundHalfEven_binade hden hlow hhigh).2
    have hlast := (roundHalfEven_binade hden hlow' hhigh').1.resolve_left (by omega)
    have : (s + 1) * binadeSize ≤ t * binadeSize := Nat.mul_le_mul_right _ hst
    rw [Nat.succ_mul] at this
    omega
  · exact Nat.add_le_add_left (roundHalfEven_mono _ h) _
  · -- The larger quotient cannot be in an earlier binade.
    exfalso
    have hnum := hlow.resolve_left (by omega)
    have hpow : den * 2 ^ (t + 1) ≤ den * 2 ^ s :=
      Nat.mul_le_mul_left _ (Nat.pow_le_pow_right (by decide) hts)
    rw [Nat.pow_succ'] at hpow
    have : binadeSize * (den * (2 * 2 ^ t)) ≤ binadeSize * (den * 2 ^ s) :=
      Nat.mul_le_mul_left _ hpow
    linarith

/-- The units of a size are rounded to this size. -/
theorem rankOfUnits_significand {t sig : Nat} (hsig : sig < 2 * binadeSize)
    (ht : t = 0 ∨ binadeSize ≤ sig) : rankOfUnits (sig * 2 ^ t) 1 = t * binadeSize + sig := by
  have hlow : t = 0 ∨ binadeSize * 2 ^ t * 1 ≤ sig * 2 ^ t := ht.imp_right fun h => by
    rw [Nat.mul_one]
    exact Nat.mul_le_mul_right _ h
  have hhigh : sig * 2 ^ t < 2 * binadeSize * 2 ^ t * 1 := by
    rw [Nat.mul_one]
    exact Nat.mul_lt_mul_of_pos_right hsig (Nat.two_pow_pos t)
  rw [rankOfUnits_binade Nat.one_pos hlow hhigh, Nat.one_mul,
    roundHalfEven_mul sig (Nat.two_pow_pos t)]

/-! ## Between two middles -/

/-- The number of ones in the middle between the size of a rank and the next one. -/
def middle (r : Nat) : ℚ := (unitsOfRank r + unitsOfRank (r + 1)) / (2 * unitsPerOne)

/-- The size of the rank is nearest the number, a middle counting for the even rank. -/
structure IsNearest (r : Nat) (x : ℚ) : Prop where
  low : middle (r - 1) ≤ x
  high : x ≤ middle r
  odd : r % 2 = 1 → middle (r - 1) < x ∧ x < middle r

theorem unitsPerOne_pos : 0 < unitsPerOne := by decide +kernel

/-- Between two middles, as a statement about natural numbers. -/
theorem isNearest_div_iff {r num den : Nat} (hr : 0 < r) (hden : 0 < den) :
    IsNearest r (num / (unitsPerOne * den) : ℚ) ↔
      (unitsOfRank (r - 1) + unitsOfRank r) * den ≤ 2 * num ∧
        2 * num ≤ (unitsOfRank r + unitsOfRank (r + 1)) * den ∧
        (r % 2 = 1 → (unitsOfRank (r - 1) + unitsOfRank r) * den < 2 * num ∧
          2 * num < (unitsOfRank r + unitsOfRank (r + 1)) * den) := by
  have hU : (0 : ℚ) < unitsPerOne := Nat.cast_pos.mpr unitsPerOne_pos
  have hd : (0 : ℚ) < den := Nat.cast_pos.mpr hden
  have hnum : (num / (unitsPerOne * den) : ℚ) = ↑(2 * num) / (2 * unitsPerOne * den) := by
    push_cast
    field_simp
  have hmiddle : ∀ k, middle k = ↑((unitsOfRank k + unitsOfRank (k + 1)) * den) /
      (2 * unitsPerOne * den) := by
    intro k
    push_cast
    rw [middle]
    field_simp
  have hpos : (0 : ℚ) < 2 * unitsPerOne * den := mul_pos (mul_pos two_pos hU) hd
  have hbelow := hmiddle (r - 1)
  rw [Nat.sub_add_cancel hr] at hbelow
  constructor
  · rintro ⟨hlow, hhigh, hodd⟩
    rw [hnum] at hlow hhigh hodd
    rw [hbelow] at hlow hodd
    rw [hmiddle] at hhigh hodd
    simp only [div_le_div_iff_of_pos_right hpos, div_lt_div_iff_of_pos_right hpos, Nat.cast_le,
      Nat.cast_lt] at hlow hhigh hodd
    exact ⟨hlow, hhigh, hodd⟩
  · rintro ⟨hlow, hhigh, hodd⟩
    constructor <;> rw [hnum]
    · rwa [hbelow, div_le_div_iff_of_pos_right hpos, Nat.cast_le]
    · rwa [hmiddle, div_le_div_iff_of_pos_right hpos, Nat.cast_le]
    · rwa [hbelow, hmiddle, div_lt_div_iff_of_pos_right hpos, div_lt_div_iff_of_pos_right hpos,
        Nat.cast_lt, Nat.cast_lt]

theorem ofRatio_of_isNearest {m : Magnitude} (hpos : 0 < m.rank) {num den : Nat} (hden : 0 < den)
    (h : IsNearest m.rank (num / den : ℚ)) : ofRatio num den = m := by
  have hU : (unitsPerOne : ℚ) ≠ 0 := Nat.cast_ne_zero.mpr unitsPerOne_pos.ne'
  have hvalue : (num / den : ℚ) = ↑(num * unitsPerOne) / (unitsPerOne * den) := by
    rw [Nat.cast_mul, mul_comm (num : ℚ), mul_div_mul_left _ _ hU]
  rw [hvalue, isNearest_div_iff hpos hden] at h
  obtain ⟨hlow, hhigh, hodd⟩ := h
  have hrank : rankOfUnits (num * unitsPerOne) den = m.rank :=
    rankOfUnits_eq hpos hden hlow hhigh hodd
  rw [ofRatio, ofUnits]
  simp only [hrank, Nat.min_eq_left m.le_infinityRank]

/-! ## Numbers in decimal form -/

theorem ten_zpow_eq (e : Int) :
    (10 : ℚ) ^ e = ((10 ^ e.toNat : Nat) : ℚ) / ((10 ^ (-e).toNat : Nat) : ℚ) := by
  rcases Int.le_total 0 e with he | he
  · obtain ⟨n, rfl⟩ := Int.eq_ofNat_of_zero_le he
    simp
  · obtain ⟨n, hn⟩ := Int.eq_ofNat_of_zero_le (Int.neg_nonneg.mpr he)
    obtain rfl : e = -n := by omega
    simp

theorem nearestOf_iff {r : Nat} (hr : 0 < r) (d : Nat) (e : Int) :
    nearestOf r d e = true ↔ IsNearest r (d * 10 ^ e) := by
  have hU : (unitsPerOne : ℚ) ≠ 0 := Nat.cast_ne_zero.mpr unitsPerOne_pos.ne'
  have hden : 0 < 10 ^ (-e).toNat := Nat.pow_pos (by decide)
  have hvalue : (d * 10 ^ e : ℚ) = ↑(d * unitsPerOne * 10 ^ e.toNat) /
      (unitsPerOne * ((10 ^ (-e).toNat : Nat) : ℚ)) := by
    rw [ten_zpow_eq, Nat.cast_mul, Nat.cast_mul, mul_right_comm, mul_comm _ (unitsPerOne : ℚ),
      mul_div_mul_left _ _ hU, mul_div_assoc]
  have hat : 2 * (d * unitsPerOne * 10 ^ e.toNat) = 2 * d * unitsPerOne * 10 ^ e.toNat := by ring
  rw [hvalue, isNearest_div_iff hr hden, hat, nearestOf]
  simp only [Nat.pow_eq]
  split
  · rename_i heven
    simp [heven]
  · rename_i hodd
    have hodd : r % 2 = 1 := by omega
    simp only [Bool.and_eq_true, decide_eq_true_eq, hodd, forall_const]
    exact ⟨fun h => ⟨h.1.le, h.2.le, h⟩, fun h => h.2.2⟩

end Magnitude

/-- A decimal form is read as the size that is nearest its value. -/
theorem Binary64.ofDecimal_of_isNearest {m : Magnitude} (hpos : 0 < m.rank) {c : Nat} {e : Int}
    (hc : 0 < c) (hlow : -330 ≤ (Nat.toDigits 10 c).length + e)
    (hhigh : (Nat.toDigits 10 c).length + e ≤ 310)
    (h : Magnitude.IsNearest m.rank (c * 10 ^ e)) (negative : Bool) :
    ofDecimal negative c e = signed negative m := by
  have hnot : (decide (c = 0) || decide ((Nat.toDigits 10 c).length + e < -330)) = false := by
    simp only [Bool.or_eq_false_iff, decide_eq_false_iff_not]
    omega
  rw [ofDecimal]
  simp only [hnot, Bool.false_eq_true, if_false, if_neg (not_lt.mpr hhigh)]
  split
  · rename_i he
    obtain ⟨n, rfl⟩ := Int.eq_ofNat_of_zero_le he
    refine congrArg _ (Magnitude.ofRatio_of_isNearest hpos Nat.one_pos ?_)
    simpa using h
  · rename_i he
    obtain ⟨n, rfl⟩ : ∃ n : Nat, e = -n := ⟨(-e).toNat, by omega⟩
    refine congrArg _ (Magnitude.ofRatio_of_isNearest hpos (Nat.pow_pos (by decide)) ?_)
    simpa [div_eq_mul_inv] using h

end Tabula
