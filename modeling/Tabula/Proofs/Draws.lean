import Mathlib.Algebra.Group.Nat.Defs
import Tabula.Random.Twister

/-!
# Draws come to an end

A number below a bound is drawn again as long as it is too large. If that comes to an end
(`Twister.Ends`), the number is below the bound (`Twister.Ends.below_lt`).

Of the words that a twister yields some is not the largest one, whatever its state
(`Twister.exists_word_ne`). Words are shuffled without loss before they are yielded (`temper_injective`),
so if all words of a round were yielded as the largest one, they would be one word; but the last word of
a round is the one 227 places before, changed by the first word and thus changed for certain. So
drawing below the largest number of 64 bits always comes to an end (`Twister.ends_of_largest`).
-/

namespace Tabula.Random

/-! ## Shuffling loses nothing -/

section Shuffling

variable {w n : Nat}

/-- The bits can be read off from the highest one down. -/
theorem xor_ushiftRight_injective (hn : 0 < n) :
    Function.Injective fun x : BitVec w => x ^^^ (x >>> n) := by
  intro x y h
  have hbits : ∀ k i, w - i ≤ k → x.getLsbD i = y.getLsbD i := by
    intro k
    induction k with
    | zero =>
      intro i hi
      rw [BitVec.getLsbD_of_ge _ _ (by omega), BitVec.getLsbD_of_ge _ _ (by omega)]
    | succ k ih =>
      intro i hi
      have hbit := congrArg (fun z : BitVec w => z.getLsbD i) h
      simpa [ih (n + i) (by omega)] using hbit
  exact BitVec.eq_of_getLsbD_eq fun i _ => hbits (w - i) i (Nat.le_refl _)

/-- The bits can be read off from the lowest one up. -/
theorem xor_shiftLeft_and_injective (hn : 0 < n) (m : BitVec w) :
    Function.Injective fun x : BitVec w => x ^^^ ((x <<< n) &&& m) := by
  intro x y h
  refine BitVec.eq_of_getLsbD_eq fun i hi => ?_
  induction i using Nat.strongRecOn with
  | ind i ih =>
    have hbit := congrArg (fun z : BitVec w => z.getLsbD i) h
    by_cases hlow : i < n
    · simpa [hlow] using hbit
    · simpa [ih (i - n) (by omega) (by omega)] using hbit

variable {s : UInt32}

theorem xor_shiftRight_injective (hs : 0 < s.toNat % 32) :
    Function.Injective fun y : UInt32 => y ^^^ (y >>> s) := by
  intro x y h
  refine UInt32.toBitVec_inj.mp (xor_ushiftRight_injective hs ?_)
  simpa using congrArg UInt32.toBitVec h

theorem xor_shiftLeft_injective (hs : 0 < s.toNat % 32) (m : UInt32) :
    Function.Injective fun y : UInt32 => y ^^^ ((y <<< s) &&& m) := by
  intro x y h
  refine UInt32.toBitVec_inj.mp (xor_shiftLeft_and_injective hs m.toBitVec ?_)
  simpa using congrArg UInt32.toBitVec h

end Shuffling

namespace Twister

/-- No two words are yielded as one. -/
theorem temper_injective : Function.Injective temper := by
  have h11 := xor_shiftRight_injective (s := 11) (by decide)
  have h7 := xor_shiftLeft_injective (s := 7) (by decide) 0x9D2C5680
  have h15 := xor_shiftLeft_injective (s := 15) (by decide) 0xEFC60000
  have h18 := xor_shiftRight_injective (s := 18) (by decide)
  intro x y h
  exact h11 (h7 (h15 (h18 h)))

/-! ## The words of a round -/

/-- The last word of a round is another of its words, changed by its first word. -/
theorem exists_last_renew (ws : Array UInt32) (h : stateSize - 1 < (renew ws).size) :
    ∃ high : UInt32, (renew ws).getD (stateSize - 1) 0 = (renew ws).getD 396 0 ^^^
      twist ((high &&& 0x80000000) ||| ((renew ws).getD 0 0 &&& 0x7FFFFFFF)) := by
  have hrange : List.range stateSize = List.range (stateSize - 1) ++ [stateSize - 1] :=
    List.range_succ (n := 623)
  obtain ⟨before, hbefore⟩ : ∃ before, renew ws = renewAt before (stateSize - 1) :=
    ⟨_, by rw [renew, hrange, List.foldl_append, List.foldl_cons, List.foldl_nil]⟩
  rw [hbefore, renewAt] at h ⊢
  rw [Array.size_setIfInBounds] at h
  have hother : ∀ k < stateSize - 1, ∀ v, (before.setIfInBounds (stateSize - 1) v).getD k 0 =
      before.getD k 0 := by
    intro k hk v
    simp [Array.getD_eq_getD_getElem?, Array.getElem?_setIfInBounds_ne (Nat.ne_of_gt hk)]
  refine ⟨before.getD (stateSize - 1) 0, ?_⟩
  rw [hother 396 (by decide), hother 0 (by decide), Array.getD_eq_getD_getElem?,
    Array.getElem?_setIfInBounds_self_of_lt h]
  rfl

/-- Only bits that are all zero change nothing. -/
theorem eq_zero_of_twist {y : UInt32} (h : twist y = 0) : y = 0 := by
  have heq : y >>> 1 = if y &&& 1 = 0 then 0 else 0x9908B0DF := by
    rw [twist] at h
    exact UInt32.xor_eq_zero_iff.mp h
  have hhalf : (y >>> 1).toNat = y.toNat / 2 := by
    simp [Nat.shiftRight_eq_div_pow]
  have hlast : (y &&& 1).toNat = y.toNat % 2 := by
    simp
  have hsmall := y.toNat_lt
  split at heq
  · rename_i heven
    have hquotient : y.toNat / 2 = 0 := by
      rw [← hhalf, heq]
      rfl
    have hremainder : y.toNat % 2 = 0 := by
      rw [← hlast, heven]
      rfl
    have hzero : y.toNat = 0 := by omega
    exact UInt32.toNat_inj.mp hzero
  · have hquotient : y.toNat / 2 = 0x9908B0DF := by
      rw [← hhalf, heq]
      rfl
    omega

/-- Behind the words there is nothing but zero, which is not yielded as the largest word. -/
theorem lt_size_of_temper {ws : Array UInt32} {k : Nat}
    (h : temper (ws.getD k 0) = 0xFFFFFFFF) : k < ws.size := by
  refine Nat.lt_of_not_le fun hle => ?_
  rw [Array.getD_eq_getD_getElem?, Array.getElem?_eq_none hle] at h
  exact absurd h (by decide)

/-- Neither is a word that has no bit but perhaps its highest one. -/
theorem temper_ne_of_and_eq_zero {y : UInt32} (h : y &&& 0x7FFFFFFF = 0) :
    temper y ≠ 0xFFFFFFFF := by
  have hlow : y.toNat % 2 ^ 31 = 0 := by
    rw [← Nat.and_two_pow_sub_one_eq_mod]
    exact congrArg UInt32.toNat h
  have hlt := y.toNat_lt
  have hcases : y.toNat = 0 ∨ y.toNat = 2 ^ 31 := by omega
  rcases hcases with h | h
  · obtain rfl : y = 0 := UInt32.toNat_inj.mp h
    decide
  · obtain rfl : y = 0x80000000 := UInt32.toNat_inj.mp h
    decide

/-- Not all words of a round are yielded as the largest one. -/
theorem exists_temper_ne (ws : Array UInt32) :
    ∃ k < stateSize, temper ((renew ws).getD k 0) ≠ 0xFFFFFFFF := by
  refine Classical.byContradiction fun hnone => ?_
  have hall : ∀ k < stateSize, temper ((renew ws).getD k 0) = 0xFFFFFFFF := fun k hk =>
    Classical.byContradiction fun hne => hnone ⟨k, hk, hne⟩
  have hend := hall (stateSize - 1) (by decide)
  obtain ⟨high, hlast⟩ := exists_last_renew ws (lt_size_of_temper hend)
  rw [temper_injective (hend.trans (hall 396 (by decide)).symm)] at hlast
  -- Nothing is changed, so the first word has no bit but perhaps its highest one.
  have hbits := eq_zero_of_twist <| (UInt32.xor_right_inj _).mp <|
    hlast.symm.trans UInt32.xor_zero.symm
  exact temper_ne_of_and_eq_zero (UInt32.or_eq_zero_iff.mp hbits).2 (hall 0 (by decide))

/-! ## Words to come -/

/-- The twister when some words have been drawn. -/
def skip : Nat → Twister → Twister
  | 0, t => t
  | k + 1, t => skip k t.next.2

theorem skip_succ : ∀ (k : Nat) (t : Twister), skip (k + 1) t = (skip k t).next.2
  | 0, _ => rfl
  | k + 1, t => skip_succ k t.next.2

theorem skip_add : ∀ (j k : Nat) (t : Twister), skip (j + k) t = skip k (skip j t)
  | 0, k, t => by rw [Nat.zero_add, skip]
  | j + 1, k, t => by rw [Nat.add_right_comm, skip, skip, skip_add j k]

/-- A round comes to its end. -/
theorem exists_skip (t : Twister) : ∃ k, stateSize ≤ (skip k t).index := by
  induction hn : stateSize - t.index generalizing t with
  | zero => exact ⟨0, Nat.le_of_sub_eq_zero hn⟩
  | succ n ih =>
    have hlt : ¬ stateSize ≤ t.index := by omega
    have hindex : t.next.2.index = t.index + 1 := by simp [next, hlt]
    obtain ⟨k, hk⟩ := ih t.next.2 (by omega)
    exact ⟨k + 1, hk⟩

/-- Behind the end of a round the words of the next one are yielded. -/
theorem next_skip {t : Twister} (h : stateSize ≤ t.index) {k : Nat} (hk : k < stateSize) :
    (skip k t).next = (temper ((renew t.words).getD k 0), ⟨renew t.words, k + 1⟩) := by
  induction k with
  | zero => simp [skip, next, h]
  | succ k ih =>
    rw [skip_succ, ih (by omega), next, if_neg (Nat.not_le.mpr hk)]

/-- Among the words to come is one that is not the largest. -/
theorem exists_word_ne (t : Twister) : ∃ k, (skip k t).next.1 ≠ 0xFFFFFFFF := by
  obtain ⟨j, hj⟩ := exists_skip t
  obtain ⟨k, hk, hne⟩ := exists_temper_ne (skip j t).words
  exact ⟨j + k, by rwa [skip_add, next_skip hj hk]⟩

/-! ## Numbers below a bound -/

/-- Drawing below `n` comes to an end. -/
inductive Ends (n : Nat) : Twister → Prop where
  | hit {t : Twister} (h : (t.bits (n.log2 + 1)).1 < n) : Ends n t
  | miss {t : Twister} (h : Ends n (t.bits (n.log2 + 1)).2) : Ends n t

theorem Ends.below_lt {n : Nat} {t : Twister} (h : t.Ends n) : (t.below n).1 < n := by
  induction h with
  | hit h =>
    rw [Twister.below, draw_eq, if_pos h]
    exact h
  | @miss t _ ih =>
    rw [Twister.below, draw_eq]
    split
    · assumption
    · exact ih

/-- For a bound of 64 bits two words are drawn. -/
theorem bits_of_largest (t : Twister) : t.bits ((2 ^ 64 - 1 : Nat).log2 + 1) =
    (t.next.1.toNat + 2 ^ 32 * t.next.2.next.1.toNat, t.next.2.next.2) := by
  rw [show (2 ^ 64 - 1 : Nat).log2 + 1 = 64 by decide]
  exact Prod.ext (congrArg (t.next.1.toNat + 2 ^ 32 * ·) (Nat.div_one _)) rfl

theorem word_le (w : UInt32) : w.toNat ≤ 2 ^ 32 - 1 := Nat.le_sub_one_of_lt w.toNat_lt

theorem word_lt {w : UInt32} (h : w ≠ 0xFFFFFFFF) : w.toNat < 2 ^ 32 - 1 :=
  Nat.lt_of_le_of_ne (word_le w) fun heq => h (UInt32.toNat_inj.mp heq)

/-- Drawing ends at the latest with a word that is not the largest one. -/
theorem ends_of_word_ne : ∀ (k : Nat) (t : Twister), (skip k t).next.1 ≠ 0xFFFFFFFF →
    t.Ends (2 ^ 64 - 1)
  | 0, t, h => by
    refine .hit ?_
    rw [bits_of_largest]
    have hlow : t.next.1.toNat < 2 ^ 32 - 1 := word_lt h
    have hhigh := word_le t.next.2.next.1
    dsimp only
    omega
  | 1, t, h => by
    refine .hit ?_
    rw [bits_of_largest]
    have hlow := word_le t.next.1
    have hhigh : t.next.2.next.1.toNat < 2 ^ 32 - 1 := word_lt h
    dsimp only
    omega
  | k + 2, t, h => by
    refine .miss ?_
    rw [bits_of_largest]
    exact ends_of_word_ne k _ h

/-- Drawing below the largest number of 64 bits comes to an end, whatever the state. -/
theorem ends_of_largest (t : Twister) : t.Ends (2 ^ 64 - 1) := by
  obtain ⟨k, hk⟩ := exists_word_ne t
  exact ends_of_word_ne k t hk

end Twister

end Tabula.Random
