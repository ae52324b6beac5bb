import Tabula.Json.Nesting
import Tabula.Proofs.Readback

/-!
# How deep texts are nested

What is not a bracket is not nested (`valueExceeds_of_ne`), and of an object whose members are no
brackets only its own bracket counts (`membersExceed_cons`, `membersExceed_last`). Brackets that open
one inside the other exceed each number of levels that is less than theirs
(`valueExceeds_replicate`).
-/

namespace Tabula.Json

/-- Only a bracket goes deeper. -/
theorem valueExceeds_of_ne {c : Char} (h : c ≠ '[') (h' : c ≠ '\x7b') (levels fuel : Nat)
    (rest : List Char) : valueExceeds levels fuel (c :: rest) = false := by
  rcases fuel with _ | fuel
  · rfl
  · rw [valueExceeds.eq_def]
    split <;> simp_all

/-- An object goes one level deeper than its members. -/
theorem valueExceeds_object (levels fuel : Nat) (more : List Char) :
    valueExceeds (levels + 1) (fuel + 1) ('\x7b' :: '"' :: more) =
      membersExceed levels fuel ('"' :: more) := by
  rw [valueExceeds, skipBlanks_cons (show isBlank '"' = false by decide)]
  simp

section Members

variable {levels fuel : Nat} {name : String} {c : Char} {v : Value} {rest : List Char}
  (hc : isBlank c = false) (hflat : valueExceeds levels fuel (c :: rest) = false)

include hc hflat

/-- A member that is not nested, and the next one. -/
theorem membersExceed_cons {more : List Char}
    (hv : readValue fuel (c :: rest) = .ok (v, ',' :: ' ' :: '"' :: more)) :
    membersExceed levels (fuel + 1) ('"' :: (textChars name ++ ':' :: ' ' :: c :: rest)) =
      membersExceed levels fuel ('"' :: more) := by
  rw [membersExceed, readName_textChars name hc]
  simp only [hflat, hv, Bool.false_or, skipBlanks_cons (show isBlank ',' = false by decide),
    skipBlanks_space, skipBlanks_cons (show isBlank '"' = false by decide)]

/-- The last member. -/
theorem membersExceed_last (hv : readValue fuel (c :: rest) = .ok (v, ['\x7d'])) :
    membersExceed levels (fuel + 1) ('"' :: (textChars name ++ ':' :: ' ' :: c :: rest)) =
      false := by
  rw [membersExceed, readName_textChars name hc]
  simp only [hflat, hv, Bool.false_or, skipBlanks_cons (show isBlank '\x7d' = false by decide)]
  rfl

end Members

theorem valueExceeds_replicate (tail : List Char) : ∀ {levels n fuel : Nat}, levels < n →
    2 * levels < fuel → valueExceeds levels fuel (List.replicate n '[' ++ tail) = true
  | 0, n + 1, fuel + 1, _, _ => by
    rw [List.replicate_succ, List.cons_append, valueExceeds]
  | levels + 1, n + 2, fuel + 2, h, hfuel => by
    have hinner := valueExceeds_replicate tail (show levels < n + 1 by omega)
      (show 2 * levels < fuel by omega)
    rw [List.replicate_succ, List.cons_append] at hinner ⊢
    rw [List.replicate_succ, List.cons_append, valueExceeds,
      skipBlanks_cons (show isBlank '[' = false by decide)]
    simp [elementsExceed, hinner]

/-- A text of more opening brackets than there are levels, whatever follows them. -/
theorem isTooDeep_replicate {n : Nat} (h : levelLimit < n) (tail : List Char) :
    isTooDeep (List.replicate n '[' ++ tail) = true := by
  obtain ⟨k, rfl⟩ : ∃ k, n = k + 1 := Nat.exists_eq_succ_of_ne_zero (by omega)
  rw [isTooDeep, List.replicate_succ, List.cons_append,
    skipBlanks_cons (show isBlank '[' = false by decide), ← List.cons_append, ← List.replicate_succ]
  refine valueExceeds_replicate tail h ?_
  simp only [List.length_append, List.length_replicate]
  omega

end Tabula.Json
