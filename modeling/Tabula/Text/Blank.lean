import Tabula.Text.Ranges

/-!
# Blank characters

`isBlank` is the set of characters that count as white space : the ASCII ones with the
four separators before the space, and the Unicode spaces. `trim` takes them off both
ends. `isAsciiBlank` is the smaller set of the store, which knows ASCII only.
-/

namespace Tabula.Text

/-- The code points of white space. -/
def blankRanges : List (Nat × Nat) := [
  (0x9, 0xD), (0x1C, 0x20), (0x85, 0x85), (0xA0, 0xA0), (0x1680, 0x1680), (0x2000, 0x200A),
  (0x2028, 0x2029), (0x202F, 0x202F), (0x205F, 0x205F), (0x3000, 0x3000)]

def isBlank (c : Char) : Bool := inRanges blankRanges c

/-- A tab, line feed, vertical tab, form feed, carriage return or space. -/
def isAsciiBlank (c : Char) : Bool := inRanges [(0x9, 0xD), (0x20, 0x20)] c

theorem isBlank_of_isAsciiBlank {c : Char} (h : isAsciiBlank c = true) : isBlank c = true := by
  obtain ⟨r, hr, hc⟩ := inRanges_eq_true_iff.mp h
  simp only [List.mem_cons, List.not_mem_nil, or_false] at hr
  rcases hr with rfl | rfl
  · exact inRanges_eq_true_iff.mpr ⟨(0x9, 0xD), by simp [blankRanges], hc⟩
  · exact inRanges_eq_true_iff.mpr ⟨(0x1C, 0x20), by simp [blankRanges], by simp at hc ⊢; omega⟩

/-- The characters between the first and the last one that are not in the set. -/
def trimChars (p : Char → Bool) (cs : List Char) : List Char :=
  ((cs.dropWhile p).reverse.dropWhile p).reverse

/-- The text without white space at its ends. -/
def trim (s : String) : String := String.ofList (trimChars isBlank s.toList)

/-- A text of white space only, or of nothing. -/
def isBlankText (s : String) : Bool := s.toList.all isBlank

end Tabula.Text
