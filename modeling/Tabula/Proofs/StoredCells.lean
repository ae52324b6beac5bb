import Mathlib.Data.List.Basic
import Tabula.Proofs.JobLedger
import Tabula.Proofs.RowIds
import Tabula.Store.Clause

/-!
# What the store sees of a cell

The store finds a cell by its key as JSON writes it. For a column id of which JSON escapes no
character (`IsPlain`) that is the cell itself (`extract_eq`), so nothing is refused.

`ColumnType.Fits` are the values that a column of a type is to hold, `ColumnType.Holds` these and
all other integers that have a nearest float. Of these the store sees what is seen in memory : the
text of a text cell (`asText_of_fits`), the number of a number cell (`number_of_holds`), and of both
whether they are empty (`isEmpty_of_holds`).
-/

namespace Tabula

/-! ## Plain column ids -/

/-- A column id of which JSON escapes no character. -/
def IsPlain (column : String) : Prop := ∀ c ∈ column.toList, Json.escapeChar c = [c]

instance : DecidablePred IsPlain := fun column =>
  List.decidableBAll (fun c : Char => Json.escapeChar c = [c]) column.toList

theorem escape_eq_of_isPlain {column : String} (h : IsPlain column) :
    Json.escape column = column := by
  have hflat : column.toList.flatMap Json.escapeChar = column.toList := by
    rw [List.flatMap_congr h, List.flatMap_singleton']
  rw [Json.escape, hflat, String.ofList_toList]

/-- Only quotes, backslashes and control characters are escaped. -/
theorem escapeChar_eq_singleton {c : Char} (hquote : c ≠ '"') (hbackslash : c ≠ '\\')
    (hcode : 0x20 ≤ c.toNat) : Json.escapeChar c = [c] := by
  have hne : ∀ d : Char, d.toNat < 0x20 → c ≠ d := fun d hd heq => by
    rw [heq] at hcode
    omega
  rw [Json.escapeChar, if_neg hquote, if_neg hbackslash, if_neg (hne _ (by decide)),
    if_neg (hne _ (by decide)), if_neg (hne _ (by decide)), if_neg (hne _ (by decide)),
    if_neg (hne _ (by decide)), if_neg (by omega)]

/-- What is escaped gets a backslash. -/
theorem backslash_mem_escapeChar {c : Char} (h : Json.escapeChar c ≠ [c]) :
    '\\' ∈ Json.escapeChar c := by
  revert h
  unfold Json.escapeChar
  repeat' split
  all_goals simp

/-- Only the key itself is written as a plain column id. -/
theorem escape_eq_iff {column key : String} (h : IsPlain column) :
    Json.escape key = column ↔ key = column := by
  refine ⟨fun he => ?_, fun he => by rw [he, escape_eq_of_isPlain h]⟩
  have hkey : IsPlain key := by
    intro c hc
    by_contra hne
    have hmem : '\\' ∈ column.toList := by
      rw [← he, Json.escape, String.toList_ofList]
      exact List.mem_flatMap.mpr ⟨c, hc, backslash_mem_escapeChar hne⟩
    exact absurd (h _ hmem) (by decide)
  rw [← he, escape_eq_of_isPlain hkey]

namespace Store

theorem writtenCell_eq (p : Payload) {column : String} (h : IsPlain column) :
    writtenCell p column = p.cells.get? column := by
  rw [writtenCell, Cells.get?]
  congr 2
  funext e
  rw [Bool.eq_iff_iff, beq_iff_eq, beq_iff_eq]
  exact escape_eq_iff h

theorem contains_quote_of_isPlain {column : String} (h : IsPlain column) :
    column.toList.contains '"' = false := by
  rw [Bool.eq_false_iff, ne_eq, List.contains_iff_mem]
  exact fun hmem => absurd (h _ hmem) (by decide)

/-- The store finds the cell under a plain column id, and nothing where there is none. -/
theorem extract_eq (p : Payload) {column : String} (h : IsPlain column) :
    extract p column = .ok (.ofValue (p.cells.get column)) := by
  rw [extract, if_neg (by rw [contains_quote_of_isPlain h]; exact Bool.false_ne_true),
    writtenCell_eq p h, Cells.get]
  rcases p.cells.get? column with _ | v <;> rfl

/-- The store finds a plain column id among the keys if it is one of them. -/
theorem hasKey_eq (p : Payload) {column : String} (h : IsPlain column) :
    hasKey p column = p.cells.has column := by
  rw [hasKey, contains_quote_of_isPlain h, Bool.not_false, Bool.true_and, writtenCell_eq p h,
    Cells.get?, Option.isSome_map, Bool.eq_iff_iff, List.find?_isSome, Cells.has, List.any_eq_true]

theorem textCell_eq (p : Payload) {column : String} (h : IsPlain column) :
    textCell p column = .ok (StoreValue.ofValue (p.cells.get column)).asText := by
  rw [textCell, extract_eq p h]

theorem floatCell_eq (p : Payload) {column : String} (h : IsPlain column) :
    floatCell p column = .ok (StoreValue.ofValue (p.cells.get column)).asFloat := by
  rw [floatCell, extract_eq p h]

end Store

/-! ## Cells that fit their columns -/

/-- The values that a column of this type is to hold. -/
def ColumnType.Fits (type : ColumnType) : Value → Prop
  | .null => True
  | .text s => type = .text ∧ HasNoZero s
  | .int n => type = .number ∧ n.natAbs ≤ 2 ^ 53
  | .float x => type = .number ∧ x.isFinite = true
  | _ => False

instance (type : ColumnType) : DecidablePred type.Fits
  | .null => isTrue trivial
  | .text s => inferInstanceAs (Decidable (type = .text ∧ HasNoZero s))
  | .int n => inferInstanceAs (Decidable (type = .number ∧ n.natAbs ≤ 2 ^ 53))
  | .float x => inferInstanceAs (Decidable (type = .number ∧ x.isFinite = true))
  | .bool _ | .bytes _ | .list _ | .tuple _ | .dict _ => isFalse id

namespace ColumnType

variable {v : Value}

theorem cases_of_fits_text (h : text.Fits v) : v = .null ∨ ∃ s, v = .text s ∧ HasNoZero s := by
  cases v with
  | null => exact .inl rfl
  | text s => exact .inr ⟨s, rfl, h.2⟩
  | int n => cases h.1
  | float x => cases h.1
  | _ => exact h.elim

end ColumnType

/-- The values that a column of this type can hold so that all numbers have a nearest float. -/
def ColumnType.Holds (type : ColumnType) : Value → Prop
  | .null => True
  | .text s => type = .text ∧ HasNoZero s
  | .int n => type = .number ∧ (Binary64.ofInt n).isFinite = true
  | .float x => type = .number ∧ x.isFinite = true
  | _ => False

instance (type : ColumnType) : DecidablePred type.Holds
  | .null => isTrue trivial
  | .text s => inferInstanceAs (Decidable (type = .text ∧ HasNoZero s))
  | .int n => inferInstanceAs (Decidable (type = .number ∧ (Binary64.ofInt n).isFinite = true))
  | .float x => inferInstanceAs (Decidable (type = .number ∧ x.isFinite = true))
  | .bool _ | .bytes _ | .list _ | .tuple _ | .dict _ => isFalse id

namespace ColumnType

variable {type : ColumnType} {v : Value}

theorem Fits.holds (h : type.Fits v) : type.Holds v := by
  cases v with
  | int n => exact ⟨h.1, Binary64.isFinite_ofRatio (by have := h.2; omega) 1⟩
  | _ => exact h

theorem fits_of_holds_text (h : text.Holds v) : text.Fits v := by
  cases v with
  | int n => cases h.1
  | _ => exact h

end ColumnType

/-- Cells of which each one fits the declared type of its column. -/
def Cells.Fit (types : Query.ColumnTypes) (cells : Cells) : Prop :=
  ∀ column type, Query.typeOf types column = .ok type → type.Fits (cells.get column)

theorem Binary64.ofInt?_eq {n : Int} (h : n.natAbs < 2 ^ 64) : ofInt? n = some (ofInt n) := by
  have hfin : (ofRatio n 1).isFinite = true := isFinite_ofRatio h 1
  rw [ofInt?, ofInt]
  exact if_pos hfin

/-- It is enough to look at the columns that are known. -/
theorem Cells.fit_of_forall {known : List (String × ColumnType)} {cells : Cells}
    (h : ∀ e ∈ known, e.2.Fits (cells.get e.1)) : cells.Fit (some known) := by
  intro column type htype
  simp only [Query.typeOf] at htype
  split at htype
  · rename_i found hfound
    obtain rfl := Except.ok.inj htype
    obtain ⟨front, back, rfl, _⟩ := List.lookup_eq_some_iff.mp hfound
    exact h (column, found) (List.mem_append_right _ List.mem_cons_self)
  · cases htype

/-! ### Numbers have a text -/

theorem integerText_ne_empty (n : Int) : integerText n ≠ "" := by
  rw [integerText, Int.toString_eq_repr, Int.repr_eq_if]
  split
  · exact Nat.repr_ne_empty
  · simp [String.append_eq_empty_iff]

theorem DecimalStyle.render_ne_nil (style : DecimalStyle) (d : Decimal) : style.render d ≠ [] := by
  unfold DecimalStyle.render
  split
  · split
    · simp
    · split <;> simp
    · simp
  · split <;> simp

theorem Binary64.storeText_ne_empty {x : Binary64} (h : x.isFinite = true) : x.storeText ≠ "" := by
  cases x with
  | nan => simp [isFinite] at h
  | signed negative m =>
    have hm : m.isFinite = true := h
    rw [storeText, if_pos hm, ne_eq, String.ofList_eq_empty_iff]
    split
    · simp
    · exact storeStyle.render_ne_nil _

namespace Store.StoreValue

variable {v : Value}

theorem asText_of_fits (h : ColumnType.text.Fits v) : (ofValue v).asText = v.cellText? := by
  rcases ColumnType.cases_of_fits_text h with rfl | ⟨s, rfl, hs⟩
  · rfl
  · rw [ofValue, upToZero_eq hs]
    rfl

/-- An integer is its nearest float, whether the store keeps it as an integer or not. -/
theorem asFloat_ofValue_int (n : Int) : (ofValue (.int n)).asFloat = some (.ofInt n) := by
  rw [ofValue]
  split <;> rfl

/-- The number of a cell in the store is its numeric view, which is no fault. -/
theorem number_of_holds (h : ColumnType.number.Holds v) : v.number = .ok (ofValue v).asFloat := by
  cases v with
  | null => rfl
  | text s => cases h.1
  | int n =>
    rw [Value.number, Value.integerNumber, Binary64.ofInt?, asFloat_ofValue_int]
    simp only [h.2, if_true, Option.elim_some]
  | float x => rw [Value.number, if_pos h.2, ofValue, asFloat]
  | _ => exact h.elim

/-- A cell that a column can hold is empty for the store if it is empty. -/
theorem isEmpty_of_holds {type : ColumnType} (h : type.Holds v) :
    (ofValue v).asText.all (· == "") = v.isEmptyCell := by
  cases v with
  | null => rfl
  | text s =>
    rw [ofValue, upToZero_eq h.2]
    rfl
  | int n =>
    rw [ofValue]
    split
    · simp [asText, Value.isEmptyCell, integerText_ne_empty]
    · simp [asText, Value.isEmptyCell, Binary64.storeText_ne_empty h.2]
  | float x => simp [ofValue, asText, Value.isEmptyCell, Binary64.storeText_ne_empty h.2]
  | _ => exact h.elim

end Store.StoreValue

end Tabula
