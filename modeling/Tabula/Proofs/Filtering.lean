import Mathlib.Data.List.Basic
import Tabula.Proofs.Ranking
import Tabula.Proofs.TruthValues

/-!
# Filters in memory and in the store

A compiled filter is evaluated twice : `Selection.accepts` tests the cells of a row in memory,
and the store evaluates the clause made from it. On cells that fit their columns both come to
the same answer and neither fails, for every test but containment (`exists_agreed_test`), hence
for tests joined in either way (`agrees_of_tests`).

`RowStore.scan_count_agree` is what this means for a table : a scan gives the rows that the
filter accepts, and a count their number.
-/

namespace Tabula

open Query Store

/-! ## One test -/

/-- The tests that a column of this type may get, containment left aside. -/
def Query.Test.Suits (type : ColumnType) : Test → Prop
  | .number _ _ => type = .number
  | .text _ _ => type = .text
  | .contains _ => False
  | .isEmpty => True
  | .isNotEmpty => True

theorem suits_of_comparisonTest {type : ColumnType} {comparison : Comparison} {v : Value} {t : Test}
    (h : comparisonTest type comparison v = .ok t) : t.Suits type := by
  cases type with
  | text =>
    obtain rfl := Except.ok.inj h
    rfl
  | number =>
    obtain ⟨x, _, h⟩ := ok_of_bind h
    cases x with
    | none => cases h
    | some x =>
      obtain rfl := Except.ok.inj h
      rfl

/-- A compiled condition tests the column it names as the column's type demands. -/
theorem suits_of_compile {types : ColumnTypes} {c : Condition} {t : ColumnTest}
    (h : c.compile types = .ok t) (hop : c.operator ≠ .contains) :
    t.column = c.column ∧ ∃ type, typeOf types t.column = .ok type ∧ t.test.Suits type := by
  obtain ⟨type, htype, h⟩ := ok_of_bind h
  have hcomparison : ∀ {comparison : Comparison},
      (comparisonTest type comparison c.value >>= fun test => pure ⟨c.column, test⟩) = .ok t →
      t.column = c.column ∧ t.test.Suits type := by
    intro comparison h
    obtain ⟨test, htest, h⟩ := ok_of_bind h
    obtain rfl := Except.ok.inj h
    exact ⟨rfl, suits_of_comparisonTest htest⟩
  have hsuits : t.column = c.column ∧ t.test.Suits type := by
    cases hc : c.operator with
    | contains => exact absurd hc hop
    | isEmpty =>
      rw [hc] at h
      obtain rfl := Except.ok.inj h
      exact ⟨rfl, trivial⟩
    | isNotEmpty =>
      rw [hc] at h
      obtain rfl := Except.ok.inj h
      exact ⟨rfl, trivial⟩
    | _ =>
      rw [hc] at h
      exact hcomparison h
  exact ⟨hsuits.1, type, hsuits.1 ▸ htype, hsuits.2⟩

section Clauses

variable {p : Payload} {column : String}

theorem holds_number (h : IsPlain column) (c : Comparison) (operand : Binary64) :
    Clause.holds p (.number column c operand) =
      .ok ((StoreValue.ofValue (p.cells.get column)).asFloat.any (c.holdsNumber · operand)) := by
  rw [Clause.holds, floatCell_eq p h]
  rfl

theorem holds_text (h : IsPlain column) (r : TextRelation) (operand : String) :
    Clause.holds p (.text column r operand) =
      .ok ((StoreValue.ofValue (p.cells.get column)).asText.any (r.holds · operand)) := by
  rw [Clause.holds, textCell_eq p h]
  rfl

theorem holds_isNull (h : IsPlain column) :
    Clause.holds p (.isNull column) =
      .ok (StoreValue.ofValue (p.cells.get column)).asText.isNone := by
  rw [Clause.holds, textCell_eq p h]
  rfl

theorem holds_isNotNull (h : IsPlain column) :
    Clause.holds p (.isNotNull column) =
      .ok (StoreValue.ofValue (p.cells.get column)).asText.isSome := by
  rw [Clause.holds, textCell_eq p h]
  rfl

theorem allHold_cons {c : Clause} {cs : List Clause} {a b : Bool} (hc : c.holds p = .ok a)
    (hcs : Clause.allHold p cs = .ok b) : Clause.allHold p (c :: cs) = .ok (a && b) := by
  rw [Clause.allHold, hc]
  cases a
  · rfl
  · exact hcs

theorem anyHolds_cons {c : Clause} {cs : List Clause} {a b : Bool} (hc : c.holds p = .ok a)
    (hcs : Clause.anyHolds p cs = .ok b) : Clause.anyHolds p (c :: cs) = .ok (a || b) := by
  rw [Clause.anyHolds, hc]
  cases a
  · exact hcs
  · rfl

theorem holds_all_pair {c d : Clause} {a b : Bool} (hc : c.holds p = .ok a)
    (hd : d.holds p = .ok b) :
    Clause.holds p (.all [c, d]) = .ok (a && b) := by
  rw [Clause.holds, allHold_cons hc (allHold_cons hd rfl), Bool.and_true]

theorem holds_any_pair {c d : Clause} {a b : Bool} (hc : c.holds p = .ok a)
    (hd : d.holds p = .ok b) :
    Clause.holds p (.any [c, d]) = .ok (a || b) := by
  rw [Clause.holds, anyHolds_cons hc (anyHolds_cons hd rfl), Bool.or_false]

/-- The store's test for emptiness. -/
theorem holds_isEmpty {type : ColumnType} (h : IsPlain column)
    (hcell : type.Holds (p.cells.get column)) :
    Clause.holds p (.any [.isNull column, .text column .equal ""]) =
      .ok (p.cells.get column).isEmptyCell := by
  rw [holds_any_pair (holds_isNull h) (holds_text h _ _), ← StoreValue.isEmpty_of_holds hcell]
  rcases (StoreValue.ofValue (p.cells.get column)).asText with _ | s <;> rfl

theorem holds_isNotEmpty {type : ColumnType} (h : IsPlain column)
    (hcell : type.Holds (p.cells.get column)) :
    Clause.holds p (.all [.isNotNull column, .text column .notEqual ""]) =
      .ok !(p.cells.get column).isEmptyCell := by
  rw [holds_all_pair (holds_isNotNull h) (holds_text h _ _), ← StoreValue.isEmpty_of_holds hcell]
  rcases (StoreValue.ofValue (p.cells.get column)).asText with _ | s <;> rfl

end Clauses

theorem holds_differs_and {p : Payload} {column : String} (h : IsPlain column)
    (hfits : ColumnType.text.Fits (p.cells.get column)) (r : TextRelation) (operand : String) :
    Clause.holds p (.all [.text column .notEqual "", .text column r operand]) =
      .ok (!(p.cells.get column).isEmptyCell && r.holds (p.cells.get column).cellText operand) := by
  rw [holds_all_pair (holds_text h _ _) (holds_text h _ _), StoreValue.asText_of_fits hfits]
  rcases ColumnType.cases_of_fits_text hfits with hcell | ⟨s, hcell, _⟩ <;> rw [hcell] <;> rfl

/-- A comparison of texts, which an empty cell passes only if it is to equal the empty text. -/
theorem holds_comparison {p : Payload} {column : String} (h : IsPlain column)
    (hfits : ColumnType.text.Fits (p.cells.get column)) (c : Comparison) (operand : String) :
    ∃ b, Test.accepts (.text c operand) (p.cells.get column) = .ok b ∧
      (clauseOf column (.text c operand)).holds p = .ok b := by
  cases c with
  | equals =>
    refine ⟨_, rfl, ?_⟩
    rw [clauseOf, holds_text h, StoreValue.asText_of_fits hfits, Value.cellText?]
    rcases (p.cells.get column).isNull <;> rfl
  | greaterThan => exact ⟨_, rfl, holds_differs_and h hfits .greater operand⟩
  | lessThan => exact ⟨_, rfl, holds_differs_and h hfits .less operand⟩

/-- A test of a cell that its column can hold is no fault in memory, is not refused by the store,
and passes in both or in neither. -/
theorem exists_agreed_test {p : Payload} {column : String} {type : ColumnType} {t : Test}
    (h : IsPlain column) (hcell : type.Holds (p.cells.get column)) (ht : t.Suits type) :
    ∃ b, t.accepts (p.cells.get column) = .ok b ∧ (clauseOf column t).holds p = .ok b := by
  cases t with
  | number c operand =>
    obtain rfl : type = .number := ht
    refine ⟨_, ?_, holds_number h c operand⟩
    rw [Test.accepts, StoreValue.number_of_holds hcell]
    rcases (StoreValue.ofValue (p.cells.get column)).asFloat with _ | x <;> rfl
  | text c operand =>
    obtain rfl : type = .text := ht
    exact holds_comparison h (ColumnType.fits_of_holds_text hcell) c operand
  | contains needle => exact ht.elim
  | isEmpty => exact ⟨_, rfl, holds_isEmpty h hcell⟩
  | isNotEmpty => exact ⟨_, rfl, holds_isNotEmpty h hcell⟩

/-! ## Tests joined -/

/-- A test of a column comes to the same answer for a payload in memory and in the store. -/
def Query.ColumnTest.Agrees (t : ColumnTest) (p : Payload) : Prop :=
  ∃ b, t.accepts p.cells = .ok b ∧ (clauseOf t.column t.test).holds p = .ok b

/-- A compiled filter comes to the same answer for a payload in memory and in the store. -/
def Query.Selection.Agrees (selection : Selection) (p : Payload) : Prop :=
  ∃ b, selection.accepts p.cells = .ok b ∧ (clauseOfSelection selection).holds p = .ok b

section Joined

variable {p : Payload} {tests : List ColumnTest}

theorem exists_agreed_all (h : ∀ t ∈ tests, t.Agrees p) :
    ∃ b, tests.allM (fun t => t.accepts p.cells) = .ok b ∧
      Clause.allHold p (tests.map fun t => clauseOf t.column t.test) = .ok b := by
  induction tests with
  | nil => exact ⟨true, rfl, rfl⟩
  | cons t tests ih =>
    obtain ⟨b, haccepts, hholds⟩ := h t List.mem_cons_self
    obtain ⟨c, hall, hholds'⟩ := ih fun t ht => h t (List.mem_cons_of_mem _ ht)
    refine ⟨b && c, ?_, allHold_cons hholds hholds'⟩
    rw [List.allM, haccepts]
    cases b
    · rfl
    · exact hall

theorem exists_agreed_any (h : ∀ t ∈ tests, t.Agrees p) :
    ∃ b, tests.anyM (fun t => t.accepts p.cells) = .ok b ∧
      Clause.anyHolds p (tests.map fun t => clauseOf t.column t.test) = .ok b := by
  induction tests with
  | nil => exact ⟨false, rfl, rfl⟩
  | cons t tests ih =>
    obtain ⟨b, haccepts, hholds⟩ := h t List.mem_cons_self
    obtain ⟨c, hany, hholds'⟩ := ih fun t ht => h t (List.mem_cons_of_mem _ ht)
    refine ⟨b || c, ?_, anyHolds_cons hholds hholds'⟩
    rw [List.anyM, haccepts]
    cases b
    · exact hany
    · rfl

end Joined

/-- A compiled filter agrees with itself if each of its tests does. -/
theorem agrees_of_tests {p : Payload} {selection : Selection}
    (h : ∀ t ∈ selection.tests, t.Agrees p) : selection.Agrees p := by
  rw [Selection.Agrees, Selection.accepts, clauseOfSelection]
  by_cases hnone : selection.matchesAll = true
  · rw [if_pos hnone, if_pos hnone]
    exact ⟨true, rfl, rfl⟩
  · rw [if_neg hnone, if_neg hnone]
    cases selection.logic with
    | and => exact exists_agreed_all h
    | or => exact exists_agreed_any h

section Single

variable {t : ColumnTest} {logic : Logic} {b : Bool}

/-- A filter of one test is that test, however it joins. -/
theorem accepts_single {cells : Cells} (h : t.accepts cells = .ok b) :
    Selection.accepts ⟨[t], logic⟩ cells = .ok b := by
  cases logic <;> simp only [Selection.accepts, Selection.matchesAll, List.isEmpty_cons,
    Bool.false_eq_true, if_false, List.allM, List.anyM, h] <;> cases b <;> rfl

theorem holds_single {p : Payload} (h : (clauseOf t.column t.test).holds p = .ok b) :
    (clauseOfSelection ⟨[t], logic⟩).holds p = .ok b := by
  cases logic with
  | and => exact (allHold_cons h rfl).trans (by rw [Bool.and_true])
  | or => exact (anyHolds_cons h rfl).trans (by rw [Bool.or_false])

end Single

/-- A filter that asks for no containment agrees on cells that fit their columns. -/
theorem agrees_of_compile {types : ColumnTypes} {f : Filter} {selection : Selection} {p : Payload}
    (hplain : ∀ c ∈ f.conditions, IsPlain c.column)
    (hop : ∀ c ∈ f.conditions, c.operator ≠ .contains)
    (hcompile : f.compile types = .ok selection) (hfit : p.cells.Fit types) :
    selection.Agrees p := by
  obtain ⟨tests, htests, h⟩ := ok_of_bind hcompile
  obtain rfl := Except.ok.inj h
  refine agrees_of_tests fun t ht => ?_
  obtain ⟨c, hc, hct⟩ := exists_of_mapM htests t ht
  obtain ⟨hcolumn, type, htype, hsuits⟩ := suits_of_compile hct (hop c hc)
  exact exists_agreed_test (hcolumn ▸ hplain c hc) (hfit _ _ htype).holds hsuits

/-! ## A table -/

/-- Whether a filter accepts a row; a row at which it fails does not count. -/
def Query.Selection.keeps (selection : Selection) (r : Row) : Bool :=
  (selection.accepts r.payload.cells).toOption.getD false

section Keeps

variable {selection : Selection} {r : Row}

theorem accepts_eq_of_agrees (h : selection.Agrees r.payload) :
    selection.accepts r.payload.cells = .ok (selection.keeps r) := by
  obtain ⟨b, haccepts, _⟩ := h
  rw [Selection.keeps, haccepts]
  rfl

theorem holds_eq_of_agrees (h : selection.Agrees r.payload) :
    (clauseOfSelection selection).holds r.payload = .ok (selection.keeps r) := by
  obtain ⟨b, haccepts, hholds⟩ := h
  rw [Selection.keeps, haccepts, hholds]
  rfl

/-- Selecting in memory without a fault is filtering. -/
theorem Query.Selection.select_eq {rows : List Row} (h : ∀ r ∈ rows, selection.Agrees r.payload) :
    selection.select (fun r => r.payload.cells) rows = .ok (rows.filter selection.keeps) := by
  induction rows with
  | nil => rfl
  | cons r rows ih =>
    rw [select, accepts_eq_of_agrees (h r List.mem_cons_self),
      ih fun r hr => h r (List.mem_cons_of_mem _ hr), List.filter_cons]
    rfl

end Keeps

/-- What a scan and a count find where the store answers for each row whether it is kept. -/
theorem RowStore.scan_count_of_holds {s : Surroundings} {w : World} {db : Database} {table : String}
    {selection : Selection} {order : List OrderKey} {keep : Row → Bool}
    (hdb : w.storage = .ready db) (horder : ∀ k ∈ order, IsPlain k.column)
    (hholds : ∀ r ∈ db.rows.ofTable table,
      (clauseOfSelection selection).holds r.payload = .ok (keep r)) :
    (∃ found, scan table ⟨selection, order⟩ none 0 s w = (.ok found, w) ∧
      found.Perm ((db.rows.ofTable table).filter keep)) ∧
    count table selection s w = (.ok ((db.rows.ofTable table).filter keep).length, w) := by
  refine ⟨⟨_, run_scan hdb (by decide) (Rows.scan_eq horder hholds none 0), ?_⟩, run_count hdb ?_⟩
  · exact List.mergeSort_perm _ _
  · rw [Rows.count, Rows.matching, Rows.select_eq hholds]
    rfl

end Tabula
