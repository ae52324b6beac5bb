import Tabula.Proofs.AlikeRows
import Tabula.Proofs.Filtering
import Tabula.Proofs.Retyping
import Tabula.Proofs.Rounding

/-!
# What a column stores for a value

The values that belong under a column are stored as they are (`ColumnType.coerce_of_admits`), so what
is stored for a value is stored again as it is. It has the numeric view of the value under a number
column (`ColumnType.sameNumber_of_coerce`) and its text view under a text column
(`ColumnType.cellText?_of_coerce`). The numeric view is the same number and not the same float : a
whole float is stored as an integer, whose nearest float it is (`Binary64.ofInt_truncate`) up to the
sign of zero.

So the cells of a column that is made a number column are other values of the same numbers
(`Cells.Renumbered`), and a plan that reads them as numbers does not tell them apart
(`Query.Plan.ReadsNumbers.alike`).
-/

namespace Tabula

open Store

/-! ## Whole floats -/

namespace Magnitude

theorem ofUnits_units (m : Magnitude) : ofUnits m.units 1 = m := by
  obtain ⟨s, sig, hrank, hsig, hs⟩ := exists_binade m.rank
  have hunits : m.units = sig * 2 ^ s := by rw [units, hrank, unitsOfRank_binade hsig.le hs]
  have hround : rankOfUnits m.units 1 = m.rank := by
    rw [hunits, rankOfUnits_significand hsig hs, hrank]
  rw [ofUnits]
  simp only [hround, Nat.min_eq_left m.le_infinityRank]

theorem ofRatio_floor {m : Magnitude} (h : m.isInteger = true) : ofRatio m.floor 1 = m := by
  have hdvd : unitsPerOne ∣ m.units := by
    rw [isInteger, Bool.and_eq_true, beq_iff_eq] at h
    exact Nat.dvd_of_mod_eq_zero h.2
  rw [ofRatio, floor, Nat.div_mul_cancel hdvd, ofUnits_units]

/-- Of the whole sizes only the first one is zero. -/
theorem rank_eq_zero_of_floor {m : Magnitude} (h : m.isInteger = true) (hfloor : m.floor = 0) :
    m.rank = 0 := by
  rw [← ofRatio_floor h, hfloor]
  decide +kernel

end Magnitude

namespace Binary64

variable {x y : Binary64}

theorem key_eq_of_eq (h : x.eq y = true) : x.key = y.key := by
  rw [eq] at h
  split at h
  · rename_i hx hy
    rw [hx, hy, beq_iff_eq.mp h]
  · cases h

theorem eq_self_of_isFinite (h : x.isFinite = true) : x.eq x = true := by
  obtain ⟨a, ha⟩ := exists_key_of_isFinite h
  rw [eq_eq_of_key ha ha, beq_self_eq_true]

/-- A whole float is the float of its integer, a negative zero aside, which is a zero again. -/
theorem ofInt_truncate (h : x.isInteger = true) :
    (ofInt x.truncate).isFinite = true ∧ (ofInt x.truncate).eq x = true := by
  rcases x with _ | ⟨negative, m⟩
  · cases h
  have hm : m.isInteger = true := h
  have hfinite : m.isFinite = true := (Bool.and_eq_true_iff.mp hm).1
  have hsize : Magnitude.ofRatio (signed negative m).truncate.natAbs 1 = m := by
    rw [← Magnitude.ofRatio_floor hm]
    cases negative <;> simp [truncate, Magnitude.ofRatio_floor hm]
  rw [ofInt, ofRatio, hsize]
  refine ⟨hfinite, ?_⟩
  cases negative with
  | false =>
    have hpos : ¬ (signed false m).truncate < 0 := not_lt.mpr (Int.natCast_nonneg _)
    rw [decide_eq_false hpos]
    exact eq_self_of_isFinite hfinite
  | true =>
    by_cases hfloor : m.floor = 0
    · have hrank := Magnitude.rank_eq_zero_of_floor hm hfloor
      simp [eq, key, truncate, hfloor, hrank]
    · have hneg : (signed true m).truncate < 0 := by
        rw [truncate]
        omega
      rw [decide_eq_true hneg]
      exact eq_self_of_isFinite hfinite

end Binary64

/-! ## One number -/

namespace Value

variable {v w : Value}

/-- Values with one numeric view : neither has one, or they are equal as numbers, or both are beyond
the floats. -/
def SameNumber (v w : Value) : Prop :=
  match v.number, w.number with
  | .ok none, .ok none => True
  | .ok (some x), .ok (some y) => x.eq y = true
  | .error e, .error e' => e = e'
  | _, _ => False

theorem sameNumber_self (v : Value) : v.SameNumber v := by
  rcases h : v.number with e | _ | x <;> simp only [SameNumber, h]
  exact Binary64.eq_self_of_isFinite (isFinite_of_number h)

theorem sameNumber_of_none (hv : v.number = .ok none) (hw : w.number = .ok none) :
    v.SameNumber w := by
  simp only [SameNumber, hv, hw]

theorem sameNumber_of_eq {x y : Binary64} (hv : v.number = .ok (some x))
    (hw : w.number = .ok (some y)) (h : x.eq y = true) : v.SameNumber w := by
  simp only [SameNumber, hv, hw, h]

/-- The ways for two values to have one numeric view. -/
theorem SameNumber.cases (h : v.SameNumber w) :
    (v.number = .ok none ∧ w.number = .ok none) ∨
      (∃ x y, v.number = .ok (some x) ∧ w.number = .ok (some y) ∧ x.eq y = true) ∨
        ∃ e, v.number = .error e ∧ w.number = .error e := by
  rw [SameNumber] at h
  split at h
  · exact .inl ⟨‹_›, ‹_›⟩
  · exact .inr (.inl ⟨_, _, ‹_›, ‹_›, h⟩)
  · rename_i hv hw
    exact .inr (.inr ⟨_, hv, h ▸ hw⟩)
  · exact h.elim

/-- A numeric view is missing for a fault in both values or in neither. -/
theorem SameNumber.inRange_iff (h : v.SameNumber w) : v.InRange ↔ w.InRange := by
  have hiff (u : Value) : u.InRange ↔ ∃ x, u.number = .ok x := by
    by_cases hu : u.InRange
    · exact iff_of_true hu ((number_eq_ok hu).imp fun _ hx => hx.1)
    · refine iff_of_false hu ?_
      rintro ⟨x, hx⟩
      rw [number_eq_error hu] at hx
      cases hx
  rw [hiff, hiff]
  rcases h.cases with ⟨hv, hw⟩ | ⟨x, y, hv, hw, -⟩ | ⟨e, hv, hw⟩ <;> simp [hv, hw]

/-- A scalar that may be stored : nothing, a text, an integer or a finite float. -/
def IsStorable : Value → Prop
  | null => True
  | text _ => True
  | int _ => True
  | float x => x.isFinite = true
  | _ => False

end Value

/-! ## Normal forms -/

namespace ColumnType

variable {type : ColumnType} {v w : Value}

/-- What belongs under a column is stored as it is. -/
theorem coerce_of_admits (h : type.Admits w) : type.coerce w = .ok w := by
  cases w with
  | null => rfl
  | text s =>
    cases type with
    | text => rfl
    | number => exact h.elim
  | int n =>
    cases type with
    | text => exact h.elim
    | number => rfl
  | float x =>
    cases type with
    | text => exact h.elim
    | number =>
      have hx : x.isFinite = true := h
      simp [coerce, Value.classify, hx]
  | _ => cases type <;> exact h.elim

theorem sameNumber_storedNumber {x : Binary64} (hv : v.number = .ok (some x)) :
    (storedNumber x).SameNumber v := by
  have hx := Value.isFinite_of_number hv
  rw [storedNumber]
  split
  · rename_i hwhole
    obtain ⟨hfinite, heq⟩ := Binary64.ofInt_truncate hwhole
    refine Value.sameNumber_of_eq ?_ hv heq
    rw [Value.number, Value.integerNumber, Binary64.ofInt?]
    simp only [hfinite, if_true, Option.elim_some]
  · refine Value.sameNumber_of_eq ?_ hv (Binary64.eq_self_of_isFinite hx)
    rw [Value.number, if_pos hx]

/-- Under a number column a value is stored as the number that it is. -/
theorem sameNumber_of_coerce (h : number.coerce v = .ok w) : w.SameNumber v := by
  by_cases htext : ∃ s, v = .text s
  · obtain ⟨s, rfl⟩ := htext
    rcases coerce_number_text_iff.mp h with ⟨rfl, rfl⟩ | ⟨-, x, hx, rfl⟩
    · have hnone : Value.textNumber? "" = none := by decide +kernel
      exact Value.sameNumber_of_none rfl (by rw [Value.number, hnone])
    · exact sameNumber_storedNumber (by rw [Value.number, hx])
  · rw [eq_of_coerce_number (not_exists.mp htext) h]
    exact v.sameNumber_self

/-- What is stored under a number column is empty if the value is. -/
theorem isEmptyCell_of_coerce (h : number.coerce v = .ok w) : w.isEmptyCell = v.isEmptyCell := by
  by_cases htext : ∃ s, v = .text s
  · obtain ⟨s, rfl⟩ := htext
    rcases coerce_number_text_iff.mp h with ⟨rfl, rfl⟩ | ⟨hs, x, -, rfl⟩
    · rfl
    · have hstored : (storedNumber x).isEmptyCell = false := by
        rw [storedNumber]
        split <;> rfl
      rw [hstored]
      simp [Value.isEmptyCell, hs]
  · rw [eq_of_coerce_number (not_exists.mp htext) h]

/-- Under a text column a value is stored as the text that it is shown as. -/
theorem cellText?_of_coerce (h : text.coerce v = .ok w) : w.cellText? = v.cellText? := by
  cases v with
  | null | text | int =>
    obtain rfl := Except.ok.inj h
    rfl
  | float x =>
    by_cases hx : x.isFinite = true
    · simp only [coerce, Value.classify, hx, if_true] at h
      obtain rfl := Except.ok.inj h
      rfl
    · simp [coerce, Value.classify, hx] at h
  | _ => simp [coerce, Value.classify] at h

/-- A value cannot be stored for its kind, or as a text that is no number under a number column. -/
def Refuses (type : ColumnType) (v : Value) : Prop :=
  ¬ v.IsStorable ∨ type = .number ∧ ∃ s, v = .text s ∧ s ≠ "" ∧ v.number = .ok none

/-- A value is stored, or it is refused as invalid. -/
theorem coerce_cases (type : ColumnType) (v : Value) :
    ((∃ w, type.coerce v = .ok w) ∧ ¬ type.Refuses v) ∨
      (∃ why, type.coerce v = .error (.invalid why)) ∧ type.Refuses v := by
  cases v with
  | null => exact .inl ⟨⟨_, rfl⟩, by simp [Refuses, Value.IsStorable]⟩
  | int n => cases type <;> exact .inl ⟨⟨_, rfl⟩, by simp [Refuses, Value.IsStorable]⟩
  | text s =>
    cases type with
    | text => exact .inl ⟨⟨_, rfl⟩, by simp [Refuses, Value.IsStorable]⟩
    | number =>
      by_cases hs : s = ""
      · exact .inl ⟨⟨.null, coerce_number_text_iff.mpr (.inl ⟨hs, rfl⟩)⟩,
          by simp [Refuses, Value.IsStorable, hs]⟩
      · rcases hx : Value.textNumber? s with _ | x
        · exact .inr ⟨⟨_, by simp only [coerce, Value.classify, hs, if_false, hx]; rfl⟩,
            .inr ⟨rfl, s, rfl, hs, by rw [Value.number, hx]⟩⟩
        · exact .inl ⟨⟨storedNumber x, coerce_number_text_iff.mpr (.inr ⟨hs, x, hx, rfl⟩)⟩,
            by simp [Refuses, Value.IsStorable, Value.number, hx]⟩
  | float x =>
    by_cases hx : x.isFinite = true
    · refine .inl ⟨?_, by simp [Refuses, Value.IsStorable, hx]⟩
      cases type <;> simp [coerce, Value.classify, hx]
    · exact .inr ⟨⟨_, by simp only [coerce, Value.classify, hx]; rfl⟩, .inl hx⟩
  | _ => exact .inr ⟨⟨_, rfl⟩, .inl fun h => h⟩

/-- What a column stores for a value : it is stored again as it is, it belongs under the column, and
it is the same number or the same text. -/
structure NormalForm (type : ColumnType) (v w : Value) : Prop where
  again : type.coerce w = .ok w
  admits : type.Admits w
  number : type = .number → w.SameNumber v
  text : type = .text → w.cellText? = v.cellText?

theorem normalForm_of_coerce (h : type.coerce v = .ok w) : type.NormalForm v w where
  again := coerce_of_admits (admits_of_coerce h)
  admits := admits_of_coerce h
  number htype := sameNumber_of_coerce (htype ▸ h)
  text htype := cellText?_of_coerce (htype ▸ h)

end ColumnType

/-! ## Reading numbers -/

/-- Cells before and after the one of a column has become another value of the same number. -/
structure Cells.Renumbered (column : String) (cells cells' : Cells) : Prop where
  others : ∀ other, other ≠ column → cells'.get other = cells.get other
  number : (cells'.get column).SameNumber (cells.get column)
  isEmpty : (cells'.get column).isEmptyCell = (cells.get column).isEmptyCell

theorem Cells.renumbered_self (column : String) (cells : Cells) :
    cells.Renumbered column cells where
  others _ _ := rfl
  number := Value.sameNumber_self _
  isEmpty := rfl

theorem Row.Retyped.renumbered {column : String} {r r' : Row} (h : r.Retyped column r') :
    r.payload.cells.Renumbered column r'.payload.cells := by
  have hothers : ∀ other, other ≠ column →
      r'.payload.cells.get other = r.payload.cells.get other := fun other hne => by
    rw [Cells.get, Cells.get, h.others other hne]
  rcases hold : r.payload.cells.get? column with _ | old
  · have hnone : r'.payload.cells.get? column = none := by
      rw [Cells.get?_eq_none, h.keys]
      exact Cells.get?_eq_none.mp hold
    have hsame : r'.payload.cells.get column = r.payload.cells.get column := by
      rw [Cells.get, Cells.get, hold, hnone]
    exact ⟨hothers, hsame ▸ Value.sameNumber_self _, by rw [hsame]⟩
  · obtain ⟨v, hv, hcell⟩ := h.cell old hold
    refine ⟨hothers, ?_, ?_⟩ <;> rw [Cells.get, Cells.get, hold, hcell]
    · exact ColumnType.sameNumber_of_coerce hv
    · exact ColumnType.isEmptyCell_of_coerce hv

namespace Query

theorem Comparison.holdsNumber_congr {x y : Binary64} (h : x.eq y = true) (c : Comparison)
    (operand : Binary64) : c.holdsNumber x operand = c.holdsNumber y operand := by
  have hkey := Binary64.key_eq_of_eq h
  cases c <;> simp only [holdsNumber, Binary64.eq, Binary64.lt, hkey]

/-- The tests that a number column may get do not tell values of one number apart. -/
theorem Test.accepts_congr {t : Test} {v w : Value} (ht : t.Suits .number) (h : w.SameNumber v)
    (hempty : w.isEmptyCell = v.isEmptyCell) : t.accepts w = t.accepts v := by
  cases t with
  | number c operand =>
    rcases h.cases with ⟨hw, hv⟩ | ⟨x, y, hw, hv, hxy⟩ | ⟨e, hw, hv⟩
    · rw [accepts, accepts, hw, hv]
    · rw [accepts, accepts, hw, hv]
      exact congrArg Except.ok (c.holdsNumber_congr hxy operand)
    · rw [accepts, accepts, hw, hv]
  | isEmpty => exact congrArg Except.ok hempty
  | isNotEmpty => exact congrArg (fun b => Except.ok !b) hempty
  | text => cases ht
  | contains => exact ht.elim

theorem OrderKey.alike_of_sameNumber {k : OrderKey} {cells cells' : Cells} (htype : k.type = .number)
    (h : (cells'.get k.column).SameNumber (cells.get k.column)) : k.Alike cells cells' where
  sorts := by rw [Sorts, Sorts, h.inRange_iff]
  place := by
    rw [value?, value?, valueOf, valueOf, htype]
    rcases h.cases with ⟨hw, hv⟩ | ⟨x, y, hw, hv, hxy⟩ | ⟨e, hw, hv⟩ <;> simp only [hw, hv]
    exact congrArg (fun key => some (Sum.inlₗ (key.getD 0))) (Binary64.key_eq_of_eq hxy)

/-- A plan that reads the cells of a column as numbers, and those of other columns in any way. -/
structure Plan.ReadsNumbers (p : Plan) (column : String) : Prop where
  tests : ∀ t ∈ p.selection.tests, t.column = column → t.test.Suits .number
  order : ∀ k ∈ p.order, k.column = column → k.type = .number

/-- A plan for a number column reads numbers, if no condition asks what is contained in it. -/
theorem Plan.readsNumbers_of_compile {types : ColumnTypes} {f : Filter} {keys : List SortKey}
    {p : Plan} {column : String} (hfilter : f.compile types = .ok p.selection)
    (hkeys : compileSort types keys = .ok p.order) (htype : typeOf types column = .ok .number)
    (hop : ∀ c ∈ f.conditions, c.column = column → c.operator ≠ .contains) :
    p.ReadsNumbers column where
  tests t ht hcolumn := by
    obtain ⟨tests, htests, hselection⟩ := ok_of_bind hfilter
    rw [← Except.ok.inj hselection] at ht
    obtain ⟨c, hc, hcompile⟩ := exists_of_mapM htests t ht
    by_cases hcontains : c.operator = .contains
    · obtain ⟨type, -, hcompile⟩ := ok_of_bind hcompile
      rw [hcontains] at hcompile
      obtain rfl := Except.ok.inj hcompile
      exact absurd hcontains (hop c hc hcolumn)
    · obtain ⟨-, type, htype', hsuits⟩ := suits_of_compile hcompile hcontains
      rw [hcolumn, htype] at htype'
      exact Except.ok.inj htype' ▸ hsuits
  order k hk hcolumn := by
    obtain ⟨-, -, -, htype'⟩ := exists_of_compileSort hkeys hk
    rw [hcolumn, htype] at htype'
    exact (Except.ok.inj htype').symm

theorem Plan.ReadsNumbers.alike {p : Plan} {column : String} {cells cells' : Cells}
    (hp : p.ReadsNumbers column) (h : cells.Renumbered column cells') : p.Alike cells cells' where
  tests t ht := by
    by_cases hcolumn : t.column = column
    · rw [ColumnTest.accepts, ColumnTest.accepts, hcolumn]
      exact Test.accepts_congr (hp.tests t ht hcolumn) h.number h.isEmpty
    · rw [ColumnTest.accepts, ColumnTest.accepts, h.others _ hcolumn]
  keys k hk := by
    by_cases hcolumn : k.column = column
    · exact OrderKey.alike_of_sameNumber (hp.order k hk hcolumn) (hcolumn ▸ h.number)
    · exact OrderKey.alike_of_get (h.others _ hcolumn)

end Query

/-! ## A column that becomes a number column -/

namespace Workspace

open Query

variable {now : Moment} {table column : String} {rows rows' : Rows}

/-- A row behind the conversion of a column of a table. -/
def convertedRow (now : Moment) (table column : String) (r : Row) : Row :=
  if r.table == table then
    match retypedRow now column r with
    | .ok r => r
    | .error _ => r
  else r

theorem retypedRows_eq_map (now : Moment) (table column : String) (rows : Rows) :
    retypedRows now table column rows = rows.map (convertedRow now table column) :=
  rfl

/-- A row that is converted is the same row, with the same numbers. -/
structure Renumbers (column : String) (r r' : Row) : Prop where
  id : r'.id = r.id
  table : r'.table = r.table
  position : r'.position = r.position
  cells : r.payload.cells.Renumbered column r'.payload.cells

theorem renumbers_self (column : String) (r : Row) : Renumbers column r r :=
  ⟨rfl, rfl, rfl, Cells.renumbered_self column _⟩

theorem renumbers_convertedRow (now : Moment) (table column : String) (r : Row) :
    Renumbers column r (convertedRow now table column r) := by
  rw [convertedRow]
  split
  · rcases h : retypedRow now column r with _ | r'
    · exact renumbers_self column r
    · have hretyped := retyped_of_retypedRow h
      exact ⟨hretyped.id, hretyped.table, hretyped.position, hretyped.renumbered⟩
  · exact renumbers_self column r

/-- Rows of which a plan that reads a column as numbers gives the same ones in the same order. -/
structure SameReadings (column : String) (rows rows' : Rows) : Prop where
  each : List.Forall₂ (Renumbers column) rows rows'
  /-- Rows are told apart by position and id where the keys leave them as they came in. -/
  plans : ∀ (p : Plan) (of : String) (tie : Option (Int ×ₗ String → Int ×ₗ String → Bool))
    (limit : Option Int) (offset : Int), p.ReadsNumbers column →
      (p.apply (fun r => r.payload.cells) (tie.map fun le a b => le a.placeKey b.placeKey) limit
        offset (Rows.ofTable rows' of)).map (List.map Row.id) =
      (p.apply (fun r => r.payload.cells) (tie.map fun le a b => le a.placeKey b.placeKey) limit
        offset (Rows.ofTable rows of)).map (List.map Row.id)

theorem sameReadings_map {f : Row → Row} (h : ∀ r, Renumbers column r (f r)) (rows : Rows) :
    SameReadings column rows (rows.map f) where
  each := List.forall₂_map_right_iff.mpr (List.forall₂_same.mpr fun r _ => h r)
  plans p of tie limit offset hp := by
    have hof : Rows.ofTable (rows.map f) of = (Rows.ofTable rows of).map f := by
      rw [Rows.ofTable, Rows.ofTable, List.filter_map]
      refine congrArg (List.map f) (List.filter_congr fun r _ => ?_)
      rw [Function.comp_apply, (h r).table]
    have htie : ((tie.map fun le (a b : Row) => le a.placeKey b.placeKey).map
        fun le a b => le (f a) (f b)) = tie.map fun le a b => le a.placeKey b.placeKey := by
      have hplace : ∀ r, (f r).placeKey = r.placeKey := fun r => by
        rw [Row.placeKey, Row.placeKey, (h r).position, (h r).id]
      simp only [Option.map_map, Function.comp_def, hplace]
    have hids : ∀ kept : List Row, (kept.map f).map Row.id = kept.map Row.id := fun kept => by
      rw [List.map_map]
      exact List.map_congr_left fun r _ => (h r).id
    rw [hof, Plan.apply_map f (fun r => r.payload.cells) _ fun r => hp.alike (h r).cells, htie]
    generalize p.apply _ _ limit offset (Rows.ofTable rows of) = answer
    rcases answer with _ | kept
    · rfl
    · exact congrArg Except.ok (hids kept)

/-- A call that changes a column leaves the rows or converts the column. -/
theorem Updates.rows_cases {actor id : String} {name type order : Value} {db db' : Database}
    {answer : Except Failure Column} (h : Updates now actor id name type order db answer db') :
    db'.rows = db.rows ∨ ∃ table, db'.rows = retypedRows now table id db.rows := by
  cases h with
  | absent | unread | rejected | edited | stuck => exact .inl rfl
  | halfDone | retyped => exact .inr ⟨_, rfl⟩

theorem sameReadings_updateColumn {actor id : String} {name type order : Value} {s : Surroundings}
    {w : World} {db db' : Database} (hw : w.storage = .ready db)
    (h : (updateColumn actor id name type order s w).2.storage = .ready db') :
    SameReadings id db.rows db'.rows := by
  obtain ⟨r, db'', hrun, hupdates⟩ := updates (s := s) actor id name type order hw
  rw [hrun] at h
  obtain rfl := Storage.ready.inj h
  rcases hupdates.rows_cases with hrows | ⟨table, hrows⟩
  · rw [hrows]
    have hself := sameReadings_map (renumbers_self id) db.rows
    rwa [List.map_id'] at hself
  · rw [hrows, retypedRows_eq_map]
    exact sameReadings_map (renumbers_convertedRow s.now table id) db.rows

end Workspace

end Tabula
