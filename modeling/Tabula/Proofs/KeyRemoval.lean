import Tabula.Proofs.Integrity
import Tabula.Proofs.Ranking

/-!
# Keys that are removed

A key is removed from the rows of a table in one statement of the store, which looks for the key as
JSON writes it, or row by row. JSON writes a column id as it is if it has no quotes, backslashes and
control characters (`IsUnescaped`), so both find the same rows (`hasKey_eq`) and leave the same
cells (`removeKey_cells`). Then either way is `Rows.without`, which differs only in the layout that
the rewritten rows get, and what a removal does is proved for that.
-/

namespace Tabula

open Store

/-- A column id with no double quotes, backslashes and control characters. -/
def IsUnescaped (column : String) : Prop :=
  ∀ c ∈ column.toList, c ≠ '"' ∧ c ≠ '\\' ∧ 0x20 ≤ c.toNat

instance : DecidablePred IsUnescaped := fun column =>
  List.decidableBAll (fun c : Char => c ≠ '"' ∧ c ≠ '\\' ∧ 0x20 ≤ c.toNat) column.toList

theorem IsUnescaped.isPlain {column : String} (h : IsUnescaped column) : IsPlain column :=
  fun c hc => escapeChar_eq_singleton (h c hc).1 (h c hc).2.1 (h c hc).2.2

/-- Whether a row is one of the table and has a cell under the key, which may hold nothing. -/
def Row.holdsKey (table column : String) (r : Row) : Bool :=
  r.table == table && r.payload.cells.has column

/-- A row before and after a key is removed from the rows of a table. The other cells are what they
were, in their order, and a row that does not hold the key stays as it is. -/
structure Row.LosesKey (table column : String) (r r' : Row) : Prop where
  id_eq : r'.id = r.id
  table_eq : r'.table = r.table
  position_eq : r'.position = r.position
  createdAt_eq : r'.createdAt = r.createdAt
  cells_eq : r.table = table → r'.payload.cells = r.payload.cells.filter fun e => e.1 != column
  eq_self : r.holdsKey table column = false → r' = r

namespace Store

/-! ## Rows without a key -/

namespace Rows

variable {layout : Json.Layout} {now : Moment} {table column : String} {rows : Rows}

/-- The rows of all tables after a key is removed from those of one table. -/
def without (layout : Json.Layout) (now : Moment) (table column : String) (rows : Rows) : Rows :=
  rows.map fun r =>
    if r.holdsKey table column then
      { r with payload := ⟨Cells.erase r.payload.cells column, layout⟩, updatedAt := now }
    else r

theorem removeKey_eq (hplain : IsPlain column) :
    removeKey now table column rows = without .compact now table column rows := by
  refine List.map_congr_left fun r _ => ?_
  rw [hasKey_eq _ hplain, Row.holdsKey, ← removeKey_cells hplain]
  rfl

theorem withoutCell_eq :
    withoutCell now table column rows = without .spaced now table column rows :=
  rfl

theorem countKey_eq (hplain : IsPlain column) :
    countKey table column rows = rows.countP (Row.holdsKey table column) := by
  refine List.countP_congr fun r _ => ?_
  rw [hasKey_eq _ hplain, Row.holdsKey]

theorem countCells_eq : countCells table column rows = rows.countP (Row.holdsKey table column) :=
  rfl

theorem losesKey_without : List.Forall₂ (Row.LosesKey table column) rows
    (without layout now table column rows) := by
  refine List.forall₂_map_right_iff.mpr (List.forall₂_same.mpr fun r _ => ?_)
  split
  · rename_i hholds
    refine ⟨rfl, rfl, rfl, rfl, fun _ => rfl, fun hnot => ?_⟩
    exact absurd (hholds.symm.trans hnot) (by decide)
  · rename_i hnot
    refine ⟨rfl, rfl, rfl, rfl, fun htable => ?_, fun _ => rfl⟩
    -- no entry of such a row has the key, so that nothing is left out
    have habsent : r.payload.cells.has column = false := by
      simpa [Row.holdsKey, htable] using hnot
    refine (List.filter_eq_self.mpr fun e he => ?_).symm
    simpa using List.any_eq_false.mp habsent e he

theorem not_holdsKey_of_mem_without {r : Row} (h : r ∈ without layout now table column rows) :
    r.holdsKey table column = false := by
  obtain ⟨r, -, rfl⟩ := List.mem_map.mp h
  split
  · simp [Row.holdsKey, Cells.has, Cells.erase]
  · rename_i hnot
    exact Bool.eq_false_iff.mpr hnot

/-- The layout is no matter of the cells. -/
theorem cells_without (layout layout' : Json.Layout) :
    (without layout now table column rows).map (·.payload.cells) =
      (without layout' now table column rows).map (·.payload.cells) := by
  rw [without, without, List.map_map, List.map_map]
  refine List.map_congr_left fun r _ => ?_
  rw [Function.comp_apply, Function.comp_apply]
  split <;> rfl

theorem without_eq_self (h : ∀ r ∈ rows, r.holdsKey table column = false) :
    without layout now table column rows = rows := by
  rw [without, List.map_congr_left (g := id) fun r hr => by rw [h r hr]; rfl, List.map_id]

end Rows

end Store

/-! ## Both ways to remove a key -/

namespace RowStore

variable {s : Surroundings} {w : World} {db : Database} {table column : String}

theorem run_removeKey (hdb : w.storage = .ready db) (hplain : IsPlain column) :
    removeKey table column s w = (.ok (db.rows.countP (Row.holdsKey table column)),
      w.withDatabase (db.withRows (Rows.without .compact s.now table column db.rows))) := by
  rw [← Rows.removeKey_eq hplain, ← Rows.countKey_eq hplain]
  exact (Action.run_bind_ok Action.run_now _).trans
    (Action.run_rowStore_ok (Action.run_transaction_ok hdb rfl))

theorem run_removeKeyByRow (hdb : w.storage = .ready db) :
    removeKeyByRow table column s w = (.ok (db.rows.countP (Row.holdsKey table column)),
      w.withDatabase (db.withRows (Rows.without .spaced s.now table column db.rows))) := by
  rw [← Rows.withoutCell_eq, ← Rows.countCells_eq]
  exact (Action.run_bind_ok Action.run_now _).trans
    (Action.run_rowStore_ok (Action.run_transaction_ok hdb rfl))

/-- Where no row holds the key there is nothing to do either way. -/
theorem run_removeKey_of_absent (hdb : w.storage = .ready db) (hplain : IsPlain column)
    (habsent : ∀ r ∈ db.rows, r.holdsKey table column = false) :
    removeKey table column s w = (.ok 0, w) ∧ removeKeyByRow table column s w = (.ok 0, w) := by
  have hcount : db.rows.countP (Row.holdsKey table column) = 0 :=
    List.countP_eq_zero.mpr fun r hr => by rw [habsent r hr]; exact Bool.false_ne_true
  rw [run_removeKey hdb hplain, run_removeKeyByRow hdb, hcount, Rows.without_eq_self habsent,
    Rows.without_eq_self habsent]
  exact ⟨congrArg _ (withDatabase_self hdb), congrArg _ (withDatabase_self hdb)⟩

/-- Removing a key in one statement and row by row answer the number of rows that held it, leave the
same cells, and find nothing the second time. -/
theorem removeKey_agrees (hdb : w.storage = .ready db) (hcolumn : IsUnescaped column)
    (s : Surroundings) (table : String) :
    ∃ rows rows' : Rows,
      removeKey table column s w = (.ok (db.rows.countP (Row.holdsKey table column)),
        w.withDatabase (db.withRows rows)) ∧
      removeKeyByRow table column s w = (.ok (db.rows.countP (Row.holdsKey table column)),
        w.withDatabase (db.withRows rows')) ∧
      rows.map (·.payload.cells) = rows'.map (·.payload.cells) ∧
      ∀ left ∈ [rows, rows'],
        List.Forall₂ (Row.LosesKey table column) db.rows left ∧
        (∀ r ∈ left, r.holdsKey table column = false) ∧
        ∀ s', removeKey table column s' (w.withDatabase (db.withRows left)) =
            (.ok 0, w.withDatabase (db.withRows left)) ∧
          removeKeyByRow table column s' (w.withDatabase (db.withRows left)) =
            (.ok 0, w.withDatabase (db.withRows left)) := by
  have hplain := hcolumn.isPlain
  refine ⟨_, _, run_removeKey hdb hplain, run_removeKeyByRow hdb,
    Rows.cells_without _ _, fun left hleft => ?_⟩
  obtain ⟨layout, rfl⟩ : ∃ layout, left = Rows.without layout s.now table column db.rows := by
    rcases List.mem_pair.mp hleft with rfl | rfl
    · exact ⟨_, rfl⟩
    · exact ⟨_, rfl⟩
  have habsent : ∀ r ∈ Rows.without layout s.now table column db.rows,
      r.holdsKey table column = false := fun r => Rows.not_holdsKey_of_mem_without
  exact ⟨Rows.losesKey_without, habsent,
    fun s' => run_removeKey_of_absent (storage_withDatabase _ _) hplain habsent⟩

/-- A key with a dot and brackets : it goes from a row that holds nothing under it, and stays in the
row of another table. A key that begins with the same letters is another one. -/
theorem removeKey_agrees_of_null :
    let rows := [Row.ofCells "r1" 0 [("a", .int 1), ("a.b[0] c", .null), ("a.b", .text "x")],
      Row.ofCells "r2" 1 [("a.b[0]", .int 2)],
      { Row.ofCells "r3" 0 [("a.b[0] c", .int 3)] with table := "u" }]
    ∃ left left',
      removeKey "t" "a.b[0] c" .blank (World.ofRows rows) = (.ok 1, World.ofRows left) ∧
      removeKeyByRow "t" "a.b[0] c" .blank (World.ofRows rows) = (.ok 1, World.ofRows left') ∧
      left.map (·.payload.cells) =
        [[("a", .int 1), ("a.b", .text "x")], [("a.b[0]", .int 2)], [("a.b[0] c", .int 3)]] ∧
      left'.map (·.payload.cells) = left.map (·.payload.cells) ∧
      removeKey "t" "a.b[0] c" .blank (World.ofRows left) = (.ok 0, World.ofRows left) := by
  intro rows
  obtain ⟨left, left', hleft, hleft', hcells, hall⟩ := @removeKey_agrees (.ofRows rows) _ "a.b[0] c"
    rfl (by decide) .blank "t"
  obtain ⟨hloses, -, hagain⟩ := hall left List.mem_cons_self
  refine ⟨left, left', hleft, hleft', ?_, hcells.symm, (hagain _).1⟩
  rcases hloses with _ | ⟨h₁, _ | ⟨h₂, _ | ⟨h₃, ⟨⟩⟩⟩⟩
  rw [List.map_cons, List.map_cons, List.map_singleton, h₁.cells_eq rfl, h₂.eq_self (by decide),
    h₃.eq_self (by decide)]
  rfl

end RowStore

end Tabula
