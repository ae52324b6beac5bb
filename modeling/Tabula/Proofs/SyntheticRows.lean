import Mathlib.Algebra.Group.Int.Defs
import Mathlib.Data.List.Forall2
import Tabula.Ingest.Source
import Tabula.Proofs.Appending
import Tabula.Proofs.Draws

/-!
# Synthetic rows

The rows of a batch are made one after the other, all of them with one twister, which only depends on
the job and the batch. So where more rows are asked for, fewer ones are their beginning
(`take_syntheticRows`), by induction on the fewer rows whatever the state they begin with.

A row of distinct columns is made without looking for a column that is there already
(`syntheticCells_eq`) : it has a cell for each column, in their order, which is what it should be
(`IsSyntheticCell`) if the draws of the row come to an end. The states before the draws of all rows are
`draws`.
-/

namespace Tabula.Source

open Tabula.Random

variable {job : String} {columns : List (String × ColumnType)} {most : Nat} {batch : Int} {row : Nat}

/-! ## Fewer rows -/

/-- Fewer rows are the first ones of more. -/
theorem take_syntheticRows :
    ∀ {n m : Nat}, n ≤ m → ∀ (row : Nat) (t : Twister),
      (syntheticRows job columns most batch m row t).take n =
        syntheticRows job columns most batch n row t
  | 0, _, _, _, _ => by rw [List.take_zero, syntheticRows]
  | n + 1, m + 1, h, row, t => by
    rw [syntheticRows, syntheticRows, List.take_succ_cons,
      take_syntheticRows (Nat.le_of_succ_le_succ h)]

/-! ## One row -/

/-- The states before the draws of a row. -/
def rowDraws (most : Nat) : List (String × ColumnType) → Twister → List Twister
  | [], _ => []
  | (_, .number) :: columns, t => t :: rowDraws most columns (t.below most).2
  | (_, .text) :: columns, t => rowDraws most columns t

/-- The state behind a row. -/
def rowEnd (most : Nat) : List (String × ColumnType) → Twister → Twister
  | [], t => t
  | (_, .number) :: columns, t => rowEnd most columns (t.below most).2
  | (_, .text) :: columns, t => rowEnd most columns t

/-- The cells of a row whose columns are distinct. -/
def freshCells (job : String) (most : Nat) (batch : Int) (row : Nat) :
    List (String × ColumnType) → Twister → Cells
  | [], _ => []
  | (column, .number) :: columns, t =>
    (column, .int (t.below most).1) :: freshCells job most batch row columns (t.below most).2
  | (column, .text) :: columns, t =>
    (column, .text (syntheticText job batch row)) :: freshCells job most batch row columns t

/-- A cell under a new column comes last. -/
theorem set_of_nodup {column : String} (value : Value) {columns : List String} :
    ∀ {cells : Cells}, (cells.map Prod.fst ++ column :: columns).Nodup →
      Cells.set column value cells = cells ++ [(column, value)]
  | [], _ => rfl
  | e :: cells, h => by
    obtain ⟨hnew, hcells⟩ := List.nodup_cons.mp h
    have hne : e.1 ≠ column := fun heq =>
      hnew (heq ▸ List.mem_append_right _ List.mem_cons_self)
    rw [Cells.set, if_neg (by simpa using hne), set_of_nodup value hcells, List.cons_append]

/-- Cells under new columns come behind those that there are. -/
theorem syntheticCells_eq : ∀ (columns : List (String × ColumnType)) (t : Twister) {cells : Cells},
    (cells.map Prod.fst ++ columns.map Prod.fst).Nodup →
      syntheticCells job most batch row columns t cells =
        (cells ++ freshCells job most batch row columns t, rowEnd most columns t)
  | [], t, cells, _ => by rw [syntheticCells, freshCells, rowEnd, List.append_nil]
  | (column, .number) :: columns, t, cells, h => by
    rcases hn : t.below most with ⟨n, t'⟩
    rw [syntheticCells, freshCells, rowEnd, hn]
    dsimp only
    rw [set_of_nodup _ h, syntheticCells_eq columns t' (by simpa using h), List.append_assoc,
      List.singleton_append]
  | (column, .text) :: columns, t, cells, h => by
    rw [syntheticCells, set_of_nodup _ h, syntheticCells_eq columns _ (by simpa using h),
      freshCells, rowEnd, List.append_assoc, List.singleton_append]

/-- What is under a column in some row of a batch : an integer that is not negative and below the
bound, which is at least one, or a text that tells the job, the batch and the row. -/
def IsSyntheticCell (job : String) (most batch : Int) (row : Nat) (column : String × ColumnType)
    (cell : String × Value) : Prop :=
  cell.1 = column.1 ∧
    match column.2 with
    | .number => ∃ n : Int, cell.2 = .int n ∧ 0 ≤ n ∧ n < max 1 most
    | .text => cell.2 = .text ("Job" ++ job ++ "-B" ++ integerText batch ++ "-R" ++ toString row)

theorem forall₂_freshCells {most : Int} :
    ∀ (columns : List (String × ColumnType)) (t : Twister),
      (∀ u ∈ rowDraws (numberBound most) columns t, u.Ends (numberBound most)) →
        List.Forall₂ (IsSyntheticCell job most batch row) columns
          (freshCells job (numberBound most) batch row columns t)
  | [], _, _ => .nil
  | (column, .number) :: columns, t, hends => by
    obtain ⟨hend, hends⟩ := List.forall_mem_cons.mp hends
    refine .cons ⟨rfl, _, rfl, Int.natCast_nonneg _, ?_⟩ (forall₂_freshCells columns _ hends)
    have hlt : (t.below (numberBound most)).1 < (max 1 most).toNat := hend.below_lt
    omega
  | (column, .text) :: columns, t, hends => .cons ⟨rfl, rfl⟩ (forall₂_freshCells columns t hends)

/-! ## All rows -/

/-- The states before the draws of some rows. -/
def draws (most : Nat) (columns : List (String × ColumnType)) : Nat → Twister → List Twister
  | 0, _ => []
  | n + 1, t => rowDraws most columns t ++ draws most columns n (rowEnd most columns t)

theorem forall₂_syntheticRows {most : Int} (hcolumns : (columns.map Prod.fst).Nodup) :
    ∀ {n row : Nat} {t : Twister},
      (∀ u ∈ draws (numberBound most) columns n t, u.Ends (numberBound most)) →
      ∀ {i : Nat} {cells : Cells},
        (syntheticRows job columns (numberBound most) batch n row t)[i]? = some cells →
          List.Forall₂ (IsSyntheticCell job most batch (row + i)) columns cells
  | 0, _, _, _, _, _, h => by cases h
  | n + 1, row, t, hends, i, cells, h => by
    obtain ⟨hrow, hrest⟩ := List.forall_mem_append.mp hends
    rw [syntheticRows, syntheticCells_eq columns t (by simpa using hcolumns)] at h
    cases i with
    | zero =>
      obtain rfl := Option.some.inj h
      exact forall₂_freshCells columns t hrow
    | succ i =>
      rw [Nat.add_comm i, ← Nat.add_assoc]
      exact forall₂_syntheticRows hcolumns hrest h

/-- The rows of a batch do not depend on the offset, fewer of them are the first ones of more, and each
has a cell for each of the columns, if these are distinct, and no other : a number in its bounds, if all
draws come to an end, or the text of its place. -/
theorem synthetic_rows (job : String) {columns : List (String × ColumnType)}
    (hcolumns : (columns.map Prod.fst).Nodup) (most batch : Int) {n m : Int} (hle : n ≤ m)
    (hends : ∀ t ∈ draws (numberBound most) columns m.toNat (.ofText (seedText job batch)),
      t.Ends (numberBound most)) (offset offset' : Int) :
    ∃ rows : List Cells,
      synthetic job columns (numberBound most) offset m batch = .ok (rows.map Value.object) ∧
      synthetic job columns (numberBound most) offset' n batch =
        .ok ((rows.take n.toNat).map Value.object) ∧
      rows.length = m.toNat ∧
      ∀ i row, rows[i]? = some row →
        List.Forall₂ (IsSyntheticCell job most batch i) columns row := by
  refine ⟨_, rfl, ?_, length_syntheticRows _ _ _ _ _ _ _, fun i row h => ?_⟩
  · rw [take_syntheticRows (Int.toNat_le_toNat hle)]
    rfl
  · simpa using forall₂_syntheticRows hcolumns hends h

/-- One and three rows with numbers of 64 bits. -/
theorem synthetic_rows_of_large_bound :
    let columns := [("a", ColumnType.number), ("b", .text), ("c", .number)]
    (columns.map Prod.fst).Nodup ∧ (1 : Int) ≤ 3 ∧
      (∀ t ∈ draws (numberBound (2 ^ 64 - 1)) columns 3 (.ofText (seedText "job_1" 7)),
        t.Ends (numberBound (2 ^ 64 - 1))) ∧
      ∃ rows : List Cells,
        synthetic "job_1" columns (numberBound (2 ^ 64 - 1)) 14 3 7 =
          .ok (rows.map Value.object) ∧
        synthetic "job_1" columns (numberBound (2 ^ 64 - 1)) 21 1 7 =
          .ok ((rows.take 1).map Value.object) ∧
        rows.length = 3 ∧
        ∀ i row, rows[i]? = some row →
          List.Forall₂ (IsSyntheticCell "job_1" (2 ^ 64 - 1) 7 i) columns row := by
  intro columns
  have hcolumns : (columns.map Prod.fst).Nodup := by decide
  have hends : ∀ t ∈ draws (numberBound (2 ^ 64 - 1)) columns 3 (.ofText (seedText "job_1" 7)),
      t.Ends (numberBound (2 ^ 64 - 1)) := fun t _ => t.ends_of_largest
  exact ⟨hcolumns, by decide, hends, synthetic_rows "job_1" hcolumns _ 7 (by decide) hends 14 21⟩

end Tabula.Source
