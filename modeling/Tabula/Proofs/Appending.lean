import Mathlib.Data.List.Nodup
import Tabula.Ingest.Run
import Tabula.Proofs.Actions
import Tabula.Proofs.RowIds

/-!
# Appending the rows of a batch

`Rows.append` leaves out entries whose ids are taken. With distinct ids it puts the rows of
the `fresh` entries behind those that are there (`append_eq`), so nothing that is stored
changes.

`Run.batchOf` is the batch that is appended for a descriptor, if its source and the encoder
give one. `Run.execute` then has three outcomes : a failure that stores nothing, because
there is no batch or because the store cannot hold one of its positions, and the fresh rows
stored (`run_execute_of_error`, `run_execute_of_not_fits`, `run_execute_of_fits`). The ids
and positions of a batch are those of `key_of_batchOf`, and a synthetic source always has a
batch (`batchOf_synthetic`).
-/

namespace Tabula

open Store

/-! ## Rows and entries -/

/-- The row that is stored for an entry. -/
def Row.ofEntry (now : Moment) (table : String) (e : Entry) : Row :=
  ⟨e.id, table, e.position, e.payload, now, now⟩

/-- What a row has from its entry. -/
def Row.entry (r : Row) : Entry := ⟨r.id, r.payload, r.position⟩

/-- The id and the position of an entry. -/
def Entry.key (e : Entry) : String × Int := (e.id, e.position)

/-- The id and the position of a row. -/
def Row.key (r : Row) : String × Int := (r.id, r.position)

namespace Store.Rows

theorem has_iff {rows : Rows} {id : String} : rows.has id = true ↔ ∃ r ∈ rows, r.id = id := by
  simp [has]

theorem has_append (rows rows' : Rows) (id : String) :
    (rows ++ rows').has id = (rows.has id || rows'.has id) := by
  simp [has]

/-- The entries whose ids are not taken. -/
def fresh (rows : Rows) (es : Batch) : Batch := es.filter fun e => !rows.has e.id

theorem mem_fresh {rows : Rows} {es : Batch} {e : Entry} :
    e ∈ fresh rows es ↔ e ∈ es ∧ ¬ ∃ r ∈ rows, r.id = e.id := by
  rw [fresh, List.mem_filter, ← has_iff]
  simp

/-- Rows with other ids do not matter for what is fresh. -/
theorem fresh_append {rows rows' : Rows} {es : Batch}
    (h : ∀ r ∈ rows', ∀ e ∈ es, r.id ≠ e.id) : fresh (rows ++ rows') es = fresh rows es := by
  refine List.filter_congr fun e he => ?_
  have : rows'.has e.id = false := by
    rw [Bool.eq_false_iff]
    intro hh
    obtain ⟨r, hr, hid⟩ := has_iff.mp hh
    exact h r hr e he hid
  rw [has_append, this, Bool.or_false]

/-- Entries with distinct ids : the fresh ones become rows, in their order. -/
theorem append_eq (now : Moment) (table : String) :
    ∀ (rows : Rows) {es : Batch}, (es.map Entry.id).Nodup →
      append now table es rows =
        (rows ++ (fresh rows es).map (Row.ofEntry now table), (fresh rows es).length)
  | rows, [], _ => by simp [append, fresh]
  | rows, e :: es, h => by
    rw [List.map_cons, List.nodup_cons] at h
    obtain ⟨he, hes⟩ := h
    by_cases hh : rows.has e.id = true
    · have : fresh rows (e :: es) = fresh rows es := by simp [fresh, hh]
      rw [append, if_pos hh, append_eq now table rows hes, this]
    · have hcons : fresh rows (e :: es) = e :: fresh rows es := by simp [fresh, hh]
      have hfresh : fresh (rows ++ [Row.ofEntry now table e]) es = fresh rows es := by
        refine fresh_append fun r hr e' he' hid => he ?_
        rw [List.mem_singleton.mp hr] at hid
        rw [show e.id = e'.id from hid]
        exact List.mem_map_of_mem he'
      have ih := append_eq now table (rows ++ [Row.ofEntry now table e]) hes
      rw [hfresh] at ih
      rw [append, if_neg hh, hcons]
      simp only [Row.ofEntry] at ih ⊢
      rw [ih]
      simp [Row.ofEntry]

end Store.Rows

/-! ## The encoder -/

namespace Batch

theorem key_of_encodeFrom {idOf : Nat → String} {batch start : Int} :
    ∀ {vs : List Value} {row : Nat} {es : Batch},
      encodeFrom idOf batch start row vs = .ok es →
        es.map Entry.key = (List.range' row vs.length).map fun r => (idOf r, start + (r : Nat))
  | [], row, es, h => by
    rw [encodeFrom, Except.ok.injEq] at h
    simp [← h]
  | v :: vs, row, es, h => by
    rw [encodeFrom] at h
    rcases hv : encodeRow batch row v with _ | payload
    · simp [hv] at h
    · rcases hvs : encodeFrom idOf batch start (row + 1) vs with _ | entries
      · simp [hv, hvs] at h
      · simp only [hv, hvs, Except.ok.injEq] at h
        rw [← h, List.map_cons, key_of_encodeFrom hvs, List.length_cons, List.range'_succ,
          List.map_cons]
        rfl

/-- The ids and positions of a batch, which follow from the number of its rows. -/
theorem key_of_encode {idOf : Nat → String} {batch start : Int} {vs : List Value} {es : Batch}
    (h : encode idOf batch start vs = .ok es) :
    es.map Entry.key = (List.range vs.length).map fun r => (idOf r, start + (r : Nat)) := by
  rw [List.range_eq_range']
  exact key_of_encodeFrom h

theorem exists_id_of_mem_encode {idOf : Nat → String} {batch start : Int} {vs : List Value}
    {es : Batch} {e : Entry} (h : encode idOf batch start vs = .ok es) (he : e ∈ es) :
    ∃ row, e.id = idOf row := by
  have hkey : e.key ∈ es.map Entry.key := List.mem_map_of_mem he
  rw [key_of_encode h] at hkey
  obtain ⟨row, _, hrow⟩ := List.mem_map.mp hkey
  exact ⟨row, (congrArg Prod.fst hrow).symm⟩

/-- Rows that are all mappings of columns to cells make a batch. -/
theorem exists_encodeFrom (idOf : Nat → String) (batch start : Int) :
    ∀ {vs : List Value} (row : Nat), (∀ v ∈ vs, ∃ cells, cellsOf v = .ok cells) →
      ∃ es, encodeFrom idOf batch start row vs = .ok es
  | [], _, _ => ⟨[], rfl⟩
  | v :: vs, row, h => by
    obtain ⟨cells, hv⟩ := h v List.mem_cons_self
    obtain ⟨es, hes⟩ := exists_encodeFrom idOf batch start (row + 1) fun v' hv' =>
      h v' (List.mem_cons_of_mem v hv')
    exact ⟨_, by rw [encodeFrom, encodeRow, hv, hes]⟩

theorem checkCells_ok :
    ∀ {cells : Cells}, (∀ e ∈ cells, e.2.classify ≠ none) →
      checkCells (cells.map fun e => (.text e.1, e.2)) = .ok cells
  | [], _ => rfl
  | (column, v) :: cells, h => by
    obtain ⟨kind, hk⟩ := Option.ne_none_iff_exists'.mp (h (column, v) List.mem_cons_self)
    have ih := checkCells_ok fun e he => h e (List.mem_cons_of_mem (column, v) he)
    rw [List.map_cons, checkCells, hk]
    simp only [ih]

end Batch

/-! ## Executing a batch -/

/-- The position of a job's first row, or of the first row of all if it has none yet. -/
def Job.base (job : Job) : Int := job.basePosition.getD 0

namespace Run

variable {job : Job} {source : Source} {d : Descriptor} {es : Batch} {s : Surroundings} {w : World}
  {db : Database} {e : Failure}

/-- The batch that is appended for a descriptor. -/
def batchOf (job : Job) (source : Source) (d : Descriptor) : Except Failure Batch :=
  match source d.offset d.size d.index with
  | .error e => .error e
  | .ok rows => Batch.encode (Batch.jobRowId job.id d.index) d.index (job.base + d.offset) rows

/-- The ids and positions of a batch follow from the number of its entries. -/
theorem key_of_batchOf (h : batchOf job source d = .ok es) :
    es.map Entry.key = (List.range es.length).map fun r =>
      (Batch.jobRowId job.id d.index r, job.base + d.offset + (r : Nat)) := by
  rw [batchOf] at h
  split at h
  · simp at h
  · have hk := Batch.key_of_encode h
    have hlen := congrArg List.length hk
    simp only [List.length_map, List.length_range] at hlen
    rwa [← hlen] at hk

theorem isRowIdOf_of_mem_batchOf (h : batchOf job source d = .ok es) {e : Entry} (he : e ∈ es) :
    ∃ row, e.id = Batch.jobRowId job.id d.index row := by
  rw [batchOf] at h
  split at h
  · simp at h
  · exact Batch.exists_id_of_mem_encode h he

theorem nodup_batchOf (h : batchOf job source d = .ok es) : (es.map Entry.id).Nodup := by
  have : es.map Entry.id = (es.map Entry.key).map Prod.fst := by simp [Entry.key]
  rw [this, key_of_batchOf h, List.map_map]
  refine List.Nodup.map_on (fun a _ b _ hab => ?_) List.nodup_range
  exact (jobRowId_inj.mp hab).2.2

/-- Without a batch nothing is stored. -/
theorem run_execute_of_error (h : batchOf job source d = .error e) :
    execute job source d s w = (.error e, w) := by
  rw [batchOf] at h
  unfold execute
  rcases hs : source d.offset d.size d.index with e' | rows
  · simp only [hs, Except.error.injEq] at h
    rw [Action.run_bind_error (Action.run_liftM _), h]
  · simp only [hs] at h
    rw [Action.run_bind_ok (Action.run_liftM _)]
    exact Action.run_bind_error (by rw [Action.run_liftM]; exact congrArg (·, w) h) _

theorem run_execute_of_ok (h : batchOf job source d = .ok es) :
    execute job source d s w = RowStore.append job.table es s w := by
  rw [batchOf] at h
  unfold execute
  rcases hs : source d.offset d.size d.index with e' | rows
  · simp [hs] at h
  · simp only [hs] at h
    rw [Action.run_bind_ok (Action.run_liftM _)]
    exact Action.run_bind_ok (by rw [Action.run_liftM]; exact congrArg (·, w) h) _

/-- A position that the store cannot hold fails the whole batch. -/
theorem run_execute_of_not_fits (hw : w.storage = .ready db) (h : batchOf job source d = .ok es)
    (hf : ¬ ∀ e ∈ es, fitsInteger e.position) :
    execute job source d s w = (.error (.fault .integerTooLarge), w) := by
  have hne : es.isEmpty = false := by
    rcases es with _ | ⟨e, es⟩
    · simp at hf
    · rfl
  have hall : es.all (fun e => fitsInteger e.position) = false := by
    rw [Bool.eq_false_iff]
    exact fun hall => hf (List.all_eq_true.mp hall)
  rw [run_execute_of_ok h]
  unfold RowStore.append
  simp only [hne, Bool.false_eq_true, if_false]
  rw [Action.run_bind_ok Action.run_now]
  have hfail : RowStore.appended s.now job.table es db = .error (.fault .integerTooLarge) := by
    simp [RowStore.appended, hall]
  exact Action.run_rowStore_error (Action.run_transaction_error hw hfail)

/-- Otherwise the rows of its fresh entries are stored behind the others. -/
theorem run_execute_of_fits (hw : w.storage = .ready db) (h : batchOf job source d = .ok es)
    (hf : ∀ e ∈ es, fitsInteger e.position) :
    execute job source d s w = (.ok (Rows.fresh db.rows es).length,
      w.withDatabase (db.withRows
        (db.rows ++ (Rows.fresh db.rows es).map (Row.ofEntry s.now job.table)))) := by
  rw [run_execute_of_ok h]
  unfold RowStore.append
  rcases hes : es.isEmpty with _ | _
  · simp only [Bool.false_eq_true, if_false]
    rw [Action.run_bind_ok Action.run_now]
    refine Action.run_rowStore_ok (Action.run_transaction_ok hw ?_)
    have hall : es.all (fun e => fitsInteger e.position) = true := List.all_eq_true.mpr hf
    rw [RowStore.appended, if_pos hall, Rows.append_eq s.now job.table db.rows (nodup_batchOf h)]
    rfl
  · rw [List.isEmpty_iff] at hes
    subst hes
    simp [Rows.fresh, Database.withRows, withDatabase_self hw]

/-- Whatever becomes of a batch, only the rows are other ones. -/
theorem exists_rows_of_execute (hw : w.storage = .ready db) (job : Job) (source : Source)
    (d : Descriptor) (s : Surroundings) :
    ∃ rows, (execute job source d s w).2 = w.withDatabase (db.withRows rows) := by
  have hkeep : w = w.withDatabase (db.withRows db.rows) := (withDatabase_self hw).symm
  rcases hb : batchOf job source d with e | es
  · exact ⟨db.rows, by rw [run_execute_of_error hb, ← hkeep]⟩
  · by_cases hf : ∀ e ∈ es, fitsInteger e.position
    · exact ⟨_, by rw [run_execute_of_fits hw hb hf]⟩
    · exact ⟨db.rows, by rw [run_execute_of_not_fits hw hb hf, ← hkeep]⟩

end Run

/-! ## The synthetic source -/

theorem Cells.mem_set {column : String} {value : Value} :
    ∀ {cells : Cells} {e : String × Value}, e ∈ Cells.set column value cells →
      e ∈ cells ∨ e.2 = value
  | [], e, h => by
    rw [Cells.set, List.mem_singleton] at h
    exact Or.inr (by rw [h])
  | c :: cells, e, h => by
    rw [Cells.set] at h
    split at h
    · rcases List.mem_cons.mp h with rfl | h
      · exact Or.inr rfl
      · exact Or.inl (List.mem_cons_of_mem c h)
    · rcases List.mem_cons.mp h with rfl | h
      · exact Or.inl List.mem_cons_self
      · rcases Cells.mem_set h with h | h
        · exact Or.inl (List.mem_cons_of_mem c h)
        · exact Or.inr h

namespace Source

/-- Cells that may all be stored. -/
def AllStorable (cells : Cells) : Prop := ∀ e ∈ cells, e.2.classify ≠ none

theorem AllStorable.set {cells : Cells} (h : AllStorable cells) (column : String) {value : Value}
    (hv : value.classify ≠ none) : AllStorable (Cells.set column value cells) := by
  intro e he
  rcases Cells.mem_set he with he | he
  · exact h e he
  · rwa [he]

theorem allStorable_syntheticCells (job : String) (most : Nat) (batch : Int) (row : Nat) :
    ∀ (columns : List (String × ColumnType)) (t : Random.Twister) {cells : Cells},
      AllStorable cells → AllStorable (syntheticCells job most batch row columns t cells).1
  | [], t, cells, h => h
  | (column, .number) :: columns, t, cells, h => by
    rcases hn : t.below most with ⟨n, t'⟩
    rw [syntheticCells, hn]
    exact allStorable_syntheticCells job most batch row columns t'
      (h.set column (by simp [Value.classify]))
  | (column, .text) :: columns, t, cells, h => by
    rw [syntheticCells]
    exact allStorable_syntheticCells job most batch row columns t
      (h.set column (by simp [Value.classify]))

theorem allStorable_of_mem_syntheticRows (job : String) (columns : List (String × ColumnType))
    (most : Nat) (batch : Int) :
    ∀ (n row : Nat) (t : Random.Twister),
      ∀ cells ∈ syntheticRows job columns most batch n row t, AllStorable cells
  | 0, _, _, cells, h => by simp [syntheticRows] at h
  | n + 1, row, t, cells, h => by
    rw [syntheticRows] at h
    rcases List.mem_cons.mp h with rfl | h
    · exact allStorable_syntheticCells job most batch row columns t (by simp [AllStorable])
    · exact allStorable_of_mem_syntheticRows job columns most batch n _ _ cells h

theorem length_syntheticRows (job : String) (columns : List (String × ColumnType)) (most : Nat)
    (batch : Int) : ∀ (n row : Nat) (t : Random.Twister),
      (syntheticRows job columns most batch n row t).length = n
  | 0, _, _ => rfl
  | n + 1, row, t => by
    rw [syntheticRows, List.length_cons, length_syntheticRows job columns most batch n]

end Source

/-- A synthetic source has a batch for every descriptor, of as many rows as it asks for. -/
theorem Run.batchOf_synthetic (job : Job) (name : String) (columns : List (String × ColumnType))
    (most : Nat) (d : Descriptor) :
    ∃ es, batchOf job (Source.synthetic name columns most) d = .ok es ∧
      es.length = d.size.toNat := by
  obtain ⟨t, ht⟩ : ∃ t, Random.Twister.ofText (Source.seedText name d.index) = t := ⟨_, rfl⟩
  have hrows : Source.synthetic name columns most d.offset d.size d.index = .ok
      ((Source.syntheticRows name columns most d.index d.size.toNat 0 t).map Value.object) := by
    rw [Source.synthetic, ht]
  have hcells : ∀ v ∈ (Source.syntheticRows name columns most d.index d.size.toNat 0 t).map
      Value.object, ∃ cells, Batch.cellsOf v = .ok cells := by
    intro v hv
    obtain ⟨cells, hc, rfl⟩ := List.mem_map.mp hv
    exact ⟨cells, Batch.checkCells_ok
      (Source.allStorable_of_mem_syntheticRows name columns most d.index _ _ t cells hc)⟩
  obtain ⟨es, hes⟩ := Batch.exists_encodeFrom (Batch.jobRowId job.id d.index) d.index
    (job.base + d.offset) 0 hcells
  refine ⟨es, ?_, ?_⟩
  · rw [batchOf, hrows]
    exact hes
  · have hlen := congrArg List.length (Batch.key_of_encodeFrom hes)
    simpa [Source.length_syntheticRows] using hlen

end Tabula
