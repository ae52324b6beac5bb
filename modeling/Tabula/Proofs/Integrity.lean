import Tabula.Proofs.OwnTables

/-!
# Integrity

Records are linked (`Database.IsLinked`) : what they refer to is there, and the keys of cells are
columns of the table. To carry this through the steps more is needed, that ids are the keys they
are taken for (`Database.IsKeyed`). Both are kept by every change (`IsLinked.change`), by deleting
a column with its cells (`IsLinked.withoutColumn`) and by changing one, where nothing comes or
goes (`Database.Renews`).

`Reached.induct_linked` is the induction over all that comes about with both at hand; later
invariants go through it as well.
-/

namespace Tabula

open Store

theorem find?_eq_some_of_nodup {α : Type} {f : α → String} {xs : List α} (h : (xs.map f).Nodup)
    {a : α} (ha : a ∈ xs) : xs.find? (fun x => f x == f a) = some a := by
  rcases hfound : xs.find? (fun x => f x == f a) with _ | b
  · exact absurd (List.find?_eq_none.mp hfound a ha) (by simp)
  · obtain ⟨hb, hid⟩ := mem_of_find?_eq_some hfound
    rw [List.inj_on_of_nodup_map h hb ha hid]

/-! ## Rows that are rewritten -/

namespace Store.Rows

theorem mem_write {now : Moment} {id : String} {payload : Payload} {rows : Rows} {r' : Row}
    (h : r' ∈ write now id payload rows) :
    ∃ r ∈ rows, r'.id = r.id ∧ r'.table = r.table ∧
      (r' = r ∨ r.id = id ∧ r'.payload = payload) := by
  obtain ⟨r, hr, rfl⟩ := List.mem_map.mp h
  refine ⟨r, hr, ?_⟩
  split
  · rename_i hid
    exact ⟨rfl, rfl, .inr ⟨beq_iff_eq.mp hid, rfl⟩⟩
  · exact ⟨rfl, rfl, .inl rfl⟩

theorem map_id_write (now : Moment) (id : String) (payload : Payload) (rows : Rows) :
    (write now id payload rows).map Row.id = rows.map Row.id := by
  rw [write, modify, List.map_map]
  refine List.map_congr_left fun r _ => ?_
  rw [Function.comp_apply]
  split <;> rfl

theorem map_id_removeKey (now : Moment) (table column : String) (rows : Rows) :
    (removeKey now table column rows).map Row.id = rows.map Row.id := by
  rw [removeKey, List.map_map]
  refine List.map_congr_left fun r _ => ?_
  rw [Function.comp_apply]
  split <;> rfl

end Store.Rows

namespace Database

/-! ## What refers to what -/

/-- The references between records lead somewhere, and the key of every cell is a column of the
table of its row. -/
structure IsLinked (db : Database) : Prop where
  base : ∀ t ∈ db.tables, ∃ b ∈ db.bases, b.id = t.base
  column : ∀ c ∈ db.columns, db.HasTable c.table
  view : ∀ v ∈ db.views, db.HasTable v.table
  row : ∀ r ∈ db.rows, db.HasTable r.table
  job : ∀ j ∈ db.jobs, db.HasTable j.table
  key : ∀ r ∈ db.rows, ∀ key ∈ r.payload.cells.map Prod.fst,
    ∃ c ∈ db.columns, c.id = key ∧ c.table = r.table

/-- No two columns and no two rows have one id, and column ids are plain. -/
structure IsKeyed (db : Database) : Prop where
  columns : (db.columns.map Column.id).Nodup
  rows : (db.rows.map Row.id).Nodup
  plain : ∀ c ∈ db.columns, IsPlain c.id

variable {db db' : Database}

theorem isLinked_empty : Database.empty.IsLinked := by constructor <;> simp [Database.empty]

theorem isKeyed_empty : Database.empty.IsKeyed := by constructor <;> simp [Database.empty]

theorem IsKeyed.column_eq (h : db.IsKeyed) {c d : Column} (hc : c ∈ db.columns)
    (hd : d ∈ db.columns) (hid : c.id = d.id) : c = d :=
  List.inj_on_of_nodup_map h.columns hc hd hid

theorem IsKeyed.row_eq (h : db.IsKeyed) {r r' : Row} (hr : r ∈ db.rows) (hr' : r' ∈ db.rows)
    (hid : r.id = r'.id) : r = r' :=
  List.inj_on_of_nodup_map h.rows hr hr' hid

theorem IsKeyed.findColumn_eq (h : db.IsKeyed) {c : Column} (hc : c ∈ db.columns) :
    Catalog.findColumn c.id db = .ok c := by
  rw [Catalog.findColumn, find?_eq_some_of_nodup h.columns hc]

theorem IsKeyed.ownColumn_eq (h : db.IsKeyed) {c : Column} (hc : c ∈ db.columns) {actor : String}
    {t : Table} (hown : Catalog.ownedTable actor c.table db = .ok t) :
    Catalog.ownColumn actor c.id db = .ok c := by
  rw [Catalog.ownColumn, h.findColumn_eq hc]
  change (Catalog.ownedTable actor c.table db >>= _) = _
  rw [hown]
  rfl

theorem IsKeyed.findRow_eq (h : db.IsKeyed) {r : Row} (hr : r ∈ db.rows) :
    RowStore.find r.id db = .ok r := by
  rw [RowStore.find, Rows.find?, find?_eq_some_of_nodup h.rows hr]

/-- The declared type of a column of a table is found by its id. -/
theorem IsKeyed.lookup_typesOf (h : db.IsKeyed) {table id : String} {type : ColumnType} :
    (Catalog.typesOf table db).lookup id = some type ↔
      ∃ c ∈ db.columns, c.table = table ∧ c.id = id ∧ c.type = type := by
  refine ⟨fun hfound => Catalog.mem_typesOf.mp (Workspace.mem_of_lookup hfound), ?_⟩
  rintro ⟨c, hc, htable, rfl, rfl⟩
  have hmem := Catalog.mem_typesOf.mpr ⟨c, hc, htable, rfl, rfl⟩
  rcases hfound : (Catalog.typesOf table db).lookup c.id with _ | type
  · exact absurd (List.lookup_eq_none_iff.mp hfound _ hmem) (by simp)
  · obtain ⟨d, hd, _, hid, rfl⟩ := Catalog.mem_typesOf.mp (Workspace.mem_of_lookup hfound)
    rw [h.column_eq hd hc hid]

theorem IsLinked.hasTable_of_mem (h : db.IsLinked) {table : String}
    (htable : db.HasTable table ∨ ∃ j ∈ db.jobs, j.table = table) : db.HasTable table := by
  rcases htable with htable | ⟨j, hj, rfl⟩
  · exact htable
  · exact h.job j hj

theorem nodup_append_columns {columns columns' : List Column} (h : (columns.map Column.id).Nodup)
    (h' : (columns'.map Column.id).Nodup) (hne : ∀ c ∈ columns', ∀ old ∈ columns, old.id ≠ c.id) :
    ((columns ++ columns').map Column.id).Nodup := by
  rw [List.map_append, List.nodup_append]
  refine ⟨h, h', fun i hi j hj hij => ?_⟩
  obtain ⟨old, hold, rfl⟩ := List.mem_map.mp hi
  obtain ⟨c, hc, rfl⟩ := List.mem_map.mp hj
  exact hne c hc old hold hij

theorem IsKeyed.change (h : db.IsKeyed) (hchange : db.Change db') : db'.IsKeyed := by
  cases hchange with
  | base => exact ⟨h.columns, h.rows, h.plain⟩
  | @table t columns rows _ hcolumns hnodup hnew hrows =>
    exact ⟨nodup_append_columns h.columns hnodup hnew, hrows.nodup h.rows,
      List.forall_mem_append.mpr ⟨h.plain, fun c hc => (hcolumns c hc).2⟩⟩
  | @column c _ hplain hnew =>
    exact ⟨nodup_append_columns h.columns (List.nodup_singleton _)
        (List.forall_mem_singleton.mpr hnew), h.rows,
      List.forall_mem_append.mpr ⟨h.plain, List.forall_mem_singleton.mpr hplain⟩⟩
  | ingested _ hingested =>
    rw [hingested.eq]
    exact ⟨h.columns, hingested.rows.nodup h.rows, h.plain⟩
  | job => exact ⟨h.columns, h.rows, h.plain⟩
  | cell now =>
    refine ⟨h.columns, ?_, h.plain⟩
    rw [rows_withRows, Rows.map_id_write]
    exact h.rows
  | rowErased id => exact ⟨h.columns, h.rows.sublist (List.filter_sublist.map _), h.plain⟩
  | views => exact ⟨h.columns, h.rows, h.plain⟩
  | tableDropped id =>
    exact ⟨h.columns.sublist (List.filter_sublist.map _),
      h.rows.sublist (List.filter_sublist.map _), fun c hc => h.plain c (List.mem_filter.mp hc).1⟩

/-- The keys of cells that conform are columns. -/
theorem exists_column_of_conform {table : String} {cells : Cells}
    (h : cells.Conform (Catalog.typesOf table db)) :
    ∀ key ∈ cells.map Prod.fst, ∃ c ∈ db.columns, c.id = key ∧ c.table = table := by
  intro key hkey
  obtain ⟨type, hmem⟩ := h.exists_type hkey
  obtain ⟨c, hc, htable, hid, _⟩ := Catalog.mem_typesOf.mp hmem
  exact ⟨c, hc, hid, htable⟩

theorem HasTable.append {id : String} (h : db.HasTable id) (t : Table) :
    ∃ t' ∈ db.tables ++ [t], t'.id = id :=
  h.imp fun _ ht' => ⟨List.mem_append_left _ ht'.1, ht'.2⟩

theorem HasTable.filter {id table : String} (h : db.HasTable table) (hne : table ≠ id) :
    ∃ t ∈ db.tables.filter fun t => t.id != id, t.id = table := by
  obtain ⟨t, ht, rfl⟩ := h
  exact ⟨t, List.mem_filter.mpr ⟨ht, by simpa using hne⟩, rfl⟩

/-- A table that is made has its rows and columns with it. -/
theorem IsLinked.withTable (h : db.IsLinked) {t : Table} {columns : List Column} {rows : Rows}
    (hbase : ∃ b ∈ db.bases, b.id = t.base) (hcolumns : ∀ c ∈ columns, c.table = t.id)
    (hrows : Rows.Grow t.id (columns.map fun c => (c.id, c.type)) db.rows rows) :
    { db with
      tables := db.tables ++ [t], columns := db.columns ++ columns, rows := rows }.IsLinked := by
  have hnew : ∃ t' ∈ db.tables ++ [t], t'.id = t.id :=
    ⟨t, List.mem_append_right _ (List.mem_singleton_self t), rfl⟩
  refine ⟨List.forall_mem_append.mpr ⟨h.base, List.forall_mem_singleton.mpr hbase⟩,
    List.forall_mem_append.mpr ⟨fun c hc => (h.column c hc).append t, fun c hc => ?_⟩,
    fun v hv => (h.view v hv).append t, fun r hr => ?_, fun j hj => (h.job j hj).append t,
    fun r hr key hkey => ?_⟩
  · rw [hcolumns c hc]
    exact hnew
  · rcases hrows.mem_iff hr with hr | ⟨htable, _⟩
    · exact (h.row r hr).append t
    · rw [htable]
      exact hnew
  · rcases hrows.mem_iff hr with hr | ⟨htable, hconform⟩
    · obtain ⟨c, hc, hid⟩ := h.key r hr key hkey
      exact ⟨c, List.mem_append_left _ hc, hid⟩
    · obtain ⟨type, hmem⟩ := hconform.exists_type hkey
      obtain ⟨c, hc, heq⟩ := List.mem_map.mp hmem
      refine ⟨c, List.mem_append_right _ hc, congrArg Prod.fst heq, ?_⟩
      rw [hcolumns c hc, htable]

theorem IsLinked.ingested (h : db.IsLinked) {table : String} (htable : db.HasTable table)
    (hingested : Ingested table (Catalog.typesOf table db) db db') : db'.IsLinked := by
  rw [hingested.eq]
  refine { h with row := fun r hr => ?_, job := fun j hj => ?_, key := fun r hr => ?_ }
  · rcases hingested.rows.mem_iff hr with hr | ⟨hr, _⟩
    · exact h.row r hr
    · rw [hr]
      exact htable
  · obtain ⟨j', hj', ht⟩ := hingested.jobs j hj
    rw [← ht]
    exact h.job j' hj'
  · rcases hingested.rows.mem_iff hr with hr | ⟨hr, hconform⟩
    · exact h.key r hr
    · rw [hr]
      exact exists_column_of_conform hconform

/-- The cells of a row that is written have the keys of its old cells, and one of a column. -/
theorem IsLinked.write (h : db.IsLinked) (hkeyed : db.IsKeyed) {r : Row} {column : String}
    {type : ColumnType} {payload : Payload} (now : Moment) (hr : r ∈ db.rows)
    (hcolumn : (column, type) ∈ Catalog.typesOf r.table db)
    (hkeys : ∀ key ∈ payload.cells.map Prod.fst,
      key = column ∨ key ∈ r.payload.cells.map Prod.fst) :
    (db.withRows (Rows.write now r.id payload db.rows)).IsLinked := by
  refine { h with row := fun r' hr' => ?_, key := fun r' hr' key hkey => ?_ }
  · obtain ⟨r₀, hr₀, _, htable, _⟩ := Rows.mem_write hr'
    rw [htable]
    exact h.row r₀ hr₀
  · obtain ⟨r₀, hr₀, _, htable, rfl | ⟨hid, hpayload⟩⟩ := Rows.mem_write hr'
    · exact h.key r' hr₀ key hkey
    · obtain rfl := hkeyed.row_eq hr₀ hr hid
      rw [hpayload] at hkey
      rw [htable]
      rcases hkeys key hkey with rfl | hold
      · obtain ⟨c, hc, ht, hid, _⟩ := Catalog.mem_typesOf.mp hcolumn
        exact ⟨c, hc, hid, ht⟩
      · exact h.key r₀ hr₀ key hold

/-- With a table everything goes that refers to it. -/
theorem IsLinked.withoutTable (h : db.IsLinked) (id : String) :
    (Workspace.withoutTable id db).IsLinked := by
  have hne : ∀ {table : String}, (table != id) = true → table ≠ id := fun h => by simpa using h
  refine ⟨fun t ht => h.base t (List.mem_filter.mp ht).1, fun c hc => ?_, fun v hv => ?_,
    fun r hr => ?_, fun j hj => ?_, fun r hr key hkey => ?_⟩
  · exact (h.column c (List.mem_filter.mp hc).1).filter (hne (List.mem_filter.mp hc).2)
  · exact (h.view v (List.mem_filter.mp hv).1).filter (hne (List.mem_filter.mp hv).2)
  · exact (h.row r (List.mem_filter.mp hr).1).filter (hne (List.mem_filter.mp hr).2)
  · exact (h.job j (List.mem_filter.mp hj).1).filter (hne (List.mem_filter.mp hj).2)
  · obtain ⟨c, hc, hid, htable⟩ := h.key r (List.mem_filter.mp hr).1 key hkey
    refine ⟨c, List.mem_filter.mpr ⟨hc, ?_⟩, hid, htable⟩
    rw [htable]
    exact (List.mem_filter.mp hr).2

theorem IsLinked.change (h : db.IsLinked) (hkeyed : db.IsKeyed) (hchange : db.Change db') :
    db'.IsLinked := by
  cases hchange with
  | base b =>
    refine { h with base := fun t ht => ?_ }
    obtain ⟨b', hb', hid⟩ := h.base t ht
    exact ⟨b', List.mem_append_left _ hb', hid⟩
  | table hbase hcolumns _ _ hrows => exact h.withTable hbase (fun c hc => (hcolumns c hc).1) hrows
  | @column c htable _ _ =>
    refine { h with
      column := List.forall_mem_append.mpr ⟨h.column, List.forall_mem_singleton.mpr htable⟩
      key := fun r hr key hkey => ?_ }
    obtain ⟨c', hc', hid⟩ := h.key r hr key hkey
    exact ⟨c', List.mem_append_left _ hc', hid⟩
  | ingested htable hingested => exact h.ingested (h.hasTable_of_mem htable) hingested
  | @job j htable =>
    exact { h with
      job := List.forall_mem_append.mpr ⟨h.job, List.forall_mem_singleton.mpr htable⟩ }
  | cell now hr hcolumn hcells =>
    refine h.write hkeyed now hr hcolumn fun key hkey => ?_
    obtain ⟨v, hv⟩ := Cells.exists_get?.mpr hkey
    exact (hcells key v hv).imp And.left fun ⟨old, hold, _⟩ => Cells.exists_get?.mp ⟨old, hold⟩
  | rowErased id =>
    exact { h with
      row := fun r hr => h.row r (List.mem_filter.mp hr).1
      key := fun r hr => h.key r (List.mem_filter.mp hr).1 }
  | views hviews =>
    refine { h with view := fun v hv => ?_ }
    rcases (hviews v hv).table with htable | ⟨old, hold, htable⟩
    · exact htable
    · rw [← htable]
      exact h.view old hold
  | tableDropped id => exact h.withoutTable id

/-- What is kept by each change of linked and keyed records is kept by any number. -/
theorem keeps_of_changes {P : Database → Prop} (hchanges : Changes db db') (hP : P db)
    (hlinked : db.IsLinked) (hkeyed : db.IsKeyed)
    (hstep : ∀ {db db' : Database}, db.IsLinked → db.IsKeyed → P db → db.Change db' → P db') :
    P db' ∧ db'.IsLinked ∧ db'.IsKeyed := by
  induction hchanges with
  | refl => exact ⟨hP, hlinked, hkeyed⟩
  | tail _ hchange ih =>
    obtain ⟨hP, hlinked, hkeyed⟩ := ih
    exact ⟨hstep hlinked hkeyed hP hchange, hlinked.change hkeyed hchange, hkeyed.change hchange⟩

end Database

/-! ## A column that is deleted -/

theorem Cells.get?_filter {cells : Cells} {column : String} {p : String × Value → Bool}
    (h : ∀ e ∈ cells, e.1 = column → p e = true) :
    get? (cells.filter p) column = get? cells column := by
  induction cells with
  | nil => rfl
  | cons e cells ih =>
    have ih := ih fun e' he' => h e' (List.mem_cons_of_mem e he')
    rw [List.filter_cons]
    split
    · rw [get?_cons, get?_cons, ih]
    · rename_i hp
      rw [get?_cons, if_neg fun he => hp (h e List.mem_cons_self he), ih]

namespace Store

variable {column : String}

theorem removeKey_cells (hplain : IsPlain column) (p : Payload) :
    (removeKey p column).cells = Cells.erase p.cells column := by
  rw [removeKey, Cells.erase]
  refine List.filter_congr fun e _ => ?_
  rw [Bool.eq_iff_iff, bne_iff_ne, bne_iff_ne, ne_eq, ne_eq, escape_eq_iff hplain]

theorem get?_removeKey_self (hplain : IsPlain column) (p : Payload) :
    (removeKey p column).cells.get? column = none := by
  rw [removeKey_cells hplain, Cells.get?_eq_none, Cells.erase]
  intro hmem
  obtain ⟨e, he, hkey⟩ := List.mem_map.mp hmem
  exact bne_iff_ne.mp (List.mem_filter.mp he).2 hkey

theorem get?_removeKey_of_ne (hplain : IsPlain column) {other : String} (h : other ≠ column)
    (p : Payload) : (removeKey p column).cells.get? other = p.cells.get? other := by
  rw [removeKey_cells hplain]
  exact Cells.get?_filter fun e _ hkey => bne_iff_ne.mpr (hkey ▸ h)

theorem get?_of_hasKey_false (hplain : IsPlain column) {p : Payload} (h : hasKey p column = false) :
    p.cells.get? column = none := by
  rw [hasKey, contains_quote_of_isPlain hplain, Bool.not_false, Bool.true_and,
    writtenCell_eq p hplain] at h
  exact Option.not_isSome_iff_eq_none.mp (by simp [h])

/-- Removing a key takes it from the rows of its table, and leaves everything else. -/
theorem mem_removeKey {now : Moment} {table : String} (hplain : IsPlain column) {rows : Rows}
    {r' : Row} (h : r' ∈ Rows.removeKey now table column rows) :
    ∃ r ∈ rows, r'.id = r.id ∧ r'.table = r.table ∧
      (r.table = table → r'.payload.cells.get? column = none) ∧
        ∀ other, other ≠ column ∨ r.table ≠ table →
          r'.payload.cells.get? other = r.payload.cells.get? other := by
  obtain ⟨r, hr, rfl⟩ := List.mem_map.mp h
  refine ⟨r, hr, ?_⟩
  split
  · rename_i hboth
    obtain ⟨htable, _⟩ := Bool.and_eq_true_iff.mp hboth
    refine ⟨rfl, rfl, fun _ => get?_removeKey_self hplain _, fun other hother => ?_⟩
    exact get?_removeKey_of_ne hplain
      (hother.resolve_right fun hne => hne (beq_iff_eq.mp htable)) _
  · rename_i hnot
    refine ⟨rfl, rfl, fun htable => ?_, fun _ _ => rfl⟩
    exact get?_of_hasKey_false hplain (by simpa [htable] using hnot)

end Store

namespace Database

variable {db db' : Database} {c : Column} {now : Moment}

theorem IsKeyed.withoutColumn (h : db.IsKeyed) (now : Moment) (c : Column) :
    (db.withoutColumn now c).IsKeyed :=
  ⟨h.columns.sublist (List.filter_sublist.map _), (Rows.map_id_removeKey now _ _ _).symm ▸ h.rows,
    fun c' hc' => h.plain c' (List.mem_filter.mp hc').1⟩

/-- A column is deleted with every cell under it. -/
theorem IsLinked.withoutColumn (h : db.IsLinked) (hkeyed : db.IsKeyed) (hc : c ∈ db.columns) :
    (db.withoutColumn now c).IsLinked := by
  refine ⟨h.base, fun c' hc' => h.column c' (List.mem_filter.mp hc').1, h.view, fun r' hr' => ?_,
    h.job, fun r' hr' key hkey => ?_⟩
  · obtain ⟨r, hr, _, htable, _⟩ := mem_removeKey (hkeyed.plain c hc) hr'
    rw [htable]
    exact h.row r hr
  · obtain ⟨r, hr, _, htable, hgone, hkept⟩ := mem_removeKey (hkeyed.plain c hc) hr'
    obtain ⟨v, hv⟩ := Cells.exists_get?.mpr hkey
    -- The cell is still there, so it was not one of those under the column.
    have hold : key ≠ c.id ∨ r.table ≠ c.table := by
      by_contra hboth
      obtain ⟨rfl, ht⟩ : key = c.id ∧ r.table = c.table := by simpa [not_or] using hboth
      rw [hgone ht] at hv
      cases hv
    rw [hkept key hold] at hv
    obtain ⟨d, hd, hid, hdtable⟩ := h.key r hr key (Cells.exists_get?.mp ⟨v, hv⟩)
    refine ⟨d, List.mem_filter.mpr ⟨hd, ?_⟩, hid, hdtable.trans htable.symm⟩
    rw [bne_iff_ne, hid]
    rintro rfl
    rw [hkeyed.column_eq hd hc hid] at hdtable
    exact hold.elim (fun hne => hne rfl) fun hne => hne hdtable.symm

/-! ## A column that is changed -/

/-- Columns and rows may have changed, but stand where they stood, and no cell has come or
gone. -/
structure Renews (db db' : Database) : Prop where
  bases : db'.bases = db.bases
  tables : db'.tables = db.tables
  views : db'.views = db.views
  jobs : db'.jobs = db.jobs
  columns : db'.columns.map (fun c => (c.id, c.table)) = db.columns.map fun c => (c.id, c.table)
  rows : db'.rows.map (fun r => (r.id, r.table, r.payload.cells.map Prod.fst)) =
    db.rows.map fun r => (r.id, r.table, r.payload.cells.map Prod.fst)

theorem Renews.refl (db : Database) : Renews db db := ⟨rfl, rfl, rfl, rfl, rfl, rfl⟩

theorem renews_withColumn {c' : Column} (hkeyed : db.IsKeyed) (hc : c ∈ db.columns)
    (hid : c'.id = c.id) (htable : c'.table = c.table) : Renews db (db.withColumn c') := by
  refine ⟨rfl, rfl, rfl, rfl, ?_, rfl⟩
  rw [withColumn, List.map_map]
  refine List.map_congr_left fun d hd => ?_
  rw [Function.comp_apply]
  split
  · rename_i heq
    rw [hkeyed.column_eq hd hc ((beq_iff_eq.mp heq).trans hid), hid, htable]
  · rfl

theorem renews_retypedRows (now : Moment) (table column : String) :
    Renews db (db.withRows (Workspace.retypedRows now table column db.rows)) := by
  refine ⟨rfl, rfl, rfl, rfl, rfl, ?_⟩
  rw [rows_withRows, Workspace.retypedRows, List.map_map]
  refine List.map_congr_left fun r _ => ?_
  rw [Function.comp_apply]
  split
  · split
    · rename_i r' hr'
      have h := Workspace.retyped_of_retypedRow hr'
      rw [h.id, h.table, h.keys]
    · rfl
  · rfl

theorem Renews.trans {db'' : Database} (h : Renews db db') (h' : Renews db' db'') :
    Renews db db'' :=
  ⟨h'.bases.trans h.bases, h'.tables.trans h.tables, h'.views.trans h.views, h'.jobs.trans h.jobs,
    h'.columns.trans h.columns, h'.rows.trans h.rows⟩

theorem Renews.exists_column (h : Renews db db') {c : Column} (hc : c ∈ db'.columns) :
    ∃ old ∈ db.columns, old.id = c.id ∧ old.table = c.table := by
  have hmem : (c.id, c.table) ∈ db'.columns.map fun c => (c.id, c.table) :=
    List.mem_map.mpr ⟨c, hc, rfl⟩
  rw [h.columns] at hmem
  obtain ⟨old, hold, heq⟩ := List.mem_map.mp hmem
  exact ⟨old, hold, congrArg Prod.fst heq, congrArg Prod.snd heq⟩

theorem Renews.symm (h : Renews db db') : Renews db' db :=
  ⟨h.bases.symm, h.tables.symm, h.views.symm, h.jobs.symm, h.columns.symm, h.rows.symm⟩

theorem Renews.exists_row (h : Renews db db') {r : Row} (hr : r ∈ db'.rows) :
    ∃ old ∈ db.rows, old.id = r.id ∧ old.table = r.table ∧
      old.payload.cells.map Prod.fst = r.payload.cells.map Prod.fst := by
  have hmem : (r.id, r.table, r.payload.cells.map Prod.fst) ∈
      db'.rows.map fun r => (r.id, r.table, r.payload.cells.map Prod.fst) :=
    List.mem_map.mpr ⟨r, hr, rfl⟩
  rw [h.rows] at hmem
  obtain ⟨old, hold, heq⟩ := List.mem_map.mp hmem
  obtain ⟨hid, heq⟩ := Prod.mk.inj heq
  exact ⟨old, hold, hid, Prod.mk.inj heq⟩

theorem IsKeyed.renew (h : db.IsKeyed) (hrenews : Renews db db') : db'.IsKeyed := by
  have hcolumns := congrArg (List.map Prod.fst) hrenews.columns
  have hrows := congrArg (List.map Prod.fst) hrenews.rows
  simp only [List.map_map, Function.comp_def] at hcolumns hrows
  refine ⟨hcolumns ▸ h.columns, hrows ▸ h.rows, fun c hc => ?_⟩
  obtain ⟨old, hold, hid, _⟩ := hrenews.exists_column hc
  rw [← hid]
  exact h.plain old hold

theorem IsLinked.renew (h : db.IsLinked) (hrenews : Renews db db') : db'.IsLinked := by
  have htable : ∀ {id : String}, db.HasTable id → db'.HasTable id := fun hid => by
    rwa [HasTable, hrenews.tables]
  refine ⟨?_, fun c hc => ?_, fun v hv => ?_, fun r hr => ?_, fun j hj => ?_,
    fun r hr key hkey => ?_⟩
  · rw [hrenews.tables, hrenews.bases]
    exact h.base
  · obtain ⟨old, hold, _, ht⟩ := hrenews.exists_column hc
    rw [← ht]
    exact htable (h.column old hold)
  · rw [hrenews.views] at hv
    exact htable (h.view v hv)
  · obtain ⟨old, hold, _, ht, _⟩ := hrenews.exists_row hr
    rw [← ht]
    exact htable (h.row old hold)
  · rw [hrenews.jobs] at hj
    exact htable (h.job j hj)
  · obtain ⟨old, hold, _, ht, hkeys⟩ := hrenews.exists_row hr
    rw [← hkeys] at hkey
    obtain ⟨c, hc, hid, hct⟩ := h.key old hold key hkey
    obtain ⟨c', hc', hid', hct'⟩ := hrenews.symm.exists_column hc
    exact ⟨c', hc', hid'.trans hid, hct'.trans (hct.trans ht)⟩

/-- However a call to change a column goes, no record and no cell comes or goes. -/
theorem renews_of_updates {actor id : String} {name type order : Value} {r : Except Failure Column}
    (hkeyed : db.IsKeyed) (h : Workspace.Updates now actor id name type order db r db') :
    Renews db db' := by
  cases h with
  | absent | unread | rejected | stuck => exact .refl db
  | edited hown _ h =>
    obtain ⟨hid, htable, _⟩ := Catalog.fields_of_editedColumn h
    exact renews_withColumn hkeyed (Catalog.mem_of_ownColumn hown).1 hid htable
  | halfDone => exact renews_retypedRows now _ id
  | @retyped c c' hown _ _ h =>
    obtain ⟨hid, htable, _⟩ := Catalog.fields_of_editedColumn h
    have hrows : Renews db _ := renews_retypedRows now c.table id
    have hc := (Catalog.mem_of_ownColumn hown).1
    exact hrows.trans (renews_withColumn (hkeyed.renew hrows) hc hid htable)

end Database

open Database

/-- What holds of an empty database and is kept by every step that is allowed, given that records
are linked and keyed, holds of every database that comes about, and so do these. -/
theorem Reached.induct_linked {allowed : Operation → Database → Prop} {P : Database → Prop}
    {w : World} (h : Reached allowed w) (hempty : P .empty)
    (hchange : ∀ {db db' : Database}, db.IsLinked → db.IsKeyed → P db → db.Change db' → P db')
    (hdelete : ∀ {db : Database} {now : Moment} {actor id : String} {c : Column}, db.IsLinked →
      db.IsKeyed → P db → allowed (.deleteColumn actor id) db →
        Catalog.ownColumn actor id db = .ok c → P (db.withoutColumn now c))
    (hupdate : ∀ {db db' : Database} {now : Moment} {actor id : String} {name type order : Value}
      {r : Except Failure Column}, db.IsLinked → db.IsKeyed → P db →
        allowed (.updateColumn actor id name type order) db →
          Workspace.Updates now actor id name type order db r db' → P db') :
    ∃ db, w.storage = .ready db ∧ P db ∧ db.IsLinked ∧ db.IsKeyed := by
  refine @Reached.induct allowed (fun db => P db ∧ db.IsLinked ∧ db.IsKeyed) w h
    ⟨hempty, isLinked_empty, isKeyed_empty⟩ (fun ⟨hP, hlinked, hkeyed⟩ hstep => ?_)
    (fun ⟨hP, hlinked, hkeyed⟩ hallowed hown => ?_)
    fun ⟨hP, hlinked, hkeyed⟩ hallowed hupdates => ?_
  · exact ⟨hchange hlinked hkeyed hP hstep, hlinked.change hkeyed hstep, hkeyed.change hstep⟩
  · exact ⟨hdelete hlinked hkeyed hP hallowed hown, hlinked.withoutColumn hkeyed
      (Catalog.mem_of_ownColumn hown).1, hkeyed.withoutColumn _ _⟩
  · have hrenews := renews_of_updates hkeyed hupdates
    exact ⟨hupdate hlinked hkeyed hP hallowed hupdates, hlinked.renew hrenews,
      hkeyed.renew hrenews⟩

/-- Whatever comes about, records are linked and keyed. -/
theorem isLinked_of_reached {allowed : Operation → Database → Prop} {w : World}
    (h : Reached allowed w) : ∃ db, w.storage = .ready db ∧ db.IsLinked ∧ db.IsKeyed := by
  obtain ⟨db, hw, -, hboth⟩ := @Reached.induct_linked _ (fun _ => True) w h trivial
    (fun _ _ _ _ => trivial) (fun _ _ _ _ _ => trivial) fun _ _ _ _ _ => trivial
  exact ⟨db, hw, hboth⟩

/-! ## A table that is deleted -/

/-- After a table is gone : nothing of it is left, and everything else is as it was. -/
structure Database.Forgets (table : String) (db db' : Database) : Prop where
  gone : ¬ db'.HasTable table
  column : ∀ c ∈ db'.columns, c.table ≠ table
  view : ∀ v ∈ db'.views, v.table ≠ table
  row : ∀ r ∈ db'.rows, r.table ≠ table
  job : ∀ j ∈ db'.jobs, j.table ≠ table
  bases : db'.bases = db.bases
  otherTables : ∀ other, other ≠ table →
    db'.tables.filter (fun t => t.id == other) = db.tables.filter fun t => t.id == other
  otherColumns : ∀ other, other ≠ table →
    db'.columns.filter (fun c => c.table == other) = db.columns.filter fun c => c.table == other
  otherViews : ∀ other, other ≠ table →
    db'.views.filter (fun v => v.table == other) = db.views.filter fun v => v.table == other
  otherRows : ∀ other, other ≠ table → db'.rows.ofTable other = db.rows.ofTable other
  otherJobs : ∀ other, other ≠ table →
    db'.jobs.filter (fun j => j.table == other) = db.jobs.filter fun j => j.table == other

theorem filter_filter_ne {α : Type} {table other : String} (h : other ≠ table) (f : α → String)
    (xs : List α) :
    (xs.filter fun x => f x != table).filter (fun x => f x == other) =
      xs.filter fun x => f x == other := by
  rw [List.filter_filter]
  refine List.filter_congr fun x _ => ?_
  rw [Bool.eq_iff_iff, Bool.and_eq_true_iff, beq_iff_eq, bne_iff_ne]
  exact ⟨fun hboth => hboth.1, fun hx => ⟨hx, hx ▸ h⟩⟩

theorem forgets_withoutTable (table : String) (db : Database) :
    Database.Forgets table db (Workspace.withoutTable table db) := by
  have hne : ∀ {α : Type} {f : α → String} {xs : List α} {x : α},
      x ∈ xs.filter (fun x => f x != table) → f x ≠ table := fun h => by
    simpa using (List.mem_filter.mp h).2
  exact {
    gone := fun ⟨t, ht, hid⟩ => hne ht hid
    column := fun c hc => hne hc
    view := fun v hv => hne hv
    row := fun r hr => hne hr
    job := fun j hj => hne hj
    bases := rfl
    otherTables := fun other h => filter_filter_ne h Table.id db.tables
    otherColumns := fun other h => filter_filter_ne h Column.table db.columns
    otherViews := fun other h => filter_filter_ne h View.table db.views
    otherRows := fun other h => filter_filter_ne h Row.table db.rows
    otherJobs := fun other h => filter_filter_ne h Job.table db.jobs }

/-- Integrity. Whatever comes about from an empty database, by operations and by runs that
succeed, fail or are stopped, the references between records lead somewhere and the key of every
cell is a column of the table of its row. Once a table is deleted nothing of it is left, and
everything else is as it was. -/
theorem integrity {w : World} (h : Reached (fun _ _ => True) w) :
    ∃ db, w.storage = .ready db ∧ db.IsLinked ∧
      ∀ (s : Surroundings) (actor table : String) (w' : World),
        Workspace.deleteTable actor table s w = (.ok (), w') →
          ∃ db', w'.storage = .ready db' ∧ Database.Forgets table db db' := by
  obtain ⟨db, hw, hlinked, _⟩ := isLinked_of_reached h
  refine ⟨db, hw, hlinked, fun s actor table w' hrun => ?_⟩
  obtain ⟨t, _, hrun⟩ := Action.ok_of_query_bind hw hrun
  rw [Action.run_transaction_ok hw rfl] at hrun
  obtain ⟨_, rfl⟩ := Prod.mk.inj hrun
  exact ⟨_, rfl, forgets_withoutTable table db⟩

/-- A table is made with its columns and rows, and deleted with them. -/
theorem integrity_of_isNew : ∃ w db t s w' db',
    Reached (fun _ _ => True) w ∧ w.storage = .ready db ∧ db.IsNew t ∧ db.IsLinked ∧
      Workspace.deleteTable "u" t.id s w = (.ok (), w') ∧ w'.storage = .ready db' ∧
        Database.Forgets t.id db db' := by
  obtain ⟨w, db, t, h, hw, hnew⟩ := @exists_isNew (fun _ _ => True) fun _ _ _ => trivial
  obtain ⟨s, _⟩ := exists_isFresh w
  have hrun : Workspace.deleteTable "u" t.id s w =
      (.ok (), w.withDatabase (Workspace.withoutTable t.id db)) := by
    rw [Workspace.deleteTable, Catalog.ensureOwner, Action.run_query_bind hw hnew.owned]
    exact Action.run_transaction_ok hw rfl
  obtain ⟨db₀, hw₀, hlinked, hforgets⟩ := integrity h
  obtain rfl := Storage.ready.inj (hw₀.symm.trans hw)
  obtain ⟨db', hdb', hgone⟩ := hforgets s "u" t.id _ hrun
  exact ⟨w, db₀, t, s, _, db', h, hw, hnew, hlinked, hrun, hdb', hgone⟩

end Tabula
