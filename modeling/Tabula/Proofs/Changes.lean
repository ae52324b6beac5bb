import Tabula.Ingest.Request
import Tabula.Proofs.Ingesting
import Tabula.Proofs.StoredCells
import Tabula.Proofs.StoredViews

/-!
# Changes of the database

All that the service does to a database, apart from deleting and changing columns, is a sequence
of a few kinds of change (`Database.Change`). Each kind says what the later proofs need to know of
it : which table a record belongs to, that cells conform to the columns of their table, that a
column has an id that no other has, that a view compiles or was there before.

One lemma for each operation, `leaves_createBase` to `leaves_updateView`, says that it leaves a
database that such changes lead to, also when it fails half way. New ids are new because the
surroundings make fresh tokens (`Surroundings.IsFresh`).
-/

namespace Tabula

open Store

/-- What is found by its id. -/
theorem mem_of_find?_eq_some {α : Type} {f : α → String} {xs : List α} {id : String} {x : α}
    (h : xs.find? (fun x => f x == id) = some x) : x ∈ xs ∧ f x = id :=
  ⟨List.mem_of_find?_eq_some h, by simpa using List.find?_some h⟩

namespace Catalog

variable {db : Database} {table actor id : String}

theorem mem_columnsOf {c : Column} : c ∈ columnsOf table db ↔ c ∈ db.columns ∧ c.table = table := by
  rw [columnsOf, List.mem_mergeSort, List.mem_filter, beq_iff_eq]

theorem mem_typesOf {column : String} {type : ColumnType} :
    (column, type) ∈ typesOf table db ↔
      ∃ c ∈ db.columns, c.table = table ∧ c.id = column ∧ c.type = type := by
  rw [typesOf, List.mem_map]
  constructor
  · rintro ⟨c, hc, heq⟩
    obtain ⟨rfl, rfl⟩ := Prod.mk.inj heq
    exact ⟨c, (mem_columnsOf.mp hc).1, (mem_columnsOf.mp hc).2, rfl, rfl⟩
  · rintro ⟨c, hc, ht, rfl, rfl⟩
    exact ⟨c, mem_columnsOf.mpr ⟨hc, ht⟩, rfl⟩

theorem mem_of_findBase {b : Base} (h : findBase id db = .ok b) : b ∈ db.bases ∧ b.id = id := by
  rw [findBase] at h
  split at h
  · rename_i hfind
    rw [← Except.ok.inj h]
    exact mem_of_find?_eq_some hfind
  · cases h

theorem mem_of_findTable {t : Table} (h : findTable id db = .ok t) : t ∈ db.tables ∧ t.id = id := by
  rw [findTable] at h
  split at h
  · rename_i hfind
    rw [← Except.ok.inj h]
    exact mem_of_find?_eq_some hfind
  · cases h

theorem mem_of_findView {v : View} (h : findView id db = .ok v) : v ∈ db.views ∧ v.id = id := by
  rw [findView] at h
  split at h
  · rename_i hfind
    rw [← Except.ok.inj h]
    exact mem_of_find?_eq_some hfind
  · cases h

end Catalog

/-- There is a table with this id. -/
def Database.HasTable (db : Database) (id : String) : Prop := ∃ t ∈ db.tables, t.id = id

theorem Catalog.hasTable_of_owned {db : Database} {actor id : String} {t : Table}
    (h : ownedTable actor id db = .ok t) : db.HasTable id := by
  obtain ⟨t', ht', _⟩ := ok_of_bind h
  exact ⟨t', mem_of_findTable ht'⟩

theorem RowStore.mem_of_find {db : Database} {id : String} {r : Row} (h : find id db = .ok r) :
    r ∈ db.rows ∧ r.id = id := by
  rw [find] at h
  split at h
  · rename_i hfind
    rw [← Except.ok.inj h]
    exact mem_of_find?_eq_some hfind
  · cases h

theorem RowStore.eq_of_appended {now : Moment} {table : String} {es : Batch} {db db' : Database}
    {n : Nat} (h : appended now table es db = .ok (n, db')) :
    db' = db.withRows (Rows.append now table es db.rows).1 ∧
      n = (Rows.append now table es db.rows).2 := by
  rw [appended] at h
  split at h
  · obtain ⟨hn, hdb⟩ := Prod.mk.inj (Except.ok.inj h)
    exact ⟨hdb.symm, hn.symm⟩
  · cases h

/-! ## Changes -/

/-- A view that a database may come to have : it is a view of a table that is there, and its
filter and its sort were there in a view of that table, or compile. -/
structure View.Follows (db : Database) (v : View) : Prop where
  table : db.HasTable v.table ∨ ∃ old ∈ db.views, old.table = v.table
  filter : (∃ old ∈ db.views, old.table = v.table ∧ old.filter = v.filter) ∨
    Query.FilterCompiles (Catalog.typesOf v.table db) (Workspace.orNull v.filter)
  sort : (∃ old ∈ db.views, old.table = v.table ∧ old.sort = v.sort) ∨
    Query.SortCompiles (Catalog.typesOf v.table db) (Workspace.orNull v.sort)

theorem View.follows_of_mem {db : Database} {v : View} (h : v ∈ db.views) : v.Follows db :=
  ⟨.inr ⟨v, h, rfl⟩, .inl ⟨v, h, rfl, rfl⟩, .inl ⟨v, h, rfl, rfl⟩⟩

/-- One change of a database that does not take anything from a column. -/
inductive Database.Change (db : Database) : Database → Prop where
  | base (b : Base) : Change db { db with bases := db.bases ++ [b] }
  | table {t : Table} {columns : List Column} {rows : Rows} (hbase : ∃ b ∈ db.bases, b.id = t.base)
      (hcolumns : ∀ c ∈ columns, c.table = t.id ∧ IsPlain c.id)
      (hnodup : (columns.map Column.id).Nodup)
      (hnew : ∀ c ∈ columns, ∀ old ∈ db.columns, old.id ≠ c.id)
      (hrows : Rows.Grow t.id (columns.map fun c => (c.id, c.type)) db.rows rows) :
      Change db
        { db with tables := db.tables ++ [t], columns := db.columns ++ columns, rows := rows }
  | column {c : Column} (htable : db.HasTable c.table) (hplain : IsPlain c.id)
      (hnew : ∀ old ∈ db.columns, old.id ≠ c.id) :
      Change db { db with columns := db.columns ++ [c] }
  | ingested {table : String} {db' : Database}
      (htable : db.HasTable table ∨ ∃ j ∈ db.jobs, j.table = table)
      (h : Ingested table (Catalog.typesOf table db) db db') : Change db db'
  | job {j : Job} (htable : db.HasTable j.table) : Change db (db.withJobs (db.jobs ++ [j]))
  | cell {r : Row} {column : String} {type : ColumnType} {payload : Payload} (now : Moment)
      (hr : r ∈ db.rows) (hcolumn : (column, type) ∈ Catalog.typesOf r.table db)
      (hcells : ∀ key v, payload.cells.get? key = some v → key = column ∧ type.Admits v ∨
        ∃ old, r.payload.cells.get? key = some old ∧ (v = old ∨ v = old.stored)) :
      Change db (db.withRows (Rows.write now r.id payload db.rows))
  | rowErased (id : String) : Change db (db.withRows (Rows.erase id db.rows))
  | views {views : List View} (h : ∀ v ∈ views, v.Follows db) : Change db { db with views := views }
  | tableDropped (id : String) : Change db (Workspace.withoutTable id db)

/-- Any number of changes. -/
abbrev Database.Changes := Relation.ReflTransGen Database.Change

open Database

theorem Worker.changes_of_pending {db db' : Database} (h : Pending db db') : Changes db db' := by
  induction h with
  | refl => exact .refl
  | tail _ hworks ih =>
    rcases hworks with rfl | ⟨j, hj, hingested⟩
    · exact ih
    · exact ih.tail (.ingested (.inr ⟨j, hj, rfl⟩) hingested)

/-! ## New ids -/

/-- Ids that are made from here on are made of plain tokens, no two of which are equal, and no
column has one of them. -/
structure Surroundings.IsFresh (s : Surroundings) (w : World) : Prop where
  plain : ∀ k, IsPlain (s.token k)
  distinct : ∀ j k, w.tokens < j → w.tokens < k → s.token j = s.token k → j = k
  new : ∀ db, w.storage = .ready db → ∀ k, w.tokens < k →
    ∀ c ∈ db.columns, c.id ≠ "col" ++ "_" ++ s.token k

variable {s : Surroundings} {w w' : World} {db : Database} {actor id : String}

theorem Surroundings.IsFresh.mono (h : s.IsFresh w) (hstorage : w'.storage = w.storage)
    (htokens : w.tokens ≤ w'.tokens) : s.IsFresh w' where
  plain := h.plain
  distinct := fun j k hj hk => h.distinct j k (by omega) (by omega)
  new := fun db hw k hk => h.new db (by rw [← hstorage, hw]) k (by omega)

theorem Surroundings.IsFresh.isPlain (h : s.IsFresh w) (k : Nat) :
    IsPlain ("col" ++ "_" ++ s.token k) := by
  intro c hc
  rw [String.toList_append, List.mem_append] at hc
  exact hc.elim (fun hc => (show IsPlain ("col" ++ "_") by decide) c hc) (h.plain k c)

theorem Surroundings.IsFresh.nodup (h : s.IsFresh w) {j : Nat} (hj : w.tokens < j) (n : Nat) :
    ((List.range' j n).map fun k => "col" ++ "_" ++ s.token k).Nodup := by
  refine List.Nodup.map_on (fun a ha b hb hab => ?_) (List.nodup_range' (h := by decide))
  rw [List.mem_range'_1] at ha hb
  refine h.distinct a b (by omega) (by omega) ?_
  exact String.append_right_inj _ |>.mp hab

namespace Workspace

open Tabula.Action

/-! ## Bases and tables -/

theorem leaves_createBase (hw : w.storage = .ready db) (owner : Option String) (name : Value) :
    Leaves (Changes db) (createBase owner name) s w := by
  refine leaves_map ?_
  refine leaves_lift_bind hw .refl fun name _ => ?_
  refine (isQuiet_newId _).leaves_bind hw .refl fun id w₁ _ hw₁ => ?_
  refine isQuiet_now.leaves_bind hw₁ .refl fun now w₂ _ hw₂ => ?_
  refine leaves_transaction hw₂ .refl fun b db' h => ?_
  obtain ⟨o, _, h⟩ := ok_of_bind h
  obtain ⟨_, rfl⟩ := Prod.mk.inj (Except.ok.inj h)
  exact .single (.base _)

theorem columns_of_newColumns {table : String} :
    ∀ {n k : Nat} {w w' : World} {columns : List Column},
      newColumns table k n s w = (.ok columns, w') →
        w'.storage = w.storage ∧ (∀ c ∈ columns, c.table = table ∧ c.type = .text) ∧
          columns.map Column.id =
            (List.range' (w.tokens + 1) n).map fun k => "col" ++ "_" ++ s.token k
  | 0, k, w, w', columns, h => by
    obtain ⟨hcolumns, rfl⟩ := Prod.mk.inj h
    obtain rfl := Except.ok.inj hcolumns
    simp
  | n + 1, k, w, w', columns, h => by
    obtain ⟨id, w₁, hid, h⟩ := ok_of_run_bind h
    obtain ⟨now, w₂, hnow, h⟩ := ok_of_run_bind h
    obtain ⟨rest, w₃, hrest, h⟩ := ok_of_run_bind h
    obtain ⟨hcolumns, rfl⟩ := Prod.mk.inj h
    obtain rfl := Except.ok.inj hcolumns
    obtain ⟨hnew, rfl⟩ := Prod.mk.inj hid
    obtain rfl := Except.ok.inj hnew
    obtain ⟨_, rfl⟩ := Prod.mk.inj hnow
    obtain ⟨hstorage, htable, hids⟩ := columns_of_newColumns hrest
    refine ⟨hstorage, fun c hc => ?_, ?_⟩
    · rcases List.mem_cons.mp hc with rfl | hc
      · exact ⟨rfl, rfl⟩
      · exact htable c hc
    · rw [List.map_cons, hids, List.range'_succ, List.map_cons]

theorem exists_token_of_newColumns {table : String} {n k : Nat} {columns : List Column}
    (h : newColumns table k n s w = (.ok columns, w')) :
    ∀ c ∈ columns, ∃ j, w.tokens < j ∧ c.id = "col" ++ "_" ++ s.token j := by
  intro c hc
  have hmem : c.id ∈ columns.map Column.id := List.mem_map_of_mem hc
  rw [(columns_of_newColumns h).2.2] at hmem
  obtain ⟨j, hj, hid⟩ := List.mem_map.mp hmem
  rw [List.mem_range'_1] at hj
  exact ⟨j, by omega, hid.symm⟩

theorem isQuiet_newColumns (table : String) : ∀ n k, IsQuiet (newColumns table k n)
  | 0, _ => isQuiet_pure _
  | n + 1, k => isQuiet_bind (isQuiet_newId _) fun _ => isQuiet_bind isQuiet_now fun _ =>
      isQuiet_bind (isQuiet_newColumns table n (k + 1)) fun _ => isQuiet_pure _

theorem isQuiet_sampleRow : ∀ columns, IsQuiet (sampleRow columns)
  | [] => isQuiet_pure _
  | _ :: columns => isQuiet_bind (isQuiet_ending 6) fun _ =>
      isQuiet_bind (isQuiet_sampleRow columns) fun _ => isQuiet_pure _

theorem isQuiet_sampleData (columns : List Column) : ∀ n, IsQuiet (sampleData columns n)
  | 0 => isQuiet_pure _
  | n + 1 => isQuiet_bind (isQuiet_sampleRow columns) fun _ =>
      isQuiet_bind (isQuiet_sampleData columns n) fun _ => isQuiet_pure _

theorem isQuiet_looseBatch (batch start : Int) (rows : List Value) :
    IsQuiet (looseBatch batch start rows) :=
  isQuiet_bind isQuiet_stamp fun _ => isQuiet_bind (isQuiet_endings _) fun _ => isQuiet_lift _

/-- Each cell of a sample row is a text under one of the columns. -/
theorem texts_of_sampleRow :
    ∀ {columns : List Column} {w w' : World} {cells : Cells},
      sampleRow columns s w = (.ok cells, w') →
        ∀ e ∈ cells, ∃ c ∈ columns, ∃ t, e = (c.id, .text t)
  | [], w, w', cells, h => by
    obtain rfl := Except.ok.inj (Prod.mk.inj h).1
    simp
  | c :: columns, w, w', cells, h => by
    obtain ⟨ending, w₁, _, h⟩ := ok_of_run_bind h
    obtain ⟨rest, w₂, hrest, h⟩ := ok_of_run_bind h
    obtain rfl := Except.ok.inj (Prod.mk.inj h).1
    intro e he
    rcases List.mem_cons.mp he with rfl | he
    · exact ⟨c, List.mem_cons_self, _, rfl⟩
    · obtain ⟨c', hc', t, ht⟩ := texts_of_sampleRow hrest e he
      exact ⟨c', List.mem_cons_of_mem c hc', t, ht⟩

theorem texts_of_sampleData {columns : List Column} :
    ∀ {n : Nat} {w w' : World} {rows : List Cells}, sampleData columns n s w = (.ok rows, w') →
      ∀ cells ∈ rows, ∀ e ∈ cells, ∃ c ∈ columns, ∃ t, e = (c.id, .text t)
  | 0, w, w', rows, h => by
    obtain rfl := Except.ok.inj (Prod.mk.inj h).1
    simp
  | n + 1, w, w', rows, h => by
    obtain ⟨row, w₁, hrow, h⟩ := ok_of_run_bind h
    obtain ⟨rest, w₂, hrest, h⟩ := ok_of_run_bind h
    obtain rfl := Except.ok.inj (Prod.mk.inj h).1
    intro cells hcells
    rcases List.mem_cons.mp hcells with rfl | hcells
    · exact texts_of_sampleRow hrow
    · exact texts_of_sampleData hrest cells hcells

theorem conform_of_texts {columns : List Column} (htext : ∀ c ∈ columns, c.type = .text)
    {cells : Cells} (h : ∀ e ∈ cells, ∃ c ∈ columns, ∃ t, e = (c.id, .text t)) :
    cells.Conform (columns.map fun c => (c.id, c.type)) := by
  refine Cells.conform_of_forall fun e he => ?_
  obtain ⟨c, hc, t, rfl⟩ := h e he
  refine ⟨c.type, List.mem_map.mpr ⟨c, hc, rfl⟩, ?_⟩
  rw [htext c hc]
  trivial

/-- The payloads of a loose batch are the rows that are given. -/
theorem mem_of_looseBatch {batch start : Int} {rows : List Cells} {es : Batch}
    (h : looseBatch batch start (rows.map .object) s w = (.ok es, w')) :
    ∀ e ∈ es, e.payload.cells ∈ rows := by
  obtain ⟨_, w₁, _, h⟩ := ok_of_run_bind h
  obtain ⟨_, w₂, _, h⟩ := ok_of_run_bind h
  intro e he
  obtain ⟨v, hv, hcells⟩ := Batch.exists_of_mem_encodeFrom (Prod.mk.inj h).1 e he
  obtain ⟨cells, hmem, rfl⟩ := List.mem_map.mp hv
  rwa [Batch.eq_of_cellsOf_object hcells]

theorem isQuiet_ensureBaseOwner (actor id : String) :
    IsQuiet (Catalog.ensureBaseOwner actor id) := by
  refine isQuiet_bind (isQuiet_query _) fun b => ?_
  dsimp only
  split
  · exact isQuiet_throw _
  · exact isQuiet_pure _

theorem base_of_ensureBaseOwner {b : Base} (hw : w.storage = .ready db)
    (h : Catalog.ensureBaseOwner actor id s w = (.ok b, w')) :
    (b ∈ db.bases ∧ b.id = id) ∧ w = w' := by
  obtain ⟨b', hfind, h⟩ := ok_of_query_bind hw h
  dsimp only at h
  split at h
  · cases h
  · obtain ⟨hb, rfl⟩ := Prod.mk.inj h
    rw [← Except.ok.inj hb]
    exact ⟨Catalog.mem_of_findBase hfind, rfl⟩

/-- A table is made with its columns and sample rows, which are texts. -/
theorem leaves_createTable (hw : w.storage = .ready db) (hfresh : s.IsFresh w) (actor base : String)
    (name : Value) : Leaves (Changes db) (createTable actor base name) s w := by
  refine leaves_bind ((isQuiet_ensureBaseOwner actor base).leaves hw .refl) fun b w₁ hbase => ?_
  obtain ⟨hfound, rfl⟩ := base_of_ensureBaseOwner hw hbase
  refine leaves_lift_bind hw .refl fun name _ => ?_
  refine leaves_bind ((isQuiet_newId "tbl").leaves hw .refl) fun id w₂ hid => ?_
  have hfresh₂ : s.IsFresh w₂ := hfresh.mono ((isQuiet_newId "tbl").storage_eq hid)
    (by rw [← (Prod.mk.inj hid).2]; exact Nat.le_succ _)
  have hw₂ := ((isQuiet_newId "tbl").storage_eq hid).trans hw
  refine leaves_bind (isQuiet_now.leaves hw₂ .refl) fun now w₃ hnow => ?_
  obtain ⟨_, rfl⟩ := Prod.mk.inj hnow
  refine (isQuiet_newColumns id _ _).leaves_bind hw₂ .refl fun columns w₄ hcolumns hw₄ => ?_
  obtain ⟨_, htext, hids⟩ := columns_of_newColumns hcolumns
  refine (isQuiet_sampleData _ _).leaves_bind hw₄ .refl fun rows w₅ hrows hw₅ => ?_
  refine (isQuiet_looseBatch _ _ _).leaves_bind hw₅ .refl fun es w₆ hes hw₆ => ?_
  have hconform : ∀ e ∈ es, e.payload.cells.Conform (columns.map fun c => (c.id, c.type)) :=
    fun e he => conform_of_texts (fun c hc => (htext c hc).2)
      (texts_of_sampleData hrows _ (mem_of_looseBatch hes e he))
  refine leaves_map (leaves_transaction hw₆ .refl fun a db' h => ?_)
  obtain ⟨⟨n, db₁⟩, happended, h⟩ := ok_of_bind h
  obtain ⟨_, rfl⟩ := Prod.mk.inj (Except.ok.inj h)
  obtain ⟨rfl, _⟩ := RowStore.eq_of_appended happended
  -- The ids come from tokens that were not used before, each from one of its own.
  have hnewIds := exists_token_of_newColumns hcolumns
  refine .single (.table ⟨b, hfound⟩ (fun c hc => ⟨(htext c hc).1, ?_⟩) ?_ ?_ ?_)
  · obtain ⟨k, _, hk⟩ := hnewIds c hc
    rw [hk]
    exact hfresh₂.isPlain k
  · rw [hids]
    exact hfresh₂.nodup (Nat.lt_succ_self _) _
  · intro c hc old hold
    obtain ⟨k, hlt, hk⟩ := hnewIds c hc
    rw [hk]
    exact hfresh₂.new db hw₂ k hlt old hold
  · exact Rows.grow_append now id es db.rows hconform

theorem leaves_deleteTable (hw : w.storage = .ready db) (actor id : String) :
    Leaves (Changes db) (deleteTable actor id) s w := by
  refine leaves_query_bind hw .refl fun t _ => ?_
  refine leaves_transaction hw .refl fun _ db' h => ?_
  obtain ⟨_, rfl⟩ := Prod.mk.inj (Except.ok.inj h)
  exact .single (.tableDropped id)

/-! ## Columns -/

theorem leaves_createColumn (hw : w.storage = .ready db) (hfresh : s.IsFresh w) {table : String}
    (htable : db.HasTable table) (name type order : Value) :
    Leaves (Changes db) (Catalog.createColumn (some table) name type order) s w := by
  unfold Catalog.createColumn
  split
  · exact (isQuiet_throw _).leaves hw .refl
  refine leaves_lift_bind hw .refl fun name _ => ?_
  refine leaves_lift_bind hw .refl fun order _ => ?_
  refine leaves_bind ((isQuiet_newId "col").leaves hw .refl) fun id w₁ hid => ?_
  have hw₁ := ((isQuiet_newId "col").storage_eq hid).trans hw
  obtain ⟨hid', hworld⟩ := Prod.mk.inj hid
  refine leaves_lift_bind hw₁ .refl fun type _ => ?_
  refine isQuiet_now.leaves_bind hw₁ .refl fun now w₂ _ hw₂ => ?_
  refine leaves_transaction hw₂ .refl fun c db' h => ?_
  obtain ⟨order, _, h⟩ := ok_of_bind h
  obtain ⟨table', htable', h⟩ := ok_of_bind h
  obtain ⟨_, rfl⟩ := Prod.mk.inj (Except.ok.inj h)
  obtain rfl := Except.ok.inj htable'
  obtain rfl := Except.ok.inj hid'
  exact .single (.column htable (hfresh.isPlain _)
    fun old hold => hfresh.new db hw _ (Nat.lt_succ_self _) old hold)

theorem leaves_addColumn (hw : w.storage = .ready db) (hfresh : s.IsFresh w) (actor table : String)
    (name type order : Value) :
    Leaves (Changes db) (addColumn actor table name type order) s w := by
  refine leaves_query_bind hw .refl fun t ht => ?_
  have hmade := fun order => leaves_map (f := Column.toValue) (leaves_createColumn hw hfresh
    (Catalog.hasTable_of_owned ht) name type order)
  dsimp only
  split
  · refine leaves_query_bind hw .refl fun columns _ => ?_
    exact hmade _
  · exact hmade order

/-! ## Rows -/

theorem isQuiet_listRows (settings : Settings) (actor table : String)
    (filter sort limit offset : Value) :
    IsQuiet (listRows settings actor table filter sort limit offset) :=
  isQuiet_bind (isQuiet_query _) fun _ => isQuiet_bind (isQuiet_lift _) fun _ =>
    isQuiet_bind (isQuiet_bind (isQuiet_query _) fun _ => isQuiet_pure _) fun _ =>
      isQuiet_bind (isQuiet_lift _) fun _ =>
        isQuiet_bind (isQuiet_rowStore _ (isQuiet_query _)) fun _ => isQuiet_pure _

theorem isQuiet_countRows (actor table : String) (filter : Value) :
    IsQuiet (countRows actor table filter) :=
  isQuiet_bind (isQuiet_query _) fun _ =>
    isQuiet_bind (isQuiet_bind (isQuiet_query _) fun _ => isQuiet_pure _) fun _ =>
      isQuiet_bind (isQuiet_lift _) fun _ => isQuiet_rowStore _ (isQuiet_query _)

theorem isQuiet_search (settings : Settings) (actor : String) (text limit : Value) :
    IsQuiet (search settings actor text limit) := by
  unfold search
  split
  · split
    · exact isQuiet_throw _
    · refine isQuiet_bind (isQuiet_lift _) fun page => ?_
      refine isQuiet_bind (isQuiet_query _) fun tables => ?_
      refine isQuiet_bind ?_ fun rows => isQuiet_pure _
      unfold RowStore.search
      exact isQuiet_ite (isQuiet_pure _) (isQuiet_rowStore _ (isQuiet_query _))
  · exact isQuiet_throw _

theorem mem_of_lookup {types : List (String × ColumnType)} {column : String} {type : ColumnType}
    (h : types.lookup column = some type) : (column, type) ∈ types := by
  obtain ⟨front, back, rfl, _⟩ := List.lookup_eq_some_iff.mp h
  exact List.mem_append_right _ List.mem_cons_self

/-- What is stored for a cell belongs under its column. -/
theorem admits_of_coerceCell {types : List (String × ColumnType)} {column value : Value}
    {cell : String × Value} (h : coerceCell types column value = .ok cell) :
    ∃ type, (cell.1, type) ∈ types ∧ type.Admits cell.2 := by
  cases column with
  | text id =>
    rw [coerceCell] at h
    split at h
    · rename_i type htype
      obtain ⟨v, hv, h⟩ := ok_of_bind h
      obtain rfl := Except.ok.inj h
      exact ⟨type, mem_of_lookup htype, ColumnType.admits_of_coerce hv⟩
    · cases h
  | _ => cases h

theorem admits_of_coerceCells {types : List (String × ColumnType)} :
    ∀ {es : List (Value × Value)} {cells : Cells}, coerceCells types es = .ok cells →
      ∀ e ∈ cells, ∃ type, (e.1, type) ∈ types ∧ type.Admits e.2
  | [], cells, h => by
    obtain rfl := Except.ok.inj h
    simp
  | (column, value) :: es, cells, h => by
    obtain ⟨cell, hcell, h⟩ := ok_of_bind h
    obtain ⟨rest, hrest, h⟩ := ok_of_bind h
    obtain rfl := Except.ok.inj h
    intro e he
    rcases List.mem_cons.mp he with rfl | he
    · exact admits_of_coerceCell hcell
    · exact admits_of_coerceCells hrest e he

theorem conform_of_prepareRows {types : List (String × ColumnType)} :
    ∀ {vs : List Value} {i : Nat} {rows : List Cells}, prepareRows types i vs = .ok rows →
      ∀ cells ∈ rows, cells.Conform types
  | [], i, rows, h => by
    obtain rfl := Except.ok.inj h
    simp
  | v :: vs, i, rows, h => by
    cases v with
    | dict es =>
      obtain ⟨row, hrow, h⟩ := ok_of_bind h
      obtain ⟨rest, hrest, h⟩ := ok_of_bind h
      obtain rfl := Except.ok.inj h
      intro cells hcells
      rcases List.mem_cons.mp hcells with rfl | hcells
      · exact Cells.conform_of_forall (admits_of_coerceCells hrow)
      · exact conform_of_prepareRows hrest cells hcells
    | _ => cases h

theorem mem_of_mem_chunksFrom {α : Type} {size : Nat} {x : α} :
    ∀ {fuel : Nat} {xs chunk : List α}, chunk ∈ chunksFrom size fuel xs → x ∈ chunk → x ∈ xs
  | 0, xs, chunk, h, _ => by simp [chunksFrom] at h
  | _ + 1, [], chunk, h, _ => by simp [chunksFrom] at h
  | fuel + 1, y :: ys, chunk, h, hx => by
    simp only [chunksFrom] at h
    rcases List.mem_cons.mp h with rfl | h
    · exact List.mem_of_mem_take hx
    · exact List.mem_of_mem_drop (mem_of_mem_chunksFrom h hx)

theorem mem_of_mem_chunks {α : Type} {size : Int} {xs : List α} {chunks : List (List α)}
    (h : chunks? size xs = some chunks) : ∀ chunk ∈ chunks, ∀ x ∈ chunk, x ∈ xs := by
  rw [chunks?] at h
  split at h
  · cases h
  · split at h
    · obtain rfl := Option.some.inj h
      simp
    · obtain rfl := Option.some.inj h
      exact fun chunk hchunk x => mem_of_mem_chunksFrom hchunk

theorem makes_insertChunks (table : String) {types : List (String × ColumnType)} :
    ∀ (chunks : List (List Cells)) (position batch : Int),
      (∀ chunk ∈ chunks, ∀ cells ∈ chunk, cells.Conform types) →
        Makes (Ingested table types) (insertChunks table position batch chunks)
  | [], _, _, _ => (isQuiet_pure 0).makes (.refl table types)
  | chunk :: chunks, position, batch, h => by
    intro s w db hw
    refine (isQuiet_looseBatch _ _ _).leaves_bind hw (.refl _ _ db) fun es w₁ hes hw₁ => ?_
    have hconform : ∀ e ∈ es, e.payload.cells.Conform types := fun e he =>
      h chunk List.mem_cons_self _ (mem_of_looseBatch hes e he)
    have hrest := makes_insertChunks table chunks (position + chunk.length) (batch + 1)
      fun chunk' hchunk' => h chunk' (List.mem_cons_of_mem chunk hchunk')
    exact makes_bind .trans (RowStore.makes_append hconform) (fun n => makes_bind .trans hrest
      fun _ => (isQuiet_pure _).makes (.refl table types)) s w₁ db hw₁

theorem leaves_insertRows (hw : w.storage = .ready db) (settings : Settings) (actor table : String)
    (rows : Value) : Leaves (Changes db) (insertRows settings actor table rows) s w := by
  refine leaves_query_bind hw .refl fun t ht => ?_
  dsimp only
  split
  on_goal 3 => exact (isQuiet_throw _).leaves hw .refl
  -- A list and a tuple of rows are the same to insert.
  all_goals
    refine leaves_query_bind hw .refl fun types htypes => ?_
    refine leaves_lift_bind hw .refl fun prepared hprepared => ?_
    refine leaves_lookup_bind hw .refl fun position _ => ?_
    obtain rfl := Except.ok.inj htypes
    split
    · rename_i chunks hchunks
      have hconform := conform_of_prepareRows hprepared
      refine (makes_insertChunks table chunks position 0 (fun chunk hchunk cells hcells =>
        hconform cells (mem_of_mem_chunks hchunks chunk hchunk cells hcells)) s w db hw).mono ?_
      exact fun db' h => .single (.ingested (.inl (Catalog.hasTable_of_owned ht)) h)
    · exact (isQuiet_throw _).leaves hw .refl

end Workspace

/-! ## Cells that are edited -/

/-- A value that belongs under a column comes back from the store as it is. -/
theorem ColumnType.Admits.stored {type : ColumnType} {v : Value} (h : type.Admits v) :
    v.stored = v := by
  cases v with
  | null | text | int | float => rfl
  | _ => cases type <;> exact h.elim

theorem Cells.get?_map_stored (cells : Cells) (column : String) :
    get? (cells.map fun e => (e.1, e.2.stored)) column = (get? cells column).map Value.stored := by
  induction cells with
  | nil => rfl
  | cons e cells ih =>
    rw [List.map_cons, get?_cons, get?_cons, ih]
    split <;> rfl

/-- What is kept of an edit : a cell is the new one, or the old one, perhaps written anew. -/
theorem RowStore.cells_of_edited {column : String} {value : Value} {old new kept : Payload}
    (h : edited column value old = .ok (new, kept)) {type : ColumnType}
    (hvalue : type.Admits value) :
    ∀ key v, kept.cells.get? key = some v → key = column ∧ type.Admits v ∨
      ∃ before, old.cells.get? key = some before ∧ (v = before ∨ v = before.stored) := by
  intro key v hv
  rw [edited] at h
  split at h
  · rename_i payload hpayload
    obtain ⟨_, rfl⟩ := Prod.mk.inj (Except.ok.inj h)
    split at hv
    · exact .inr ⟨v, hv, .inl rfl⟩
    rw [Payload.edited] at hpayload
    split at hpayload
    · obtain rfl := Except.ok.inj hpayload
      rw [Cells.get?_map_stored] at hv
      by_cases hkey : key = column
      · subst hkey
        rw [Cells.get?_set_self, Option.map_some, hvalue.stored] at hv
        obtain rfl := Option.some.inj hv
        exact .inl ⟨rfl, hvalue⟩
      · rw [Cells.get?_set_of_ne hkey] at hv
        obtain ⟨before, hbefore, rfl⟩ := Option.map_eq_some_iff.mp hv
        exact .inr ⟨before, hbefore, .inr rfl⟩
    · cases hpayload
  · cases h

namespace Workspace

open Tabula.Action

theorem leaves_updateCell (hw : w.storage = .ready db) (actor row : String) (column value : Value) :
    Leaves (Changes db) (updateCell actor row column value) s w := by
  refine leaves_lookup_bind hw .refl fun r hr => ?_
  refine leaves_query_bind hw .refl fun t ht => ?_
  refine leaves_query_bind hw .refl fun types htypes => ?_
  refine leaves_lift_bind hw .refl fun cell hcell => ?_
  obtain rfl := Except.ok.inj htypes
  obtain ⟨type, hcolumn, hvalue⟩ := admits_of_coerceCell hcell
  refine leaves_map ?_
  refine isQuiet_now.leaves_bind hw .refl fun now w₁ _ hw₁ => ?_
  refine leaves_rowStore (leaves_transaction hw₁ .refl fun r' db' h => ?_)
  obtain ⟨r'', hr'', h⟩ := ok_of_bind h
  obtain rfl := Except.ok.inj (hr.symm.trans hr'')
  obtain ⟨⟨new, kept⟩, hedited, h⟩ := ok_of_bind h
  obtain ⟨_, rfl⟩ := Prod.mk.inj (Except.ok.inj h)
  rw [← (RowStore.mem_of_find hr).2]
  exact .single (.cell now (RowStore.mem_of_find hr).1 hcolumn
    (RowStore.cells_of_edited hedited hvalue))

theorem leaves_deleteRow (hw : w.storage = .ready db) (actor row : String) :
    Leaves (Changes db) (deleteRow actor row) s w := by
  refine leaves_lookup_bind hw .refl fun r hr => ?_
  refine leaves_query_bind hw .refl fun t ht => ?_
  refine leaves_rowStore (leaves_transaction hw .refl fun _ db' h => ?_)
  obtain ⟨_, _, h⟩ := ok_of_bind h
  obtain ⟨_, rfl⟩ := Prod.mk.inj (Except.ok.inj h)
  exact .single (.rowErased row)

/-! ## Views -/

/-- What is to be kept of a filter and a sort compiles. -/
theorem compiles_of_keptConfigs {table : String} {filter sort : Value} {kept : Value × Value}
    (hw : w.storage = .ready db) (h : keptConfigs table filter sort s w = (.ok kept, w')) :
    (keptFilter filter = .ok kept.1 ∧
        Query.FilterCompiles (Catalog.typesOf table db) kept.1) ∧
      keptSort sort = .ok kept.2 ∧ Query.SortCompiles (Catalog.typesOf table db) kept.2 := by
  obtain ⟨f, hf, h⟩ := ok_of_lift_bind h
  obtain ⟨k, hk, h⟩ := ok_of_lift_bind h
  obtain ⟨types, w₁, htypes, h⟩ := ok_of_run_bind h
  obtain ⟨found, hfound, htypes⟩ := ok_of_query_bind hw htypes
  obtain ⟨plan, hplan, h⟩ := ok_of_lift_bind h
  obtain rfl := Except.ok.inj (Prod.mk.inj h).1
  obtain rfl := Except.ok.inj (Prod.mk.inj htypes).1
  obtain rfl := Except.ok.inj hfound
  have hcompiles := Query.exists_compile_iff.mp ⟨plan, hplan⟩
  exact ⟨⟨hf, hcompiles.1⟩, hk, hcompiles.2⟩

theorem isQuiet_keptConfigs (table : String) (filter sort : Value) :
    IsQuiet (keptConfigs table filter sort) :=
  isQuiet_bind (isQuiet_lift _) fun _ => isQuiet_bind (isQuiet_lift _) fun _ =>
    isQuiet_bind (isQuiet_bind (isQuiet_query _) fun _ => isQuiet_pure _) fun _ =>
      isQuiet_bind (isQuiet_lift _) fun _ => isQuiet_pure _

theorem eq_of_storable {v v' : Value} (h : Catalog.storable v = .ok v') : v' = v.stored := by
  rw [Catalog.storable] at h
  split at h
  · exact (Except.ok.inj h).symm
  · cases h

theorem leaves_createView (hw : w.storage = .ready db) (actor table : String)
    (name filter sort : Value) :
    Leaves (Changes db) (createView actor table name filter sort) s w := by
  refine leaves_query_bind hw .refl fun t ht => ?_
  refine (isQuiet_keptConfigs _ _ _).leaves_bind hw .refl fun kept w₁ hkept hw₁ => ?_
  obtain ⟨⟨hfilter, hf⟩, hsort, hk⟩ := compiles_of_keptConfigs hw hkept
  refine leaves_map ?_
  refine leaves_lift_bind hw₁ .refl fun name _ => ?_
  refine (isQuiet_newId _).leaves_bind hw₁ .refl fun id w₂ _ hw₂ => ?_
  refine isQuiet_now.leaves_bind hw₂ .refl fun now w₃ _ hw₃ => ?_
  refine leaves_transaction hw₃ .refl fun v db' h => ?_
  obtain ⟨f, hf', h⟩ := ok_of_bind h
  obtain ⟨k, hk', h⟩ := ok_of_bind h
  obtain ⟨table', htable', h⟩ := ok_of_bind h
  obtain ⟨_, rfl⟩ := Prod.mk.inj (Except.ok.inj h)
  obtain rfl := Except.ok.inj htable'
  refine .single (.views fun view hview => ?_)
  rcases List.mem_append.mp hview with hview | hview
  · exact View.follows_of_mem hview
  · obtain rfl := List.mem_singleton.mp hview
    refine ⟨.inl (Catalog.hasTable_of_owned ht), .inr ?_, .inr ?_⟩
    · rw [eq_of_storable hf', orNull_keptFilter hfilter]
      exact hf
    · rw [eq_of_storable hk']
      exact sortCompiles_keptSort hsort hk

/-- A field of a view stays, or becomes what is given. -/
theorem eq_or_stored_of_viewField {old given new : Value}
    (h : Catalog.viewField old given = .ok new) :
    Catalog.keptField old new = old ∨
      given.isNull = false ∧ Catalog.keptField old new = given.stored := by
  rw [Catalog.viewField] at h
  rw [Catalog.keptField]
  split at h
  · obtain rfl := Except.ok.inj h
    simp
  · rename_i hnull
    rw [eq_of_storable h]
    split
    · exact .inl rfl
    · exact .inr ⟨by simpa using hnull, rfl⟩

theorem leaves_updateView (hw : w.storage = .ready db) (actor id : String)
    (name filter sort : Value) :
    Leaves (Changes db) (updateView actor id name filter sort) s w := by
  refine leaves_query_bind hw .refl fun view hview => ?_
  refine leaves_query_bind hw .refl fun t ht => ?_
  refine (isQuiet_keptConfigs _ _ _).leaves_bind hw .refl fun kept w₁ hkept hw₁ => ?_
  obtain ⟨⟨hfilter, hf⟩, hsort, hk⟩ := compiles_of_keptConfigs hw hkept
  refine leaves_map ?_
  refine leaves_transaction hw₁ .refl fun v db' h => ?_
  obtain ⟨old, hold, h⟩ := ok_of_bind h
  obtain rfl := Except.ok.inj (hview.symm.trans hold)
  obtain ⟨n, _, h⟩ := ok_of_bind h
  obtain ⟨f, hf', h⟩ := ok_of_bind h
  obtain ⟨k, hk', h⟩ := ok_of_bind h
  obtain ⟨_, rfl⟩ := Prod.mk.inj (Except.ok.inj h)
  have hmem := (Catalog.mem_of_findView hview).1
  refine .single (.views fun view' hview' => ?_)
  obtain ⟨v', hv', rfl⟩ := List.mem_map.mp hview'
  split
  · refine ⟨.inl (Catalog.hasTable_of_owned ht), ?_, ?_⟩
    · rcases eq_or_stored_of_viewField hf' with hkeeps | ⟨hnull, hstored⟩
      · exact .inl ⟨view, hmem, rfl, hkeeps.symm⟩
      · refine .inr ?_
        have hcompiles := orNull_keptFilter hfilter
        rw [if_neg (by simp [hnull])] at hcompiles
        dsimp only
        rw [hstored, hcompiles]
        exact hf
    · rcases eq_or_stored_of_viewField hk' with hkeeps | ⟨hnull, hstored⟩
      · exact .inl ⟨view, hmem, rfl, hkeeps.symm⟩
      · refine .inr ?_
        have hcompiles := sortCompiles_keptSort hsort hk
        rw [if_neg (by simp [hnull])] at hcompiles
        dsimp only
        rw [hstored]
        exact hcompiles
  · exact View.follows_of_mem hv'

end Workspace

end Tabula
