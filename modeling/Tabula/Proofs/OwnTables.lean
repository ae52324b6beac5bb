import Tabula.Proofs.Operations

/-!
# Tables that are new

What an actor can always do : make a base, a table in it, a column, edit a cell, keep a sort as a
view. Each of these is answered when the names are proper and the table is the actor's, and the
lemma says what is stored then (`exists_createTable`, `exists_addColumn`, `exists_updateCell`,
`exists_createView`). As fresh tokens can always be found (`exists_isFresh`), an actor comes to
have a table with text columns and sample rows from the empty database (`exists_isNew`).
-/

namespace Tabula

open Store Database

namespace Action

variable {α β : Type}

/-- An action that always gives an answer. -/
def Answers (x : Action α) : Prop := ∀ s w, ∃ a w', x s w = (.ok a, w')

theorem answers_pure (a : α) : Answers (Pure.pure a : Action α) := fun _ w => ⟨a, w, rfl⟩

theorem answers_now : Answers now := fun s w => ⟨s.now, w, rfl⟩

theorem answers_newId (kind : String) : Answers (newId kind) := fun _ _ => ⟨_, _, rfl⟩

theorem answers_ending (length : Nat) : Answers (ending length) := fun _ _ => ⟨_, _, rfl⟩

theorem answers_stamp : Answers stamp := fun _ _ => ⟨_, _, rfl⟩

theorem answers_bind {x : Action α} {f : α → Action β} (hx : Answers x) (hf : ∀ a, Answers (f a)) :
    Answers (x >>= f) := by
  intro s w
  obtain ⟨a, w₁, ha⟩ := hx s w
  obtain ⟨b, w₂, hb⟩ := hf a s w₁
  exact ⟨b, w₂, by rw [run_bind_ok ha, hb]⟩

theorem answers_endings : ∀ n, Answers (endings n)
  | 0 => answers_pure []
  | n + 1 => answers_bind (answers_ending 6) fun _ =>
      answers_bind (answers_endings n) fun _ => answers_pure _

end Action

/-- A table with its columns, and rows that are appended to it. -/
def Database.withTable (now : Moment) (t : Table) (columns : List Column) (es : Batch)
    (db : Database) : Database :=
  { db with
    tables := db.tables ++ [t], columns := db.columns ++ columns,
    rows := (Rows.append now t.id es db.rows).1 }

namespace Workspace

open Tabula.Action

variable {s : Surroundings} {w w' : World} {db : Database} {actor base table : String}

/-! ## A table with its sample rows -/

theorem answers_newColumns (table : String) : ∀ n k, Answers (newColumns table k n)
  | 0, _ => answers_pure []
  | n + 1, k => answers_bind (answers_newId "col") fun _ => answers_bind answers_now fun _ =>
      answers_bind (answers_newColumns table n (k + 1)) fun _ => answers_pure _

theorem answers_sampleRow : ∀ columns, Answers (sampleRow columns)
  | [] => answers_pure []
  | _ :: columns => answers_bind (answers_ending 6) fun _ =>
      answers_bind (answers_sampleRow columns) fun _ => answers_pure _

theorem answers_sampleData (columns : List Column) : ∀ n, Answers (sampleData columns n)
  | 0 => answers_pure []
  | n + 1 => answers_bind (answers_sampleRow columns) fun _ =>
      answers_bind (answers_sampleData columns n) fun _ => answers_pure _

theorem length_of_sampleData {columns : List Column} : ∀ {n : Nat} {w w' : World}
    {rows : List Cells}, sampleData columns n s w = (.ok rows, w') → rows.length = n
  | 0, w, w', rows, h => by
    obtain rfl := Except.ok.inj (Prod.mk.inj h).1
    rfl
  | n + 1, w, w', rows, h => by
    obtain ⟨row, w₁, hrow, h⟩ := ok_of_run_bind h
    obtain ⟨rest, w₂, hrest, h⟩ := ok_of_run_bind h
    obtain rfl := Except.ok.inj (Prod.mk.inj h).1
    rw [List.length_cons, length_of_sampleData hrest]

/-- Rows whose cells may be stored make a batch. -/
theorem exists_looseBatch {rows : List Cells} (h : ∀ cells ∈ rows, Source.AllStorable cells)
    (batch start : Int) (s : Surroundings) (w : World) :
    ∃ es w', looseBatch batch start (rows.map .object) s w = (.ok es, w') := by
  obtain ⟨stamp, w₁, hstamp⟩ := answers_stamp s w
  obtain ⟨endings, w₂, hendings⟩ := answers_endings (rows.map Value.object).length s w₁
  have hcells : ∀ v ∈ rows.map Value.object, ∃ cells, Batch.cellsOf v = .ok cells := by
    intro v hv
    obtain ⟨cells, hcells, rfl⟩ := List.mem_map.mp hv
    exact ⟨cells, Batch.checkCells_ok (h cells hcells)⟩
  obtain ⟨es, hes⟩ := Batch.exists_encodeFrom
    (fun i => Batch.looseRowId stamp batch i (endings.getD i "")) batch start 0 hcells
  refine ⟨es, w₂, ?_⟩
  rw [looseBatch, run_bind_ok hstamp, run_bind_ok hendings, run_liftM, Batch.encode, hes]

theorem positions_of_looseBatch {batch start : Int} {vs : List Value} {es : Batch}
    (h : looseBatch batch start vs s w = (.ok es, w')) :
    es.map Entry.position = (List.range vs.length).map fun r => start + (r : Nat) := by
  obtain ⟨_, w₁, _, h⟩ := ok_of_run_bind h
  obtain ⟨_, w₂, _, h⟩ := ok_of_run_bind h
  have hkeys := congrArg (List.map Prod.snd) (Batch.key_of_encode (Prod.mk.inj h).1)
  rw [List.map_map, List.map_map] at hkeys
  exact hkeys

/-- The store can hold the positions of a batch if it can hold as many from the first one on. -/
theorem fits_looseBatch_iff {batch start : Int} {vs : List Value} {es : Batch}
    (h : looseBatch batch start vs s w = (.ok es, w')) :
    (es.all fun e => fitsInteger e.position) = true ↔
      ∀ i < vs.length, fitsInteger (start + (i : Nat)) = true := by
  change es.all (fitsInteger ∘ Entry.position) = true ↔ _
  rw [← List.all_map, positions_of_looseBatch h, List.all_map, List.all_eq_true]
  exact forall_congr' fun i => imp_congr_left List.mem_range

theorem run_ensureBaseOwner (hw : w.storage = .ready db) {b : Base}
    (hb : Catalog.findBase base db = .ok b) (howner : b.owner = actor) :
    Catalog.ensureBaseOwner actor base s w = (.ok b, w) := by
  rw [Catalog.ensureBaseOwner, Catalog.getBase, run_query_bind hw hb]
  dsimp only
  rw [if_neg (not_not.mpr howner)]
  rfl

/-- In a base of one's own a table can always be made under a proper name. It has text columns,
and rows with texts under them. -/
theorem exists_createTable (hw : w.storage = .ready db) {b : Base}
    (hb : Catalog.findBase base db = .ok b) (howner : b.owner = actor) {name : Value} {n : String}
    (hname : Catalog.nameOf .table name = .ok n) :
    ∃ (v : Value) (w' : World) (t : Table) (columns : List Column) (es : Batch),
      createTable actor base name s w = (.ok v, w') ∧
        w'.storage = .ready (db.withTable s.now t columns es) ∧
        t.base = base ∧ columns.length = defaultColumns ∧ es.length = sampleRows ∧
        (∀ c ∈ columns, c.table = t.id ∧ c.type = .text ∧ c.id ≠ "") ∧
        ∀ e ∈ es, ∀ cell ∈ e.payload.cells, ∃ c ∈ columns, ∃ text, cell = (c.id, .text text) := by
  obtain ⟨id, w₁, hid⟩ := answers_newId "tbl" s w
  obtain ⟨columns, w₂, hcolumns⟩ := answers_newColumns id defaultColumns 0 s w₁
  obtain ⟨rows, w₃, hrows⟩ := answers_sampleData columns sampleRows s w₂
  have htexts := texts_of_sampleData hrows
  obtain ⟨es, w₄, hes⟩ := exists_looseBatch (fun cells hcells e he => by
    obtain ⟨_, _, _, rfl⟩ := htexts cells hcells e he
    exact Option.some_ne_none _) 0 0 s w₃
  have hpositions := positions_of_looseBatch hes
  rw [List.length_map, length_of_sampleData hrows] at hpositions
  obtain ⟨hstorage, htext, hids⟩ := columns_of_newColumns hcolumns
  have hw₄ : w₄.storage = .ready db := by
    rw [(isQuiet_looseBatch _ _ _).storage_eq hes, (isQuiet_sampleData _ _).storage_eq hrows,
      hstorage, (isQuiet_newId _).storage_eq hid, hw]
  have hfits : (es.all fun e => fitsInteger e.position) = true := by
    refine (fits_looseBatch_iff hes).mpr fun i hi => ?_
    rw [List.length_map, length_of_sampleData hrows] at hi
    have hlt : i < 50 := hi
    rw [fitsInteger, Bool.and_eq_true, decide_eq_true_eq, decide_eq_true_eq]
    omega
  have hrun : createTable actor base name s w =
      (.ok (.object [("table", Table.toValue ⟨id, base, n, s.now⟩),
          ("columns", .list (columns.map Column.toValue))]),
        w₄.withDatabase (db.withTable s.now ⟨id, base, n, s.now⟩ columns es)) := by
    rw [createTable, run_bind_ok (run_ensureBaseOwner hw hb howner),
      run_lift_bind hname, run_bind_ok hid, run_bind_ok run_now,
      run_bind_ok hcolumns, run_bind_ok hrows, run_bind_ok hes]
    refine run_bind_ok (run_transaction_ok (a := ()) hw₄ ?_) _
    rw [RowStore.appended, if_pos hfits]
    rfl
  refine ⟨_, _, _, columns, es, hrun, rfl, rfl, ?_, ?_,
    fun c hc => ⟨(htext c hc).1, (htext c hc).2, fun hid => ?_⟩, fun e he => ?_⟩
  · rw [← List.length_map (f := Column.id), hids, List.length_map, List.length_range']
  · rw [← List.length_map (f := Entry.position), hpositions, List.length_map, List.length_range]
  · obtain ⟨k, _, hk⟩ := exists_token_of_newColumns hcolumns c hc
    rw [hid] at hk
    simp at hk
  · exact htexts _ (mem_of_looseBatch hes e he)

theorem run_createBase (hw : w.storage = .ready db) (owner : String) {name : Value} {n : String}
    (hname : Catalog.nameOf .base name = .ok n) :
    ∃ (v : Value) (w' : World) (b : Base), createBase (some owner) name s w = (.ok v, w') ∧
      w'.storage = .ready { db with bases := db.bases ++ [b] } ∧ b.owner = owner := by
  obtain ⟨id, w₁, hid⟩ := answers_newId "base" s w
  have hw₁ := ((isQuiet_newId "base").storage_eq hid).trans hw
  have hrun : createBase (some owner) name s w = (.ok (Base.toValue ⟨id, n, owner, s.now⟩),
      w₁.withDatabase { db with bases := db.bases ++ [⟨id, n, owner, s.now⟩] }) := by
    refine run_bind_ok (a := (⟨id, n, owner, s.now⟩ : Base)) ?_ _
    rw [Catalog.createBase, run_lift_bind hname, run_bind_ok hid,
      run_bind_ok run_now]
    exact run_transaction_ok hw₁ rfl
  exact ⟨_, _, _, hrun, rfl, rfl⟩

/-! ## A column that is added -/

theorem exists_addColumn (hw : w.storage = .ready db) {t : Table}
    (hown : Catalog.ownedTable actor table db = .ok t) {name type order : Value} {n : String}
    {ty : ColumnType} {k : Int} (hname : name.truthy = true)
    (hn : Catalog.columnNameOf name = .ok n) (htype : ColumnType.parse type = .ok ty)
    (hnull : order.isNull = false) (horder : Catalog.orderOf order = .ok k)
    (hfits : Ledger.storable k = .ok k) :
    ∃ (v : Value) (w' : World) (c : Column),
      addColumn actor table name type order s w = (.ok v, w') ∧
      w'.storage = .ready { db with columns := db.columns ++ [c] } ∧
      c.table = table ∧ c.type = ty ∧ c.order = k ∧
        c.id = "col" ++ "_" ++ s.token (w.tokens + 1) := by
  obtain ⟨id, w₁, hid⟩ := answers_newId "col" s w
  have hw₁ := ((isQuiet_newId "col").storage_eq hid).trans hw
  have hrun : addColumn actor table name type order s w =
      (.ok (Column.toValue ⟨id, table, n, ty, k, s.now⟩),
        w₁.withDatabase { db with columns := db.columns ++ [⟨id, table, n, ty, k, s.now⟩] }) := by
    rw [addColumn, Catalog.ensureOwner, run_query_bind hw hown]
    simp only [hnull, Bool.false_eq_true, if_false]
    refine run_bind_ok (a := (⟨id, table, n, ty, k, s.now⟩ : Column)) ?_ _
    rw [Catalog.createColumn]
    simp only [hname, Bool.not_true, Bool.false_eq_true, if_false]
    rw [run_lift_bind hn,
      run_lift_bind horder, run_bind_ok hid,
      run_lift_bind htype, run_bind_ok run_now]
    refine run_transaction_ok hw₁ ?_
    rw [hfits]
    rfl
  refine ⟨_, _, _, hrun, rfl, rfl, rfl, rfl, ?_⟩
  exact (Except.ok.inj (Prod.mk.inj hid).1).symm

end Workspace

/-! ## A cell that is edited -/

namespace Json

theorem exists_write (layout : Layout) {v : Value} (h : v.classify ≠ none) :
    ∃ t, write layout v = .ok t := by
  cases v with
  | null => exact ⟨_, by rw [write]⟩
  | text s => exact ⟨_, by rw [write]⟩
  | int n => exact ⟨_, by rw [write]⟩
  | float x =>
    by_cases hx : x.isFinite = true
    · exact ⟨x.text, by rw [write, writeFloat, if_pos hx]⟩
    · simp [Value.classify, hx] at h
  | _ => exact absurd rfl h

/-- Cells that may be stored have a JSON text. -/
theorem exists_write_object (layout : Layout) {cells : Cells} (h : Source.AllStorable cells) :
    ∃ t, write layout (.object cells) = .ok t := by
  have hmembers : ∃ ts, writeMembers layout (cells.map fun e => (.text e.1, e.2)) = .ok ts := by
    induction cells with
    | nil => exact ⟨_, by rw [List.map_nil, writeMembers]⟩
    | cons e cells ih =>
      obtain ⟨t, ht⟩ := exists_write layout (h e List.mem_cons_self)
      obtain ⟨ts, hts⟩ := ih fun e' he' => h e' (List.mem_cons_of_mem e he')
      refine ⟨(writeText e.1 ++ layout.colon ++ t) :: ts, ?_⟩
      rw [List.map_cons, writeMembers, keyName, ht, hts]
      rfl
  obtain ⟨ts, hts⟩ := hmembers
  exact ⟨_, by rw [Value.object, write, hts]; rfl⟩

end Json

theorem ColumnType.Admits.classify_ne_none {type : ColumnType} {v : Value} (h : type.Admits v) :
    v.classify ≠ none := by
  cases v with
  | null | text | int => exact Option.some_ne_none _
  | float x =>
    cases type with
    | text => exact h.elim
    | number =>
      rw [Value.classify, if_pos (show x.isFinite = true from h)]
      exact Option.some_ne_none _
  | _ => cases type <;> exact h.elim

namespace RowStore

variable {value : Value} {old : Payload}

/-- A cell of a row of storable cells can be edited. It is the new value then, or one equal to
it. -/
theorem exists_edited (column : String) (hold : Source.AllStorable old.cells) {type : ColumnType}
    (hvalue : type.Admits value) : ∃ new kept, edited column value old = .ok (new, kept) ∧
      ∃ v, kept.cells.get? column = some v ∧ (v = value ∨ v.same value = true) := by
  obtain ⟨text, htext⟩ := Json.exists_write_object .spaced (hold.set column hvalue.classify_ne_none)
  refine ⟨_, _, by rw [edited, Payload.edited, htext], ?_⟩
  split
  · rename_i hsame
    obtain ⟨v, hv, hsame⟩ := (Option.any_eq_true _ _).mp hsame
    exact ⟨v, hv, .inr hsame⟩
  · refine ⟨value, ?_, .inl rfl⟩
    rw [Cells.get?_map_stored, Cells.get?_set_self, Option.map_some, hvalue.stored]

end RowStore

namespace Workspace

open Tabula.Action

variable {s : Surroundings} {w w' : World} {db : Database} {actor : String}

theorem exists_updateCell (hw : w.storage = .ready db) {row : String} {r : Row} {t : Table}
    (hr : RowStore.find row db = .ok r) (hown : Catalog.ownedTable actor r.table db = .ok t)
    {column value : Value} {cell : String × Value}
    (hcell : coerceCell (Catalog.typesOf r.table db) column value = .ok cell)
    (hstorable : Source.AllStorable r.payload.cells) :
    ∃ (v : Value) (w' : World) (kept : Payload),
      updateCell actor row column value s w = (.ok v, w') ∧
        w'.storage = .ready (db.withRows (Rows.write s.now row kept db.rows)) ∧
        ∃ x, kept.cells.get? cell.1 = some x ∧ (x = cell.2 ∨ x.same cell.2 = true) := by
  obtain ⟨type, _, hvalue⟩ := admits_of_coerceCell hcell
  obtain ⟨new, kept, hedited, hx⟩ := RowStore.exists_edited cell.1 hstorable hvalue
  have hrun : updateCell actor row column value s w =
      (.ok (Row.toValue { r with payload := new, updatedAt := s.now }),
        w.withDatabase (db.withRows (Rows.write s.now row kept db.rows))) := by
    rw [updateCell, RowStore.get,
      run_bind_ok (run_rowStore_ok ((run_query hw _).trans (by rw [hr]))), Catalog.ensureOwner,
      run_query_bind hw hown, Catalog.columnTypes,
      run_query_bind (f := fun db => .ok (Catalog.typesOf r.table db)) hw rfl, run_lift_bind hcell]
    refine run_bind_ok (a := { r with payload := new, updatedAt := s.now }) ?_ _
    rw [RowStore.updateCell, run_bind_ok run_now]
    refine run_rowStore_ok (run_transaction_ok hw ?_)
    rw [hr]
    change (RowStore.edited cell.1 cell.2 r.payload >>= _) = _
    rw [hedited]
    rfl
  exact ⟨_, _, kept, hrun, rfl, hx⟩

end Workspace

/-! ## A view that is made -/

theorem storable_sortValue (keys : List Query.SortKey) :
    Catalog.storable (Query.sortValue keys) = .ok (Query.sortValue keys) := by
  have hkeys : ∃ ts, Json.writeAll .spaced (keys.map Query.SortKey.toValue) = .ok ts := by
    induction keys with
    | nil => exact ⟨[], by rw [List.map_nil, Json.writeAll]⟩
    | cons k keys ih =>
      obtain ⟨t, ht⟩ := Json.exists_write_object .spaced (show Source.AllStorable
        [("columnId", .text k.column), ("direction", .text k.direction.label)] by
          simp [Source.AllStorable, Value.classify])
      obtain ⟨ts, hts⟩ := ih
      refine ⟨t :: ts, ?_⟩
      rw [List.map_cons, Json.writeAll, Query.SortKey.toValue, ht, hts]
      rfl
  obtain ⟨ts, hts⟩ := hkeys
  have hwrite : ∃ t, Json.write .spaced (Query.sortValue keys) = .ok t :=
    ⟨_, by rw [Query.sortValue, Json.write, hts]; rfl⟩
  obtain ⟨t, ht⟩ := hwrite
  rw [Catalog.storable, ht, Query.stored_sortValue]

namespace Workspace

open Tabula.Action Query

variable {s : Surroundings} {w w' : World} {db : Database} {actor table : String}

/-- A view is made of a filter and a sort that compile and can be kept. -/
theorem run_createView (hw : w.storage = .ready db) {t : Table}
    (hown : Catalog.ownedTable actor table db = .ok t) {name filter sort f k f' k' : Value} {n : String}
    (hname : Catalog.nameOf .view name = .ok n) (hfilter : keptFilter filter = .ok f)
    (hsort : keptSort sort = .ok k) {plan : Plan}
    (hplan : compile (some (Catalog.typesOf table db)) f k = .ok plan)
    (hf : Catalog.storable (if f.isNull then .dict [] else f) = .ok f')
    (hk : Catalog.storable (if k.isNull then .list [] else k) = .ok k') :
    ∃ id w', createView actor table name filter sort s w =
        (.ok (View.toValue ⟨id, table, n, f', k', s.now⟩), w') ∧
      w'.storage = .ready { db with views := db.views ++ [⟨id, table, n, f', k', s.now⟩] } := by
  have htypes : typesFor table s w = (.ok (some (Catalog.typesOf table db)), w) :=
    run_query_bind (f := fun db => .ok (Catalog.typesOf table db)) hw rfl _
  have hkept : keptConfigs table filter sort s w = (.ok (f, k), w) := by
    rw [keptConfigs, run_lift_bind hfilter, run_lift_bind hsort, run_bind_ok htypes,
      run_lift_bind hplan]
    rfl
  obtain ⟨id, w₁, hid⟩ := answers_newId "view" s w
  have hw₁ := ((isQuiet_newId "view").storage_eq hid).trans hw
  refine ⟨id, w₁.withDatabase
    { db with views := db.views ++ [⟨id, table, n, f', k', s.now⟩] }, ?_, rfl⟩
  rw [createView, Catalog.ensureOwner, run_query_bind hw hown, run_bind_ok hkept]
  refine run_bind_ok (a := (⟨id, table, n, f', k', s.now⟩ : View)) ?_ _
  rw [Catalog.createView, run_lift_bind hname, run_bind_ok hid, run_bind_ok run_now]
  refine run_transaction_ok hw₁ ?_
  rw [hf, hk]
  rfl

/-- A sort by columns of the table can always be kept as a view. -/
theorem exists_createView (hw : w.storage = .ready db) {t : Table}
    (hown : Catalog.ownedTable actor table db = .ok t) {name : Value} {n : String}
    (hname : Catalog.nameOf .view name = .ok n) {keys : List SortKey} (hread : ∀ k ∈ keys, k.IsRead)
    (hcolumns : ∀ k ∈ keys, ∃ type, (Catalog.typesOf table db).lookup k.column = some type) :
    ∃ (v : Value) (w' : World) (view : View),
      createView actor table name .null (sortValue keys) s w = (.ok v, w') ∧
        w'.storage = .ready { db with views := db.views ++ [view] } ∧
        view.table = table ∧ view.sort = sortValue keys := by
  have hsort : keptSort (sortValue keys) = .ok (sortValue keys) := by
    rw [keptSort, parse_sortValue hread]
    rfl
  obtain ⟨plan, hplan⟩ := exists_compile_iff.mpr
    ⟨(⟨Filter.everything, rfl, by simp [Filter.everything]⟩ :
        FilterCompiles (Catalog.typesOf table db) .null),
      (⟨keys, parse_sortValue hread, hcolumns⟩ : SortCompiles _ (sortValue keys))⟩
  obtain ⟨id, w', hrun, hw'⟩ := run_createView (s := s) hw hown hname
    (show keptFilter .null = .ok .null from rfl) hsort hplan rfl (storable_sortValue keys)
  exact ⟨_, w', _, hrun, hw', rfl, rfl⟩

end Workspace

/-! ## A table that is new -/

/-- Tokens that are longer than some length. -/
def longToken (n k : Nat) : String := String.ofList (List.replicate (n + k) 'a')

theorem length_longToken (n k : Nat) : (longToken n k).length = n + k := by
  rw [longToken, String.length_ofList, List.length_replicate]

/-- Tokens that are longer than every id make ids that are none of them. -/
theorem isFresh_longToken {w : World} {n : Nat}
    (hn : ∀ db, w.storage = .ready db → ∀ c ∈ db.columns, c.id.length ≤ n) :
    (⟨⟨0⟩, .zero, longToken n, id⟩ : Surroundings).IsFresh w := by
  refine ⟨fun k c hc => ?_, fun j k _ _ hjk => ?_, fun db hw k _ c hc hid => ?_⟩
  · replace hc : c ∈ (String.ofList (List.replicate (n + k) 'a')).toList := hc
    rw [String.toList_ofList] at hc
    rw [List.eq_of_mem_replicate hc]
    decide
  · have hlength := congrArg String.length hjk
    rw [length_longToken, length_longToken] at hlength
    omega
  · have hle := hn db hw c hc
    rw [hid, String.length_append, length_longToken] at hle
    have hcol : ("col" ++ "_").length = 4 := by decide
    omega

/-- There are always ids that are new. -/
theorem exists_isFresh (w : World) : ∃ s : Surroundings, s.IsFresh w := by
  obtain ⟨n, hn⟩ : ∃ n, ∀ db, w.storage = .ready db → ∀ c ∈ db.columns, c.id.length ≤ n := by
    rcases hw : w.storage with db | _ | _
    · refine ⟨(db.columns.map fun c => c.id.length).sum, fun db' hdb' c hc => ?_⟩
      obtain rfl := Storage.ready.inj hdb'
      exact List.le_sum_of_mem (List.mem_map_of_mem hc)
    · exact ⟨0, fun db' hdb' => nomatch hdb'⟩
    · exact ⟨0, fun db' hdb' => nomatch hdb'⟩
  exact ⟨_, isFresh_longToken hn⟩

/-- The database of one actor with one table, as it is when this is new. -/
structure Database.IsNew (t : Table) (db : Database) : Prop where
  owned : Catalog.ownedTable "u" t.id db = .ok t
  columns : db.columns ≠ [] ∧ ∀ c ∈ db.columns, c.table = t.id ∧ c.type = .text ∧ c.id ≠ ""
  rows : db.rows ≠ [] ∧ ∀ r ∈ db.rows, r.table = t.id ∧ Source.AllStorable r.payload.cells
  views : db.views = []

theorem nameOf_name (what : Entity) : Catalog.nameOf what (.text "A") = .ok "A" := by
  have hblank : Text.isBlankText "A" = false := by decide +kernel
  have htrim : Text.trim "A" = "A" := by decide +kernel
  simp [Catalog.nameOf, Value.truthy, hblank, htrim]

/-- What is answered in a world that was reached leads to another one. -/
theorem Reached.run {allowed : Operation → Database → Prop} {w w' : World} {db : Database}
    (h : Reached allowed w) (hw : w.storage = .ready db) {s : Surroundings} (hfresh : s.IsFresh w)
    (op : Operation) (hsound : op.IsSound) (hallowed : allowed op db) {x : Action Value} {v : Value}
    (hop : op.perform ⟨.null, 1⟩ = x >>= fun _ => pure ()) (hrun : x s w = (.ok v, w')) :
    Reached allowed w' := by
  have hworld : (op.perform ⟨.null, 1⟩ s w).2 = w' := by
    rw [hop, Action.run_bind_ok hrun]
    rfl
  exact hworld ▸ h.perform hw ⟨.null, 1⟩ hfresh hsound hallowed

/-- A base and a table in it are made in an empty database. -/
theorem exists_isNew_of_run {allowed : Operation → Database → Prop}
    (hbases : ∀ actor name db, allowed (.createBase actor name) db)
    (htables : ∀ actor base name db, allowed (.createTable actor base name) db) :
    ∃ w₁ b s v w db t, w₁.storage = .ready { Database.empty with bases := [b] } ∧
      Workspace.createTable "u" b.id (.text "A") s w₁ = (.ok v, w) ∧ Reached allowed w ∧
        w.storage = .ready db ∧ db.IsNew t := by
  have h₀ : Reached allowed ⟨.ready .empty, .entries [], 0, 0, 0, []⟩ := .empty rfl
  obtain ⟨s, hs⟩ := exists_isFresh ⟨.ready .empty, .entries [], 0, 0, 0, []⟩
  obtain ⟨_, w₁, b, hrun₁, hw₁, howner⟩ := Workspace.run_createBase (s := s)
    (w := ⟨.ready .empty, .entries [], 0, 0, 0, []⟩) rfl "u" (nameOf_name .base)
  have h₁ : Reached allowed w₁ :=
    h₀.run rfl hs (.createBase (some "u") (.text "A")) trivial (hbases _ _ _) rfl hrun₁
  obtain ⟨s', hs'⟩ := exists_isFresh w₁
  have hfind : Catalog.findBase b.id { Database.empty with bases := [b] } = .ok b := by
    simp [Catalog.findBase]
  obtain ⟨_, w₂, t, columns, es, hrun₂, hw₂, hbase, hcolumns, hes, htext, hcells⟩ :=
    Workspace.exists_createTable (s := s') hw₁ hfind howner (nameOf_name .table)
  have h₂ : Reached allowed w₂ :=
    h₁.run hw₁ hs' (.createTable "u" b.id (.text "A")) trivial (htables _ _ _ _) rfl hrun₂
  obtain ⟨new, hrows, hnew⟩ := Rows.exists_append s'.now t.id es Database.empty.rows
  refine ⟨w₁, b, s', _, w₂, _, t, hw₁, hrun₂, h₂, hw₂, ?_, ⟨?_, htext⟩, ⟨?_, fun r hr => ?_⟩, rfl⟩
  · simp [Catalog.ownedTable, Catalog.findTable, Catalog.ownerOf, withTable, Database.empty, hbase,
      howner, bind, Except.bind, pure, Except.pure]
  · rintro rfl
    cases hcolumns
  · rcases es with _ | ⟨e, es⟩
    · cases hes
    · obtain ⟨rest, hrest, _⟩ := Rows.exists_append s'.now t.id es [Row.ofEntry s'.now t.id e]
      exact fun hnil => List.cons_ne_nil _ _ (hrest.symm.trans hnil)
  · have hmem : r ∈ (Rows.append s'.now t.id es Database.empty.rows).1 := hr
    rw [hrows] at hmem
    obtain ⟨e, he, rfl⟩ := hnew r hmem
    refine ⟨rfl, fun cell hcell => ?_⟩
    obtain ⟨_, _, _, rfl⟩ := hcells e he cell hcell
    exact Option.some_ne_none _

/-- Actors come to have tables where bases and tables can be made. -/
theorem exists_isNew_of_creates {allowed : Operation → Database → Prop}
    (hbases : ∀ actor name db, allowed (.createBase actor name) db)
    (htables : ∀ actor base name db, allowed (.createTable actor base name) db) :
    ∃ w db t, Reached allowed w ∧ w.storage = .ready db ∧ db.IsNew t := by
  obtain ⟨_, _, _, _, w, db, t, -, -, h, hw, hnew⟩ := exists_isNew_of_run hbases htables
  exact ⟨w, db, t, h, hw, hnew⟩

/-- This is so without a column being altered. -/
theorem exists_isNew {allowed : Operation → Database → Prop}
    (hallowed : ∀ op db, ¬ op.AltersColumn → allowed op db) :
    ∃ w db t, Reached allowed w ∧ w.storage = .ready db ∧ db.IsNew t :=
  exists_isNew_of_creates (fun _ _ _ => hallowed _ _ id) fun _ _ _ _ => hallowed _ _ id

end Tabula
