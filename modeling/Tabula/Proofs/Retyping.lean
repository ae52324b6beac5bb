import Mathlib.Data.List.Forall2
import Tabula.Proofs.Actions
import Tabula.Workspace.Columns

/-!
# Changing a column

A call that changes a column has two transactions : the cells of a text column that is to hold
numbers are converted in the first, the record of the column is checked and written in the
second. `Workspace.Updates` are the ways in which such a call can go, and `updates` says that
there are no others; all that is known about the call is read off them.

A call that fails keeps everything but the rows, and these as well unless it stopped between the
two transactions with a text converted (`updateColumn_keeps_iff`). One that succeeds has converted
each cell of the column and nothing else (`Row.Retyped`).
-/

namespace Tabula

open Store

/-! ## Cells that are set -/

namespace Cells

variable {cells : Cells} {column other : String} {v : Value}

theorem get?_cons (e : String × Value) (cells : Cells) (column : String) :
    get? (e :: cells) column = if e.1 = column then some e.2 else get? cells column := by
  by_cases h : e.1 = column <;> simp [get?, h]

theorem get?_eq_none : get? cells column = none ↔ column ∉ cells.map Prod.fst := by
  simp [get?]
  grind

/-- There is a cell under a column exactly if the column is among the keys. -/
theorem exists_get? : (∃ v, get? cells column = some v) ↔ column ∈ cells.map Prod.fst := by
  rw [← Option.isSome_iff_exists, ← not_iff_not, Option.not_isSome_iff_eq_none, get?_eq_none]

theorem mem_of_get? (h : get? cells column = some v) : (column, v) ∈ cells := by
  rw [get?, Option.map_eq_some_iff] at h
  obtain ⟨e, he, rfl⟩ := h
  have hkey : e.1 = column := by simpa using List.find?_some he
  rw [← hkey]
  exact List.mem_of_find?_eq_some he

theorem get?_set_self (column : String) (v : Value) (cells : Cells) :
    get? (set column v cells) column = some v := by
  induction cells with
  | nil => simp [set, get?]
  | cons e cells ih =>
    rw [set]
    split
    · rename_i h
      rw [get?_cons, if_pos (beq_iff_eq.mp h)]
    · rename_i h
      rw [get?_cons, if_neg fun he => h (beq_iff_eq.mpr he), ih]

theorem get?_set_of_ne (h : other ≠ column) (v : Value) (cells : Cells) :
    get? (set column v cells) other = get? cells other := by
  induction cells with
  | nil => simp [set, get?, Ne.symm h]
  | cons e cells ih =>
    rw [set]
    split
    · rename_i he
      have hne : ¬ e.1 = other := fun hother => h (hother.symm.trans (beq_iff_eq.mp he))
      rw [get?_cons, get?_cons, if_neg hne, if_neg hne]
    · rw [get?_cons, get?_cons, ih]

/-- A cell that is there is set in its place. -/
theorem keys_set (h : column ∈ cells.map Prod.fst) :
    (set column v cells).map Prod.fst = cells.map Prod.fst := by
  induction cells with
  | nil => simp at h
  | cons e cells ih =>
    rw [set]
    split
    · rfl
    · rename_i he
      have hne : column ≠ e.1 := fun hc => he (beq_iff_eq.mpr hc.symm)
      rw [List.map_cons, List.map_cons, ih ((List.mem_cons.mp h).resolve_left hne)]

end Cells

/-! ## Values of a column -/

namespace ColumnType

/-- The values that belong under a column of this type. -/
def Admits : ColumnType → Value → Prop
  | _, .null => True
  | .text, .text _ => True
  | .number, .int _ => True
  | .number, .float x => x.isFinite = true
  | _, _ => False

theorem admits_null (type : ColumnType) : type.Admits .null := by cases type <;> trivial

theorem admits_storedNumber {x : Binary64} (h : x.isFinite = true) :
    number.Admits (storedNumber x) := by
  rw [storedNumber]
  split
  · trivial
  · exact h

theorem parse_label (type : ColumnType) : parse (.text type.label) = .ok type := by
  have htext : Text.asciiUpper "TEXT" = "TEXT" := by decide +kernel
  have hnumber : Text.asciiUpper "NUMBER" = "NUMBER" := by decide +kernel
  cases type <;> simp [parse, label, Value.plainText, htext, hnumber]

/-- Nothing is no name of a type. -/
theorem parse_null_ne : parse .null ≠ .ok number := by
  have htext : Text.asciiUpper Value.null.plainText ≠ "TEXT" := by decide +kernel
  have hnumber : Text.asciiUpper Value.null.plainText ≠ "NUMBER" := by decide +kernel
  simp [parse, htext, hnumber]

variable {type : ColumnType} {v old : Value}

/-- What texts are stored as under a number column : the empty one as nothing, another one as the
number that it spells. -/
theorem coerce_number_text_iff {s : String} : number.coerce (.text s) = .ok v ↔
    (s = "" ∧ v = .null) ∨ s ≠ "" ∧ ∃ x, Value.textNumber? s = some x ∧ v = storedNumber x := by
  simp only [coerce, Value.classify]
  by_cases hs : s = ""
  · simp [hs, eq_comm]
  · rcases Value.textNumber? s with _ | x <;> simp [hs, eq_comm]

/-- What is stored for an edit belongs under the column. -/
theorem admits_of_coerce (h : type.coerce old = .ok v) : type.Admits v := by
  cases old with
  | null =>
    obtain rfl := Except.ok.inj h
    exact type.admits_null
  | text s =>
    cases type with
    | text =>
      obtain rfl := Except.ok.inj h
      trivial
    | number =>
      rcases coerce_number_text_iff.mp h with ⟨-, rfl⟩ | ⟨-, x, hx, rfl⟩
      · trivial
      · exact admits_storedNumber (Option.filter_eq_some_iff.mp hx).2
  | int n =>
    cases type <;> obtain rfl := Except.ok.inj h <;> trivial
  | float x =>
    by_cases hx : x.isFinite = true
    · cases type <;> simp only [coerce, Value.classify, hx, if_true] at h <;>
        obtain rfl := Except.ok.inj h
      · trivial
      · exact hx
    · simp [coerce, Value.classify, hx] at h
  | _ => simp [coerce, Value.classify] at h

/-- Under a number column only texts are stored as something else. -/
theorem eq_of_coerce_number (hne : ∀ s, old ≠ .text s) (h : number.coerce old = .ok v) :
    v = old := by
  cases old with
  | text s => exact absurd rfl (hne s)
  | float x =>
    by_cases hx : x.isFinite = true
    · simpa [coerce, Value.classify, hx] using h.symm
    · simp [coerce, Value.classify, hx] at h
  | null | int => exact (Except.ok.inj h).symm
  | _ => simp [coerce, Value.classify] at h

end ColumnType

/-! ## A row that is converted -/

/-- A row before and after the cell of a column has become a number. -/
structure Row.Retyped (column : String) (r r' : Row) : Prop where
  id : r'.id = r.id
  table : r'.table = r.table
  position : r'.position = r.position
  createdAt : r'.createdAt = r.createdAt
  keys : r'.payload.cells.map Prod.fst = r.payload.cells.map Prod.fst
  others : ∀ other, other ≠ column → r'.payload.cells.get? other = r.payload.cells.get? other
  cell : ∀ old, r.payload.cells.get? column = some old →
    ∃ v, ColumnType.coerce .number old = .ok v ∧ r'.payload.cells.get? column = some v

namespace Workspace

variable {now : Moment} {table column : String} {r r' : Row} {rows rows' : Rows}

/-- The cell of a column, if there is one, can become a number. -/
def HasNumber (column : String) (r : Row) : Prop :=
  ∀ v, r.payload.cells.get? column = some v → ∃ x, ColumnType.coerce .number v = .ok x

theorem exists_retypedRow_iff (now : Moment) :
    (∃ r', retypedRow now column r = .ok r') ↔ HasNumber column r := by
  rw [retypedRow, HasNumber]
  rcases r.payload.cells.get? column with _ | old
  · simp
  · rcases h : ColumnType.coerce .number old with why | v
    · simp [h]
    · rcases old <;> simp [h]

theorem retyped_of_retypedRow (h : retypedRow now column r = .ok r') : r.Retyped column r' := by
  rw [retypedRow] at h
  split at h
  · rename_i hnone
    obtain rfl := Except.ok.inj h
    refine ⟨rfl, rfl, rfl, rfl, rfl, fun _ _ => rfl, fun old hold => ?_⟩
    rw [hnone] at hold
    cases hold
  · rename_i old hold
    have hkey := Cells.exists_get?.mp ⟨old, hold⟩
    rcases hv : ColumnType.coerce .number old with why | v
    · simp [hv] at h
    simp only [hv] at h
    split at h
    · obtain rfl := Except.ok.inj h
      refine ⟨rfl, rfl, rfl, rfl, Cells.keys_set hkey,
        fun other hne => Cells.get?_set_of_ne hne v _, fun old' hold' => ?_⟩
      obtain rfl := Option.some.inj (hold.symm.trans hold')
      exact ⟨v, hv, Cells.get?_set_self column v _⟩
    · rename_i hne
      obtain rfl := Except.ok.inj h
      refine ⟨rfl, rfl, rfl, rfl, rfl, fun _ _ => rfl, fun old' hold' => ?_⟩
      obtain rfl := Option.some.inj (hold.symm.trans hold')
      rw [ColumnType.eq_of_coerce_number hne hv] at hv
      exact ⟨_, hv, hold⟩

/-- A row whose cell is no text stays as it is. -/
theorem eq_of_retypedRow (hne : ∀ s, r.payload.cells.get? column ≠ some (.text s))
    (h : retypedRow now column r = .ok r') : r' = r := by
  rw [retypedRow] at h
  split at h
  · exact (Except.ok.inj h).symm
  · rename_i old hold
    split at h
    · cases h
    · split at h
      · exact absurd hold (hne _)
      · exact (Except.ok.inj h).symm

/-! ## All rows of a table -/

theorem mem_byPosition : r ∈ Rows.byPosition table rows ↔ r ∈ rows ∧ r.table = table := by
  rw [Rows.byPosition, List.mem_mergeSort, Rows.ofTable, List.mem_filter, beq_iff_eq]

theorem retypeFailure_eq_ok_iff :
    retypeFailure now column rows = .ok () ↔ ∀ r ∈ rows, HasNumber column r := by
  induction rows with
  | nil => simp [retypeFailure]
  | cons r rows ih =>
    rw [List.forall_mem_cons, ← exists_retypedRow_iff now, ← ih, retypeFailure]
    rcases retypedRow now column r with why | r' <;> simp

theorem retypeFailure_byPosition_iff :
    retypeFailure now column (Rows.byPosition table rows) = .ok () ↔
      ∀ r ∈ rows, r.table = table → HasNumber column r := by
  rw [retypeFailure_eq_ok_iff]
  exact ⟨fun h r hr ht => h r (mem_byPosition.mpr ⟨hr, ht⟩),
    fun h r hr => h r (mem_byPosition.mp hr).1 (mem_byPosition.mp hr).2⟩

/-- The rows before and after the cells of a column have become numbers : those of other tables
are the same. -/
def RowsRetyped (table column : String) (rows rows' : Rows) : Prop :=
  List.Forall₂ (fun r r' => if r.table = table then r.Retyped column r' else r' = r) rows rows'

theorem rowsRetyped_retypedRows (now : Moment)
    (h : ∀ r ∈ rows, r.table = table → HasNumber column r) :
    RowsRetyped table column rows (retypedRows now table column rows) := by
  rw [RowsRetyped, retypedRows, List.forall₂_map_right_iff, List.forall₂_same]
  intro r hr
  by_cases ht : r.table = table
  · obtain ⟨r', hr'⟩ := (exists_retypedRow_iff now).mpr (h r hr ht)
    simp only [beq_iff_eq, if_pos ht, hr']
    exact retyped_of_retypedRow hr'
  · simp only [beq_iff_eq, if_neg ht]

theorem RowsRetyped.exists_old (h : RowsRetyped table column rows rows') {r' : Row}
    (hr' : r' ∈ rows') :
    ∃ r ∈ rows, if r.table = table then r.Retyped column r' else r' = r := by
  induction h with
  | nil => cases hr'
  | cons hrow _ ih =>
    rcases List.mem_cons.mp hr' with rfl | hr'
    · exact ⟨_, List.mem_cons_self, hrow⟩
    · exact (ih hr').imp fun _ h => ⟨List.mem_cons_of_mem _ h.1, h.2⟩

theorem RowsRetyped.exists_new (h : RowsRetyped table column rows rows') (hr : r ∈ rows) :
    ∃ r' ∈ rows', if r.table = table then r.Retyped column r' else r' = r := by
  induction h with
  | nil => cases hr
  | cons hrow _ ih =>
    rcases List.mem_cons.mp hr with rfl | hr
    · exact ⟨_, List.mem_cons_self, hrow⟩
    · exact (ih hr).imp fun _ h => ⟨List.mem_cons_of_mem _ h.1, h.2⟩

/-- Some row of the table has a text in the column. -/
def HoldsText (table column : String) (rows : Rows) : Prop :=
  ∃ r ∈ rows, r.table = table ∧ ∃ s, r.payload.cells.get? column = some (.text s)

theorem retypedRows_eq_self (hnone : ¬ HoldsText table column rows) :
    retypedRows now table column rows = rows := by
  refine (List.map_congr_left fun r hr => ?_).trans (List.map_id' rows)
  by_cases ht : r.table = table
  · rcases h : retypedRow now column r with why | r'
    · simp only [ite_self]
    · have heq := eq_of_retypedRow (fun s hs => hnone ⟨r, hr, ht, s, hs⟩) h
      simp only [heq, ite_self]
  · simp only [beq_iff_eq, if_neg ht]

/-- A text that is converted is seen in the payload of its row. -/
theorem payloads_retypedRows_ne (h : ∀ r ∈ rows, r.table = table → HasNumber column r)
    (hholds : HoldsText table column rows) :
    (retypedRows now table column rows).map Row.payload ≠ rows.map Row.payload := by
  rw [retypedRows, List.map_map, ne_eq, List.map_inj_left]
  intro hsame
  obtain ⟨r, hr, ht, s, hs⟩ := hholds
  obtain ⟨r', hr'⟩ := (exists_retypedRow_iff now).mpr (h r hr ht)
  obtain ⟨v, hv, hcell⟩ := (retyped_of_retypedRow hr').cell _ hs
  have hpayload := hsame r hr
  simp only [Function.comp_apply, beq_iff_eq, if_pos ht, hr'] at hpayload
  rw [hpayload, hs] at hcell
  obtain rfl := Option.some.inj hcell
  exact ColumnType.admits_of_coerce hv

end Workspace

/-! ## The ways of a call -/

/-- The column, whose table must lie in a base of the actor. -/
def Catalog.ownColumn (actor id : String) (db : Database) : Except Failure Column := do
  let column ← findColumn id db
  let _ ← ownedTable actor column.table db
  return column

/-- A database with another record for the column with this id. -/
def Database.withColumn (db : Database) (column : Column) : Database :=
  { db with columns := db.columns.map fun c => if c.id == column.id then column else c }

namespace Workspace

/-- A text column that a call is to make a number column. -/
def Converts (type : Value) (column : Column) : Prop :=
  column.type = .text ∧ ColumnType.parse type = .ok .number

/-- How a call that changes a column goes, what it answers and the database it leaves. -/
inductive Updates (now : Moment) (actor id : String) (name type order : Value) (db : Database) :
    Except Failure Column → Database → Prop where
  /-- The actor has no such column. -/
  | absent {why : Failure} (h : Catalog.ownColumn actor id db = .error why) :
      Updates now actor id name type order db (.error why) db
  /-- There is no such type. -/
  | unread {c : Column} {why : Failure} (hown : Catalog.ownColumn actor id db = .ok c)
      (hnull : type.isNull = false) (h : ColumnType.parse type = .error why) :
      Updates now actor id name type order db (.error why) db
  /-- Nothing is to be converted, and the record is refused. -/
  | rejected {c : Column} {why : Failure} (hown : Catalog.ownColumn actor id db = .ok c)
      (hkeeps : ¬ Converts type c) (h : Catalog.editedColumn name type order c = .error why) :
      Updates now actor id name type order db (.error why) db
  /-- Nothing is to be converted, and the record is written. -/
  | edited {c c' : Column} (hown : Catalog.ownColumn actor id db = .ok c)
      (hkeeps : ¬ Converts type c) (h : Catalog.editedColumn name type order c = .ok c') :
      Updates now actor id name type order db (.ok c') (db.withColumn c')
  /-- Some cell cannot be converted. -/
  | stuck {c : Column} {why : Failure} (hown : Catalog.ownColumn actor id db = .ok c)
      (hconverts : Converts type c)
      (h : retypeFailure now id (Rows.byPosition c.table db.rows) = .error why) :
      Updates now actor id name type order db (.error why) db
  /-- The cells are converted, and then the record is refused. -/
  | halfDone {c : Column} {why : Failure} (hown : Catalog.ownColumn actor id db = .ok c)
      (hconverts : Converts type c)
      (hrows : retypeFailure now id (Rows.byPosition c.table db.rows) = .ok ())
      (h : Catalog.editedColumn name type order c = .error why) :
      Updates now actor id name type order db (.error why)
        (db.withRows (retypedRows now c.table id db.rows))
  /-- The cells are converted and the record is written. -/
  | retyped {c c' : Column} (hown : Catalog.ownColumn actor id db = .ok c)
      (hconverts : Converts type c)
      (hrows : retypeFailure now id (Rows.byPosition c.table db.rows) = .ok ())
      (h : Catalog.editedColumn name type order c = .ok c') :
      Updates now actor id name type order db (.ok c')
        ((db.withRows (retypedRows now c.table id db.rows)).withColumn c')

end Workspace

namespace Catalog

variable {actor id : String} {name type order : Value} {s : Surroundings} {w : World}
  {db : Database} {c c' : Column}

theorem find?_of_findColumn (h : findColumn id db = .ok c) :
    db.columns.find? (fun c => c.id == id) = some c := by
  rw [findColumn] at h
  split at h
  · rename_i hfind
    rw [hfind, Except.ok.inj h]
  · cases h

theorem id_of_findColumn (h : findColumn id db = .ok c) : c.id = id := by
  simpa using List.find?_some (find?_of_findColumn h)

theorem mem_of_findColumn (h : findColumn id db = .ok c) : c ∈ db.columns :=
  List.mem_of_find?_eq_some (find?_of_findColumn h)

theorem findColumn_of_own (h : ownColumn actor id db = .ok c) : findColumn id db = .ok c := by
  obtain ⟨c', hc', h⟩ := ok_of_bind h
  obtain ⟨_, _, h⟩ := ok_of_bind h
  rw [hc', Except.ok.inj h]

/-- A column that an actor comes by is there. -/
theorem mem_of_ownColumn (h : ownColumn actor id db = .ok c) : c ∈ db.columns ∧ c.id = id :=
  ⟨mem_of_findColumn (findColumn_of_own h), id_of_findColumn (findColumn_of_own h)⟩

theorem editedColumn_eq (name type order : Value) (c : Column) : editedColumn name type order c =
    ((if name.isNull then pure c.name else columnNameOf name) >>= fun name =>
      (if type.isNull then pure c.type else ColumnType.parse type) >>= fun type =>
        (if order.isNull then pure c.order else orderOf order) >>= fun order =>
          Ledger.storable order >>= fun order =>
            pure { c with name := name, type := type, order := order }) := by
  rw [editedColumn]
  cases name.isNull <;> cases type.isNull <;> cases order.isNull <;> rfl

/-- What becomes of a record : it stays in its place, with the type that is given. -/
theorem fields_of_editedColumn (h : editedColumn name type order c = .ok c') :
    c'.id = c.id ∧ c'.table = c.table ∧ c'.createdAt = c.createdAt ∧
      (c'.type = c.type ∧ type.isNull = true ∨ ColumnType.parse type = .ok c'.type) := by
  rw [editedColumn_eq] at h
  obtain ⟨name', _, h⟩ := ok_of_bind h
  obtain ⟨type', htype, h⟩ := ok_of_bind h
  obtain ⟨order', _, h⟩ := ok_of_bind h
  obtain ⟨order'', _, h⟩ := ok_of_bind h
  obtain rfl := Except.ok.inj h
  refine ⟨rfl, rfl, rfl, ?_⟩
  by_cases hnull : type.isNull = true
  · rw [if_pos hnull] at htype
    exact .inl ⟨(Except.ok.inj htype).symm, hnull⟩
  · rw [if_neg hnull] at htype
    exact .inr htype

/-- The record is checked and written in one transaction. -/
theorem run_updateColumn (name type order : Value) (hw : w.storage = .ready db)
    (h : findColumn id db = .ok c) :
    updateColumn id name type order s w =
      match editedColumn name type order c with
      | .ok c' => (.ok c', w.withDatabase (db.withColumn c'))
      | .error why => (.error why, w) := by
  rw [updateColumn, Action.run_transaction hw]
  simp only [h]
  rcases hedit : editedColumn name type order c with why | c'
  · simp [hedit, bind, Except.bind]
  · have hid := (fields_of_editedColumn hedit).1.trans (id_of_findColumn h)
    simp [hedit, bind, Except.bind, pure, Except.pure, Database.withColumn, hid]

end Catalog

namespace Workspace

variable {actor id : String} {name type order : Value} {s : Surroundings} {w : World}
  {db : Database} {c c' : Column}

/-- The first part of a call : the cells of a text column that is to hold numbers. -/
def conversion (id : String) (type : Value) (c : Column) : Action Unit :=
  if type.isNull then pure ()
  else liftM (ColumnType.parse type) >>= fun target =>
    if target = .number && c.type ≠ .number then
      Action.now >>= fun now => Action.transaction (retyped now c.table id)
    else pure ()

theorem updateColumn_eq (actor id : String) (name type order : Value) :
    updateColumn actor id name type order = Catalog.getColumn id >>= fun c =>
      Catalog.ensureOwner actor c.table >>= fun _ => conversion id type c >>= fun _ =>
        Catalog.updateColumn id name type order >>= fun c' => pure c'.toValue := by
  rw [updateColumn]
  refine bind_congr fun c => bind_congr fun _ => ?_
  rw [conversion]
  cases type.isNull with
  | true => rfl
  | false =>
    simp only [Bool.not_false, if_true, Bool.false_eq_true, if_false, bind_assoc]
    refine bind_congr fun target => ?_
    split
    · rw [bind_assoc]
    · rw [pure_bind]

theorem run_conversion_of_unread {why : Failure} (hnull : type.isNull = false)
    (h : ColumnType.parse type = .error why) : conversion id type c s w = (.error why, w) := by
  rw [conversion, hnull, h]
  rfl

theorem run_conversion_of_keeps (hkeeps : ¬ Converts type c)
    (hread : type.isNull = true ∨ ∃ target, ColumnType.parse type = .ok target) :
    conversion id type c s w = (.ok (), w) := by
  rw [conversion]
  rcases hnull : type.isNull with _ | _
  · obtain ⟨target, h⟩ := hread.resolve_left (by simp [hnull])
    have hnot : ¬ (target = .number && c.type ≠ .number) = true := by
      intro hboth
      obtain ⟨rfl, hne⟩ : target = .number ∧ c.type ≠ .number := by simpa using hboth
      exact hkeeps ⟨by cases htype : c.type <;> simp_all, h⟩
    rw [h, if_neg Bool.false_ne_true]
    refine (Action.run_bind_ok (Action.run_liftM _) _).trans ?_
    rw [if_neg hnot, Action.run_pure]
  · rfl

theorem isNull_of_converts (h : Converts type c) : type.isNull = false := by
  cases type with
  | null => exact absurd h.2 ColumnType.parse_null_ne
  | _ => rfl

theorem type_of_converts (hconverts : Converts type c)
    (h : Catalog.editedColumn name type order c = .ok c') : c'.type = .number := by
  obtain ⟨_, _, _, ⟨_, hnull⟩ | hparse⟩ := Catalog.fields_of_editedColumn h
  · rw [isNull_of_converts hconverts] at hnull
    cases hnull
  · exact Except.ok.inj (hparse.symm.trans hconverts.2)

/-- Without a conversion a column keeps its type, or a number column becomes a text column. -/
theorem types_of_editedColumn (hkeeps : ¬ Converts type c)
    (h : Catalog.editedColumn name type order c = .ok c') :
    c'.type = c.type ∨ c.type = .number ∧ c'.type = .text := by
  obtain ⟨_, _, _, ⟨htype, _⟩ | hparse⟩ := Catalog.fields_of_editedColumn h
  · exact .inl htype
  · rcases hold : c.type with _ | _ <;> rcases hnew : c'.type with _ | _ <;> simp
    exact hkeeps ⟨hold, hnew ▸ hparse⟩

theorem run_conversion_of_converts (id : String) (hw : w.storage = .ready db)
    (h : Converts type c) :
    conversion id type c s w =
      match retypeFailure s.now id (Rows.byPosition c.table db.rows) with
      | .ok () => (.ok (), w.withDatabase (db.withRows (retypedRows s.now c.table id db.rows)))
      | .error why => (.error why, w) := by
  have hboth : (ColumnType.number = .number && c.type ≠ .number) = true := by simp [h.1]
  rw [conversion, isNull_of_converts h, h.2, if_neg Bool.false_ne_true]
  refine (Action.run_bind_ok (Action.run_liftM _) _).trans ?_
  rw [if_pos hboth]
  refine (Action.run_bind_ok (Action.run_now) _).trans ?_
  rw [Action.run_transaction hw, retyped]
  rcases retypeFailure s.now id (Rows.byPosition c.table db.rows) with why | _ <;> rfl

/-- The gate in front of a call about a column. -/
theorem run_own_bind {α : Type} (hw : w.storage = .ready db) (f : Column → Action α) :
    (Catalog.getColumn id >>= fun c => Catalog.ensureOwner actor c.table >>= fun _ => f c) s w =
      match Catalog.ownColumn actor id db with
      | .ok c => f c s w
      | .error why => (.error why, w) := by
  have hget : Catalog.getColumn id s w = (Catalog.findColumn id db, w) := Action.run_query hw _
  rw [Action.run_bind, hget, Catalog.ownColumn]
  rcases Catalog.findColumn id db with why | c
  · rfl
  · have howner : Catalog.ensureOwner actor c.table s w =
        (Catalog.ownedTable actor c.table db, w) := Action.run_query hw _
    simp only [Action.run_bind, howner]
    show _ = match (Catalog.ownedTable actor c.table db >>= fun _ => pure c) with
      | .ok c => f c s w
      | .error why => (.error why, w)
    rcases Catalog.ownedTable actor c.table db with why | t <;> rfl

/-- Once the cells can be converted they are, whatever becomes of the record. -/
theorem run_updateColumn_of_converts (name order : Value) (hw : w.storage = .ready db)
    (hown : Catalog.ownColumn actor id db = .ok c) (hconverts : Converts type c)
    (hnumbers : ∀ r ∈ db.rows, r.table = c.table → HasNumber id r) :
    updateColumn actor id name type order s w =
      match Catalog.editedColumn name type order c with
      | .ok c' => (.ok c'.toValue, w.withDatabase
          ((db.withRows (retypedRows s.now c.table id db.rows)).withColumn c'))
      | .error why =>
        (.error why, w.withDatabase (db.withRows (retypedRows s.now c.table id db.rows))) := by
  have hrun := run_conversion_of_converts id (s := s) hw hconverts
  rw [retypeFailure_byPosition_iff.mpr hnumbers] at hrun
  have hrecord := Catalog.run_updateColumn name type order
    (s := s) (storage_withDatabase w (db.withRows (retypedRows s.now c.table id db.rows)))
    (Catalog.findColumn_of_own hown)
  rw [updateColumn_eq, run_own_bind hw, hown]
  simp only
  rw [Action.run_bind_ok hrun]
  rcases hedit : Catalog.editedColumn name type order c with why | c' <;> rw [hedit] at hrecord
  · exact Action.run_bind_error hrecord _
  · exact Action.run_bind_ok hrecord _

/-- A call to change a column goes in one of these ways. -/
theorem updates (actor id : String) (name type order : Value) (hw : w.storage = .ready db) :
    ∃ r db',
    updateColumn actor id name type order s w = (r.map Column.toValue, w.withDatabase db') ∧
      Updates s.now actor id name type order db r db' := by
  rcases hown : Catalog.ownColumn actor id db with why | c
  · refine ⟨.error why, db, ?_, .absent hown⟩
    rw [updateColumn_eq, run_own_bind hw, hown, withDatabase_self hw]
    rfl
  by_cases hconverts : Converts type c
  · rcases hrows : retypeFailure s.now id (Rows.byPosition c.table db.rows) with why | _
    · refine ⟨.error why, db, ?_, .stuck hown hconverts hrows⟩
      have hrun := run_conversion_of_converts id (s := s) hw hconverts
      rw [hrows] at hrun
      rw [updateColumn_eq, run_own_bind hw, hown, withDatabase_self hw]
      exact Action.run_bind_error hrun _
    · have hrun := run_updateColumn_of_converts name order (s := s) hw hown
        hconverts (retypeFailure_byPosition_iff.mp hrows)
      rcases hedit : Catalog.editedColumn name type order c with why | c' <;> rw [hedit] at hrun
      · exact ⟨.error why, _, hrun, .halfDone hown hconverts hrows hedit⟩
      · exact ⟨.ok c', _, hrun, .retyped hown hconverts hrows hedit⟩
  rw [updateColumn_eq, run_own_bind hw, hown]
  simp only
  -- The type is read before the record is, so a name that is no type decides first.
  by_cases hread : type.isNull = true ∨ ∃ target, ColumnType.parse type = .ok target
  · have hrecord := Catalog.run_updateColumn name type order
      (s := s) hw (Catalog.findColumn_of_own hown)
    rw [Action.run_bind_ok (run_conversion_of_keeps hconverts hread)]
    rcases hedit : Catalog.editedColumn name type order c with why | c' <;> rw [hedit] at hrecord
    · refine ⟨.error why, db, ?_, .rejected hown hconverts hedit⟩
      rw [withDatabase_self hw]
      exact Action.run_bind_error hrecord _
    · exact ⟨.ok c', _, Action.run_bind_ok hrecord _, .edited hown hconverts hedit⟩
  · obtain ⟨hnull, hparse⟩ := not_or.mp hread
    rcases h : ColumnType.parse type with why | target
    · have hnull : type.isNull = false := by simpa using hnull
      refine ⟨.error why, db, ?_, .unread hown hnull h⟩
      rw [withDatabase_self hw]
      exact Action.run_bind_error (run_conversion_of_unread hnull h) _
    · exact absurd ⟨target, h⟩ hparse

/-! ## All or nothing -/

/-- A call of the actor that comes to convert a text : the column is his, it is to hold numbers
from now on, each of its cells can be one, and one of them is a text. -/
def RewritesTexts (actor id : String) (type : Value) (db : Database) : Prop :=
  ∃ c, Catalog.ownColumn actor id db = .ok c ∧ Converts type c ∧
    (∀ r ∈ db.rows, r.table = c.table → HasNumber id r) ∧ HoldsText c.table id db.rows

theorem rewritesTexts_iff (hown : Catalog.ownColumn actor id db = .ok c)
    (hconverts : Converts type c) : RewritesTexts actor id type db ↔
      (∀ r ∈ db.rows, r.table = c.table → HasNumber id r) ∧ HoldsText c.table id db.rows := by
  constructor
  · rintro ⟨c', hown', _, h⟩
    rwa [Except.ok.inj (hown.symm.trans hown')]
  · exact fun h => ⟨c, hown, hconverts, h⟩

theorem not_rewritesTexts_of_keeps (hown : Catalog.ownColumn actor id db = .ok c)
    (hkeeps : ¬ Converts type c) : ¬ RewritesTexts actor id type db := by
  rintro ⟨c', hown', hconverts, _⟩
  rw [Except.ok.inj (hown.symm.trans hown')] at hkeeps
  exact hkeeps hconverts

theorem Updates.of_error {now : Moment} {why : Failure} {db' : Database}
    (h : Updates now actor id name type order db (.error why) db') :
    db' = db ∧ ¬ RewritesTexts actor id type db ∨
      db' = db.withRows db'.rows ∧ db'.rows.map Row.payload ≠ db.rows.map Row.payload ∧
        RewritesTexts actor id type db := by
  cases h with
  | absent h =>
    refine .inl ⟨rfl, fun ⟨c, hown, _⟩ => ?_⟩
    rw [h] at hown
    cases hown
  | unread hown _ h =>
    refine .inl ⟨rfl, not_rewritesTexts_of_keeps hown fun hconverts => ?_⟩
    rw [hconverts.2] at h
    cases h
  | rejected hown hkeeps _ => exact .inl ⟨rfl, not_rewritesTexts_of_keeps hown hkeeps⟩
  | stuck hown hconverts h =>
    refine .inl ⟨rfl, fun hrewrites => ?_⟩
    rw [retypeFailure_byPosition_iff.mpr ((rewritesTexts_iff hown hconverts).mp hrewrites).1] at h
    cases h
  | @halfDone c _ hown hconverts hrows _ =>
    have hnumbers := retypeFailure_byPosition_iff.mp hrows
    by_cases hholds : HoldsText c.table id db.rows
    · exact .inr ⟨rfl, payloads_retypedRows_ne hnumbers hholds,
        (rewritesTexts_iff hown hconverts).mpr ⟨hnumbers, hholds⟩⟩
    · refine .inl ⟨by rw [retypedRows_eq_self hholds]; rfl, fun hrewrites => ?_⟩
      exact hholds ((rewritesTexts_iff hown hconverts).mp hrewrites).2

theorem Updates.of_ok {now : Moment} {db' : Database}
    (h : Updates now actor id name type order db (.ok c') db')
    (hfind : Catalog.findColumn id db = .ok c) (hconverts : Converts type c) :
    c'.id = c.id ∧ c'.table = c.table ∧ c'.type = .number ∧
      db' = (db.withRows db'.rows).withColumn c' ∧ RowsRetyped c.table id db.rows db'.rows := by
  cases h with
  | edited hown hkeeps _ =>
    obtain rfl := Except.ok.inj (hfind.symm.trans (Catalog.findColumn_of_own hown))
    exact absurd hconverts hkeeps
  | retyped hown _ hrows h =>
    obtain rfl := Except.ok.inj (hfind.symm.trans (Catalog.findColumn_of_own hown))
    obtain ⟨hid, htable, _⟩ := Catalog.fields_of_editedColumn h
    refine ⟨hid, htable, type_of_converts hconverts h, rfl, ?_⟩
    exact rowsRetyped_retypedRows _ (retypeFailure_byPosition_iff.mp hrows)

/-- A call that fails leaves everything as it was exactly if it does not come to convert a text,
and everything but the rows in any case. A call that succeeds in making a text column a number
column changes the record of the column, converts its cells and leaves everything else. -/
theorem updateColumn_keeps_iff (actor id : String) (name type order : Value) (s : Surroundings)
    (hw : w.storage = .ready db) : ∃ db',
    (updateColumn actor id name type order s w).2 = w.withDatabase db' ∧
      (∀ why, (updateColumn actor id name type order s w).1 = .error why →
        db' = db.withRows db'.rows ∧ (¬ RewritesTexts actor id type db → db' = db) ∧
          (db'.rows.map Row.payload = db.rows.map Row.payload ↔
            ¬ RewritesTexts actor id type db)) ∧
      ∀ c v, Catalog.findColumn id db = .ok c → Converts type c →
        (updateColumn actor id name type order s w).1 = .ok v →
          ∃ c', v = c'.toValue ∧ c'.id = c.id ∧ c'.table = c.table ∧ c'.type = .number ∧
            db' = (db.withRows db'.rows).withColumn c' ∧
              RowsRetyped c.table id db.rows db'.rows := by
  obtain ⟨r, db', hrun, hupdates⟩ := updates (s := s) actor id name type order hw
  rw [hrun]
  refine ⟨db', rfl, fun why hwhy => ?_, fun c v hfind hconverts hv => ?_⟩
  · rcases r with why' | c'
    · rcases hupdates.of_error with ⟨rfl, hnot⟩ | ⟨hdb, hne, hrewrites⟩
      · exact ⟨rfl, fun _ => rfl, by simp [hnot]⟩
      · exact ⟨hdb, fun hnot => absurd hrewrites hnot, by simp [hne, hrewrites]⟩
    · cases hwhy
  · rcases r with why' | c'
    · cases hv
    · obtain ⟨hid, htable, htype, hdb, hrows⟩ := hupdates.of_ok hfind hconverts
      exact ⟨c', (Except.ok.inj hv).symm, hid, htable, htype, hdb, hrows⟩

/-- A table of one row, with a text in a text column, in a base of an actor. -/
def textSample (text : String) : Database where
  bases := [⟨"b", "Base", "u", ⟨0⟩⟩]
  tables := [⟨"t", "b", "Table", ⟨0⟩⟩]
  columns := [⟨"c", "t", "Column", .text, 0, ⟨0⟩⟩]
  views := []
  rows := [⟨"r", "t", 0, ⟨[("c", .text text)], .compact⟩, ⟨0⟩, ⟨0⟩⟩]
  jobs := []

def textWorld (text : String) : World := ⟨.ready (textSample text), .entries [], 0, 0, 0, []⟩

def textSurroundings : Surroundings := ⟨⟨0⟩, .zero, fun k => toString k, fun k => k⟩

theorem converts_textSample : Converts (.text "NUMBER") ⟨"c", "t", "Column", .text, 0, ⟨0⟩⟩ :=
  ⟨rfl, ColumnType.parse_label .number⟩

theorem coerce_five : ColumnType.coerce .number (.text "5") = .ok (.int 5) := by
  have hread : Value.textNumber? "5" = some (.ofInt 5) := by decide +kernel
  have hwhole : (Binary64.ofInt 5).isInteger = true := by decide +kernel
  have hfive : (Binary64.ofInt 5).truncate = 5 := by decide +kernel
  refine ColumnType.coerce_number_text_iff.mpr (.inr ⟨by decide, _, hread, ?_⟩)
  rw [ColumnType.storedNumber, if_pos hwhole, hfive]

theorem hasNumber_five : ∀ r ∈ (textSample "5").rows, r.table = "t" → HasNumber "c" r := by
  intro r hr _ old hold
  obtain rfl := List.mem_singleton.mp hr
  obtain rfl := Option.some.inj hold
  exact ⟨_, coerce_five⟩

/-- What a call does that is to make the column a number column. -/
theorem run_updateColumn_five (order : Value) :
    updateColumn "u" "c" .null (.text "NUMBER") order textSurroundings (textWorld "5") =
      match Catalog.editedColumn .null (.text "NUMBER") order
          ⟨"c", "t", "Column", .text, 0, ⟨0⟩⟩ with
      | .ok c' => (.ok c'.toValue, (textWorld "5").withDatabase (((textSample "5").withRows
          (retypedRows ⟨0⟩ "t" "c" (textSample "5").rows)).withColumn c'))
      | .error why => (.error why, (textWorld "5").withDatabase
          ((textSample "5").withRows (retypedRows ⟨0⟩ "t" "c" (textSample "5").rows))) :=
  run_updateColumn_of_converts _ _ rfl rfl converts_textSample hasNumber_five

/-- The text 5 becomes a number with its column. -/
theorem updateColumn_keeps_five : ∃ db',
    (updateColumn "u" "c" .null (.text "NUMBER") .null textSurroundings (textWorld "5")).2 =
        (textWorld "5").withDatabase db' ∧
      RowsRetyped "t" "c" (textSample "5").rows db'.rows := by
  obtain ⟨db', hrun, _, hok⟩ := updateColumn_keeps_iff "u" "c" .null (.text "NUMBER") .null
    textSurroundings (show (textWorld "5").storage = .ready (textSample "5") from rfl)
  have hedit : Catalog.editedColumn .null (.text "NUMBER") .null
      ⟨"c", "t", "Column", .text, 0, ⟨0⟩⟩ = .ok ⟨"c", "t", "Column", .number, 0, ⟨0⟩⟩ := by
    rw [Catalog.editedColumn_eq, converts_textSample.2]
    rfl
  have hanswer := congrArg Prod.fst (run_updateColumn_five .null)
  rw [hedit] at hanswer
  obtain ⟨_, _, _, _, _, _, hrows⟩ := hok _ _ rfl converts_textSample hanswer
  exact ⟨db', hrun, hrows⟩

/-- The text 5 becomes a number for good although the order is refused. -/
theorem updateColumn_rejected_five : ∃ db',
    updateColumn "u" "c" .null (.text "NUMBER") (.int (-1)) textSurroundings (textWorld "5") =
        (.error (.invalid .columnOrder), (textWorld "5").withDatabase db') ∧
      db'.rows.map Row.payload ≠ (textSample "5").rows.map Row.payload := by
  have hedit : Catalog.editedColumn .null (.text "NUMBER") (.int (-1))
      ⟨"c", "t", "Column", .text, 0, ⟨0⟩⟩ = .error (.invalid .columnOrder) := by
    rw [Catalog.editedColumn_eq, converts_textSample.2]
    rfl
  have hrun := run_updateColumn_five (.int (-1))
  rw [hedit] at hrun
  refine ⟨_, hrun, payloads_retypedRows_ne hasNumber_five ?_⟩
  exact ⟨_, List.mem_singleton_self _, rfl, "5", rfl⟩

end Workspace

end Tabula
