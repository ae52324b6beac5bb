import Tabula.Proofs.Operations

/-!
# What a database takes over

A database that an operation leaves takes over names, jobs and rows from the one before.
`Database.Inherits` says what else may come in : names of a kind, and jobs whose ids are ids of
jobs. `Database.Thins` says besides that no row comes in : rows go, or their cells are written
anew, but what stays keeps its id, its table and its position, and its place among the others.

All operations but those that add rows thin the database (`Operation.thins_perform`), and names
that come in are tidy as names are trimmed (`Text.isTidy_trim`), those of views apart, which are
looked at less closely.
-/

namespace Tabula

open Store Tabula.Action

/-! ## Tidy names -/

namespace Text

/-- A text that has a first and a last character, neither of which is blank. -/
structure IsTidy (s : String) : Prop where
  ne_nil : s.toList ≠ []
  head : ∀ c ∈ s.toList.head?, isBlank c = false
  last : ∀ c ∈ s.toList.getLast?, isBlank c = false

theorem head_dropWhile {p : Char → Bool} {cs : List Char} {c : Char}
    (h : c ∈ (cs.dropWhile p).head?) : p c = false := by
  have hnot := List.head?_dropWhile_not p cs
  rw [Option.mem_def.mp h] at hnot
  simpa using hnot

theorem isTidy_trim {s : String} (h : isBlankText s = false) : IsTidy (trim s) := by
  have hfront : s.toList.dropWhile isBlank ≠ [] := by
    rw [ne_eq, List.dropWhile_eq_nil_iff]
    intro hall
    rw [isBlankText, List.all_eq_true.mpr hall] at h
    cases h
  have hhead : ∀ c ∈ (s.toList.dropWhile isBlank).head?, isBlank c = false :=
    fun c hc => head_dropWhile hc
  have htrim : (trim s).toList =
      ((s.toList.dropWhile isBlank).reverse.dropWhile isBlank).reverse := by
    rw [trim, String.toList_ofList, trimChars]
  generalize s.toList.dropWhile isBlank = front at hfront hhead htrim
  have hback : front.reverse.dropWhile isBlank ≠ [] := by
    rw [ne_eq, List.dropWhile_eq_nil_iff]
    intro hall
    obtain ⟨c, rest, rfl⟩ := List.exists_cons_of_ne_nil hfront
    exact Bool.false_ne_true ((hhead c rfl).symm.trans
      (hall c (List.mem_reverse.mpr List.mem_cons_self)))
  refine ⟨?_, fun c hc => ?_, fun c hc => ?_⟩
  · rw [htrim]
    exact List.reverse_ne_nil_iff.mpr hback
  · -- what is cut off the end leaves the first character
    rw [htrim, List.head?_reverse] at hc
    obtain ⟨cut, hcut⟩ := List.dropWhile_suffix (l := front.reverse) isBlank
    refine hhead c ?_
    rw [← List.getLast?_reverse, ← hcut, List.getLast?_append_of_ne_nil _ hback]
    exact hc
  · rw [htrim, List.getLast?_reverse] at hc
    exact head_dropWhile hc

/-- Names that are numbered are tidy. -/
theorem isTidy_columnName (n : Nat) : IsTidy ("Column " ++ toString n) := by
  have hdigits : n.repr.toList ≠ [] := by
    rw [Nat.toList_repr]
    exact Nat.toDigits_ne_nil
  have hlist : ("Column " ++ toString n).toList = "Column ".toList ++ n.repr.toList := by
    rw [String.toList_append]
    rfl
  refine ⟨?_, fun c hc => ?_, fun c hc => ?_⟩
  · rw [hlist]
    exact List.append_ne_nil_of_right_ne_nil _ hdigits
  · rw [hlist] at hc
    obtain rfl : 'C' = c := Option.some.inj hc
    decide
  · rw [hlist, List.getLast?_append_of_ne_nil _ hdigits, Nat.toList_repr] at hc
    have hdigit := Nat.isDigit_of_mem_toDigits (by decide) (by decide) (List.mem_of_getLast? hc)
    rw [Char.isDigit_iff_toNat] at hdigit
    rw [Bool.eq_false_iff]
    intro hblank
    obtain ⟨r, hr, hin⟩ := inRanges_eq_true_iff.mp hblank
    simp only [blankRanges, List.mem_cons, List.not_mem_nil, or_false] at hr
    rcases hr with rfl | rfl | rfl | rfl | rfl | rfl | rfl | rfl | rfl | rfl <;>
      simp at hin hdigit <;> omega

end Text

namespace Catalog

open Text

theorem isTidy_nameOf {what : Entity} {name : Value} {n : String} (h : nameOf what name = .ok n) :
    IsTidy n := by
  cases name with
  | text s =>
    unfold nameOf at h
    split at h
    · cases h
    · dsimp only at h
      split at h
      · cases h
      · rename_i hblank
        obtain rfl := Except.ok.inj h
        exact isTidy_trim (by simpa using hblank)
  | _ =>
    unfold nameOf at h
    split at h <;> cases h

theorem isTidy_columnNameOf {name : Value} {n : String} (h : columnNameOf name = .ok n) :
    IsTidy n := by
  rw [columnNameOf] at h
  split at h
  · cases h
  · rename_i hblank
    obtain rfl := Except.ok.inj h
    exact isTidy_trim (by simpa using hblank)

end Catalog

/-! ## What is taken over -/

/-- The names of all records. -/
def Database.names (db : Database) : List String :=
  db.bases.map Base.name ++ db.tables.map Table.name ++ db.columns.map Column.name ++
    db.views.map View.name

/-- Where a row stands. -/
def Row.place (r : Row) : String × String × Int := (r.id, r.table, r.position)

/-- Rows of which some are gone, and others have been written anew in their places. -/
def Store.Rows.Thinned (rows rows' : Rows) : Prop :=
  (rows'.map Row.place).Sublist (rows.map Row.place)

/-- A database with names and jobs of another one, and besides these names of some kind and new
jobs. -/
structure Database.Inherits (IsName : String → Prop) (db db' : Database) : Prop where
  bases : ∀ b ∈ db'.bases, b ∈ db.bases ∨ IsName b.name
  tables : ∀ t ∈ db'.tables, t ∈ db.tables ∨ IsName t.name
  columns : ∀ c ∈ db'.columns, (∃ old ∈ db.columns, old.name = c.name) ∨ IsName c.name
  views : ∀ v ∈ db'.views, (∃ old ∈ db.views, old.name = v.name) ∨ IsName v.name
  jobs : ∀ j ∈ db'.jobs,
    (∃ old ∈ db.jobs, old.id = j.id) ∨ ∃ token, j.id = "job" ++ "_" ++ token

/-- Besides, no row is new. -/
structure Database.Thins (IsName : String → Prop) (db db' : Database) : Prop
    extends Inherits IsName db db' where
  rows : Rows.Thinned db.rows db'.rows

namespace Store.Rows

variable {rows : Rows}

theorem thinned_filter (p : Row → Bool) : Thinned rows (rows.filter p) :=
  List.filter_sublist.map Row.place

theorem thinned_map {g : Row → Row} (h : ∀ r, (g r).place = r.place) : Thinned rows (rows.map g) := by
  rw [Thinned, List.map_map, show Row.place ∘ g = Row.place from funext h]

theorem thinned_write (now : Moment) (id : String) (payload : Payload) :
    Thinned rows (write now id payload rows) := by
  refine thinned_map fun r => ?_
  split <;> rfl

theorem thinned_removeKey (now : Moment) (table column : String) :
    Thinned rows (removeKey now table column rows) := by
  refine thinned_map fun r => ?_
  split <;> rfl

theorem thinned_withoutCell (now : Moment) (table column : String) :
    Thinned rows (withoutCell now table column rows) := by
  refine thinned_map fun r => ?_
  split <;> rfl

theorem thinned_retypedRows (now : Moment) (table column : String) :
    Thinned rows (Workspace.retypedRows now table column rows) := by
  refine thinned_map fun r => ?_
  split
  · split
    · rename_i r' hr'
      have hretyped := Workspace.retyped_of_retypedRow hr'
      rw [Row.place, hretyped.id, hretyped.table, hretyped.position, Row.place]
    · rfl
  · rfl

end Store.Rows

namespace Database

variable {IsName : String → Prop} {db db' : Database}

theorem mem_names {n : String} : n ∈ db.names ↔ (∃ b ∈ db.bases, b.name = n) ∨
    (∃ t ∈ db.tables, t.name = n) ∨ (∃ c ∈ db.columns, c.name = n) ∨
      ∃ v ∈ db.views, v.name = n := by
  simp only [names, List.mem_append, List.mem_map, or_assoc]

theorem Inherits.names (h : Inherits IsName db db') : ∀ n ∈ db'.names, n ∈ db.names ∨ IsName n := by
  intro n hn
  rcases mem_names.mp hn with ⟨b, hb, rfl⟩ | ⟨t, ht, rfl⟩ | ⟨c, hc, rfl⟩ | ⟨v, hv, rfl⟩
  · exact (h.bases b hb).imp_left fun hb => mem_names.mpr (.inl ⟨b, hb, rfl⟩)
  · exact (h.tables t ht).imp_left fun ht => mem_names.mpr (.inr (.inl ⟨t, ht, rfl⟩))
  · exact (h.columns c hc).imp_left fun hc => mem_names.mpr (.inr (.inr (.inl hc)))
  · exact (h.views v hv).imp_left fun hv => mem_names.mpr (.inr (.inr (.inr hv)))

theorem Thins.refl (IsName : String → Prop) (db : Database) : Thins IsName db db where
  bases _ := .inl
  tables _ := .inl
  columns c hc := .inl ⟨c, hc, rfl⟩
  views v hv := .inl ⟨v, hv, rfl⟩
  jobs j hj := .inl ⟨j, hj, rfl⟩
  rows := List.Sublist.refl _

theorem thins_retypedRows (IsName : String → Prop) (now : Moment) (table column : String) :
    Thins IsName db (db.withRows (Workspace.retypedRows now table column db.rows)) :=
  { Thins.refl IsName db with rows := Rows.thinned_retypedRows now table column }

/-- A column gets the name of one that was there, or another one. -/
theorem Thins.withColumn {c c' : Column} (h : Thins IsName db db') (hc : c ∈ db.columns)
    (hname : c'.name = c.name ∨ IsName c'.name) (hkeeps : db'.columns = db.columns) :
    Thins IsName db (db'.withColumn c') := by
  refine { h with columns := fun d hd => ?_ }
  obtain ⟨d, hd', rfl⟩ := List.mem_map.mp hd
  split
  · exact hname.imp_left fun hname => ⟨c, hc, hname.symm⟩
  · exact .inl ⟨d, hkeeps ▸ hd', rfl⟩

end Database

/-! ## Operations that add no row -/

namespace Workspace

variable {s : Surroundings} {w : World} {db : Database} {IsName : String → Prop}
  (hnames : ∀ n, Text.IsTidy n → IsName n)

include hnames

theorem thins_createBase (hw : w.storage = .ready db) (owner : Option String) (name : Value) :
    Leaves (db.Thins IsName) (createBase owner name) s w := by
  refine leaves_map ?_
  refine leaves_lift_bind hw (.refl _ db) fun n hn => ?_
  refine (isQuiet_newId _).leaves_bind hw (.refl _ db) fun id w₁ _ hw₁ => ?_
  refine isQuiet_now.leaves_bind hw₁ (.refl _ db) fun now w₂ _ hw₂ => ?_
  refine leaves_transaction hw₂ (.refl _ db) fun b db' h => ?_
  obtain ⟨o, _, h⟩ := ok_of_bind h
  obtain ⟨_, rfl⟩ := Prod.mk.inj (Except.ok.inj h)
  refine { Database.Thins.refl IsName db with
    bases := List.forall_mem_append.mpr ⟨fun _ => .inl, ?_⟩ }
  exact List.forall_mem_singleton.mpr (.inr (hnames _ (Catalog.isTidy_nameOf hn)))

theorem thins_createColumn (hw : w.storage = .ready db) (table : String)
    (name type order : Value) :
    Leaves (db.Thins IsName) (Catalog.createColumn (some table) name type order) s w := by
  unfold Catalog.createColumn
  split
  · exact (isQuiet_throw _).leaves hw (.refl _ db)
  refine leaves_lift_bind hw (.refl _ db) fun n hn => ?_
  refine leaves_lift_bind hw (.refl _ db) fun order _ => ?_
  refine (isQuiet_newId _).leaves_bind hw (.refl _ db) fun id w₁ _ hw₁ => ?_
  refine leaves_lift_bind hw₁ (.refl _ db) fun type _ => ?_
  refine isQuiet_now.leaves_bind hw₁ (.refl _ db) fun now w₂ _ hw₂ => ?_
  refine leaves_transaction hw₂ (.refl _ db) fun c db' h => ?_
  obtain ⟨_, _, h⟩ := ok_of_bind h
  obtain ⟨_, _, h⟩ := ok_of_bind h
  obtain ⟨_, rfl⟩ := Prod.mk.inj (Except.ok.inj h)
  refine { Database.Thins.refl IsName db with
    columns := List.forall_mem_append.mpr ⟨fun c hc => .inl ⟨c, hc, rfl⟩, ?_⟩ }
  exact List.forall_mem_singleton.mpr (.inr (hnames _ (Catalog.isTidy_columnNameOf hn)))

theorem thins_addColumn (hw : w.storage = .ready db) (actor table : String)
    (name type order : Value) :
    Leaves (db.Thins IsName) (addColumn actor table name type order) s w := by
  refine leaves_query_bind hw (.refl _ db) fun t ht => ?_
  have hmade := fun order => leaves_map (f := Column.toValue)
    (thins_createColumn (s := s) hnames hw table name type order)
  dsimp only
  split
  · exact leaves_query_bind hw (.refl _ db) fun columns _ => hmade _
  · exact hmade order

/-- A column that is changed keeps its name or gets a tidy one. -/
theorem name_of_editedColumn {name type order : Value} {c c' : Column}
    (h : Catalog.editedColumn name type order c = .ok c') : c'.name = c.name ∨ IsName c'.name := by
  rw [Catalog.editedColumn_eq] at h
  obtain ⟨n, hn, h⟩ := ok_of_bind h
  obtain ⟨_, _, h⟩ := ok_of_bind h
  obtain ⟨_, _, h⟩ := ok_of_bind h
  obtain ⟨_, _, h⟩ := ok_of_bind h
  obtain rfl := Except.ok.inj h
  split at hn
  · exact .inl (Except.ok.inj hn).symm
  · exact .inr (hnames _ (Catalog.isTidy_columnNameOf hn))

theorem Updates.thins {now : Moment} {actor id : String} {name type order : Value}
    {r : Except Failure Column} {db' : Database}
    (h : Updates now actor id name type order db r db') : db.Thins IsName db' := by
  cases h with
  | absent | unread | rejected | stuck => exact .refl _ db
  | halfDone => exact Database.thins_retypedRows IsName now _ id
  | edited hown _ hedit =>
    exact (Database.Thins.refl _ db).withColumn (Catalog.mem_of_ownColumn hown).1
      (name_of_editedColumn hnames hedit) rfl
  | retyped hown _ _ hedit =>
    exact (Database.thins_retypedRows IsName now _ id).withColumn (Catalog.mem_of_ownColumn hown).1
      (name_of_editedColumn hnames hedit) rfl

theorem thins_updateColumn (hw : w.storage = .ready db) (actor id : String)
    (name type order : Value) :
    Leaves (db.Thins IsName) (updateColumn actor id name type order) s w := by
  obtain ⟨r, db', hrun, hupdates⟩ := updates (s := s) actor id name type order hw
  exact leaves_of_eq hrun rfl (hupdates.thins hnames)

theorem thins_createView (hw : w.storage = .ready db) (actor table : String)
    (name filter sort : Value) :
    Leaves (db.Thins IsName) (createView actor table name filter sort) s w := by
  refine leaves_query_bind hw (.refl _ db) fun t ht => ?_
  refine (isQuiet_keptConfigs _ _ _).leaves_bind hw (.refl _ db) fun kept w₁ _ hw₁ => ?_
  refine leaves_map ?_
  refine leaves_lift_bind hw₁ (.refl _ db) fun n hn => ?_
  refine (isQuiet_newId _).leaves_bind hw₁ (.refl _ db) fun id w₂ _ hw₂ => ?_
  refine isQuiet_now.leaves_bind hw₂ (.refl _ db) fun now w₃ _ hw₃ => ?_
  refine leaves_transaction hw₃ (.refl _ db) fun v db' h => ?_
  obtain ⟨_, _, h⟩ := ok_of_bind h
  obtain ⟨_, _, h⟩ := ok_of_bind h
  obtain ⟨_, _, h⟩ := ok_of_bind h
  obtain ⟨_, rfl⟩ := Prod.mk.inj (Except.ok.inj h)
  refine { Database.Thins.refl IsName db with
    views := List.forall_mem_append.mpr ⟨fun v hv => .inl ⟨v, hv, rfl⟩, ?_⟩ }
  exact List.forall_mem_singleton.mpr (.inr (hnames _ (Catalog.isTidy_nameOf hn)))

omit hnames

theorem thins_deleteTable (IsName : String → Prop) (hw : w.storage = .ready db)
    (actor id : String) : Leaves (db.Thins IsName) (deleteTable actor id) s w := by
  refine leaves_query_bind hw (.refl _ db) fun t _ => ?_
  refine leaves_transaction hw (.refl _ db) fun _ db' h => ?_
  obtain ⟨_, rfl⟩ := Prod.mk.inj (Except.ok.inj h)
  exact { Database.Thins.refl IsName db with
    tables := fun t ht => .inl (List.mem_filter.mp ht).1
    columns := fun c hc => .inl ⟨c, (List.mem_filter.mp hc).1, rfl⟩
    views := fun v hv => .inl ⟨v, (List.mem_filter.mp hv).1, rfl⟩
    jobs := fun j hj => .inl ⟨j, (List.mem_filter.mp hj).1, rfl⟩
    rows := Rows.thinned_filter _ }

theorem thins_deleteColumn (IsName : String → Prop) (hw : w.storage = .ready db)
    (actor id : String) : Leaves (db.Thins IsName) (deleteColumn actor id) s w := by
  have hrun := run_deleteColumn (s := s) actor id hw
  rcases hown : Catalog.ownColumn actor id db with why | c <;> rw [hown] at hrun
  · exact leaves_of_eq hrun hw (.refl _ db)
  · exact leaves_of_eq hrun rfl { Database.Thins.refl IsName db with
      columns := fun d hd => .inl ⟨d, (List.mem_filter.mp hd).1, rfl⟩
      rows := Rows.thinned_removeKey s.now c.table c.id }

theorem thins_updateCell (IsName : String → Prop) (hw : w.storage = .ready db)
    (actor row : String) (column value : Value) :
    Leaves (db.Thins IsName) (updateCell actor row column value) s w := by
  refine leaves_lookup_bind hw (.refl _ db) fun r hr => ?_
  refine leaves_query_bind hw (.refl _ db) fun t ht => ?_
  refine leaves_query_bind hw (.refl _ db) fun types _ => ?_
  refine leaves_lift_bind hw (.refl _ db) fun cell _ => ?_
  refine leaves_map ?_
  refine isQuiet_now.leaves_bind hw (.refl _ db) fun now w₁ _ hw₁ => ?_
  refine leaves_rowStore (leaves_transaction hw₁ (.refl _ db) fun r' db' h => ?_)
  obtain ⟨_, _, h⟩ := ok_of_bind h
  obtain ⟨_, _, h⟩ := ok_of_bind h
  obtain ⟨_, rfl⟩ := Prod.mk.inj (Except.ok.inj h)
  exact { Database.Thins.refl IsName db with rows := Rows.thinned_write now row _ }

theorem thins_deleteRow (IsName : String → Prop) (hw : w.storage = .ready db)
    (actor row : String) : Leaves (db.Thins IsName) (deleteRow actor row) s w := by
  refine leaves_lookup_bind hw (.refl _ db) fun r _ => ?_
  refine leaves_query_bind hw (.refl _ db) fun t _ => ?_
  refine leaves_rowStore (leaves_transaction hw (.refl _ db) fun _ db' h => ?_)
  obtain ⟨_, _, h⟩ := ok_of_bind h
  obtain ⟨_, rfl⟩ := Prod.mk.inj (Except.ok.inj h)
  exact { Database.Thins.refl IsName db with rows := Rows.thinned_filter _ }

/-- A view that is changed keeps its name or gets the one that is given, trimmed. -/
theorem name_of_viewNameOf {old n : String} {name : Value}
    (hname : ∀ t, name = .text t → t ≠ "" → IsName (Text.trim t))
    (h : Catalog.viewNameOf old name = .ok n) : n = old ∨ IsName n := by
  unfold Catalog.viewNameOf at h
  split at h
  · exact .inl (Except.ok.inj h).symm
  · rename_i htruthy
    cases name with
    | text t =>
      refine .inr (Except.ok.inj h ▸ hname t rfl ?_)
      rintro rfl
      exact htruthy rfl
    | _ => cases h

theorem thins_updateView (hw : w.storage = .ready db) (actor id : String) {name : Value}
    (hname : ∀ t, name = .text t → t ≠ "" → IsName (Text.trim t)) (filter sort : Value) :
    Leaves (db.Thins IsName) (updateView actor id name filter sort) s w := by
  refine leaves_query_bind hw (.refl _ db) fun view hview => ?_
  refine leaves_query_bind hw (.refl _ db) fun t _ => ?_
  refine (isQuiet_keptConfigs _ _ _).leaves_bind hw (.refl _ db) fun kept w₁ _ hw₁ => ?_
  refine leaves_map ?_
  refine leaves_transaction hw₁ (.refl _ db) fun v db' h => ?_
  obtain ⟨old, hold, h⟩ := ok_of_bind h
  obtain ⟨n, hn, h⟩ := ok_of_bind h
  obtain ⟨_, _, h⟩ := ok_of_bind h
  obtain ⟨_, _, h⟩ := ok_of_bind h
  obtain ⟨_, rfl⟩ := Prod.mk.inj (Except.ok.inj h)
  refine { Database.Thins.refl IsName db with views := fun v hv => ?_ }
  obtain ⟨v, hv', rfl⟩ := List.mem_map.mp hv
  split
  · exact (name_of_viewNameOf hname hn).imp_left fun hn =>
      ⟨old, (Catalog.mem_of_findView hold).1, hn.symm⟩
  · exact .inl ⟨v, hv', rfl⟩

end Workspace

namespace Ingestion

theorem thins_start {s : Surroundings} {w : World} {db : Database} (IsName : String → Prop)
    (hw : w.storage = .ready db) {announce : String → Action Unit}
    (hannounce : ∀ job, IsQuiet (announce job)) (actor table : String) (total : Value) :
    Leaves (db.Thins IsName) (start announce actor table total) s w := by
  refine leaves_lift_bind hw (.refl _ db) fun _ _ => ?_
  refine leaves_query_bind hw (.refl _ db) fun t _ => ?_
  have hmade : Leaves (db.Thins IsName) (Jobs.create table total) s w := by
    refine leaves_lift_bind hw (.refl _ db) fun total _ => ?_
    refine leaves_bind ((isQuiet_newId _).leaves hw (.refl _ db)) fun id w₁ hid => ?_
    have hw₁ := ((isQuiet_newId _).storage_eq hid).trans hw
    obtain ⟨hid', _⟩ := Prod.mk.inj hid
    refine isQuiet_now.leaves_bind hw₁ (.refl _ db) fun now w₂ _ hw₂ => ?_
    refine leaves_transaction hw₂ (.refl _ db) fun j db' h => ?_
    obtain ⟨⟨j', jobs⟩, hjobs, h⟩ := ok_of_bind h
    obtain ⟨_, rfl⟩ := Prod.mk.inj (Except.ok.inj h)
    obtain ⟨_, _, hjobs⟩ := ok_of_bind hjobs
    obtain ⟨_, _, hjobs⟩ := ok_of_bind hjobs
    obtain ⟨_, _, hjobs⟩ := ok_of_bind hjobs
    obtain ⟨_, rfl⟩ := Prod.mk.inj (Except.ok.inj hjobs)
    refine { Database.Thins.refl IsName db with
      jobs := List.forall_mem_append.mpr ⟨fun j hj => .inl ⟨j, hj, rfl⟩, ?_⟩ }
    exact List.forall_mem_singleton.mpr (.inr ⟨_, (Except.ok.inj hid').symm⟩)
  refine leaves_bind hmade fun job w' h => ?_
  obtain ⟨db', hdb', hthins⟩ := hmade
  rw [h] at hdb'
  exact (isQuiet_bind (isQuiet_attempt (hannounce job.id)) fun _ => isQuiet_pure _).leaves hdb'
    hthins

end Ingestion

namespace Operation

variable {s : Surroundings} {w : World} {db : Database} {IsName : String → Prop}

/-- Whether the operation may add rows. -/
def AddsRows : Operation → Prop
  | createTable _ _ _ => True
  | insertRows _ _ _ => True
  | runJob _ _ => True
  | runPending _ _ => True
  | _ => False

/-- The names that an operation gives to views it changes, trimmed as they are. -/
def GivesName (name : String) : Operation → Prop
  | updateView _ _ given _ _ => ∃ t, given = .text t ∧ t ≠ "" ∧ name = Text.trim t
  | _ => False

/-- An operation that adds no row thins the database. -/
theorem thins_perform (settings : Workspace.Settings) (hw : w.storage = .ready db)
    {op : Operation} (hsound : op.IsSound) (hrows : ¬ op.AddsRows)
    (hnames : ∀ n, Text.IsTidy n ∨ op.GivesName n → IsName n) :
    Leaves (db.Thins IsName) (op.perform settings) s w := by
  have htidy : ∀ n, Text.IsTidy n → IsName n := fun n hn => hnames n (.inl hn)
  cases op with
  | createBase actor name => exact leaves_map (Workspace.thins_createBase htidy hw actor name)
  | createTable | insertRows | runJob | runPending => exact absurd trivial hrows
  | deleteTable actor table => exact Workspace.thins_deleteTable IsName hw actor table
  | addColumn actor table name type order =>
    exact leaves_map (Workspace.thins_addColumn htidy hw actor table name type order)
  | updateColumn actor column name type order =>
    exact leaves_map (Workspace.thins_updateColumn htidy hw actor column name type order)
  | deleteColumn actor column =>
    exact leaves_map (Workspace.thins_deleteColumn IsName hw actor column)
  | updateCell actor row column value =>
    exact leaves_map (Workspace.thins_updateCell IsName hw actor row column value)
  | deleteRow actor row => exact Workspace.thins_deleteRow IsName hw actor row
  | createView actor table name filter sort =>
    exact leaves_map (Workspace.thins_createView htidy hw actor table name filter sort)
  | updateView actor view name filter sort =>
    exact leaves_map (Workspace.thins_updateView hw actor view
      (fun t ht hne => hnames _ (.inr ⟨t, ht, hne, rfl⟩)) filter sort)
  | startIngestion announce actor table total =>
    exact leaves_map (Ingestion.thins_start IsName hw hsound actor table total)
  -- the others only read
  | listBases => exact leaves_map (leaves_map ((isQuiet_query _).leaves hw (.refl _ db)))
  | getTable | listViews | getView =>
    exact leaves_map ((isQuiet_bind (isQuiet_query _) fun _ =>
      isQuiet_bind (isQuiet_query _) fun _ => isQuiet_pure _).leaves hw (.refl _ db))
  | listRows actor table filter sort limit offset =>
    exact leaves_map ((Workspace.isQuiet_listRows settings actor table filter sort limit
      offset).leaves hw (.refl _ db))
  | countRows actor table filter =>
    exact leaves_map ((Workspace.isQuiet_countRows actor table filter).leaves hw (.refl _ db))
  | listViewRows actor view limit offset =>
    exact leaves_map ((isQuiet_bind (isQuiet_query _) fun _ =>
      Workspace.isQuiet_listRows settings actor _ _ _ limit offset).leaves hw (.refl _ db))
  | search actor text limit =>
    exact leaves_map ((Workspace.isQuiet_search settings actor text limit).leaves hw (.refl _ db))

end Operation

end Tabula
