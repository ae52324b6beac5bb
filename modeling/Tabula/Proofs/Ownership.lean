import Tabula.Proofs.Integrity

/-!
# Who owns what

A record is owned by the owner of the base that it is under, and the owners part a database
(`Database.part`). Two databases are the same for an actor if they agree in his part, and in the
parts of others have the same ids (`Database.SameFor`). The other fields of what others own may
differ in any way.

What an actor finds under an id is then nothing in both, or the same record of his, or records of
one other owner (`Kind.found`). A `Kind` has what this takes of bases, tables, columns, views, rows
and jobs alike : where they are kept, their ids and their owners. So the gate is open for the same
tables (`SameFor.ownedTable_eq`), and behind it the same columns, views, rows and jobs are found.
-/

namespace Tabula

open Store

namespace Database

/-- The owner of a table : that of its base. -/
def owner (db : Database) (table : String) : Option String :=
  (db.tables.find? fun t => t.id == table).bind fun t => Catalog.ownerOf t db

/-- The records whose owner passes. -/
def part (p : Option String → Bool) (db : Database) : Database where
  bases := db.bases.filter fun b => p (some b.owner)
  tables := db.tables.filter fun t => p (Catalog.ownerOf t db)
  columns := db.columns.filter fun c => p (db.owner c.table)
  views := db.views.filter fun v => p (db.owner v.table)
  rows := db.rows.filter fun r => p (db.owner r.table)
  jobs := db.jobs.filter fun j => p (db.owner j.table)

/-- The records under the bases of an actor. -/
def under (actor : String) : Database → Database := part (· == some actor)

/-- All other records. -/
def apart (actor : String) : Database → Database := part (· != some actor)

/-- The ids of the records of each kind. -/
def idLists (db : Database) : List (List (Entity × String)) :=
  [db.bases.map fun b => (.base, b.id), db.tables.map fun t => (.table, t.id),
    db.columns.map fun c => (.column, c.id), db.views.map fun v => (.view, v.id),
    db.rows.map fun r => (.row, r.id), db.jobs.map fun j => (.job, j.id)]

/-- The ids of all records. -/
def ids (db : Database) : List (Entity × String) := db.idLists.flatten

/-- The tables that the records of each kind say they are of. -/
def referenceLists (db : Database) : List (List String) :=
  [db.columns.map Column.table, db.views.map View.table, db.rows.map Row.table,
    db.jobs.map Job.table]

/-- Two databases that an actor cannot tell apart : they have the same records under his bases, and
elsewhere the same ids with the same owners. -/
structure SameFor (actor : String) (db₁ db₂ : Database) : Prop where
  own : db₁.under actor = db₂.under actor
  ids : ∀ other, other ≠ actor → ∀ e, e ∈ (db₁.under other).ids ↔ e ∈ (db₂.under other).ids

/-- Ids are keys, and each record is of a table in a base. -/
structure IsOrderly (db : Database) : Prop where
  keys : db.ids.Nodup
  base : ∀ t ∈ db.tables, ∃ b ∈ db.bases, b.id = t.base
  table : ∀ table ∈ db.referenceLists.flatten, db.HasTable table
  named : ∀ t ∈ db.tables, t.id ≠ ""

namespace SameFor

variable {actor : String} {db₁ db₂ db₃ : Database}

theorem refl (actor : String) (db : Database) : SameFor actor db db :=
  ⟨rfl, fun _ _ _ => Iff.rfl⟩

theorem symm (h : SameFor actor db₁ db₂) : SameFor actor db₂ db₁ :=
  ⟨h.own.symm, fun other ho e => (h.ids other ho e).symm⟩

/-- The ids and owners are the same throughout. -/
theorem mem_ids (h : SameFor actor db₁ db₂) (o : String) (e : Entity × String) :
    e ∈ (db₁.under o).ids ↔ e ∈ (db₂.under o).ids := by
  by_cases ho : o = actor
  · rw [ho, h.own]
  · exact h.ids o ho e

end SameFor

/-! ## Owners of tables -/

variable {db : Database} {id o : String} {t : Table}

theorem IsOrderly.ne_empty_of_owner (h : db.IsOrderly) (ho : db.owner id = some o) : id ≠ "" := by
  obtain ⟨t, ht, _⟩ := Option.bind_eq_some_iff.mp ho
  obtain ⟨hmem, hid⟩ := mem_of_find?_eq_some ht
  exact hid ▸ h.named t hmem

theorem hasTable_of_owner (h : db.owner id = some o) : db.HasTable id := by
  obtain ⟨t, ht, _⟩ := Option.bind_eq_some_iff.mp h
  exact ⟨t, mem_of_find?_eq_some ht⟩

namespace IsOrderly

theorem exists_ownerOf (h : db.IsOrderly) (ht : t ∈ db.tables) :
    ∃ o, Catalog.ownerOf t db = some o := by
  obtain ⟨b, hb, hid⟩ := h.base t ht
  rcases hfind : db.bases.find? fun b => b.id == t.base with _ | b'
  · exact absurd hid (by simpa using List.find?_eq_none.mp hfind b hb)
  · exact ⟨b'.owner, by rw [Catalog.ownerOf, hfind, Option.map_some]⟩

theorem exists_owner (h : db.IsOrderly) (hid : db.HasTable id) : ∃ o, db.owner id = some o := by
  obtain ⟨t, ht, rfl⟩ := hid
  rcases hfind : db.tables.find? fun t' => t'.id == t.id with _ | t'
  · exact absurd (List.find?_eq_none.mp hfind t ht) (by simp)
  · obtain ⟨o, ho⟩ := h.exists_ownerOf (mem_of_find?_eq_some hfind).1
    exact ⟨o, by rw [Database.owner, hfind, Option.bind_some, ho]⟩

theorem exists_owner_of_mem {ρ : Type} {f : ρ → String} {xs : List ρ} (h : db.IsOrderly)
    (hxs : xs.map f ∈ db.referenceLists) {x : ρ} (hx : x ∈ xs) : ∃ o, db.owner (f x) = some o :=
  h.exists_owner (h.table _ (List.mem_flatten_of_mem hxs (List.mem_map_of_mem hx)))

end IsOrderly

end Database

/-! ## Kinds of records -/

/-- A kind of records, each with its id and its owner. -/
structure Kind (ρ : Type) where
  entity : Entity
  records : Database → List ρ
  id : ρ → String
  owner : Database → ρ → Option String
  part : ∀ p db, records (db.part p) = (records db).filter fun x => p (owner db x)
  keys : ∀ db, ((records db).map fun x => (entity, id x)).Sublist db.ids
  mem_keys : ∀ db i, (entity, i) ∈ db.ids → ∃ x ∈ records db, id x = i
  owned : ∀ db, db.IsOrderly → ∀ x ∈ records db, ∃ o, owner db x = some o

namespace Kind

open Database

def base : Kind Base where
  entity := .base
  records := Database.bases
  id := Base.id
  owner _ b := some b.owner
  part _ _ := rfl
  keys _ := List.sublist_flatten_of_mem (by simp [idLists])
  mem_keys _ i h := by simpa [Database.ids, idLists] using h
  owned _ _ b _ := ⟨b.owner, rfl⟩

def table : Kind Table where
  entity := .table
  records := Database.tables
  id := Table.id
  owner db t := Catalog.ownerOf t db
  part _ _ := rfl
  keys _ := List.sublist_flatten_of_mem (by simp [idLists])
  mem_keys _ i h := by simpa [Database.ids, idLists] using h
  owned _ h _ ht := h.exists_ownerOf ht

def column : Kind Column where
  entity := .column
  records := Database.columns
  id := Column.id
  owner db c := db.owner c.table
  part _ _ := rfl
  keys _ := List.sublist_flatten_of_mem (by simp [idLists])
  mem_keys _ i h := by simpa [Database.ids, idLists] using h
  owned _ h _ := h.exists_owner_of_mem (by simp [referenceLists])

def view : Kind View where
  entity := .view
  records := Database.views
  id := View.id
  owner db v := db.owner v.table
  part _ _ := rfl
  keys _ := List.sublist_flatten_of_mem (by simp [idLists])
  mem_keys _ i h := by simpa [Database.ids, idLists] using h
  owned _ h _ := h.exists_owner_of_mem (by simp [referenceLists])

def row : Kind Row where
  entity := .row
  records := Database.rows
  id := Row.id
  owner db r := db.owner r.table
  part _ _ := rfl
  keys _ := List.sublist_flatten_of_mem (by simp [idLists])
  mem_keys _ i h := by simpa [Database.ids, idLists] using h
  owned _ h _ := h.exists_owner_of_mem (by simp [referenceLists])

def job : Kind Job where
  entity := .job
  records := Database.jobs
  id := Job.id
  owner db j := db.owner j.table
  part _ _ := rfl
  keys _ := List.sublist_flatten_of_mem (by simp [idLists])
  mem_keys _ i h := by simpa [Database.ids, idLists] using h
  owned _ h _ := h.exists_owner_of_mem (by simp [referenceLists])

variable {ρ : Type} (K : Kind ρ) {actor : String} {db db₁ db₂ : Database}

theorem nodup (h : db.IsOrderly) : ((K.records db).map K.id).Nodup := by
  have hkeys := h.keys.sublist (K.keys db)
  exact (List.map_map (f := K.id) (g := Prod.mk K.entity) ▸ hkeys).of_map

theorem mem_under {x : ρ} : x ∈ K.records (db.under actor) ↔
    x ∈ K.records db ∧ K.owner db x = some actor := by
  rw [Database.under, K.part, List.mem_filter, beq_iff_eq]

theorem mem_keys_iff (i : String) : (K.entity, i) ∈ db.ids ↔ ∃ x ∈ K.records db, K.id x = i := by
  refine ⟨K.mem_keys db i, ?_⟩
  rintro ⟨x, hx, rfl⟩
  exact (K.keys db).subset (List.mem_map_of_mem hx)

/-- The record with an id. -/
def find? (id : String) (db : Database) : Option ρ := (K.records db).find? fun x => K.id x == id

/-- The record with an id, or the failure that there is none. -/
def lookup (id : String) (db : Database) : Except Failure ρ :=
  match K.find? id db with
  | some x => .ok x
  | none => .error (.notFound K.entity id)

theorem find?_eq_some (h : db.IsOrderly) {x : ρ} (hx : x ∈ K.records db) :
    K.find? (K.id x) db = some x :=
  find?_eq_some_of_nodup (K.nodup h) hx

/-- How a look-up ends in two databases that are the same for an actor. -/
inductive Found (K : Kind ρ) (actor id : String) (db₁ db₂ : Database) : Prop where
  | missing (h₁ : K.find? id db₁ = none) (h₂ : K.find? id db₂ = none)
  | own {x : ρ} (h₁ : K.find? id db₁ = some x) (h₂ : K.find? id db₂ = some x)
      (ho₁ : K.owner db₁ x = some actor) (ho₂ : K.owner db₂ x = some actor)
  | foreign {x₁ x₂ : ρ} {o : String} (h₁ : K.find? id db₁ = some x₁) (h₂ : K.find? id db₂ = some x₂)
      (ho₁ : K.owner db₁ x₁ = some o) (ho₂ : K.owner db₂ x₂ = some o) (ho : o ≠ actor)

theorem exists_find? (h : SameFor actor db₁ db₂) (h₁ : db₁.IsOrderly) (h₂ : db₂.IsOrderly)
    {id : String} {x : ρ} (hfind : K.find? id db₁ = some x) :
    ∃ y o, K.find? id db₂ = some y ∧ K.owner db₁ x = some o ∧ K.owner db₂ y = some o ∧
      (o = actor → y = x) := by
  obtain ⟨hx, rfl⟩ := mem_of_find?_eq_some hfind
  obtain ⟨o, ho⟩ := K.owned db₁ h₁ x hx
  have hmem := K.mem_under.mpr ⟨hx, ho⟩
  -- Its owner has the id in the other database too, and there it is the id of one record only.
  have hkey : (K.entity, K.id x) ∈ (db₁.under o).ids := (K.mem_keys_iff _).mpr ⟨x, hmem, rfl⟩
  rw [h.mem_ids] at hkey
  obtain ⟨y, hy, hid⟩ := (K.mem_keys_iff _).mp hkey
  obtain ⟨hy, hoy⟩ := K.mem_under.mp hy
  refine ⟨y, o, hid ▸ K.find?_eq_some h₂ hy, ho, hoy, ?_⟩
  rintro rfl
  rw [h.own] at hmem
  exact List.inj_on_of_nodup_map (K.nodup h₂) hy (K.mem_under.mp hmem).1 hid

theorem found (h : SameFor actor db₁ db₂) (h₁ : db₁.IsOrderly) (h₂ : db₂.IsOrderly) (id : String) :
    K.Found actor id db₁ db₂ := by
  rcases hfind₁ : K.find? id db₁ with _ | x
  · rcases hfind₂ : K.find? id db₂ with _ | y
    · exact .missing hfind₁ hfind₂
    · obtain ⟨x, _, hx, _⟩ := K.exists_find? h.symm h₂ h₁ hfind₂
      rw [hfind₁] at hx
      cases hx
  · obtain ⟨y, o, hfind₂, hox, hoy, heq⟩ := K.exists_find? h h₁ h₂ hfind₁
    by_cases ho : o = actor
    · obtain rfl := heq ho
      exact .own hfind₁ hfind₂ (ho ▸ hox) (ho ▸ hoy)
    · exact .foreign hfind₁ hfind₂ hox hoy ho

/-- The records of a table that is the actor's are the same. -/
theorem ofTable_eq (table : ρ → String) (howner : ∀ db x, K.owner db x = db.owner (table x))
    (h : SameFor actor db₁ db₂) {id : String} (ho₁ : db₁.owner id = some actor)
    (ho₂ : db₂.owner id = some actor) :
    (K.records db₁).filter (fun x => table x == id) =
      (K.records db₂).filter fun x => table x == id := by
  have hunder : ∀ {db : Database}, db.owner id = some actor →
      (K.records db).filter (fun x => table x == id) =
        (K.records (db.under actor)).filter fun x => table x == id := by
    intro db ho
    rw [Database.under, K.part, List.filter_filter]
    refine List.filter_congr fun x _ => ?_
    by_cases hx : table x = id <;> simp [howner, hx, ho]
  rw [hunder ho₁, hunder ho₂, h.own]

end Kind

/-! ## Look-ups

Whatever its kind, a record is looked up in the same way. -/

theorem findBase_eq (id : String) (db : Database) :
    Catalog.findBase id db = Kind.base.lookup id db := by
  have hfind : (db.bases.find? fun b => b.id == id) = Kind.base.find? id db := rfl
  rw [Catalog.findBase, hfind, Kind.lookup]
  cases Kind.base.find? id db <;> rfl

theorem findTable_eq (id : String) (db : Database) :
    Catalog.findTable id db = Kind.table.lookup id db := by
  have hfind : (db.tables.find? fun t => t.id == id) = Kind.table.find? id db := rfl
  rw [Catalog.findTable, hfind, Kind.lookup]
  cases Kind.table.find? id db <;> rfl

theorem findColumn_eq (id : String) (db : Database) :
    Catalog.findColumn id db = Kind.column.lookup id db := by
  have hfind : (db.columns.find? fun c => c.id == id) = Kind.column.find? id db := rfl
  rw [Catalog.findColumn, hfind, Kind.lookup]
  cases Kind.column.find? id db <;> rfl

theorem findView_eq (id : String) (db : Database) :
    Catalog.findView id db = Kind.view.lookup id db := by
  have hfind : (db.views.find? fun v => v.id == id) = Kind.view.find? id db := rfl
  rw [Catalog.findView, hfind, Kind.lookup]
  cases Kind.view.find? id db <;> rfl

theorem findRow_eq (id : String) (db : Database) :
    RowStore.find id db = Kind.row.lookup id db := by
  have hfind : db.rows.find? id = Kind.row.find? id db := rfl
  rw [RowStore.find, hfind, Kind.lookup]
  cases Kind.row.find? id db <;> rfl

theorem getJob_eq (id : String) (db : Database) : db.jobs.get id = Kind.job.lookup id db := by
  have hfind : db.jobs.find? id = Kind.job.find? id db := rfl
  rw [Ledger.get, hfind, Kind.lookup]
  cases Kind.job.find? id db <;> rfl

namespace Database

/-! ## What an actor finds -/

variable {actor id o : String} {db db₁ db₂ : Database}

theorem owner_eq_bind (id : String) (db : Database) :
    db.owner id = (Kind.table.find? id db).bind (Kind.table.owner db) := rfl

theorem IsOrderly.owner_id (h : db.IsOrderly) {t : Table} (ht : t ∈ db.tables) :
    db.owner t.id = Catalog.ownerOf t db :=
  congrArg (fun found => Option.bind found (Kind.table.owner db)) (Kind.table.find?_eq_some h ht)

theorem ownedTable_eq_bind (actor id : String) (db : Database) :
    Catalog.ownedTable actor id db =
      match Kind.table.find? id db with
      | none => .error (.notFound .table id)
      | some t =>
        match Kind.table.owner db t with
        | none => .error (.notFound .table id)
        | some owner => if owner = actor then .ok t else .error .forbidden := by
  rw [Catalog.ownedTable, findTable_eq, Kind.lookup]
  cases Kind.table.find? id db <;> rfl

theorem owner_of_ownedTable {t : Table} (h : Catalog.ownedTable actor id db = .ok t) :
    db.owner id = some actor := by
  rw [ownedTable_eq_bind] at h
  rw [owner_eq_bind]
  split at h
  · cases h
  · rename_i hfind
    split at h
    · cases h
    · rename_i howner
      split at h
      · rename_i heq
        rw [hfind, Option.bind_some, howner, heq]
      · cases h

theorem ownedTable_of_owner_ne (h : db.owner id = some o) (hne : o ≠ actor) :
    Catalog.ownedTable actor id db = .error .forbidden := by
  rw [owner_eq_bind] at h
  obtain ⟨t, hfind, howner⟩ := Option.bind_eq_some_iff.mp h
  rw [ownedTable_eq_bind, hfind]
  simp only [howner, if_neg hne]

namespace SameFor

section

variable (h : SameFor actor db₁ db₂) (h₁ : db₁.IsOrderly) (h₂ : db₂.IsOrderly)

include h h₁ h₂

/-- The gate is open for the same tables. -/
theorem ownedTable_eq (id : String) :
    Catalog.ownedTable actor id db₁ = Catalog.ownedTable actor id db₂ := by
  cases Kind.table.found h h₁ h₂ id with
  | missing hfind₁ hfind₂ => rw [ownedTable_eq_bind, ownedTable_eq_bind, hfind₁, hfind₂]
  | own hfind₁ hfind₂ ho₁ ho₂ =>
    rw [ownedTable_eq_bind, ownedTable_eq_bind, hfind₁, hfind₂]
    simp only [ho₁, ho₂]
  | foreign hfind₁ hfind₂ ho₁ ho₂ ho =>
    rw [ownedTable_eq_bind, ownedTable_eq_bind, hfind₁, hfind₂]
    simp only [ho₁, ho₂, if_neg ho]

theorem has_eq (id : String) : db₁.rows.has id = db₂.rows.has id := by
  have hhas : ∀ db : Database, db.rows.has id = (Kind.row.find? id db).isSome := fun db => by
    rw [Bool.eq_iff_iff, Rows.has_iff, Kind.find?, List.find?_isSome]
    simp [Kind.row]
  rw [hhas, hhas]
  cases Kind.row.found h h₁ h₂ id with
  | missing hfind₁ hfind₂ | own hfind₁ hfind₂ | foreign hfind₁ hfind₂ => simp [hfind₁, hfind₂]

end

section

variable (h : SameFor actor db₁ db₂) {table : String} (ho₁ : db₁.owner table = some actor)
  (ho₂ : db₂.owner table = some actor)

include h ho₁ ho₂

theorem columnsOf_eq : Catalog.columnsOf table db₁ = Catalog.columnsOf table db₂ :=
  congrArg (List.mergeSort · _)
    (Kind.column.ofTable_eq Column.table (fun _ _ => rfl) h ho₁ ho₂)

theorem typesOf_eq : Catalog.typesOf table db₁ = Catalog.typesOf table db₂ :=
  congrArg (List.map _) (h.columnsOf_eq ho₁ ho₂)

theorem viewsOf_eq : Catalog.viewsOf table db₁ = Catalog.viewsOf table db₂ :=
  congrArg (List.mergeSort · _)
    (Kind.view.ofTable_eq View.table (fun _ _ => rfl) h ho₁ ho₂)

theorem ofTable_eq : db₁.rows.ofTable table = db₂.rows.ofTable table :=
  Kind.row.ofTable_eq Row.table (fun _ _ => rfl) h ho₁ ho₂

theorem newestFirst_eq (hne : table ≠ "") :
    Ledger.newestFirst db₁.jobs (some table) = Ledger.newestFirst db₂.jobs (some table) := by
  have hof : Ledger.isOf (some table) = fun j : Job => j.table == table := by
    funext j
    simp [Ledger.isOf, hne]
  have hjobs := Kind.job.ofTable_eq Job.table (fun _ _ => rfl) h ho₁ ho₂
  rw [Ledger.newestFirst, Ledger.newestFirst, hof]
  exact congrArg (List.mergeSort · _) hjobs

end

theorem ownBases_eq (h : SameFor actor db₁ db₂) :
    Catalog.ownBases actor db₁ = Catalog.ownBases actor db₂ :=
  congrArg (fun db : Database => db.bases.mergeSort _) h.own

theorem tableIdsOf_eq (h : SameFor actor db₁ db₂) :
    Catalog.tableIdsOf actor db₁ = Catalog.tableIdsOf actor db₂ :=
  congrArg (fun db : Database => db.tables.map Table.id) h.own

end SameFor

theorem IsOrderly.contains_tableIdsOf (h : db.IsOrderly) (actor id : String) :
    (Catalog.tableIdsOf actor db).contains id = (db.owner id == some actor) := by
  rw [Bool.eq_iff_iff, List.contains_iff_mem, beq_iff_eq, Catalog.tableIdsOf, List.mem_map]
  constructor
  · rintro ⟨t, ht, rfl⟩
    obtain ⟨hmem, ho⟩ := List.mem_filter.mp ht
    exact (h.owner_id hmem).trans (beq_iff_eq.mp ho)
  · intro ho
    obtain ⟨t, hfind, ho⟩ := Option.bind_eq_some_iff.mp ho
    obtain ⟨hmem, hid⟩ := mem_of_find?_eq_some hfind
    exact ⟨t, List.mem_filter.mpr ⟨hmem, beq_iff_eq.mpr ho⟩, hid⟩

/-- The rows of the tables of an actor are those under his bases. -/
theorem IsOrderly.rows_under (h : db.IsOrderly) (actor : String) :
    db.rows.filter (fun r => (Catalog.tableIdsOf actor db).contains r.table) =
      (db.under actor).rows :=
  List.filter_congr fun r _ => h.contains_tableIdsOf actor r.table

end Database

end Tabula
