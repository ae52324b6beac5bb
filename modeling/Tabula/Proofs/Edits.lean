import Tabula.Proofs.Ownership

/-!
# Edits of an owner

All that a transaction of an actor makes of a database is one `Edit` : records are added, records
are changed but for their ids and tables, or a table, a column or a row is dropped. If it only
touches what is his (`Edit.IsOf`), then his part of the database is edited and every other part
stays (`Edit.part_apply`). The ids stay keys and records stay under tables
(`Edit.isOrderly_apply`). So one edit of two databases that are the same for him leaves them the
same for him (`Edit.sameFor_apply`).
-/

namespace Tabula

open Store

namespace Database

variable {db new : Database} {id o actor : String}

/-- The records of both. -/
def add (db new : Database) : Database :=
  ⟨db.bases ++ new.bases, db.tables ++ new.tables, db.columns ++ new.columns,
    db.views ++ new.views, db.rows ++ new.rows, db.jobs ++ new.jobs⟩

/-- New records under the bases of an actor, with ids that are not taken. -/
structure AddsFor (actor : String) (db new : Database) : Prop where
  base : ∀ b ∈ new.bases, b.owner = actor
  table : ∀ t ∈ new.tables, t.id ≠ "" ∧ Catalog.ownerOf t db = some actor
  references : ∀ table ∈ new.referenceLists.flatten,
    db.owner table = some actor ∨ ∃ t ∈ new.tables, t.id = table
  keys : new.ids.Nodup
  fresh : ∀ e ∈ new.ids, e ∉ db.ids

end Database

open Database

/-- What an actor may make of a database in one go. -/
inductive Edit where
  | add (new : Database)
  | changeColumns (f : Column → Column)
  | changeViews (f : View → View)
  | changeRows (f : Row → Row)
  | dropTable (id : String)
  | dropColumn (now : Moment) (c : Column)
  | dropRow (id : String)

namespace Edit

def apply : Edit → Database → Database
  | add new, db => db.add new
  | changeColumns f, db => { db with columns := db.columns.map f }
  | changeViews f, db => { db with views := db.views.map f }
  | changeRows f, db => { db with rows := db.rows.map f }
  | dropTable id, db => Workspace.withoutTable id db
  | dropColumn now c, db => db.withoutColumn now c
  | dropRow id, db => { db with rows := Rows.erase id db.rows }

/-- A change that keeps id and table of each record, and changes only records of an actor. -/
def ChangesFor {ρ : Type} (id table : ρ → String) (actor : String) (db : Database) (xs : List ρ)
    (f : ρ → ρ) : Prop :=
  ∀ x ∈ xs, id (f x) = id x ∧ table (f x) = table x ∧ (db.owner (table x) ≠ some actor → f x = x)

/-- The edit is one of records under the bases of an actor. -/
def IsOf (actor : String) (db : Database) : Edit → Prop
  | add new => AddsFor actor db new
  | changeColumns f => ChangesFor Column.id Column.table actor db db.columns f
  | changeViews f => ChangesFor View.id View.table actor db db.views f
  | changeRows f => ChangesFor Row.id Row.table actor db db.rows f
  | dropTable id => db.owner id = some actor
  | dropColumn _ c =>
    db.owner c.table = some actor ∧ ∀ d ∈ db.columns, d.id = c.id → d.table = c.table
  | dropRow id => ∀ r ∈ db.rows, r.id = id → db.owner r.table = some actor

end Edit

/-! ## Lists of records -/

section Lists

variable {ρ : Type} {xs ys : List ρ} {q q' keep : ρ → Bool} {b : Bool} {f : ρ → ρ}

theorem filter_append_of (xs : List ρ) (hx : ∀ x ∈ xs, q' x = q x) (hy : ∀ y ∈ ys, q' y = b) :
    (xs ++ ys).filter q' = if b then xs.filter q ++ ys else xs.filter q := by
  rw [List.filter_append, List.filter_congr hx]
  cases b with
  | true => rw [List.filter_eq_self.mpr hy, if_pos rfl]
  | false =>
    have hnone : ys.filter q' = [] := List.filter_eq_nil_iff.mpr (by simpa using hy)
    rw [hnone, List.append_nil, if_neg (by simp)]

theorem filter_map_of (hq : ∀ x ∈ xs, q (f x) = q x)
    (hf : b = false → ∀ x ∈ xs, q x = true → f x = x) :
    (xs.map f).filter q = if b then (xs.filter q).map f else xs.filter q := by
  have hmap : (xs.map f).filter q = (xs.filter q).map f := by
    rw [List.filter_map]
    exact congrArg (List.map f) (List.filter_congr hq)
  cases b with
  | true => rw [hmap, if_pos rfl]
  | false =>
    rw [hmap, if_neg (by simp)]
    refine (List.map_congr_left fun x hx => ?_).trans (List.map_id _)
    exact hf rfl x (List.mem_filter.mp hx).1 (List.mem_filter.mp hx).2

theorem filter_filter_of (hq : ∀ x ∈ xs, keep x = true → q' x = q x)
    (hkeep : b = false → ∀ x ∈ xs, q x = true → keep x = true) :
    (xs.filter keep).filter q' = if b then (xs.filter q).filter keep else xs.filter q := by
  rw [List.filter_filter]
  cases b with
  | true =>
    rw [if_pos rfl, List.filter_filter]
    refine List.filter_congr fun x hx => ?_
    by_cases hk : keep x = true
    · rw [hk, hq x hx hk, Bool.and_true, Bool.true_and]
    · simp [hk]
  | false =>
    rw [if_neg (by simp)]
    refine List.filter_congr fun x hx => ?_
    by_cases hk : keep x = true
    · rw [hk, hq x hx hk, Bool.and_true]
    · have : q x = false := by
        rw [← Bool.not_eq_true]
        exact fun h => hk (hkeep rfl x hx h)
      simp [hk, this]

end Lists

/-! ## Owners after an edit -/

namespace Database

variable {db new : Database} {id o actor : String} {t : Table}

theorem ownerOf_add (h : Catalog.ownerOf t db = some o) :
    Catalog.ownerOf t (db.add new) = some o := by
  obtain ⟨b, hb, rfl⟩ := Option.map_eq_some_iff.mp h
  rw [Catalog.ownerOf, add, List.find?_append, hb]
  rfl

theorem owner_add (h : db.owner id = some o) : (db.add new).owner id = some o := by
  obtain ⟨t, ht, ho⟩ := Option.bind_eq_some_iff.mp h
  have hfind : (db.add new).tables.find? (fun t => t.id == id) = some t := by
    rw [add, List.find?_append, ht]
    rfl
  rw [owner, hfind, Option.bind_some, ownerOf_add ho]

/-- The tables that are added are the actor's. -/
theorem AddsFor.owner_of_mem (h : AddsFor actor db new) (ht : t ∈ new.tables) :
    (db.add new).owner t.id = some actor := by
  have hnone : db.tables.find? (fun t' => t'.id == t.id) = none := by
    refine List.find?_eq_none.mpr fun t' ht' => ?_
    rw [beq_iff_eq]
    intro hid
    refine h.fresh (.table, t.id) ?_ ?_
    · exact (Kind.table.mem_keys_iff t.id).mpr ⟨t, ht, rfl⟩
    · exact (Kind.table.mem_keys_iff t.id).mpr ⟨t', ht', hid⟩
  rcases hfind : new.tables.find? (fun t' => t'.id == t.id) with _ | t'
  · exact absurd (List.find?_eq_none.mp hfind t ht) (by simp)
  · have hfound : (db.add new).tables.find? (fun t' => t'.id == t.id) = some t' := by
      rw [add, List.find?_append, hnone, hfind]
      rfl
    rw [owner, hfound, Option.bind_some]
    exact ownerOf_add (h.table t' (mem_of_find?_eq_some hfind).1).2

/-- Whatever is added and refers to a table is the actor's. -/
theorem AddsFor.owner_of_reference (h : AddsFor actor db new) {table : String}
    (htable : table ∈ new.referenceLists.flatten) : (db.add new).owner table = some actor := by
  rcases h.references table htable with ho | ⟨t, ht, hid⟩
  · exact owner_add ho
  · rw [← hid]
    exact h.owner_of_mem ht

theorem owner_withoutTable {table : String} (h : table ≠ id) :
    (Workspace.withoutTable id db).owner table = db.owner table := by
  have hfind : (db.tables.filter fun t => t.id != id).find? (fun t => t.id == table) =
      db.tables.find? fun t => t.id == table := by
    rw [List.find?_filter]
    refine congrArg (List.find? · db.tables) (funext fun t => ?_)
    by_cases ht : t.id = table <;> simp [ht, h]
  exact congrArg (Option.bind · _) hfind

end Database

/-! ## What is the actor's and what is not -/

namespace Edit

variable {actor : String} {db : Database} {p : Option String → Bool}

theorem part_add (h : db.IsOrderly) {new : Database} (hnew : AddsFor actor db new) :
    (db.add new).part p = if p (some actor) then (db.part p).add new else db.part p := by
  have hnewBases : ∀ b ∈ new.bases, p (some b.owner) = p (some actor) := fun b hb => by
    rw [hnew.base b hb]
  have hbases := filter_append_of db.bases (fun _ _ => rfl) hnewBases
  have holdTables : ∀ t ∈ db.tables,
      p (Catalog.ownerOf t (db.add new)) = p (Catalog.ownerOf t db) := fun t ht => by
    obtain ⟨o, ho⟩ := h.exists_ownerOf ht
    rw [ho, ownerOf_add ho]
  have hnewTables : ∀ t ∈ new.tables,
      p (Catalog.ownerOf t (db.add new)) = p (some actor) := fun t ht => by
    rw [ownerOf_add (hnew.table t ht).2]
  have htables := filter_append_of db.tables holdTables hnewTables
  -- The other records have the owners of their tables.
  have hheld : ∀ {ρ : Type} (f : ρ → String) (xs ys : List ρ), xs.map f ∈ db.referenceLists →
      ys.map f ∈ new.referenceLists →
        (xs ++ ys).filter (fun x => p ((db.add new).owner (f x))) =
          if p (some actor) then xs.filter (fun x => p (db.owner (f x))) ++ ys
          else xs.filter fun x => p (db.owner (f x)) := by
    intro ρ f xs ys hxs hys
    refine filter_append_of xs (fun x hx => ?_) fun y hy => ?_
    · obtain ⟨o, ho⟩ := h.exists_owner_of_mem hxs hx
      rw [ho, owner_add ho]
    · rw [hnew.owner_of_reference (List.mem_flatten_of_mem hys (List.mem_map_of_mem hy))]
  have hcolumns := hheld Column.table db.columns new.columns (by simp [referenceLists])
    (by simp [referenceLists])
  have hviews := hheld View.table db.views new.views (by simp [referenceLists])
    (by simp [referenceLists])
  have hrows := hheld Row.table db.rows new.rows (by simp [referenceLists])
    (by simp [referenceLists])
  have hjobs := hheld Job.table db.jobs new.jobs (by simp [referenceLists])
    (by simp [referenceLists])
  refine ((Database.mk.injEq ..).mpr ⟨hbases, htables, hcolumns, hviews, hrows, hjobs⟩).trans ?_
  cases p (some actor) <;> rfl

theorem ChangesFor.filter_map {ρ : Type} {id table : ρ → String} {xs : List ρ} {f : ρ → ρ}
    (h : ChangesFor id table actor db xs f) :
    (xs.map f).filter (fun x => p (db.owner (table x))) =
      if p (some actor) then (xs.filter fun x => p (db.owner (table x))).map f
      else xs.filter fun x => p (db.owner (table x)) := by
  refine filter_map_of (fun x hx => by rw [(h x hx).2.1]) fun hb x hx hq => (h x hx).2.2 ?_
  intro ho
  rw [ho, hb] at hq
  cases hq

/-- What is dropped was the actor's. -/
theorem filter_filter_of_owner {ρ : Type} (p : Option String → Bool)
    {owner owner' : ρ → Option String} {keep : ρ → Bool} {xs : List ρ}
    (howner : ∀ x ∈ xs, keep x = true → owner' x = owner x)
    (hdrop : ∀ x ∈ xs, keep x = false → owner x = some actor) :
    (xs.filter keep).filter (fun x => p (owner' x)) =
      if p (some actor) then (xs.filter fun x => p (owner x)).filter keep
      else xs.filter fun x => p (owner x) := by
  refine filter_filter_of (fun x hx hk => by rw [howner x hx hk]) fun hb x hx hq => ?_
  rw [← Bool.not_eq_false]
  intro hk
  rw [hdrop x hx hk, hb] at hq
  cases hq

theorem part_dropTable (h : db.IsOrderly) {id : String} (ho : db.owner id = some actor) :
    (Workspace.withoutTable id db).part p =
      if p (some actor) then Workspace.withoutTable id (db.part p) else db.part p := by
  have hheld : ∀ {ρ : Type} (table : ρ → String) (xs : List ρ),
      (xs.filter fun x => table x != id).filter
          (fun x => p ((Workspace.withoutTable id db).owner (table x))) =
        if p (some actor) then
          (xs.filter fun x => p (db.owner (table x))).filter fun x => table x != id
        else xs.filter fun x => p (db.owner (table x)) := by
    intro ρ table xs
    refine filter_filter_of_owner p (fun x _ hk => owner_withoutTable (bne_iff_ne.mp hk))
      fun x _ hk => ?_
    rw [show table x = id by simpa using hk, ho]
  have hdropped : ∀ t ∈ db.tables, (t.id != id) = false → Catalog.ownerOf t db = some actor := by
    intro t ht hk
    have hid : t.id = id := by simpa using hk
    rw [← h.owner_id ht, hid, ho]
  have htables := filter_filter_of_owner p (fun _ _ _ => rfl) hdropped
  refine ((Database.mk.injEq ..).mpr ⟨rfl, htables, hheld Column.table db.columns,
    hheld View.table db.views, hheld Row.table db.rows, hheld Job.table db.jobs⟩).trans ?_
  cases p (some actor) <;> rfl

theorem part_dropColumn {now : Moment} {c : Column} (ho : db.owner c.table = some actor)
    (hc : ∀ d ∈ db.columns, d.id = c.id → d.table = c.table) :
    (db.withoutColumn now c).part p =
      if p (some actor) then (db.part p).withoutColumn now c else db.part p := by
  have hdropped : ∀ d ∈ db.columns, (d.id != c.id) = false → db.owner d.table = some actor :=
    fun d hd hk => by rw [hc d hd (by simpa using hk), ho]
  have hcolumns := filter_filter_of_owner p (fun _ _ _ => rfl) hdropped
  have hchanges : ChangesFor Row.id Row.table actor db db.rows fun r =>
      if r.table == c.table && hasKey r.payload c.id then
        { r with payload := removeKey r.payload c.id, updatedAt := now }
      else r := by
    intro r _
    dsimp only
    split
    · rename_i hkey
      refine ⟨rfl, rfl, fun hne => absurd ?_ hne⟩
      rw [beq_iff_eq.mp (Bool.and_eq_true_iff.mp hkey).1, ho]
    · exact ⟨rfl, rfl, fun _ => rfl⟩
  refine ((Database.mk.injEq ..).mpr
    ⟨rfl, rfl, hcolumns, rfl, hchanges.filter_map, rfl⟩).trans ?_
  cases p (some actor) <;> rfl

/-- An edit of an actor edits what is his, and leaves everything else. -/
theorem part_apply (h : db.IsOrderly) {e : Edit} (he : e.IsOf actor db) :
    (e.apply db).part p = if p (some actor) then e.apply (db.part p) else db.part p := by
  cases e with
  | add new => exact part_add h he
  | changeColumns f =>
    refine (congrArg (fun columns => { db.part p with columns := columns })
      (ChangesFor.filter_map he)).trans ?_
    cases p (some actor) <;> rfl
  | changeViews f =>
    refine (congrArg (fun views => { db.part p with views := views })
      (ChangesFor.filter_map he)).trans ?_
    cases p (some actor) <;> rfl
  | changeRows f =>
    refine (congrArg (fun rows => { db.part p with rows := rows })
      (ChangesFor.filter_map he)).trans ?_
    cases p (some actor) <;> rfl
  | dropTable id => exact part_dropTable h he
  | dropColumn now c => exact part_dropColumn he.1 he.2
  | dropRow id =>
    have hdropped : ∀ r ∈ db.rows, (r.id != id) = false → db.owner r.table = some actor :=
      fun r hr hk => he r hr (by simpa using hk)
    have hrows := filter_filter_of_owner p (fun _ _ _ => rfl) hdropped
    refine (congrArg (fun rows => { db.part p with rows := rows }) hrows).trans ?_
    cases p (some actor) <;> rfl

/-! ## Order -/

theorem mem_references {table : String} :
    table ∈ db.referenceLists.flatten ↔
      (∃ c ∈ db.columns, c.table = table) ∨ (∃ v ∈ db.views, v.table = table) ∨
        (∃ r ∈ db.rows, r.table = table) ∨ ∃ j ∈ db.jobs, j.table = table := by
  simp [referenceLists]

theorem mem_references_add {new : Database} {table : String}
    (h : table ∈ (db.add new).referenceLists.flatten) :
    table ∈ db.referenceLists.flatten ∨ table ∈ new.referenceLists.flatten := by
  simp only [referenceLists, Database.add, List.map_append, List.flatten_cons, List.flatten_nil,
    List.mem_append] at h ⊢
  tauto

theorem perm_ids_add (db new : Database) : (db.add new).ids.Perm (db.ids ++ new.ids) := by
  refine List.perm_iff_count.mpr fun e => ?_
  simp only [ids, idLists, Database.add, List.map_append, List.flatten_cons, List.flatten_nil,
    List.count_append, List.count_nil]
  omega

theorem isOrderly_add (h : db.IsOrderly) {new : Database} (hnew : AddsFor actor db new) :
    (db.add new).IsOrderly := by
  have hhas : ∀ {table : String}, db.HasTable table → (db.add new).HasTable table :=
    fun ⟨t, ht, hid⟩ => ⟨t, List.mem_append_left _ ht, hid⟩
  refine ⟨?_, fun t ht => ?_, fun table htable => ?_, fun t ht => ?_⟩
  · rw [(perm_ids_add db new).nodup_iff, List.nodup_append']
    exact ⟨h.keys, hnew.keys, fun e he he' => hnew.fresh e he' he⟩
  · have hbase : ∃ b ∈ db.bases, b.id = t.base := by
      rcases List.mem_append.mp ht with ht | ht
      · exact h.base t ht
      · obtain ⟨b, hb, _⟩ := Option.map_eq_some_iff.mp (hnew.table t ht).2
        exact ⟨b, mem_of_find?_eq_some hb⟩
    obtain ⟨b, hb, hid⟩ := hbase
    exact ⟨b, List.mem_append_left _ hb, hid⟩
  · rcases mem_references_add htable with htable | htable
    · exact hhas (h.table table htable)
    · rcases hnew.references table htable with ho | ⟨t, ht, hid⟩
      · exact hhas (hasTable_of_owner ho)
      · exact ⟨t, List.mem_append_right _ ht, hid⟩
  · rcases List.mem_append.mp ht with ht | ht
    · exact h.named t ht
    · exact (hnew.table t ht).1

/-- Records that go, and records that change but for their ids. -/
theorem sublist_ids {db' : Database} (hbases : db'.bases = db.bases)
    (htables : db'.tables.Sublist db.tables)
    (hcolumns : (db'.columns.map Column.id).Sublist (db.columns.map Column.id))
    (hviews : (db'.views.map View.id).Sublist (db.views.map View.id))
    (hrows : (db'.rows.map Row.id).Sublist (db.rows.map Row.id))
    (hjobs : (db'.jobs.map Job.id).Sublist (db.jobs.map Job.id)) : db'.ids.Sublist db.ids := by
  have hpairs : ∀ {ρ : Type} {f : ρ → String} {xs xs' : List ρ} (entity : Entity),
      (xs'.map f).Sublist (xs.map f) →
        (xs'.map fun x => (entity, f x)).Sublist (xs.map fun x => (entity, f x)) := by
    intro ρ f xs xs' entity hsublist
    have hmap := hsublist.map (Prod.mk entity)
    rwa [List.map_map, List.map_map] at hmap
  simp only [ids, idLists, List.flatten_cons, List.flatten_nil]
  rw [hbases]
  exact (List.Sublist.refl _).append ((htables.map _).append ((hpairs _ hcolumns).append
    ((hpairs _ hviews).append ((hpairs _ hrows).append ((hpairs _ hjobs).append (.refl _))))))

theorem isOrderly_of_tables_eq {db' : Database} (h : db.IsOrderly) (hbases : db'.bases = db.bases)
    (htables : db'.tables = db.tables) (hids : db'.ids.Sublist db.ids)
    (hreferences : db'.referenceLists.flatten ⊆ db.referenceLists.flatten) : db'.IsOrderly := by
  refine ⟨h.keys.sublist hids, ?_, fun table htable => ?_, ?_⟩
  · rw [hbases, htables]
    exact h.base
  · rw [HasTable, htables]
    exact h.table table (hreferences htable)
  · rw [htables]
    exact h.named

theorem ChangesFor.sublist_ids {ρ : Type} {id table : ρ → String} {xs : List ρ} {f : ρ → ρ}
    (h : ChangesFor id table actor db xs f) : ((xs.map f).map id).Sublist (xs.map id) := by
  have hids : xs.map (id ∘ f) = xs.map id := List.map_congr_left fun x hx => (h x hx).1
  rw [List.map_map, hids]

theorem ChangesFor.map_table {ρ : Type} {id table : ρ → String} {xs : List ρ} {f : ρ → ρ}
    (h : ChangesFor id table actor db xs f) : (xs.map f).map table = xs.map table := by
  rw [List.map_map]
  exact List.map_congr_left fun x hx => (h x hx).2.1

theorem isOrderly_withoutTable (h : db.IsOrderly) (id : String) :
    (Workspace.withoutTable id db).IsOrderly := by
  have hids : (Workspace.withoutTable id db).ids.Sublist db.ids :=
    sublist_ids rfl List.filter_sublist (List.filter_sublist.map _) (List.filter_sublist.map _)
      (List.filter_sublist.map _) (List.filter_sublist.map _)
  refine ⟨h.keys.sublist hids, fun t ht => h.base t (List.mem_filter.mp ht).1,
    fun table htable => ?_, fun t ht => h.named t (List.mem_filter.mp ht).1⟩
  obtain ⟨hold, hne⟩ : table ∈ db.referenceLists.flatten ∧ table ≠ id := by
    rw [mem_references] at htable ⊢
    simp only [Workspace.withoutTable, Rows.eraseTable, List.mem_filter, bne_iff_ne] at htable
    rcases htable with ⟨x, ⟨hx, hne⟩, rfl⟩ | ⟨x, ⟨hx, hne⟩, rfl⟩ | ⟨x, ⟨hx, hne⟩, rfl⟩ |
      ⟨x, ⟨hx, hne⟩, rfl⟩
    · exact ⟨.inl ⟨x, hx, rfl⟩, hne⟩
    · exact ⟨.inr (.inl ⟨x, hx, rfl⟩), hne⟩
    · exact ⟨.inr (.inr (.inl ⟨x, hx, rfl⟩)), hne⟩
    · exact ⟨.inr (.inr (.inr ⟨x, hx, rfl⟩)), hne⟩
  exact (h.table table hold).filter hne

theorem isOrderly_withoutColumn (h : db.IsOrderly) (now : Moment) (c : Column) :
    (db.withoutColumn now c).IsOrderly := by
  have hrows : ((Rows.removeKey now c.table c.id db.rows).map Row.id).Sublist
      (db.rows.map Row.id) := Rows.map_id_removeKey now c.table c.id db.rows ▸ .refl _
  refine isOrderly_of_tables_eq h rfl rfl (sublist_ids rfl (.refl _)
    (List.filter_sublist.map _) (.refl _) hrows (.refl _)) ?_
  intro table
  rw [mem_references, mem_references]
  rintro (⟨d, hd, rfl⟩ | hv | ⟨r, hr, rfl⟩ | hj)
  · exact .inl ⟨d, (List.mem_filter.mp hd).1, rfl⟩
  · exact .inr (.inl hv)
  · obtain ⟨r', hr', rfl⟩ := List.mem_map.mp hr
    refine .inr (.inr (.inl ⟨r', hr', ?_⟩))
    split <;> rfl
  · exact .inr (.inr (.inr hj))

theorem isOrderly_withoutRow (h : db.IsOrderly) (id : String) :
    (db.withRows (Rows.erase id db.rows)).IsOrderly := by
  refine isOrderly_of_tables_eq h rfl rfl
    (sublist_ids rfl (.refl _) (.refl _) (.refl _) (List.filter_sublist.map _) (.refl _)) ?_
  intro table
  rw [mem_references, mem_references]
  rintro (hc | hv | ⟨r, hr, rfl⟩ | hj)
  · exact .inl hc
  · exact .inr (.inl hv)
  · exact .inr (.inr (.inl ⟨r, (List.mem_filter.mp hr).1, rfl⟩))
  · exact .inr (.inr (.inr hj))

theorem isOrderly_apply (h : db.IsOrderly) {e : Edit} (he : e.IsOf actor db) :
    (e.apply db).IsOrderly := by
  cases e with
  | add new => exact isOrderly_add h he
  | changeColumns f =>
    have hids := ChangesFor.sublist_ids he
    have htables := ChangesFor.map_table he
    refine isOrderly_of_tables_eq h rfl rfl
      (sublist_ids rfl (.refl _) hids (.refl _) (.refl _) (.refl _)) ?_
    simp [apply, referenceLists, htables]
  | changeViews f =>
    have hids := ChangesFor.sublist_ids he
    have htables := ChangesFor.map_table he
    refine isOrderly_of_tables_eq h rfl rfl
      (sublist_ids rfl (.refl _) (.refl _) hids (.refl _) (.refl _)) ?_
    simp [apply, referenceLists, htables]
  | changeRows f =>
    have hids := ChangesFor.sublist_ids he
    have htables := ChangesFor.map_table he
    refine isOrderly_of_tables_eq h rfl rfl
      (sublist_ids rfl (.refl _) (.refl _) (.refl _) hids (.refl _)) ?_
    simp [apply, referenceLists, htables]
  | dropTable id => exact isOrderly_withoutTable h id
  | dropColumn now c => exact isOrderly_withoutColumn h now c
  | dropRow id => exact isOrderly_withoutRow h id

/-! ## One edit of two databases -/

variable {db₁ db₂ : Database} {e : Edit}

theorem under_apply (h : db.IsOrderly) (he : e.IsOf actor db) :
    (e.apply db).under actor = e.apply (db.under actor) :=
  (part_apply h he).trans (if_pos (by simp))

theorem under_apply_of_ne (h : db.IsOrderly) (he : e.IsOf actor db) {other : String}
    (hne : other ≠ actor) : (e.apply db).under other = db.under other :=
  (part_apply h he).trans (if_neg (by simpa using hne.symm))

theorem apart_apply (h : db.IsOrderly) (he : e.IsOf actor db) :
    (e.apply db).apart actor = db.apart actor :=
  (part_apply h he).trans (if_neg (by simp))

/-- The same edit keeps databases the same for an actor. -/
theorem sameFor_apply (h : SameFor actor db₁ db₂) (h₁ : db₁.IsOrderly) (h₂ : db₂.IsOrderly)
    (he₁ : e.IsOf actor db₁) (he₂ : e.IsOf actor db₂) :
    SameFor actor (e.apply db₁) (e.apply db₂) where
  own := by rw [under_apply h₁ he₁, under_apply h₂ he₂, h.own]
  ids := fun other hne id => by
    rw [under_apply_of_ne h₁ he₁ hne, under_apply_of_ne h₂ he₂ hne, h.ids other hne]

end Edit

end Tabula
