import Tabula.Proofs.Confluence
import Tabula.Proofs.TwoRuns

/-!
# New records and changed records

The edits that operations make are edits of the actor. A record that is added has an id that no
record has (`Surroundings.IsUnused`) and a table that is the actor's. Rows are added under ids that
are not taken in either database (`SameFor.added_eq`), as the same ids are taken in both. Where a
record is changed it is the one that was found, as ids are keys (`changesFor_ite`).
-/

namespace Tabula

open Store Database Tabula.Action

/-! ## Ids to come -/

/-- Ids that are made from here on are fresh, and no record has one of them. -/
structure Surroundings.IsUnused (s : Surroundings) (w : World) : Prop extends s.IsFresh w where
  unused : ∀ db, w.storage = .ready db → ∀ k, w.tokens < k → ∀ entity kind,
    (entity, kind ++ "_" ++ s.token k) ∉ db.ids

theorem Surroundings.IsUnused.mono {s : Surroundings} {w w' : World} (h : s.IsUnused w)
    (hstorage : w'.storage = w.storage) (htokens : w.tokens ≤ w'.tokens) : s.IsUnused w' where
  toIsFresh := h.toIsFresh.mono hstorage htokens
  unused := fun db hw k hk => h.unused db (by rw [← hstorage, hw]) k (by omega)

variable {actor : String} {s₁ s₂ : Surroundings} {w₁ w₂ : World} {db db₁ db₂ : Database}

/-- A new id is one that no record has. -/
theorem agrees_newId_bind {β : Type} (h : World.AlikeFor actor s₁ s₂ w₁ w₂ db₁ db₂)
    (hs₁ : s₁.IsUnused w₁) (hs₂ : s₂.IsUnused w₂) {kind : String} {k : String → Action β}
    (hk : ∀ id w₁' w₂', id ≠ "" → (∀ entity, (entity, id) ∉ db₁.ids) →
      (∀ entity, (entity, id) ∉ db₂.ids) → World.AlikeFor actor s₁ s₂ w₁' w₂' db₁ db₂ →
        s₁.IsUnused w₁' → s₂.IsUnused w₂' → Agrees actor (k id) s₁ s₂ w₁' w₂' db₁) :
    Agrees actor (newId kind >>= k) s₁ s₂ w₁ w₂ db₁ := by
  refine agrees_blind_bind h (isBlind_newId kind) fun id w₁' w₂' h₁ h₂ h' => ?_
  obtain ⟨hid₁, rfl⟩ := Prod.mk.inj h₁
  obtain ⟨hid₂, rfl⟩ := Prod.mk.inj h₂
  have hnew₁ : ∀ entity, (entity, id) ∉ db₁.ids := fun entity =>
    Except.ok.inj hid₁ ▸ hs₁.unused db₁ h.ready₁ _ (Nat.lt_succ_self _) entity kind
  have hnew₂ : ∀ entity, (entity, id) ∉ db₂.ids := fun entity =>
    Except.ok.inj hid₂ ▸ hs₂.unused db₂ h.ready₂ _ (Nat.lt_succ_self _) entity kind
  refine hk id _ _ ?_ hnew₁ hnew₂ h' (hs₁.mono rfl (Nat.le_succ _)) (hs₂.mono rfl (Nat.le_succ _))
  rw [← Except.ok.inj hid₁]
  intro hempty
  have hlength := congrArg String.length hempty
  rw [String.length_append, String.length_append] at hlength
  simp at hlength

/-! ## Records that are added -/

namespace Database

theorem nodup_ids {db : Database} (hbases : (db.bases.map Base.id).Nodup)
    (htables : (db.tables.map Table.id).Nodup) (hcolumns : (db.columns.map Column.id).Nodup)
    (hviews : (db.views.map View.id).Nodup) (hrows : (db.rows.map Row.id).Nodup)
    (hjobs : (db.jobs.map Job.id).Nodup) : db.ids.Nodup := by
  have hpairs : ∀ {ρ : Type} {f : ρ → String} {xs : List ρ} (entity : Entity),
      (xs.map f).Nodup → (xs.map fun x => (entity, f x)).Nodup := by
    intro ρ f xs entity h
    have hmap := h.map (Prod.mk_right_injective entity)
    rwa [List.map_map] at hmap
  refine List.nodup_flatten.mpr ⟨?_, ?_⟩
  · simp only [idLists, List.forall_mem_cons]
    exact ⟨hpairs _ hbases, hpairs _ htables, hpairs _ hcolumns, hpairs _ hviews, hpairs _ hrows,
      hpairs _ hjobs, List.forall_mem_nil _⟩
  · -- The lists are apart because each is of another kind.
    simp [idLists, List.disjoint_left]

/-- One record of a table that is the actor's, or a base of his. -/
theorem addsFor_of_single {db new : Database} {e : Entity × String} (hids : new.ids = [e])
    (he : e ∉ db.ids) (hbases : ∀ b ∈ new.bases, b.owner = actor) (htables : new.tables = [])
    (href : ∀ table ∈ new.referenceLists.flatten, db.owner table = some actor) :
    AddsFor actor db new := by
  refine ⟨hbases, ?_, fun table htable => .inl (href table htable), ?_, ?_⟩
  · rw [htables]
    exact List.forall_mem_nil _
  · rw [hids]
    exact List.nodup_singleton e
  · rw [hids]
    exact List.forall_mem_singleton.mpr he

theorem add_base (db : Database) (b : Base) :
    db.add ⟨[b], [], [], [], [], []⟩ = { db with bases := db.bases ++ [b] } := by simp [add]

theorem add_column (db : Database) (c : Column) :
    db.add ⟨[], [], [c], [], [], []⟩ = { db with columns := db.columns ++ [c] } := by simp [add]

theorem add_view (db : Database) (v : View) :
    db.add ⟨[], [], [], [v], [], []⟩ = { db with views := db.views ++ [v] } := by simp [add]

theorem add_rows (db : Database) (rows : Rows) :
    db.add ⟨[], [], [], [], rows, []⟩ = db.withRows (db.rows ++ rows) := by simp [add, withRows]

theorem add_job (db : Database) (j : Job) :
    db.add ⟨[], [], [], [], [], [j]⟩ = { db with jobs := db.jobs ++ [j] } := by simp [add]

theorem addsFor_base {b : Base} (hid : ∀ entity, (entity, b.id) ∉ db.ids) (ho : b.owner = actor) :
    AddsFor actor db ⟨[b], [], [], [], [], []⟩ :=
  addsFor_of_single rfl (hid .base) (by simpa using ho) rfl (by simp [referenceLists])

theorem addsFor_column {c : Column} (hid : ∀ entity, (entity, c.id) ∉ db.ids)
    (ho : db.owner c.table = some actor) : AddsFor actor db ⟨[], [], [c], [], [], []⟩ :=
  addsFor_of_single rfl (hid .column) (by simp) rfl (by simpa [referenceLists] using ho)

theorem addsFor_view {v : View} (hid : ∀ entity, (entity, v.id) ∉ db.ids)
    (ho : db.owner v.table = some actor) : AddsFor actor db ⟨[], [], [], [v], [], []⟩ :=
  addsFor_of_single rfl (hid .view) (by simp) rfl (by simpa [referenceLists] using ho)

theorem addsFor_job {j : Job} (hid : ∀ entity, (entity, j.id) ∉ db.ids)
    (ho : db.owner j.table = some actor) : AddsFor actor db ⟨[], [], [], [], [], [j]⟩ :=
  addsFor_of_single rfl (hid .job) (by simp) rfl (by simpa [referenceLists] using ho)

end Database

/-- The rows that appending a batch adds. -/
def Store.Rows.added (now : Moment) (table : String) (es : Batch) (rows : Rows) : Rows :=
  (fresh rows (Batch.firsts es)).map (Row.ofEntry now table)

theorem RowStore.appended_eq (now : Moment) (table : String) (es : Batch) (db : Database) :
    appended now table es db =
      if es.all fun e => fitsInteger e.position then
        .ok ((Rows.fresh db.rows (Batch.firsts es)).length,
          db.withRows (db.rows ++ Rows.added now table es db.rows))
      else .error (.fault .integerTooLarge) := by
  rw [appended, Rows.append_eq_firsts]
  rfl

namespace Database

variable {now : Moment} {table : String} {es : Batch}

theorem IsOrderly.nodup_added (h : db.IsOrderly) :
    ((Rows.added now table es db.rows).map Row.id).Nodup := by
  have hnodup := Rows.nodup_append now table es (Kind.row.nodup h)
  rw [Rows.append_eq_firsts, List.map_append] at hnodup
  exact hnodup.of_append_right

theorem not_mem_ids_of_added {r : Row} (hr : r ∈ Rows.added now table es db.rows) :
    (Entity.row, r.id) ∉ db.ids := by
  obtain ⟨e, he, rfl⟩ := List.mem_map.mp hr
  obtain ⟨_, hfree⟩ := Rows.mem_fresh.mp he
  exact fun hmem => hfree ((Kind.row.mem_keys_iff _).mp hmem)

theorem addsFor_rows (h : db.IsOrderly) (ho : db.owner table = some actor) :
    AddsFor actor db ⟨[], [], [], [], Rows.added now table es db.rows, []⟩ := by
  refine ⟨by simp, by simp, fun t ht => .inl ?_, ?_, fun e he => ?_⟩
  · obtain ⟨r, hr, rfl⟩ : ∃ r ∈ Rows.added now table es db.rows, r.table = t := by
      simpa [referenceLists] using ht
    obtain ⟨e, _, rfl⟩ := List.mem_map.mp hr
    exact ho
  · exact nodup_ids .nil .nil .nil .nil h.nodup_added .nil
  · obtain ⟨r, hr, rfl⟩ : ∃ r ∈ Rows.added now table es db.rows, (Entity.row, r.id) = e := by
      simpa [ids, idLists] using he
    exact not_mem_ids_of_added hr

/-- The same rows are new for both. -/
theorem SameFor.added_eq (h : SameFor actor db₁ db₂) (h₁ : db₁.IsOrderly) (h₂ : db₂.IsOrderly)
    (now : Moment) (table : String) (es : Batch) :
    Rows.added now table es db₁.rows = Rows.added now table es db₂.rows := by
  refine congrArg (List.map _) (List.filter_congr fun e _ => ?_)
  rw [h.has_eq h₁ h₂]

end Database

namespace Action

/-- A step that edits both databases in the same way, and the step after it. -/
theorem agrees_edit_bind {α β : Type} (h : World.AlikeFor actor s₁ s₂ w₁ w₂ db₁ db₂)
    {x : Action α} {k : α → Action β} {a : α} {e : Edit}
    (h₁ : x s₁ w₁ = (.ok a, w₁.withDatabase (e.apply db₁)))
    (h₂ : x s₂ w₂ = (.ok a, w₂.withDatabase (e.apply db₂))) (he₁ : e.IsOf actor db₁)
    (he₂ : e.IsOf actor db₂)
    (hk : World.AlikeFor actor s₁ s₂ (w₁.withDatabase (e.apply db₁))
      (w₂.withDatabase (e.apply db₂)) (e.apply db₁) (e.apply db₂) →
        Agrees actor (k a) s₁ s₂ (w₁.withDatabase (e.apply db₁)) (w₂.withDatabase (e.apply db₂))
          (e.apply db₁)) :
    Agrees actor (x >>= k) s₁ s₂ w₁ w₂ db₁ := by
  obtain ⟨r, w₁', w₂', db₁', db₂', hrun₁, hrun₂, halike, hapart⟩ := hk (alikeFor_apply h he₁ he₂)
  exact ⟨r, w₁', w₂', db₁', db₂', (run_bind_ok h₁ k).trans hrun₁, (run_bind_ok h₂ k).trans hrun₂,
    halike, hapart.trans (Edit.apart_apply h.orderly₁ he₁)⟩

end Action

/-- New records that do not hang on the database. -/
theorem edits_add {α : Type} {f : Database → Except Failure (α × Database)} (a : α) (new : Database)
    (hf : ∀ db, f db = .ok (a, db.add new)) (hnew₁ : AddsFor actor db₁ new)
    (hnew₂ : AddsFor actor db₂ new) : Edits actor f db₁ db₂ :=
  .made (e := .add new) (hf db₁) (hf db₂) hnew₁ hnew₂

/-! ## Records that are changed -/

theorem Kind.eq_of_find? {ρ : Type} (K : Kind ρ) (h : db.IsOrderly) {id : String} {x y : ρ}
    (hfind : K.find? id db = some x) (hy : y ∈ K.records db) (hid : K.id y = id) : y = x := by
  obtain ⟨hx, hx'⟩ := mem_of_find?_eq_some hfind
  exact List.inj_on_of_nodup_map (K.nodup h) hy hx (hid.trans hx'.symm)

/-- A change of the record with an id, which is the actor's. -/
theorem changesFor_ite {ρ : Type} (K : Kind ρ) {table : ρ → String} (h : db.IsOrderly)
    {id : String} {x : ρ} (hfind : K.find? id db = some x) (ho : db.owner (table x) = some actor)
    {g : ρ → ρ} (hid : K.id (g x) = K.id x) (htable : table (g x) = table x) :
    Edit.ChangesFor K.id table actor db (K.records db)
      fun y => if K.id y == id then g y else y := by
  intro y hy
  dsimp only
  split
  · rename_i heq
    obtain rfl := K.eq_of_find? h hfind hy (beq_iff_eq.mp heq)
    exact ⟨hid, htable, fun hne => absurd ho hne⟩
  · exact ⟨rfl, rfl, fun _ => rfl⟩

/-- A record is looked up that both have, and what is made of it is written. -/
theorem edits_found {ρ α σ : Type} (K : Kind ρ) {id : String} {x : ρ}
    (hfind₁ : K.find? id db₁ = some x) (hfind₂ : K.find? id db₂ = some x)
    {f : Database → Except Failure (α × Database)} (r : Except Failure σ) (answer : σ → α)
    (edit : σ → Edit) (hf : ∀ {db}, K.find? id db = some x →
      f db = r.map fun a => (answer a, (edit a).apply db))
    (hedit : ∀ a, r = .ok a → (edit a).IsOf actor db₁ ∧ (edit a).IsOf actor db₂) :
    Edits actor f db₁ db₂ := by
  have h₁ := hf hfind₁
  have h₂ := hf hfind₂
  rcases r with why | a
  · exact .refused h₁ h₂
  · obtain ⟨he₁, he₂⟩ := hedit a rfl
    exact .made h₁ h₂ he₁ he₂

namespace Workspace

theorem changesFor_retyped (now : Moment) {table : String} (column : String)
    (ho : db.owner table = some actor) :
    Edit.ChangesFor Row.id Row.table actor db db.rows fun r =>
      if r.table == table then
        match retypedRow now column r with
        | .ok r => r
        | .error _ => r
      else r := by
  intro r _
  dsimp only
  split
  · rename_i htable
    have hown : db.owner r.table = some actor := beq_iff_eq.mp htable ▸ ho
    split
    · rename_i r' hr'
      have hretyped := retyped_of_retypedRow hr'
      exact ⟨hretyped.id, hretyped.table, fun hne => absurd hown hne⟩
    · exact ⟨rfl, rfl, fun _ => rfl⟩
  · exact ⟨rfl, rfl, fun _ => rfl⟩

/-! ## A table with its columns and rows -/

theorem isBlind_newColumns (table : String) : ∀ n k, IsBlind (newColumns table k n)
  | 0, _ => isBlind_pure _
  | n + 1, k => isBlind_bind (isBlind_newId _) fun _ => isBlind_bind isBlind_now fun _ =>
      isBlind_bind (isBlind_newColumns table n (k + 1)) fun _ => isBlind_pure _

theorem isBlind_sampleRow : ∀ columns, IsBlind (sampleRow columns)
  | [] => isBlind_pure _
  | _ :: columns => isBlind_bind (isBlind_ending 6) fun _ =>
      isBlind_bind (isBlind_sampleRow columns) fun _ => isBlind_pure _

theorem isBlind_sampleData (columns : List Column) : ∀ n, IsBlind (sampleData columns n)
  | 0 => isBlind_pure _
  | n + 1 => isBlind_bind (isBlind_sampleRow columns) fun _ =>
      isBlind_bind (isBlind_sampleData columns n) fun _ => isBlind_pure _

theorem isBlind_looseBatch (batch start : Int) (rows : List Value) :
    IsBlind (looseBatch batch start rows) :=
  isBlind_bind isBlind_stamp fun _ => isBlind_bind (isBlind_endings _) fun _ => isBlind_lift _

theorem addsFor_table (h : db.IsOrderly) {t : Table} {columns : List Column} {now : Moment}
    {es : Batch} (hid : t.id ≠ "") (htable : ∀ entity, (entity, t.id) ∉ db.ids)
    (howner : Catalog.ownerOf t db = some actor) (hcolumns : ∀ c ∈ columns, c.table = t.id)
    (hnodup : (columns.map Column.id).Nodup)
    (hnew : ∀ c ∈ columns, (Entity.column, c.id) ∉ db.ids) :
    AddsFor actor db ⟨[], [t], columns, [], Rows.added now t.id es db.rows, []⟩ := by
  refine ⟨by simp, by simpa using ⟨hid, howner⟩, fun table htable => .inr ⟨t, by simp, ?_⟩, ?_, ?_⟩
  · have hof : (∃ c ∈ columns, c.table = table) ∨
        ∃ r ∈ Rows.added now t.id es db.rows, r.table = table := by
      simpa [referenceLists] using htable
    rcases hof with ⟨c, hc, rfl⟩ | ⟨r, hr, rfl⟩
    · exact (hcolumns c hc).symm
    · obtain ⟨e, _, rfl⟩ := List.mem_map.mp hr
      rfl
  · exact nodup_ids .nil (List.nodup_singleton _) hnodup .nil h.nodup_added .nil
  · intro e he
    have hof : e = (.table, t.id) ∨ (∃ c ∈ columns, (Entity.column, c.id) = e) ∨
        ∃ r ∈ Rows.added now t.id es db.rows, (Entity.row, r.id) = e := by
      simpa [ids, idLists] using he
    rcases hof with rfl | ⟨c, hc, rfl⟩ | ⟨r, hr, rfl⟩
    · exact htable .table
    · exact hnew c hc
    · exact not_mem_ids_of_added hr

/-- A new table with its columns and rows. -/
theorem edits_table (same : SameFor actor db₁ db₂) (h₁ : db₁.IsOrderly) (h₂ : db₂.IsOrderly)
    (now : Moment) (t : Table) (columns : List Column) (es : Batch)
    (hadds : ∀ {db : Database}, db = db₁ ∨ db = db₂ →
      AddsFor actor db ⟨[], [t], columns, [], Rows.added now t.id es db.rows, []⟩) :
    Edits actor (fun db => do
      let (_, db) ← RowStore.appended now t.id es db
      return ((), { db with tables := db.tables ++ [t], columns := db.columns ++ columns }))
        db₁ db₂ := by
  have happended := RowStore.appended_eq now t.id es
  by_cases hfits : (es.all fun e => fitsInteger e.position) = true
  · simp only [if_pos hfits] at happended
    have hmade : ∀ db : Database,
        db.add ⟨[], [t], columns, [], Rows.added now t.id es db.rows, []⟩ =
          { db.withRows (db.rows ++ Rows.added now t.id es db.rows) with
            tables := db.tables ++ [t], columns := db.columns ++ columns } := by
      simp [add, withRows]
    have hrows := same.added_eq h₁ h₂ now t.id es
    refine .made (a := ())
      (e := .add ⟨[], [t], columns, [], Rows.added now t.id es db₁.rows, []⟩) ?_ ?_
      (hadds (.inl rfl)) ?_
    · rw [happended, Edit.apply, hmade]
      rfl
    · rw [happended, Edit.apply, hrows, hmade]
      rfl
    · rw [hrows]
      exact hadds (.inr rfl)
  · simp only [if_neg hfits] at happended
    exact .refused (by rw [happended]; rfl) (by rw [happended]; rfl)

/-- The columns of a new table have ids of their own. -/
theorem not_mem_ids_of_newColumns {s : Surroundings} {w w' : World} (hw : w.storage = .ready db)
    (hs : s.IsUnused w) {table : String} {n k : Nat} {columns : List Column}
    (hrun : newColumns table k n s w = (.ok columns, w')) :
    (∀ c ∈ columns, c.table = table) ∧ (columns.map Column.id).Nodup ∧
      ∀ c ∈ columns, (Entity.column, c.id) ∉ db.ids := by
  obtain ⟨_, htable, hids⟩ := columns_of_newColumns hrun
  refine ⟨fun c hc => (htable c hc).1, ?_, fun c hc => ?_⟩
  · rw [hids]
    exact hs.nodup (Nat.lt_succ_self _) _
  · obtain ⟨j, hj, hid⟩ := exists_token_of_newColumns hrun c hc
    rw [hid]
    exact hs.unused db hw j hj _ _

end Workspace

end Tabula
