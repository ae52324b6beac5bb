import Tabula.Proofs.Answers
import Tabula.Proofs.NewRecords

/-!
# What an actor changes

Operations that write. Behind the gate each one is one transaction, that refuses both databases for
the same reason or edits both in the same way, so it agrees (`agrees_transaction`). Two of them are
several transactions : an update that converts cells writes them before the column
(`agrees_updateColumn`), and an insertion appends its rows in chunks (`agrees_insertChunks`, by
induction on the chunks).

How a job is announced is not ours to know, so after that nothing is said of ids and times
(`Ingestion.concurs_start`).
-/

namespace Tabula

open Store Database Tabula.Action

variable {actor : String} {s₁ s₂ : Surroundings} {w₁ w₂ : World} {db₁ db₂ : Database}

namespace Workspace

/-! ## Bases and tables -/

section Bases

variable (h : World.AlikeFor actor s₁ s₂ w₁ w₂ db₁ db₂)

include h

theorem agrees_createBase (hs₁ : s₁.IsUnused w₁) (hs₂ : s₂.IsUnused w₂) (name : Value) :
    Agrees actor (createBase (some actor) name) s₁ s₂ w₁ w₂ db₁ := by
  refine agrees_map (agrees_lift_bind h fun name _ => ?_)
  refine agrees_newId_bind h hs₁ hs₂ fun id w₁' w₂' _ hnew₁ hnew₂ h _ _ => ?_
  refine agrees_now_bind h (agrees_transaction h ?_)
  let b : Base := ⟨id, name, actor, s₁.now⟩
  refine edits_add b ⟨[b], [], [], [], [], []⟩ (fun db => ?_)
    (addsFor_base hnew₁ rfl) (addsFor_base hnew₂ rfl)
  rw [add_base]
  rfl

/-- The base passes the gate in both worlds, or in none. -/
theorem agrees_ensureBaseOwner_bind {β : Type} {base : String} {k : Base → Action β}
    (hk : ∀ b, Kind.base.find? base db₁ = some b → Kind.base.find? base db₂ = some b →
      b.owner = actor → Agrees actor (k b) s₁ s₂ w₁ w₂ db₁) :
    Agrees actor (Catalog.ensureBaseOwner actor base >>= k) s₁ s₂ w₁ w₂ db₁ := by
  rw [Catalog.ensureBaseOwner, LawfulMonad.bind_assoc]
  refine agrees_found_bind Kind.base h (fun hw => run_getBase hw base)
    (fun b o _ ho hne => ?_) fun b hfind₁ hfind₂ ho => ?_
  · have hb : b.owner ≠ actor := Option.some.inj ho ▸ hne
    simp only [if_pos hb]
    rfl
  · have hb : b.owner = actor := Option.some.inj ho
    simp only [hb, ne_eq, not_true_eq_false, if_false]
    exact hk b hfind₁ hfind₂ hb

theorem agrees_createTable (hs₁ : s₁.IsUnused w₁) (hs₂ : s₂.IsUnused w₂) (base : String)
    (name : Value) : Agrees actor (createTable actor base name) s₁ s₂ w₁ w₂ db₁ := by
  refine agrees_ensureBaseOwner_bind h fun b hbase₁ hbase₂ howner => ?_
  refine agrees_lift_bind h fun name _ => ?_
  refine agrees_newId_bind h hs₁ hs₂ fun id w₁ w₂ hid hnew₁ hnew₂ h hs₁ hs₂ => ?_
  refine agrees_now_bind h ?_
  refine agrees_blind_bind h (isBlind_newColumns id _ _) fun columns _ _ hrun₁ hrun₂ h' => ?_
  obtain ⟨htable, hnodup, hcolumns₁⟩ := not_mem_ids_of_newColumns h.ready₁ hs₁ hrun₁
  obtain ⟨_, _, hcolumns₂⟩ := not_mem_ids_of_newColumns h.ready₂ hs₂ hrun₂
  refine agrees_blind_bind h' (isBlind_sampleData _ _) fun sample _ _ _ _ h => ?_
  refine agrees_blind_bind h (isBlind_looseBatch _ _ _) fun batch _ _ _ _ h => ?_
  refine agrees_map (f := fun _ => _) (agrees_transaction h ?_)
  refine edits_table h.same h.orderly₁ h.orderly₂ s₁.now ⟨id, base, name, s₁.now⟩ columns batch ?_
  rintro db (rfl | rfl)
  · refine addsFor_table h.orderly₁ hid hnew₁ ?_ htable hnodup hcolumns₁
    exact howner ▸ congrArg (Option.map Base.owner) hbase₁
  · refine addsFor_table h.orderly₂ hid hnew₂ ?_ htable hnodup hcolumns₂
    exact howner ▸ congrArg (Option.map Base.owner) hbase₂

theorem agrees_deleteTable (table : String) :
    Agrees actor (deleteTable actor table) s₁ s₂ w₁ w₂ db₁ :=
  agrees_gate_bind h fun _ _ ho₁ ho₂ =>
    agrees_transaction h (.made (e := .dropTable table) rfl rfl ho₁ ho₂)

/-! ## Columns -/

theorem agrees_createColumn (hs₁ : s₁.IsUnused w₁) (hs₂ : s₂.IsUnused w₂) {table : String}
    (ho₁ : db₁.owner table = some actor) (ho₂ : db₂.owner table = some actor)
    (name type order : Value) :
    Agrees actor (Catalog.createColumn (some table) name type order) s₁ s₂ w₁ w₂ db₁ := by
  unfold Catalog.createColumn
  split
  · exact agrees_throw h _
  refine agrees_lift_bind h fun name _ => ?_
  refine agrees_lift_bind h fun order _ => ?_
  refine agrees_newId_bind h hs₁ hs₂ fun id _ _ _ hnew₁ hnew₂ h _ _ => ?_
  refine agrees_lift_bind h fun type _ => ?_
  refine agrees_now_bind h (agrees_transaction h ?_)
  by_cases hfits : fitsInteger order = true
  · have hstorable : Ledger.storable order = .ok order := if_pos hfits
    let c : Column := ⟨id, table, name, type, order, s₁.now⟩
    refine edits_add c ⟨[], [], [c], [], [], []⟩ (fun db => ?_) (addsFor_column hnew₁ ho₁)
      (addsFor_column hnew₂ ho₂)
    rw [add_column, hstorable]
    rfl
  · have hstorable : Ledger.storable order = .error (.fault .integerTooLarge) := if_neg hfits
    exact .refused (by rw [hstorable]; rfl) (by rw [hstorable]; rfl)

theorem agrees_addColumn (hs₁ : s₁.IsUnused w₁) (hs₂ : s₂.IsUnused w₂) (table : String)
    (name type order : Value) :
    Agrees actor (addColumn actor table name type order) s₁ s₂ w₁ w₂ db₁ := by
  refine agrees_gate_bind h fun _ _ ho₁ ho₂ => ?_
  have hmade := fun order => agrees_map (f := Column.toValue)
    (agrees_createColumn h hs₁ hs₂ ho₁ ho₂ name type order)
  dsimp only
  split
  · exact agrees_query_bind h (congrArg Except.ok (h.same.columnsOf_eq ho₁ ho₂)) fun _ _ => hmade _
  · exact hmade order

/-- The record of a column that was found is written. -/
theorem agrees_writeColumn {id : String} {c : Column} (hfind₁ : Kind.column.find? id db₁ = some c)
    (hfind₂ : Kind.column.find? id db₂ = some c) (ho₁ : db₁.owner c.table = some actor)
    (ho₂ : db₂.owner c.table = some actor) (name type order : Value) :
    Agrees actor (Catalog.updateColumn id name type order) s₁ s₂ w₁ w₂ db₁ := by
  refine agrees_transaction h (edits_found Kind.column hfind₁ hfind₂
    (Catalog.editedColumn name type order c) (fun c' => c')
    (fun c' => .changeColumns fun d => if d.id == id then c' else d)
    (fun {db} hfind => ?_) fun c' hedit => ?_)
  · rw [findColumn_eq, Kind.lookup, hfind]
    change (Catalog.editedColumn name type order c >>= _) = _
    cases Catalog.editedColumn name type order c <;> rfl
  · obtain ⟨hid, htable, _⟩ := Catalog.fields_of_editedColumn hedit
    exact ⟨changesFor_ite Kind.column h.orderly₁ hfind₁ ho₁ hid htable,
      changesFor_ite Kind.column h.orderly₂ hfind₂ ho₂ hid htable⟩

/-- The cells under a column are converted, or one cannot be in both worlds. -/
theorem agrees_retyped_bind {β : Type} {table : String} (ho₁ : db₁.owner table = some actor)
    (ho₂ : db₂.owner table = some actor) (id : String) {k : Unit → Action β}
    (hk : ∀ {w₁ w₂ : World} {rows₁ rows₂ : Rows},
      World.AlikeFor actor s₁ s₂ w₁ w₂ (db₁.withRows rows₁) (db₂.withRows rows₂) →
        Agrees actor (k ()) s₁ s₂ w₁ w₂ (db₁.withRows rows₁)) :
    Agrees actor (transaction (retyped s₁.now table id) >>= k) s₁ s₂ w₁ w₂ db₁ := by
  have hrows : Rows.byPosition table db₁.rows = Rows.byPosition table db₂.rows := by
    rw [Rows.byPosition, Rows.byPosition, h.same.ofTable_eq ho₁ ho₂]
  rcases hretype : retypeFailure s₁.now id (Rows.byPosition table db₁.rows) with why | _
  · have hfail₁ : retyped s₁.now table id db₁ = .error why := by rw [retyped, hretype]
    have hfail₂ : retyped s₁.now table id db₂ = .error why := by rw [retyped, ← hrows, hretype]
    exact agrees_bind_of_error h (run_transaction_error h.ready₁ hfail₁)
      (run_transaction_error h.ready₂ hfail₂) k
  · have hmade₁ : retyped s₁.now table id db₁ =
        .ok ((), db₁.withRows (retypedRows s₁.now table id db₁.rows)) := by
      rw [retyped, hretype]
      rfl
    have hmade₂ : retyped s₁.now table id db₂ =
        .ok ((), db₂.withRows (retypedRows s₁.now table id db₂.rows)) := by
      rw [retyped, ← hrows, hretype]
      rfl
    exact agrees_edit_bind h (e := .changeRows _) (run_transaction_ok h.ready₁ hmade₁)
      (run_transaction_ok h.ready₂ hmade₂) (changesFor_retyped s₁.now id ho₁)
      (changesFor_retyped s₁.now id ho₂) hk

theorem agrees_updateColumn (id : String) (name type order : Value) :
    Agrees actor (updateColumn actor id name type order) s₁ s₂ w₁ w₂ db₁ := by
  rw [updateColumn_eq]
  refine agrees_found_gate_bind Kind.column (fun _ _ => rfl) h (fun hw => run_getColumn hw id)
    fun c _ hfind₁ hfind₂ ho₁ ho₂ => ?_
  have hrecord := agrees_map (f := Column.toValue)
    (agrees_writeColumn h hfind₁ hfind₂ ho₁ ho₂ name type order)
  rw [conversion]
  split
  · exact hrecord
  rw [LawfulMonad.bind_assoc]
  refine agrees_lift_bind h fun target _ => ?_
  split
  · -- The cells are converted for good before the column is written.
    rw [LawfulMonad.bind_assoc]
    exact agrees_now_bind h (agrees_retyped_bind h ho₁ ho₂ id fun h => agrees_map
      (f := Column.toValue) (agrees_writeColumn h hfind₁ hfind₂ ho₁ ho₂ name type order))
  · exact hrecord

theorem agrees_deleteColumn (id : String) :
    Agrees actor (deleteColumn actor id) s₁ s₂ w₁ w₂ db₁ := by
  refine agrees_found_gate_bind Kind.column (fun _ _ => rfl) h (fun hw => run_getColumn hw id)
    fun c _ hfind₁ hfind₂ ho₁ ho₂ => ?_
  refine agrees_now_bind h ?_
  have hid : c.id = id := (mem_of_find?_eq_some hfind₁).2
  have hcount : Rows.countKey c.table id db₁.rows = Rows.countKey c.table id db₂.rows := by
    have hof : ∀ rows : Rows, Rows.countKey c.table id rows =
        (rows.ofTable c.table).countP fun r => hasKey r.payload id := by
      intro rows
      rw [Rows.ofTable, List.countP_filter]
      exact List.countP_congr fun r _ => by simp [and_comm]
    rw [hof, hof, h.same.ofTable_eq ho₁ ho₂]
  refine agrees_transaction h (.made (a := Rows.countKey c.table id db₁.rows)
    (e := .dropColumn s₁.now c) ?_ ?_ ⟨ho₁, fun d hd heq => ?_⟩ ⟨ho₂, fun d hd heq => ?_⟩)
  · exact hid ▸ rfl
  · rw [hcount]
    exact hid ▸ rfl
  · rw [Kind.column.eq_of_find? h.orderly₁ hfind₁ hd (heq.trans hid)]
  · rw [Kind.column.eq_of_find? h.orderly₂ hfind₂ hd (heq.trans hid)]

end Bases

/-! ## Rows -/

/-- A batch is appended to a table of the actor, or a position does not fit in both worlds. -/
theorem agrees_append_bind {β : Type} (h : World.AlikeFor actor s₁ s₂ w₁ w₂ db₁ db₂)
    {table : String} (ho₁ : db₁.owner table = some actor) (ho₂ : db₂.owner table = some actor)
    (es : Batch) {k : Nat → Action β}
    (hk : ∀ n {w₁ w₂ : World} {rows₁ rows₂ : Rows},
      World.AlikeFor actor s₁ s₂ w₁ w₂ (db₁.withRows rows₁) (db₂.withRows rows₂) →
        Agrees actor (k n) s₁ s₂ w₁ w₂ (db₁.withRows rows₁)) :
    Agrees actor (RowStore.append table es >>= k) s₁ s₂ w₁ w₂ db₁ := by
  have hnow : s₁.now = s₂.now := congrArg Supply.now h.supply
  have hrows := h.same.added_eq h.orderly₁ h.orderly₂ s₁.now table es
  have hrun₁ := RowStore.run_append (s := s₁) h.ready₁ table es
  have hrun₂ := RowStore.run_append (s := s₂) h.ready₂ table es
  by_cases hfits : (es.all fun e => fitsInteger e.position) = true
  · have hlength : (Rows.fresh db₁.rows (Batch.firsts es)).length =
        (Rows.fresh db₂.rows (Batch.firsts es)).length := by
      simpa [Rows.added] using congrArg List.length hrows
    rw [if_pos hfits] at hrun₁ hrun₂
    -- Which rows are new is the same in both, so this is one edit.
    have hedit₂ : Edit.IsOf actor db₂
        (.add ⟨[], [], [], [], Rows.added s₁.now table es db₁.rows, []⟩) := by
      rw [hrows]
      exact addsFor_rows h.orderly₂ ho₂
    refine agrees_edit_bind h (a := (Rows.fresh db₁.rows (Batch.firsts es)).length) ?_ ?_
      (e := .add _) (addsFor_rows h.orderly₁ ho₁) hedit₂ fun h => ?_
    · rw [Edit.apply, add_rows]
      exact hrun₁
    · rw [Edit.apply, add_rows, hrows, hlength, hnow]
      exact hrun₂
    · rw [Edit.apply, Edit.apply, add_rows, add_rows] at h ⊢
      exact hk _ h
  · rw [if_neg hfits] at hrun₁ hrun₂
    exact agrees_bind_of_error h hrun₁ hrun₂ k

/-- Chunks of rows are appended one after the other, until one is refused in both worlds. -/
theorem agrees_insertChunks (table : String) :
    ∀ (chunks : List (List Cells)) (position batch : Int) {w₁ w₂ : World} {db₁ db₂ : Database},
      World.AlikeFor actor s₁ s₂ w₁ w₂ db₁ db₂ → db₁.owner table = some actor →
        db₂.owner table = some actor →
          Agrees actor (insertChunks table position batch chunks) s₁ s₂ w₁ w₂ db₁
  | [], _, _, _, _, _, _, h, _, _ => agrees_pure h 0
  | _ :: chunks, _, _, _, _, _, _, h, ho₁, ho₂ =>
    agrees_blind_bind h (isBlind_looseBatch _ _ _) fun es _ _ _ _ h =>
      agrees_append_bind h ho₁ ho₂ es fun _ _ _ _ _ h =>
        agrees_map (agrees_insertChunks table chunks _ _ h ho₁ ho₂)

section Rows

variable (h : World.AlikeFor actor s₁ s₂ w₁ w₂ db₁ db₂)

include h

theorem agrees_insertRows (settings : Settings) (table : String) (rows : Value) :
    Agrees actor (insertRows settings actor table rows) s₁ s₂ w₁ w₂ db₁ := by
  refine agrees_gate_bind h fun _ _ ho₁ ho₂ => ?_
  dsimp only
  split
  on_goal 3 => exact agrees_throw h _
  -- A list and a tuple of rows are the same to insert.
  all_goals
    refine agrees_query_bind h (congrArg Except.ok (h.same.typesOf_eq ho₁ ho₂)) fun types _ => ?_
    refine agrees_lift_bind h fun prepared _ => ?_
    have hlast : Rows.nextPosition table db₁.rows = Rows.nextPosition table db₂.rows := by
      rw [Rows.nextPosition, Rows.nextPosition, h.same.ofTable_eq ho₁ ho₂]
    refine agrees_bind_of_run h (run_rowStore_ok (run_query h.ready₁ _))
      (hlast ▸ run_rowStore_ok (run_query h.ready₂ _)) fun position _ => ?_
    split
    · exact agrees_insertChunks table _ position 0 h ho₁ ho₂
    · exact agrees_throw h _

theorem agrees_updateCell (row : String) (column value : Value) :
    Agrees actor (updateCell actor row column value) s₁ s₂ w₁ w₂ db₁ := by
  refine agrees_found_gate_bind Kind.row (fun _ _ => rfl) h (fun hw => run_getRow hw row)
    fun r _ hfind₁ hfind₂ ho₁ ho₂ => ?_
  refine agrees_query_bind h (congrArg Except.ok (h.same.typesOf_eq ho₁ ho₂)) fun types _ => ?_
  refine agrees_lift_bind h fun cell _ => ?_
  refine agrees_map (agrees_now_bind h (agrees_rowStore (agrees_transaction h ?_)))
  refine edits_found Kind.row hfind₁ hfind₂ (RowStore.edited cell.1 cell.2 r.payload)
    (fun p => { r with payload := p.1, updatedAt := s₁.now })
    (fun p => .changeRows fun r =>
      if r.id == row then { r with payload := p.2, updatedAt := s₁.now } else r)
    (fun {db} hfind => ?_) fun p _ => ?_
  · rw [findRow_eq, Kind.lookup, hfind]
    change (RowStore.edited cell.1 cell.2 r.payload >>= _) = _
    cases RowStore.edited cell.1 cell.2 r.payload <;> rfl
  · exact ⟨changesFor_ite Kind.row h.orderly₁ hfind₁ ho₁ rfl rfl,
      changesFor_ite Kind.row h.orderly₂ hfind₂ ho₂ rfl rfl⟩

theorem agrees_deleteRow (row : String) :
    Agrees actor (deleteRow actor row) s₁ s₂ w₁ w₂ db₁ := by
  refine agrees_found_gate_bind Kind.row (fun _ _ => rfl) h (fun hw => run_getRow hw row)
    fun r _ hfind₁ hfind₂ ho₁ ho₂ => ?_
  refine agrees_rowStore (agrees_transaction h ?_)
  refine .made (a := ()) (e := .dropRow row) ?_ ?_ (fun r' hr' hid => ?_) fun r' hr' hid => ?_
  · rw [findRow_eq, Kind.lookup, hfind₁]
    rfl
  · rw [findRow_eq, Kind.lookup, hfind₂]
    rfl
  · rw [Kind.row.eq_of_find? h.orderly₁ hfind₁ hr' hid, ho₁]
  · rw [Kind.row.eq_of_find? h.orderly₂ hfind₂ hr' hid, ho₂]

end Rows

/-! ## Views -/

/-- The fields of a view that are to be written. -/
def viewFields (old : View) (name filter sort : Value) :
    Except Failure (String × Value × Value) := do
  let name ← Catalog.viewNameOf old.name name
  let filter ← Catalog.viewField old.filter filter
  let sort ← Catalog.viewField old.sort sort
  return (name, filter, sort)

section Views

variable (h : World.AlikeFor actor s₁ s₂ w₁ w₂ db₁ db₂)

include h

theorem agrees_keptConfigs_bind {β : Type} {table : String} (ho₁ : db₁.owner table = some actor)
    (ho₂ : db₂.owner table = some actor) {filter sort : Value} {k : Value × Value → Action β}
    (hk : ∀ kept, Agrees actor (k kept) s₁ s₂ w₁ w₂ db₁) :
    Agrees actor (keptConfigs table filter sort >>= k) s₁ s₂ w₁ w₂ db₁ := by
  rw [keptConfigs, LawfulMonad.bind_assoc]
  refine agrees_lift_bind h fun filter _ => ?_
  rw [LawfulMonad.bind_assoc]
  refine agrees_lift_bind h fun sort _ => ?_
  rw [LawfulMonad.bind_assoc]
  refine agrees_typesFor_bind h ho₁ ho₂ ?_
  rw [LawfulMonad.bind_assoc]
  exact agrees_lift_bind h fun _ _ => hk (filter, sort)

theorem agrees_createView (hs₁ : s₁.IsUnused w₁) (hs₂ : s₂.IsUnused w₂) (table : String)
    (name filter sort : Value) :
    Agrees actor (createView actor table name filter sort) s₁ s₂ w₁ w₂ db₁ := by
  refine agrees_gate_bind h fun _ _ ho₁ ho₂ => ?_
  refine agrees_keptConfigs_bind h ho₁ ho₂ fun kept => ?_
  refine agrees_map (agrees_lift_bind h fun name _ => ?_)
  refine agrees_newId_bind h hs₁ hs₂ fun id _ _ _ hnew₁ hnew₂ h _ _ => ?_
  refine agrees_now_bind h (agrees_transaction h ?_)
  rcases Catalog.storable (if kept.1.isNull then .dict [] else kept.1) with why | f
  · exact .refused rfl rfl
  rcases Catalog.storable (if kept.2.isNull then .list [] else kept.2) with why | k
  · exact .refused rfl rfl
  let v : View := ⟨id, table, name, f, k, s₁.now⟩
  refine edits_add v ⟨[], [], [], [v], [], []⟩ (fun db => ?_) (addsFor_view hnew₁ ho₁)
    (addsFor_view hnew₂ ho₂)
  rw [add_view]
  rfl

theorem agrees_updateView (id : String) (name filter sort : Value) :
    Agrees actor (updateView actor id name filter sort) s₁ s₂ w₁ w₂ db₁ := by
  refine agrees_found_gate_bind Kind.view (fun _ _ => rfl) h (fun hw => run_getView hw id)
    fun view _ hfind₁ hfind₂ ho₁ ho₂ => ?_
  refine agrees_keptConfigs_bind h ho₁ ho₂ fun kept => ?_
  refine agrees_map (agrees_transaction h ?_)
  refine edits_found Kind.view hfind₁ hfind₂ (viewFields view name kept.1 kept.2)
    (fun a => { view with name := a.1, filter := a.2.1, sort := a.2.2 })
    (fun a => .changeViews fun v => if v.id == id then { view with
      name := a.1, filter := Catalog.keptField view.filter a.2.1
      sort := Catalog.keptField view.sort a.2.2 } else v)
    (fun {db} hfind => ?_) fun a _ => ?_
  · rw [findView_eq, Kind.lookup, hfind]
    unfold viewFields
    change (Catalog.viewNameOf view.name name >>= fun _ => Catalog.viewField view.filter kept.1 >>=
      fun _ => Catalog.viewField view.sort kept.2 >>= _) = _
    cases Catalog.viewNameOf view.name name <;> cases Catalog.viewField view.filter kept.1 <;>
      cases Catalog.viewField view.sort kept.2 <;> rfl
  · exact ⟨changesFor_ite Kind.view h.orderly₁ hfind₁ ho₁ rfl rfl,
      changesFor_ite Kind.view h.orderly₂ hfind₂ ho₂ rfl rfl⟩

end Views

end Workspace

/-! ## Jobs -/

namespace Ingestion

theorem agrees_createJob (h : World.AlikeFor actor s₁ s₂ w₁ w₂ db₁ db₂) (hs₁ : s₁.IsUnused w₁)
    (hs₂ : s₂.IsUnused w₂) {table : String} (ho₁ : db₁.owner table = some actor)
    (ho₂ : db₂.owner table = some actor) (total : Value) :
    Agrees actor (Jobs.create (some table) total) s₁ s₂ w₁ w₂ db₁ := by
  refine agrees_lift_bind h fun total _ => ?_
  refine agrees_newId_bind h hs₁ hs₂ fun id _ _ _ hnew₁ hnew₂ h _ _ => ?_
  refine agrees_now_bind h (agrees_transaction h ?_)
  by_cases hfits : fitsInteger total = true
  · have hstorable : Ledger.storable total = .ok total := if_pos hfits
    let j : Job :=
      ⟨id, table, .pending, total, 0, none, .zero, none, s₁.now, s₁.now, none, none⟩
    refine edits_add j ⟨[], [], [], [], [], [j]⟩ (fun db => ?_) (addsFor_job hnew₁ ho₁)
      (addsFor_job hnew₂ ho₂)
    rw [add_job, hstorable]
    change (Ledger.create s₁.now id table total db.jobs >>= _) = _
    rw [Ledger.create, hstorable]
    rfl
  · have hstorable : Ledger.storable total = .error (.fault .integerTooLarge) := if_neg hfits
    exact .refused (by rw [hstorable]; rfl) (by rw [hstorable]; rfl)

/-- Announces nothing. -/
def silent (_ : String) : Action Unit := Pure.pure ()

theorem agrees_start_silent (h : World.AlikeFor actor s₁ s₂ w₁ w₂ db₁ db₂) (hs₁ : s₁.IsUnused w₁)
    (hs₂ : s₂.IsUnused w₂) (table : String) (total : Value) :
    Agrees actor (start silent actor table total) s₁ s₂ w₁ w₂ db₁ :=
  agrees_lift_bind h fun _ _ => agrees_gate_bind h fun _ _ ho₁ ho₂ =>
    agrees_map (agrees_createJob h hs₁ hs₂ ho₁ ho₂ total)

/-- However a job is announced, it is made in the same way and its id is the answer. -/
theorem run_start {announce : String → Action Unit} (hannounce : ∀ job, IsQuiet (announce job))
    (actor table : String) (total : Value) (s : Surroundings) (w : World) :
    (start announce actor table total s w).1 = (start silent actor table total s w).1 ∧
      (start announce actor table total s w).2.storage =
        (start silent actor table total s w).2.storage := by
  have hboth : ∀ {α : Type} {x : Action α} {k k' : α → Action String},
      (∀ a s w, (k a s w).1 = (k' a s w).1 ∧ (k a s w).2.storage = (k' a s w).2.storage) →
        ∀ s w, ((x >>= k) s w).1 = ((x >>= k') s w).1 ∧
          ((x >>= k) s w).2.storage = ((x >>= k') s w).2.storage := by
    intro α x k k' hk s w
    rcases hx : x s w with ⟨why | a, w'⟩
    · rw [run_bind_error hx, run_bind_error hx]
      exact ⟨rfl, rfl⟩
    · rw [run_bind_ok hx, run_bind_ok hx]
      exact hk a s w'
  refine hboth (fun _ => hboth fun _ => hboth fun job s w => ?_) s w
  exact ⟨rfl, hannounce job.id s w⟩

theorem concurs_start {announce : String → Action Unit} (hannounce : ∀ job, IsQuiet (announce job))
    (h : World.AlikeFor actor s₁ s₂ w₁ w₂ db₁ db₂) (hs₁ : s₁.IsUnused w₁) (hs₂ : s₂.IsUnused w₂)
    (table : String) (total : Value) :
    Concurs actor (start announce actor table total) s₁ s₂ w₁ w₂ db₁ := by
  obtain ⟨hanswer, hstorage⟩ := (agrees_start_silent h hs₁ hs₂ table total).concurs
  obtain ⟨hanswer₁, hstorage₁⟩ := run_start hannounce actor table total s₁ w₁
  obtain ⟨hanswer₂, hstorage₂⟩ := run_start hannounce actor table total s₂ w₂
  rw [← hstorage₁, ← hstorage₂] at hstorage
  exact ⟨hanswer₁.trans (hanswer.trans hanswer₂.symm), hstorage⟩

end Ingestion

end Tabula
