import Tabula.Proofs.OwnTables

/-!
# Requests that are refused

A request is refused if it makes no sense, if the actor may not make it or if a record that it
names is not there (`Failure.isRefusal`). All operations but the update of a column check first
and write last, so a refusal leaves the database as it was (`storage_of_refused`).

`Action.Undoes` is what is proved of each of them, from the front : a step that is quiet may fail
as it likes, and a transaction that fails has changed nothing. Only the rows of an insertion are
appended in several transactions. There a refusal comes before the first one, and what fails
later is the store or a row that cannot be encoded (`never_insertChunks`).
-/

namespace Tabula

open Store

/-- A failure that refuses what is asked. -/
def Failure.isRefusal : Failure → Bool
  | invalid _ | forbidden | noActor | notFound _ _ | noPendingJob => true
  | _ => false

/-- The refusals are the failures of three kinds. -/
theorem Failure.isRefusal_iff {why : Failure} :
    why.isRefusal = true ↔
      why.kind ∈ ["ValidationError", "AuthorizationError", "NotFoundError"] := by
  cases why with
  | fault why =>
    cases why with
    | unreadable stage => cases stage <;> simp [isRefusal, kind, Fault.kind, ReadingStage.kind]
    | unwritable why => cases why <;> simp [isRefusal, kind, Fault.kind]
    | _ => simp [isRefusal, kind, Fault.kind]
  | _ => simp [isRefusal, kind]

namespace Action

variable {α β : Type} {P : Failure → Prop}

/-- When the action fails in such a way, what is stored is as it was. -/
def Undoes (P : Failure → Prop) (x : Action α) : Prop :=
  ∀ s w why w', x s w = (.error why, w') → P why → w'.storage = w.storage

/-- The action does not fail in such a way. -/
def Never (P : Failure → Prop) (x : Action α) : Prop :=
  ∀ s w why w', x s w = (.error why, w') → ¬ P why

theorem Answers.never {x : Action α} (h : Answers x) : Never P x := by
  intro s w why w' hx
  obtain ⟨a, w₁, ha⟩ := h s w
  rw [ha] at hx
  cases hx

theorem never_lift {r : Except Failure α} (h : ∀ why, r = .error why → ¬ P why) :
    Never P (liftM r : Action α) :=
  fun _ _ why _ hx => h why (Prod.mk.inj hx).1

theorem never_bind {x : Action α} {f : α → Action β} (hx : Never P x) (hf : ∀ a, Never P (f a)) :
    Never P (x >>= f) := by
  intro s w why w' h
  rcases ha : x s w with ⟨e | a, w₁⟩
  · rw [run_bind_error ha] at h
    obtain ⟨he, rfl⟩ := Prod.mk.inj h
    obtain rfl := Except.error.inj he
    exact hx s w e w₁ ha
  · rw [run_bind_ok ha] at h
    exact hf a s w₁ why w' h

/-- A transaction fails as its change does, or because the store cannot be used. -/
theorem never_transaction {f : Database → Except Failure (α × Database)}
    (hf : ∀ db why, f db = .error why → ¬ P why)
    (hstore : ∀ detail, ¬ P (.fault (.storeUnusable detail))) : Never P (transaction f) := by
  intro s w why w' h
  rcases hw : w.storage with db | _ | _
  · rw [run_transaction hw] at h
    split at h
    · cases h
    · rename_i hfail
      obtain rfl := Except.error.inj (Prod.mk.inj h).1
      exact hf db _ hfail
  all_goals
    simp only [transaction, hw] at h
    obtain rfl := Except.error.inj (Prod.mk.inj h).1
    exact hstore _

theorem never_rowStore {action : RowAction} {x : Action α}
    (hx : Never (fun why => P (asRowStore action why)) x) : Never P (rowStore action x) := by
  intro s w why w' h
  rcases hr : x s w with ⟨e | a, w₁⟩
  · rw [run_rowStore_error hr] at h
    obtain rfl := Except.error.inj (Prod.mk.inj h).1
    exact hx s w e w₁ hr
  · rw [run_rowStore_ok hr] at h
    cases h

theorem IsQuiet.undoes {x : Action α} (h : IsQuiet x) : Undoes P x :=
  fun _ _ _ _ hx _ => h.storage_eq hx

theorem IsQuiet.undoes_bind {x : Action α} {f : α → Action β} (hx : IsQuiet x)
    (hf : ∀ a, Undoes P (f a)) : Undoes P (x >>= f) := by
  intro s w why w' h hwhy
  rcases ha : x s w with ⟨e | a, w₁⟩
  · rw [run_bind_error ha] at h
    obtain ⟨_, rfl⟩ := Prod.mk.inj h
    exact hx.storage_eq ha
  · rw [run_bind_ok ha] at h
    exact (hf a s w₁ why w' h hwhy).trans (hx.storage_eq ha)

/-- Once a step has changed something, nothing fails in such a way any more. -/
theorem Undoes.bind {x : Action α} {f : α → Action β} (hx : Undoes P x)
    (hf : ∀ a, Never P (f a)) : Undoes P (x >>= f) := by
  intro s w why w' h hwhy
  rcases ha : x s w with ⟨e | a, w₁⟩
  · rw [run_bind_error ha] at h
    obtain ⟨he, rfl⟩ := Prod.mk.inj h
    obtain rfl := Except.error.inj he
    exact hx s w e w₁ ha hwhy
  · rw [run_bind_ok ha] at h
    exact absurd hwhy (hf a s w₁ why w' h)

theorem Undoes.map {x : Action α} {f : α → β} (hx : Undoes P x) :
    Undoes P (do return f (← x) : Action β) :=
  hx.bind fun _ => (answers_pure _).never

theorem undoes_transaction (f : Database → Except Failure (α × Database)) :
    Undoes P (transaction f) := by
  intro s w why w' h _
  rcases hw : w.storage with db | _ | _
  · rw [run_transaction hw] at h
    split at h
    · cases h
    · rw [← (Prod.mk.inj h).2, hw]
  all_goals
    simp only [transaction, hw] at h
    rw [← (Prod.mk.inj h).2, hw]

theorem undoes_rowStore {action : RowAction} {x : Action α}
    (hx : Undoes (fun why => P (asRowStore action why)) x) : Undoes P (rowStore action x) := by
  intro s w why w' h hwhy
  rcases hr : x s w with ⟨e | a, w₁⟩
  · rw [run_rowStore_error hr] at h
    obtain ⟨he, rfl⟩ := Prod.mk.inj h
    obtain rfl := Except.error.inj he
    exact hx s w e w₁ hr hwhy
  · rw [run_rowStore_ok hr] at h
    cases h

end Action

open Tabula.Action

namespace Workspace

variable {P : Failure → Prop} (settings : Settings) (actor id : String)

/-! ## One transaction at the end -/

theorem undoes_createBase (owner : Option String) (name : Value) :
    Undoes P (createBase owner name) :=
  Undoes.map <| (isQuiet_lift _).undoes_bind fun _ => (isQuiet_newId _).undoes_bind fun _ =>
    isQuiet_now.undoes_bind fun _ => undoes_transaction _

theorem undoes_createTable (name : Value) : Undoes P (createTable actor id name) := by
  refine (isQuiet_ensureBaseOwner _ _).undoes_bind fun _ => ?_
  refine (isQuiet_lift _).undoes_bind fun _ => ?_
  refine (isQuiet_newId _).undoes_bind fun _ => ?_
  refine isQuiet_now.undoes_bind fun _ => ?_
  refine (isQuiet_newColumns _ _ _).undoes_bind fun _ => ?_
  refine (isQuiet_sampleData _ _).undoes_bind fun _ => ?_
  refine (isQuiet_looseBatch _ _ _).undoes_bind fun _ => ?_
  exact (undoes_transaction _).bind fun _ => (answers_pure _).never

theorem undoes_deleteTable : Undoes P (deleteTable actor id) :=
  (isQuiet_query _).undoes_bind fun _ => undoes_transaction _

theorem undoes_createColumn (table : Option String) (name type order : Value) :
    Undoes P (Catalog.createColumn table name type order) := by
  unfold Catalog.createColumn
  split
  · exact (isQuiet_throw _).undoes
  · exact (isQuiet_lift _).undoes_bind fun _ => (isQuiet_lift _).undoes_bind fun _ =>
      (isQuiet_newId _).undoes_bind fun _ => (isQuiet_lift _).undoes_bind fun _ =>
      isQuiet_now.undoes_bind fun _ => undoes_transaction _

theorem undoes_addColumn (name type order : Value) :
    Undoes P (addColumn actor id name type order) := by
  refine (isQuiet_query _).undoes_bind fun _ => ?_
  dsimp only
  split
  · exact (isQuiet_query _).undoes_bind fun _ => (undoes_createColumn _ _ _ _).map
  · exact (undoes_createColumn _ _ _ _).map

theorem undoes_deleteColumn : Undoes P (deleteColumn actor id) :=
  (isQuiet_query _).undoes_bind fun _ => (isQuiet_query _).undoes_bind fun _ =>
    isQuiet_now.undoes_bind fun _ => undoes_transaction _

theorem undoes_updateCell (column value : Value) :
    Undoes P (updateCell actor id column value) :=
  (isQuiet_rowStore _ (isQuiet_query _)).undoes_bind fun _ =>
    (isQuiet_query _).undoes_bind fun _ => (isQuiet_query _).undoes_bind fun _ =>
    (isQuiet_lift _).undoes_bind fun _ => Undoes.map <| isQuiet_now.undoes_bind fun _ =>
    undoes_rowStore (undoes_transaction _)

theorem undoes_deleteRow : Undoes P (deleteRow actor id) :=
  (isQuiet_rowStore _ (isQuiet_query _)).undoes_bind fun _ =>
    (isQuiet_query _).undoes_bind fun _ => undoes_rowStore (undoes_transaction _)

theorem undoes_createView (name filter sort : Value) :
    Undoes P (createView actor id name filter sort) :=
  (isQuiet_query _).undoes_bind fun _ => (isQuiet_keptConfigs _ _ _).undoes_bind fun _ =>
    Undoes.map <| (isQuiet_lift _).undoes_bind fun _ => (isQuiet_newId _).undoes_bind fun _ =>
    isQuiet_now.undoes_bind fun _ => undoes_transaction _

theorem undoes_updateView (name filter sort : Value) :
    Undoes P (updateView actor id name filter sort) :=
  (isQuiet_query _).undoes_bind fun _ => (isQuiet_query _).undoes_bind fun _ =>
    (isQuiet_keptConfigs _ _ _).undoes_bind fun _ => (undoes_transaction _).map

/-! ## Chunks of rows -/

theorem not_isRefusal_of_encode {idOf : Nat → String} {batch start : Int} {rows : List Value}
    {why : Failure} (h : Batch.encode idOf batch start rows = .error why) :
    ¬ why.isRefusal = true := by
  suffices hfrom : ∀ row, Batch.encodeFrom idOf batch start row rows = .error why →
      ¬ why.isRefusal = true from hfrom 0 h
  clear h
  induction rows with
  | nil => exact fun _ h => nomatch h
  | cons v vs ih =>
    intro row h
    rw [Batch.encodeFrom] at h
    split at h
    · rename_i hrow
      rw [Batch.encodeRow] at hrow
      split at hrow
      · cases hrow
      · rw [← Except.error.inj h, ← Except.error.inj hrow]
        exact Bool.false_ne_true
    · split at h
      · rename_i hrest
        obtain rfl := Except.error.inj h
        exact ih (row + 1) hrest
      · cases h

theorem never_append (table : String) (es : Batch) :
    Never (·.isRefusal = true) (RowStore.append table es) := by
  unfold RowStore.append
  split
  · exact (answers_pure 0).never
  · refine never_bind answers_now.never fun now => never_rowStore (never_transaction ?_ ?_)
    · intro db why h
      rw [RowStore.appended] at h
      split at h
      · cases h
      · rw [← Except.error.inj h]
        exact Bool.false_ne_true
    · exact fun detail => Bool.false_ne_true

/-- Once the first chunk is asked for, nothing is refused any more. -/
theorem never_insertChunks (table : String) :
    ∀ (chunks : List (List Cells)) (position batch : Int),
      Never (·.isRefusal = true) (insertChunks table position batch chunks)
  | [], _, _ => (answers_pure 0).never
  | chunk :: chunks, position, batch => by
    refine never_bind ?_ fun es => never_bind (never_append table es) fun n =>
      never_bind (never_insertChunks table chunks _ _) fun _ => (answers_pure _).never
    exact never_bind answers_stamp.never fun _ => never_bind (answers_endings _).never fun _ =>
      never_lift fun why h => not_isRefusal_of_encode h

theorem undoes_insertRows (rows : Value) :
    Undoes (·.isRefusal = true) (insertRows settings actor id rows) := by
  refine (isQuiet_query _).undoes_bind fun _ => ?_
  dsimp only
  split
  on_goal 3 => exact (isQuiet_throw _).undoes
  -- A list and a tuple of rows are the same to insert.
  all_goals
    refine (isQuiet_query _).undoes_bind fun _ => ?_
    refine (isQuiet_lift _).undoes_bind fun _ => ?_
    refine (isQuiet_rowStore _ (isQuiet_query _)).undoes_bind fun _ => ?_
    split
    · exact fun s w why w' h hwhy => absurd hwhy (never_insertChunks id _ _ _ s w why w' h)
    · exact (isQuiet_throw _).undoes

end Workspace

namespace Ingestion

theorem undoes_start {P : Failure → Prop} (announce : String → Action Unit) (actor table : String)
    (total : Value) : Undoes P (start announce actor table total) :=
  (isQuiet_lift _).undoes_bind fun _ => (isQuiet_query _).undoes_bind fun _ =>
    Undoes.bind ((isQuiet_lift _).undoes_bind fun _ => (isQuiet_newId _).undoes_bind fun _ =>
      isQuiet_now.undoes_bind fun _ => undoes_transaction _) fun _ =>
    (answers_bind (fun _ _ => ⟨_, _, rfl⟩) fun _ => answers_pure _).never

end Ingestion

/-! ## All operations -/

namespace Operation

/-- The operations that check all that they are given before they write anything. The update of a
column is none : it makes the cells numbers before it looks at the other fields. -/
def ChecksFirst : Operation → Prop
  | updateColumn _ _ _ _ _ => False
  | runJob _ _ => False
  | runPending _ _ => False
  | _ => True

theorem undoes_perform (settings : Workspace.Settings) {op : Operation} (hop : op.ChecksFirst) :
    Undoes (·.isRefusal = true) (op.perform settings) := by
  cases op with
  | createBase actor name => exact (Workspace.undoes_createBase actor name).map
  | listBases actor => exact (isQuiet_bind (isQuiet_query _) fun _ => isQuiet_pure _).undoes.map
  | createTable actor base name => exact (Workspace.undoes_createTable actor base name).map
  | getTable actor table =>
    exact (isQuiet_bind (isQuiet_query _) fun _ => isQuiet_bind (isQuiet_query _) fun _ =>
      isQuiet_pure _).undoes.map
  | deleteTable actor table => exact Workspace.undoes_deleteTable actor table
  | addColumn actor table name type order =>
    exact (Workspace.undoes_addColumn actor table name type order).map
  | updateColumn => exact hop.elim
  | deleteColumn actor column => exact (Workspace.undoes_deleteColumn actor column).map
  | listRows actor table filter sort limit offset =>
    exact (Workspace.isQuiet_listRows settings actor table filter sort limit offset).undoes.map
  | countRows actor table filter =>
    exact (Workspace.isQuiet_countRows actor table filter).undoes.map
  | insertRows actor table rows => exact (Workspace.undoes_insertRows settings actor table rows).map
  | updateCell actor row column value =>
    exact (Workspace.undoes_updateCell actor row column value).map
  | deleteRow actor row => exact Workspace.undoes_deleteRow actor row
  | createView actor table name filter sort =>
    exact (Workspace.undoes_createView actor table name filter sort).map
  | listViews actor table =>
    exact (isQuiet_bind (isQuiet_query _) fun _ => isQuiet_bind (isQuiet_query _) fun _ =>
      isQuiet_pure _).undoes.map
  | getView actor view =>
    exact (isQuiet_bind (isQuiet_query _) fun _ => isQuiet_bind (isQuiet_query _) fun _ =>
      isQuiet_pure _).undoes.map
  | updateView actor view name filter sort =>
    exact (Workspace.undoes_updateView actor view name filter sort).map
  | listViewRows actor view limit offset =>
    exact (isQuiet_bind (isQuiet_query _) fun _ =>
      Workspace.isQuiet_listRows settings actor _ _ _ limit offset).undoes.map
  | search actor text limit =>
    exact (Workspace.isQuiet_search settings actor text limit).undoes.map
  | startIngestion announce actor table total =>
    exact (Ingestion.undoes_start announce actor table total).map
  | runJob => exact hop.elim
  | runPending => exact hop.elim

/-- Whatever the world is, an operation that is refused leaves bases, tables, columns, views, rows
and jobs as they were. -/
theorem storage_of_refused (settings : Workspace.Settings) {op : Operation} (hop : op.ChecksFirst)
    {s : Surroundings} {w w' : World} {why : Failure}
    (h : op.perform settings s w = (.error why, w')) (hwhy : why.isRefusal = true) :
    w'.storage = w.storage :=
  undoes_perform settings hop s w why w' h hwhy

/-- An insertion whose second row is no object is refused : the first row is not stored either. -/
theorem storage_of_rowNotObject : ∃ w db t s w',
    Reached (fun _ _ => True) w ∧ w.storage = .ready db ∧ db.IsNew t ∧
      (insertRows "u" t.id (.list [.dict [], .int 1])).perform ⟨.null, 1⟩ s w =
        (.error (.invalid (.rowNotObject 1)), w') ∧ w'.storage = w.storage := by
  obtain ⟨w, db, t, h, hw, hnew⟩ := @exists_isNew (fun _ _ => True) fun _ _ _ => trivial
  obtain ⟨s, _⟩ := exists_isFresh w
  have hrun : (insertRows "u" t.id (.list [.dict [], .int 1])).perform ⟨.null, 1⟩ s w =
      (.error (.invalid (.rowNotObject 1)), w) := by
    refine run_bind_error ?_ _
    rw [Workspace.insertRows, Catalog.ensureOwner, run_query_bind hw hnew.owned]
    exact run_query_bind (f := fun db => .ok (Catalog.typesOf t.id db)) hw rfl _
  exact ⟨w, db, t, s, w, h, hw, hnew, hrun,
    @storage_of_refused ⟨.null, 1⟩ (insertRows "u" t.id (.list [.dict [], .int 1])) trivial
      _ _ _ _ hrun rfl⟩

end Operation

end Tabula
