import Tabula.Proofs.Changes

/-!
# Operations on behalf of actors

All that the service and its workers may be asked to do is one type, `Operation`, and one relation
says what it may make of the database, `Operation.Steps` : changes, or a column that is deleted or
updated. The proof goes through the operations one by one (`steps_perform`); later ones go
through the four kinds of step.

The worlds that come about are `Reached`, whose argument says which operations are allowed in
which database. What holds of an empty database and is kept by each kind of step holds of all of
them (`Reached.induct`).
-/

namespace Tabula

open Store Database Tabula.Action

/-- What the service and its workers may be asked to do. -/
inductive Operation where
  | createBase (actor : Option String) (name : Value)
  | listBases (actor : String)
  | createTable (actor base : String) (name : Value)
  | getTable (actor table : String)
  | deleteTable (actor table : String)
  | addColumn (actor table : String) (name type order : Value)
  | updateColumn (actor column : String) (name type order : Value)
  | deleteColumn (actor column : String)
  | listRows (actor table : String) (filter sort limit offset : Value)
  | countRows (actor table : String) (filter : Value)
  | insertRows (actor table : String) (rows : Value)
  | updateCell (actor row : String) (column value : Value)
  | deleteRow (actor row : String)
  | createView (actor table : String) (name filter sort : Value)
  | listViews (actor table : String)
  | getView (actor view : String)
  | updateView (actor view : String) (name filter sort : Value)
  | listViewRows (actor view : String) (limit offset : Value)
  | search (actor : String) (text limit : Value)
  | startIngestion (announce : String → Action Unit) (actor table : String) (total : Value)
  | runJob (worker : Worker) (job : String)
  | runPending (worker : Worker) (table : Option String)

namespace Operation

/-- The operation as an action, whose answer does not matter. -/
def perform (settings : Workspace.Settings) : Operation → Action Unit
  | createBase actor name => do let _ ← Workspace.createBase actor name
  | listBases actor => do let _ ← Workspace.listBases actor
  | createTable actor base name => do let _ ← Workspace.createTable actor base name
  | getTable actor table => do let _ ← Workspace.getTable actor table
  | deleteTable actor table => Workspace.deleteTable actor table
  | addColumn actor table name type order => do
    let _ ← Workspace.addColumn actor table name type order
  | updateColumn actor column name type order => do
    let _ ← Workspace.updateColumn actor column name type order
  | deleteColumn actor column => do let _ ← Workspace.deleteColumn actor column
  | listRows actor table filter sort limit offset => do
    let _ ← Workspace.listRows settings actor table filter sort limit offset
  | countRows actor table filter => do let _ ← Workspace.countRows actor table filter
  | insertRows actor table rows => do let _ ← Workspace.insertRows settings actor table rows
  | updateCell actor row column value => do let _ ← Workspace.updateCell actor row column value
  | deleteRow actor row => Workspace.deleteRow actor row
  | createView actor table name filter sort => do
    let _ ← Workspace.createView actor table name filter sort
  | listViews actor table => do let _ ← Workspace.listViews actor table
  | getView actor view => do let _ ← Workspace.getView actor view
  | updateView actor view name filter sort => do
    let _ ← Workspace.updateView actor view name filter sort
  | listViewRows actor view limit offset => do
    let _ ← Workspace.listViewRows settings actor view limit offset
  | search actor text limit => do let _ ← Workspace.search settings actor text limit
  | startIngestion announce actor table total => do
    let _ ← Ingestion.start announce actor table total
  | runJob worker job => do let _ ← worker.run job
  | runPending worker table => do let _ ← worker.runPending table

/-- What is given from outside keeps to its part : an announcement does not touch the database,
and sources make rows for the columns that they are given. -/
def IsSound : Operation → Prop
  | startIngestion announce _ _ _ => ∀ job, IsQuiet (announce job)
  | runJob worker _ => SourceFactory.Conforms worker.source
  | runPending worker _ => SourceFactory.Conforms worker.source
  | _ => True

/-- Whether the operation is to change or delete a column that is there. -/
def AltersColumn : Operation → Prop
  | updateColumn _ _ _ _ _ => True
  | deleteColumn _ _ => True
  | _ => False

end Operation

namespace Ingestion

variable {s : Surroundings} {w : World} {db : Database}

theorem leaves_start (hw : w.storage = .ready db) {announce : String → Action Unit}
    (hannounce : ∀ job, IsQuiet (announce job)) (actor table : String) (total : Value) :
    Leaves (Changes db) (start announce actor table total) s w := by
  refine leaves_lift_bind hw .refl fun _ _ => ?_
  refine leaves_query_bind hw .refl fun t ht => ?_
  have hmade : Leaves (Changes db) (Jobs.create table total) s w := by
    refine leaves_lift_bind hw .refl fun total _ => ?_
    refine (isQuiet_newId _).leaves_bind hw .refl fun id w₁ _ hw₁ => ?_
    refine isQuiet_now.leaves_bind hw₁ .refl fun now w₂ _ hw₂ => ?_
    refine leaves_transaction hw₂ .refl fun j db' h => ?_
    obtain ⟨⟨j', jobs⟩, hjobs, h⟩ := ok_of_bind h
    obtain ⟨_, rfl⟩ := Prod.mk.inj (Except.ok.inj h)
    obtain ⟨total, _, hjobs⟩ := ok_of_bind hjobs
    obtain ⟨table', htable', hjobs⟩ := ok_of_bind hjobs
    obtain rfl := Except.ok.inj htable'
    obtain ⟨total, _, hjobs⟩ := ok_of_bind hjobs
    obtain ⟨_, rfl⟩ := Prod.mk.inj (Except.ok.inj hjobs)
    exact .single (.job (Catalog.hasTable_of_owned ht))
  refine leaves_bind hmade fun job w' h => ?_
  obtain ⟨db', hdb', hchanges⟩ := hmade
  rw [h] at hdb'
  exact (isQuiet_bind (isQuiet_attempt (hannounce job.id)) fun _ => isQuiet_pure _).leaves hdb'
    hchanges

end Ingestion

namespace Operation

variable {s : Surroundings} {w : World} {db : Database}

/-- An operation that does not alter a column makes nothing but changes. -/
theorem leaves_perform (settings : Workspace.Settings) (hw : w.storage = .ready db)
    (hfresh : s.IsFresh w) {op : Operation} (hsound : op.IsSound) (hkeeps : ¬ op.AltersColumn) :
    Leaves (Changes db) (op.perform settings) s w := by
  cases op with
  | createBase actor name => exact leaves_map (Workspace.leaves_createBase hw actor name)
  | listBases actor =>
    exact leaves_map (leaves_map ((isQuiet_query _).leaves hw .refl))
  | createTable actor base name =>
    exact leaves_map (Workspace.leaves_createTable hw hfresh actor base name)
  | getTable actor table =>
    exact leaves_map ((isQuiet_bind (isQuiet_query _) fun _ =>
      isQuiet_bind (isQuiet_query _) fun _ => isQuiet_pure _).leaves hw .refl)
  | deleteTable actor table => exact Workspace.leaves_deleteTable hw actor table
  | addColumn actor table name type order =>
    exact leaves_map (Workspace.leaves_addColumn hw hfresh actor table name type order)
  | updateColumn => exact absurd trivial hkeeps
  | deleteColumn => exact absurd trivial hkeeps
  | listRows actor table filter sort limit offset =>
    exact leaves_map ((Workspace.isQuiet_listRows settings actor table filter sort limit
      offset).leaves hw .refl)
  | countRows actor table filter =>
    exact leaves_map ((Workspace.isQuiet_countRows actor table filter).leaves hw .refl)
  | insertRows actor table rows =>
    exact leaves_map (Workspace.leaves_insertRows hw settings actor table rows)
  | updateCell actor row column value =>
    exact leaves_map (Workspace.leaves_updateCell hw actor row column value)
  | deleteRow actor row => exact Workspace.leaves_deleteRow hw actor row
  | createView actor table name filter sort =>
    exact leaves_map (Workspace.leaves_createView hw actor table name filter sort)
  | listViews actor table =>
    exact leaves_map ((isQuiet_bind (isQuiet_query _) fun _ =>
      isQuiet_bind (isQuiet_query _) fun _ => isQuiet_pure _).leaves hw .refl)
  | getView actor view =>
    exact leaves_map ((isQuiet_bind (isQuiet_query _) fun _ =>
      isQuiet_bind (isQuiet_query _) fun _ => isQuiet_pure _).leaves hw .refl)
  | updateView actor view name filter sort =>
    exact leaves_map (Workspace.leaves_updateView hw actor view name filter sort)
  | listViewRows actor view limit offset =>
    exact leaves_map ((isQuiet_bind (isQuiet_query _) fun _ =>
      Workspace.isQuiet_listRows settings actor _ _ _ limit offset).leaves hw .refl)
  | search actor text limit =>
    exact leaves_map ((Workspace.isQuiet_search settings actor text limit).leaves hw .refl)
  | startIngestion announce actor table total =>
    exact leaves_map (Ingestion.leaves_start hw hsound actor table total)
  | runJob worker job =>
    exact leaves_map ((worker.makes_run hsound job s w db hw).mono fun _ =>
      Worker.changes_of_pending)
  | runPending worker table =>
    exact leaves_map ((worker.makes_runPending hsound table s w db hw).mono fun _ =>
      Worker.changes_of_pending)

end Operation

/-! ## Columns that are deleted -/

/-- A database without a column, whose key is removed from the rows of its table. -/
def Database.withoutColumn (now : Moment) (c : Column) (db : Database) : Database :=
  { db with
    columns := db.columns.filter fun old => old.id != c.id
    rows := Rows.removeKey now c.table c.id db.rows }

namespace Workspace

variable {s : Surroundings} {w : World} {db : Database}

/-- A column is deleted with its key if it is the actor's, and else nothing is done. -/
theorem run_deleteColumn (actor id : String) (hw : w.storage = .ready db) :
    deleteColumn actor id s w =
      match Catalog.ownColumn actor id db with
      | .ok c => (.ok (Rows.countKey c.table id db.rows),
        w.withDatabase (db.withoutColumn s.now c))
      | .error why => (.error why, w) := by
  refine (run_own_bind hw _).trans ?_
  rcases hown : Catalog.ownColumn actor id db with why | c
  · rfl
  · have hid : c.id = id := (Catalog.mem_of_ownColumn hown).2
    simp only
    rw [run_bind_ok run_now, run_transaction hw]
    simp only [RowStore.withoutKey, withoutColumn, hid]

end Workspace

namespace Operation

/-- What an operation may make of the database. -/
inductive Steps (now : Moment) : Operation → Database → Database → Prop
  | changes {op : Operation} {db db' : Database} (hkeeps : ¬ op.AltersColumn) (h : Changes db db') :
      Steps now op db db'
  | missed {actor id : String} {db : Database} {why : Failure}
      (hown : Catalog.ownColumn actor id db = .error why) : Steps now (deleteColumn actor id) db db
  | deleted {actor id : String} {db : Database} {c : Column}
      (hown : Catalog.ownColumn actor id db = .ok c) :
      Steps now (deleteColumn actor id) db (db.withoutColumn now c)
  | updated {actor id : String} {name type order : Value} {db db' : Database}
      {r : Except Failure Column} (h : Workspace.Updates now actor id name type order db r db') :
      Steps now (updateColumn actor id name type order) db db'

variable {s : Surroundings} {w : World} {db : Database}

theorem steps_perform (settings : Workspace.Settings) (hw : w.storage = .ready db)
    (hfresh : s.IsFresh w) {op : Operation} (hsound : op.IsSound) :
    ∃ db', (op.perform settings s w).2.storage = .ready db' ∧ op.Steps s.now db db' := by
  by_cases halters : op.AltersColumn
  · cases op with
    | updateColumn actor id name type order =>
      obtain ⟨r, db', hrun, hupdates⟩ :=
        Workspace.updates (s := s) actor id name type order hw
      refine ⟨db', ?_, .updated hupdates⟩
      rw [perform, run_bind, hrun]
      rcases r with why | c <;> rfl
    | deleteColumn actor id =>
      have hrun := Workspace.run_deleteColumn (s := s) actor id hw
      rcases hown : Catalog.ownColumn actor id db with why | c
      · refine ⟨db, ?_, .missed hown⟩
        rw [perform, run_bind, hrun, hown]
        exact hw
      · refine ⟨_, ?_, .deleted hown⟩
        rw [perform, run_bind, hrun, hown]
        rfl
    | _ => exact halters.elim
  · obtain ⟨db', hdb', h⟩ := leaves_perform settings hw hfresh hsound halters
    exact ⟨db', hdb', .changes halters h⟩

end Operation

/-! ## What comes about -/

/-- The worlds that come about from an empty database by operations, each one allowed where it
takes place, and by runs of jobs that are stopped at any moment. -/
inductive Reached (allowed : Operation → Database → Prop) : World → Prop where
  | empty {w : World} (hw : w.storage = .ready .empty) : Reached allowed w
  | perform {w : World} {db : Database} (h : Reached allowed w) (hw : w.storage = .ready db)
      (settings : Workspace.Settings) {s : Surroundings} {op : Operation} (hfresh : s.IsFresh w)
      (hsound : op.IsSound) (hallowed : allowed op db) : Reached allowed (op.perform settings s w).2
  | stopped {w w' : World} {worker : Worker} {id : String} {refuses : Descriptor → Failure → Prop}
      (h : Reached allowed w) (hfactory : SourceFactory.Conforms worker.source)
      (hdisk : OnDisk worker id refuses w w') : Reached allowed w'

theorem Reached.mono {allowed allowed' : Operation → Database → Prop} {w : World}
    (h : Reached allowed w) (hle : ∀ op db, allowed op db → allowed' op db) :
    Reached allowed' w := by
  induction h with
  | empty hw => exact .empty hw
  | perform _ hw settings hfresh hsound hallowed ih =>
    exact ih.perform hw settings hfresh hsound (hle _ _ hallowed)
  | stopped _ hfactory hdisk ih => exact ih.stopped hfactory hdisk

/-- What holds of an empty database and is kept by changes, by deleting a column and by updating
one, as far as this is allowed, holds of every database that comes about. -/
theorem Reached.induct {allowed : Operation → Database → Prop} {P : Database → Prop} {w : World}
    (h : Reached allowed w) (hempty : P .empty)
    (hchange : ∀ {db db' : Database}, P db → db.Change db' → P db')
    (hdelete : ∀ {db : Database} {now : Moment} {actor id : String} {c : Column}, P db →
      allowed (.deleteColumn actor id) db → Catalog.ownColumn actor id db = .ok c →
        P (db.withoutColumn now c))
    (hupdate : ∀ {db db' : Database} {now : Moment} {actor id : String} {name type order : Value}
      {r : Except Failure Column}, P db → allowed (.updateColumn actor id name type order) db →
        Workspace.Updates now actor id name type order db r db' → P db') :
    ∃ db, w.storage = .ready db ∧ P db := by
  -- All that operations and stopped runs do but to columns that are there is made of changes.
  have hchanges : ∀ {db db' : Database}, P db → Changes db db' → P db' := by
    intro db db' hP h
    induction h with
    | refl => exact hP
    | tail _ hstep ih => exact hchange ih hstep
  induction h with
  | empty hw => exact ⟨_, hw, hempty⟩
  | perform _ hw settings hfresh hsound hallowed ih =>
    obtain ⟨db, hw', hP⟩ := ih
    obtain rfl := Storage.ready.inj (hw'.symm.trans hw)
    obtain ⟨db', hdb', hsteps⟩ := Operation.steps_perform settings hw hfresh hsound
    refine ⟨db', hdb', ?_⟩
    cases hsteps with
    | changes _ h => exact hchanges hP h
    | missed => exact hP
    | deleted hown => exact hdelete hP hallowed hown
    | updated h => exact hupdate hP hallowed h
  | stopped _ hfactory hdisk ih =>
    obtain ⟨db, hw, hP⟩ := ih
    obtain ⟨db', hdb', hpending⟩ := pending_of_onDisk hfactory hw hdisk
    exact ⟨db', hdb', hchanges hP (Worker.changes_of_pending hpending)⟩

end Tabula
