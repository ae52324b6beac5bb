import Tabula.Proofs.Inheritance
import Tabula.Proofs.Insertion
import Tabula.Proofs.JobIds

/-!
# Rows that are added

Three operations add rows : one makes a table, one inserts rows, one runs jobs. The first two offer
rows with stamps to the store (`Workspace.exists_of_createTable`, `Workspace.exists_of_insertRows`).
Rows of jobs have ids that are no loose ids.

So ids of rows belong to the past (`Database.IsDated`) : those with stamps have one that was given
out. This is carried by whatever comes about in one process (`Reached.isDated`), and rows with
stamps to come have ids that no row has (`Database.IsDated.join_eq`).
-/

namespace Tabula

open Store Tabula.Action Rows

/-! ## Ids of the past -/

namespace Batch

/-- The id has no stamp, or one up to this. -/
def IsPast (upTo : Int) (id : String) : Prop :=
  ∀ stamp batch row ending, id = looseRowId stamp batch row ending → stamp ≤ upTo

variable {upTo upTo' : Int}

theorem IsPast.mono {id : String} (h : IsPast upTo id) (hle : upTo ≤ upTo') : IsPast upTo' id :=
  fun stamp batch row ending hid => (h stamp batch row ending hid).trans hle

theorem isPast_looseRowId {stamp : Int} (h : stamp ≤ upTo) (batch : Int) (row : Nat)
    (ending : String) : IsPast upTo (looseRowId stamp batch row ending) := by
  intro stamp' batch' row' ending' hid
  rwa [← eq_of_looseRowId hid]

/-- Ids of jobs' rows have no stamp. -/
theorem isPast_jobRowId (upTo : Int) (token : String) (batch : Int) (row : Nat) :
    IsPast upTo (jobRowId ("job" ++ "_" ++ token) batch row) := by
  intro stamp batch' row' ending hid
  exact absurd hid.symm (looseRowId_ne_jobRowId stamp batch' batch row' row ending token)

end Batch

/-- Every row has an id of the past, and every job an id that was made for a job. -/
structure Database.IsDated (upTo : Int) (db : Database) : Prop where
  rows : ∀ r ∈ db.rows, Batch.IsPast upTo r.id
  jobs : ∀ j ∈ db.jobs, ∃ token, j.id = "job" ++ "_" ++ token

namespace Database

variable {upTo upTo' : Int} {db db' : Database}

theorem isDated_empty (upTo : Int) : Database.empty.IsDated upTo :=
  ⟨fun _ h => absurd h List.not_mem_nil, fun _ h => absurd h List.not_mem_nil⟩

theorem IsDated.mono (h : db.IsDated upTo) (hle : upTo ≤ upTo') : db.IsDated upTo' :=
  ⟨fun r hr => (h.rows r hr).mono hle, h.jobs⟩

theorem IsDated.thins {IsName : String → Prop} (h : db.IsDated upTo) (hthins : Thins IsName db db') :
    db'.IsDated upTo := by
  refine ⟨fun r hr => ?_, fun j hj => ?_⟩
  · obtain ⟨old, hold, heq⟩ := List.mem_map.mp (hthins.rows.subset (List.mem_map_of_mem hr))
    exact (Prod.mk.inj heq).1 ▸ h.rows old hold
  · rcases hthins.jobs j hj with ⟨old, hold, hid⟩ | htoken
    · exact hid ▸ h.jobs old hold
    · exact htoken

/-- Rows with stamps that are to come have ids that no row has. -/
theorem IsDated.join_eq {table : String} {start : Int} {cells : List Cells} {new : Rows}
    (h : db.IsDated upTo) (hnew : Stamped upTo upTo' table start cells new) :
    db.rows.novel new = new := by
  refine novel_eq_self fun r hr => ?_
  rw [Bool.eq_false_iff]
  intro hhas
  obtain ⟨old, hold, hid⟩ := has_iff.mp hhas
  obtain ⟨stamp, batch, row, ending, hlt, -, hstamp⟩ := hnew.ids r hr
  exact hlt.not_ge (h.rows old hold stamp batch row ending (hid.trans hstamp))

theorem IsDated.withRows {table : String} {start : Int} {cells : List Cells} {new : Rows}
    (h : db.IsDated upTo) (hnew : Stamped upTo upTo' table start cells new)
    (hrows : db'.rows = db.rows.join new) (hjobs : db'.jobs = db.jobs) : db'.IsDated upTo' := by
  refine ⟨fun r hr => ?_, hjobs ▸ h.jobs⟩
  rw [hrows, join, h.join_eq hnew] at hr
  rcases List.mem_append.mp hr with hr | hr
  · exact (h.rows r hr).mono hnew.le
  · obtain ⟨stamp, batch, row, ending, -, hle, hid⟩ := hnew.ids r hr
    exact hid ▸ Batch.isPast_looseRowId hle batch row ending

end Database

/-! ## Tables and rows that are made -/

namespace Workspace

variable {s : Surroundings} {w w' : World} {db : Database}

theorem names_of_newColumns {table : String} :
    ∀ {n k : Nat} {w w' : World} {columns : List Column},
      newColumns table k n s w = (.ok columns, w') → ∀ c ∈ columns, Text.IsTidy c.name
  | 0, _, w, w', columns, h => by
    obtain rfl := Except.ok.inj (Prod.mk.inj h).1
    exact List.forall_mem_nil _
  | n + 1, k, w, w', columns, h => by
    obtain ⟨id, w₁, _, h⟩ := ok_of_run_bind h
    obtain ⟨now, w₂, _, h⟩ := ok_of_run_bind h
    obtain ⟨rest, w₃, hrest, h⟩ := ok_of_run_bind h
    obtain rfl := Except.ok.inj (Prod.mk.inj h).1
    exact List.forall_mem_cons.mpr ⟨Text.isTidy_columnName _, names_of_newColumns hrest⟩

/-- What a call to make a table comes to : nothing, or the table with its columns, and rows from the
first position on. -/
inductive CreatesTable (s : Surroundings) (w : World) (db : Database) : World → Prop where
  | nothing {w' : World} (hw' : w'.storage = .ready db) : CreatesTable s w db w'
  | table {w' : World} {t : Table} {columns : List Column} {cells : List Cells} {new : Rows}
      (hw' : w'.storage = .ready { db with
        tables := db.tables ++ [t], columns := db.columns ++ columns, rows := db.rows.join new })
      (hid : t.id = "tbl" ++ "_" ++ s.token (w.tokens + 1)) (hname : Text.IsTidy t.name)
      (hnames : ∀ c ∈ columns, Text.IsTidy c.name) (hcount : cells.length = sampleRows)
      (hnew : Stamped w.lastStamp w'.lastStamp t.id 0 cells new) : CreatesTable s w db w'

theorem CreatesTable.bind {α β : Type} {w₁ : World} {x : Action α} {f : α → Action β}
    (hx : IsQuiet x) (hw₁ : w₁.storage = .ready db)
    (hf : ∀ a w₂, x s w₁ = (.ok a, w₂) → w₂.storage = .ready db →
      CreatesTable s w db (f a s w₂).2) : CreatesTable s w db ((x >>= f) s w₁).2 := by
  rcases hrun : x s w₁ with ⟨why | a, w₂⟩
  · rw [run_bind_error hrun]
    exact .nothing ((hx.storage_eq hrun).trans hw₁)
  · rw [run_bind_ok hrun]
    exact hf a w₂ hrun ((hx.storage_eq hrun).trans hw₁)

/-- A table is made with all that belongs to it, or nothing is made. -/
theorem createsTable (hw : w.storage = .ready db) (actor base : String) (name : Value) :
    CreatesTable s w db (createTable actor base name s w).2 := by
  refine .bind (isQuiet_ensureBaseOwner actor base) hw fun b w₁ hb hw₁ => ?_
  obtain ⟨-, rfl⟩ := base_of_ensureBaseOwner hw hb
  refine .bind (isQuiet_lift _) hw fun n w₁ hlift hw₁ => ?_
  obtain ⟨hn, rfl⟩ := Prod.mk.inj hlift
  refine .bind (isQuiet_newId "tbl") hw fun id w₂ hid hw₂ => ?_
  refine .bind isQuiet_now hw₂ fun now w₃ hnow hw₃ => ?_
  refine .bind (isQuiet_newColumns id _ _) hw₃ fun columns w₄ hcolumns hw₄ => ?_
  refine .bind (isQuiet_sampleData columns _) hw₄ fun cells w₅ hcells hw₅ => ?_
  have hle : w.lastStamp ≤ w₅.lastStamp :=
    ((ages_newId _).le_of_run hid).trans <| (ages_now.le_of_run hnow).trans <|
      ((ages_newColumns id _ _).le_of_run hcolumns).trans ((ages_sampleData columns _).le_of_run hcells)
  refine .bind (isQuiet_looseBatch _ _ _) hw₅ fun es w₆ hes hw₆ => ?_
  have hstamped := stamped_of_looseBatch hes now id
  rw [run_bind, run_transaction hw₆]
  rcases happended : RowStore.appended now id es db with why | ⟨count, db₁⟩
  · exact .nothing hw₆
  · obtain ⟨rfl, -⟩ := RowStore.eq_of_appended happended
    have hnodup : (es.map Entry.id).Nodup := by
      have := hstamped.nodup
      rwa [List.map_map] at this
    refine .table (t := ⟨id, base, n, now⟩) ?_
      (Except.ok.inj (Prod.mk.inj hid).1).symm (Catalog.isTidy_nameOf hn)
      (names_of_newColumns hcolumns) (length_of_sampleData hcells) (hstamped.mono hle le_rfl)
    rw [join, novel_map_ofEntry, append_eq now id db.rows hnodup]
    rfl

/-- However an insertion ends, rows are offered to the store from the position behind the last
row. -/
theorem exists_of_insertRows (hw : w.storage = .ready db) (settings : Settings)
    (actor table : String) (given : Value) :
    ∃ cells new, (insertRows settings actor table given s w).2.storage =
        .ready (db.withRows (db.rows.join new)) ∧
      Stamped w.lastStamp (insertRows settings actor table given s w).2.lastStamp table
        (db.rows.nextPosition table) cells new := by
  have hnothing : ∀ {r : Except Failure Nat} {w' : World},
      insertRows settings actor table given s w = (r, w') → w'.storage = .ready db →
      ∃ cells new, (insertRows settings actor table given s w).2.storage =
          .ready (db.withRows (db.rows.join new)) ∧
        Stamped w.lastStamp (insertRows settings actor table given s w).2.lastStamp table
          (db.rows.nextPosition table) cells new := by
    intro r w' hrun hw'
    refine ⟨[], [], ?_, stamped_nil (ages_insertRows settings actor table given s w) _ _⟩
    rw [hrun, join_nil]
    exact hw'
  by_cases hprepares : ∃ rows, Prepares actor table given db rows
  swap
  · have hrefused : ∃ why, (Conditions.steady s).insertRows settings actor table given s w =
        (.error why, w) := Conditions.run_insertRows_of_not hw hprepares
    obtain ⟨why, hrun⟩ := hrefused
    rw [Conditions.run_insertRows_steady] at hrun
    exact hnothing hrun hw
  obtain ⟨rows, hrows⟩ := hprepares
  have hrun := Conditions.run_insertRows (c := .steady s) (s := s) settings hw hrows
  rw [Conditions.run_insertRows_steady] at hrun
  rcases lt_trichotomy settings.insertBatch 0 with hsize | hsize | hsize
  · rw [chunks?, if_neg hsize.ne, if_pos hsize] at hrun
    exact hnothing hrun hw
  · rw [chunks?, if_pos hsize] at hrun
    exact hnothing hrun hw
  rw [chunks?_eq_some hsize] at hrun
  -- The insertion goes to its end, or to the first chunk that fails.
  by_cases hfails : ∃ k, Conditions.Fails (.steady s) settings.insertBatch.toNat rows.length
      (db.rows.nextPosition table) k
  · classical
    obtain ⟨new, w', hinsert, hw', hnew⟩ := Conditions.run_insertChunks_of_stopsAt (s := s) hw table
      (Int.pos_iff_toNat_pos.mp hsize) hrows.allStorable
      ⟨Nat.find_spec hfails, fun j hj => Nat.find_min hfails hj⟩
    rw [hrun]
    dsimp only
    rw [hinsert]
    exact ⟨_, new, hw', hnew⟩
  · obtain ⟨new, w', hinsert, hw', hnew⟩ := Conditions.run_insertChunks_of_all (s := s) hw table
      (Int.pos_iff_toNat_pos.mp hsize) hrows.allStorable (not_exists.mp hfails)
    rw [hrun]
    dsimp only
    rw [hinsert]
    exact ⟨_, new, hw', hnew⟩

end Workspace

/-! ## Rows that runs add -/

namespace Database

/-- The jobs are the same, and every row is one that there was or a row of one job. -/
structure AddsRowsOf (id : String) (db db' : Database) : Prop where
  jobs : SameJobs db db'
  rows : ∀ r ∈ db'.rows, r ∈ db.rows ∨ IsRowIdOf id r.id

/-- The jobs are the same, and every row is one that there was or a row of one of them. -/
structure AddsJobRows (db db' : Database) : Prop where
  jobs : SameJobs db db'
  rows : ∀ r ∈ db'.rows, r ∈ db.rows ∨ ∃ j ∈ db.jobs, IsRowIdOf j.id r.id

variable {id : String} {db db₁ db₂ db₃ : Database} {upTo : Int}

theorem AddsRowsOf.refl (id : String) (db : Database) : AddsRowsOf id db db :=
  ⟨.refl db, fun _ => .inl⟩

theorem AddsRowsOf.trans (h : AddsRowsOf id db₁ db₂) (h' : AddsRowsOf id db₂ db₃) :
    AddsRowsOf id db₁ db₃ :=
  ⟨h.jobs.trans h'.jobs, fun r hr => (h'.rows r hr).elim (h.rows r) .inr⟩

theorem AddsRowsOf.addsJobRows (h : AddsRowsOf id db₁ db₂) (hid : ∃ j ∈ db₁.jobs, j.id = id) :
    AddsJobRows db₁ db₂ := by
  obtain ⟨j, hj, rfl⟩ := hid
  exact ⟨h.jobs, fun r hr => (h.rows r hr).imp_right fun hrow => ⟨j, hj, hrow⟩⟩

theorem AddsJobRows.refl (db : Database) : AddsJobRows db db := ⟨.refl db, fun _ => .inl⟩

theorem SameJobs.exists_job (h : SameJobs db₁ db₂) {j : Job} (hj : j ∈ db₂.jobs) :
    ∃ old ∈ db₁.jobs, old.id = j.id :=
  List.mem_map.mp (h ▸ List.mem_map_of_mem hj)

theorem AddsJobRows.trans (h : AddsJobRows db₁ db₂) (h' : AddsJobRows db₂ db₃) :
    AddsJobRows db₁ db₃ := by
  refine ⟨h.jobs.trans h'.jobs, fun r hr => ?_⟩
  rcases h'.rows r hr with hr | ⟨j, hj, hrow⟩
  · exact h.rows r hr
  · obtain ⟨old, hold, hid⟩ := h.jobs.exists_job hj
    exact .inr ⟨old, hold, hid ▸ hrow⟩

theorem IsDated.adds (h : db₁.IsDated upTo) (hadds : AddsJobRows db₁ db₂) : db₂.IsDated upTo := by
  refine ⟨fun r hr => ?_, fun j hj => ?_⟩
  · rcases hadds.rows r hr with hold | ⟨j, hj, batch, row, hid⟩
    · exact h.rows r hold
    · obtain ⟨token, htoken⟩ := h.jobs j hj
      rw [hid, htoken]
      exact Batch.isPast_jobRowId upTo token batch row
  · obtain ⟨old, hold, hid⟩ := hadds.jobs.exists_job hj
    exact hid ▸ h.jobs old hold

end Database

open Database

variable {s : Surroundings} {w w' : World} {db : Database}

/-- What is done to the jobs leaves the rows. -/
theorem Jobs.makes_change_rows {α : Type} (f : Moment → Ledger → Except Failure (α × Ledger)) :
    Makes (fun db db' => db'.rows = db.rows) (now >>= fun now => change (f now)) := by
  intro s w db hw
  refine isQuiet_now.leaves_bind hw rfl fun now w₁ _ hw₁ => leaves_transaction hw₁ rfl ?_
  intro a db' h
  obtain ⟨_, _, h⟩ := ok_of_bind h
  obtain ⟨_, rfl⟩ := Prod.mk.inj (Except.ok.inj h)
  rfl

theorem Action.makes_and {α : Type} {x : Action α} {R R' : Database → Database → Prop}
    (h : Makes R x) (h' : Makes R' x) : Makes (fun db db' => R db db' ∧ R' db db') x := by
  intro s w db hw
  obtain ⟨db', hdb', hR⟩ := h s w db hw
  obtain ⟨_, hready, hR'⟩ := h' s w db hw
  obtain rfl := Storage.ready.inj (hdb'.symm.trans hready)
  exact ⟨db', hdb', hR, hR'⟩

theorem Database.addsRowsOf_of_makes {α : Type} {x : Action α} (id : String)
    (hjobs : Makes SameJobs x) (hrows : Makes (fun db db' => db'.rows = db.rows) x) :
    Makes (AddsRowsOf id) x := fun s w db hw =>
  (makes_and hjobs hrows s w db hw).mono fun _ h => ⟨h.1, fun _ hr => .inl (h.2 ▸ hr)⟩

theorem Run.keeps_addsRowsOf (id : String) : Run.Keeps (AddsRowsOf id) id where
  refl := .refl id
  trans := .trans
  advance delta :=
    addsRowsOf_of_makes id (Jobs.sameJobs_advance id delta) (Jobs.makes_change_rows _)
  complete := addsRowsOf_of_makes id (Jobs.sameJobs_complete id) (Jobs.makes_change_rows _)
  fail detail := addsRowsOf_of_makes id (Jobs.sameJobs_fail id detail) (Jobs.makes_change_rows _)

theorem Run.makes_execute_addsRowsOf (job : Job) (source : Source) (d : Descriptor) :
    Makes (AddsRowsOf job.id) (Run.execute job source d) := by
  intro s w db hw
  obtain ⟨db', hdb', hsame⟩ := Run.sameJobs_execute job source d s w db hw
  refine ⟨db', hdb', hsame, fun r hr => ?_⟩
  rcases hes : Run.batchOf job source d with why | es
  · rw [Run.run_execute_of_error hes, hw] at hdb'
    exact .inl (Storage.ready.inj hdb' ▸ hr)
  rw [Run.run_execute_of_ok hes, RowStore.run_append hw,
    Batch.firsts_eq_self (Run.nodup_batchOf hes)] at hdb'
  split at hdb'
  · obtain rfl := Storage.ready.inj hdb'
    rcases List.mem_append.mp hr with hr | hr
    · exact .inl hr
    · obtain ⟨e, he, rfl⟩ := List.mem_map.mp hr
      obtain ⟨row, hid⟩ := Run.isRowIdOf_of_mem_batchOf hes (mem_fresh.mp he).1
      exact .inr ⟨d.index, row, hid⟩
  · rw [hw] at hdb'
    exact .inl (Storage.ready.inj hdb' ▸ hr)

namespace Worker

variable {worker : Worker} {id : String}

theorem makes_begin_rows (worker : Worker) (id : String) :
    Makes (fun db db' => db'.rows = db.rows) (worker.begin id) := by
  have hquiet : ∀ {α : Type} {x : Action α}, IsQuiet x →
      Makes (fun db db' => db'.rows = db.rows) x := fun hx => hx.makes fun _ => rfl
  have htrans : ∀ {db₁ db₂ db₃ : Database}, db₂.rows = db₁.rows → db₃.rows = db₂.rows →
      db₃.rows = db₁.rows := fun h h' => h'.trans h
  unfold begin
  refine makes_bind htrans (hquiet (isQuiet_query _)) fun j => ?_
  split
  · exact hquiet (isQuiet_throw _)
  refine makes_bind htrans (hquiet (isQuiet_resumeOffset j)) fun p => ?_
  refine makes_bind htrans (hquiet (isQuiet_basePosition j)) fun b => ?_
  refine makes_bind htrans (Jobs.makes_change_rows _) fun job => ?_
  refine hquiet (isQuiet_bind (isQuiet_query _) fun columns => ?_)
  exact isQuiet_bind (isQuiet_lift _) fun _ => isQuiet_pure _

/-- A run is of a job that is there. -/
theorem exists_of_begin {job : Job} {source : Source} {p : Int} (hw : w.storage = .ready db)
    (h : worker.begin id s w = (.ok (job, source, p), w')) : ∃ j ∈ db.jobs, j.id = job.id := by
  obtain ⟨j, -, -, -, hfind, hcontinues, -⟩ := marked_of_begin hw h
  exact ⟨j, Ledger.mem_of_find? hfind, hcontinues.id.symm⟩

theorem makes_begin_addsJobRows (worker : Worker) (id : String) :
    Makes AddsJobRows (worker.begin id) := fun s w db hw =>
  (makes_and (sameJobs_begin worker id) (makes_begin_rows worker id) s w db hw).mono
    fun _ h => ⟨h.1, fun _ hr => .inl (h.2 ▸ hr)⟩

/-- A run that has begun is of a job that is there. -/
theorem exists_begun {job : Job} {source : Source} {p : Int} {begun : World}
    (hw : w.storage = .ready db) (h : worker.begin id s w = (.ok (job, source, p), begun)) :
    ∃ db₁, begun.storage = .ready db₁ ∧ AddsJobRows db db₁ ∧ ∃ j ∈ db₁.jobs, j.id = job.id := by
  obtain ⟨db₁, hdb₁, hadds⟩ := makes_begin_addsJobRows worker id s w db hw
  rw [h] at hdb₁
  obtain ⟨j, hj, hid⟩ := exists_of_begin hw h
  obtain ⟨j₁, hj₁, hid₁⟩ := SameJobs.exists_job (Eq.symm hadds.jobs) hj
  exact ⟨db₁, hdb₁, hadds, j₁, hj₁, hid₁.trans hid⟩

theorem makes_run_addsJobRows (worker : Worker) (id : String) :
    Makes AddsJobRows (worker.run id) := by
  intro s w db hw
  rw [run_eq]
  refine leaves_bind (makes_begin_addsJobRows worker id s w db hw) fun a begun hbegin => ?_
  obtain ⟨db₁, hdb₁, hadds, hjob⟩ := exists_begun hw hbegin
  exact (worker.pace.makes_run (Run.keeps_addsRowsOf a.1.id) (Run.makes_execute_addsRowsOf a.1 a.2.1)
    a.2.2 s begun db₁ hdb₁).mono fun db₂ h => hadds.trans (h.addsJobRows hjob)

theorem makes_runPending_addsJobRows (worker : Worker) (table : Option String) :
    Makes AddsJobRows (worker.runPending table) :=
  makes_bind .trans ((isQuiet_query _).makes .refl) fun n =>
    makes_drain .refl .trans (makes_run_addsJobRows worker) table (n + 1) []

end Worker

/-- Also on the disk of a process that was stopped. -/
theorem addsJobRows_of_onDisk {worker : Worker} {id : String}
    {refuses : Descriptor → Failure → Prop} (hw : w.storage = .ready db)
    (h : OnDisk worker id refuses w w') : ∃ db', w'.storage = .ready db' ∧ AddsJobRows db db' := by
  refine makes_of_onDisk .refl .trans (Worker.makes_begin_addsJobRows worker id) ?_ hw h
  rintro world db job f hdb ⟨s, source, p, begun, ds, hbegin, _, hreach⟩
  obtain ⟨db₁, hdb₁, hadds, hjob⟩ := Worker.exists_begun hdb hbegin
  have hkeeps := Run.keeps_addsRowsOf job.id
  obtain ⟨db₂, hdb₂, hrun⟩ := Flight.keeps_of_reaches hkeeps
    (Run.makes_execute_addsRowsOf job source) hreach hdb₁
  have hlast : ∀ {db₃}, AddsRowsOf job.id db₂ db₃ → AddsJobRows db db₃ := fun h =>
    hadds.trans ((hrun.trans h).addsJobRows hjob)
  exact ⟨⟨db₂, hdb₂, hlast (.refl _ _)⟩, fun s =>
    ⟨(hkeeps.complete s _ db₂ hdb₂).mono fun _ => hlast,
      (Run.makes_finish hkeeps f.run s _ db₂ hdb₂).mono fun _ => hlast⟩⟩

/-! ## What comes about in one process -/

/-- Forgetting the answer leaves the world. -/
theorem world_of_map {α β : Type} (x : Action α) (f : α → β) :
    ((do return f (← x) : Action β) s w).2 = (x s w).2 := by
  rw [run_bind]
  rcases x s w with ⟨why | a, w'⟩ <;> rfl

/-- The rows of a world that came about have ids of the past. -/
theorem Reached.isDated (h : Reached (fun op _ => op.IsPunctual) w) :
    ∃ db, w.storage = .ready db ∧ db.IsDated w.lastStamp := by
  induction h with
  | empty hw => exact ⟨_, hw, isDated_empty _⟩
  | @perform w db _ hw settings s op _ hsound hpunctual ih =>
    obtain ⟨_, hw', hdated⟩ := ih
    obtain rfl := Storage.ready.inj (hw.symm.trans hw')
    have hages := op.ages_perform settings hpunctual s w
    by_cases hrows : op.AddsRows
    swap
    · have hleaves : Leaves (db.Thins fun _ => True) (op.perform settings) s w :=
        op.thins_perform settings hw hsound hrows fun _ _ => trivial
      obtain ⟨db', hdb', hthins⟩ := hleaves
      exact ⟨db', hdb', (hdated.thins hthins).mono hages⟩
    cases op with
    | createTable actor base name =>
      rw [Operation.perform, world_of_map] at hages ⊢
      rcases Workspace.createsTable (s := s) hw actor base name with hw' | ⟨hw', _, _, _, _, hnew⟩
      · exact ⟨_, hw', hdated.mono hages⟩
      · exact ⟨_, hw', hdated.withRows hnew rfl rfl⟩
    | insertRows actor table rows =>
      rw [Operation.perform, world_of_map]
      obtain ⟨cells, new, hw', hnew⟩ :=
        Workspace.exists_of_insertRows (s := s) hw settings actor table rows
      exact ⟨_, hw', hdated.withRows hnew rfl rfl⟩
    | runJob worker job =>
      obtain ⟨db', hdb', hadds⟩ :=
        leaves_map (f := fun _ => ()) (worker.makes_run_addsJobRows job s w _ hw)
      exact ⟨db', hdb', (hdated.adds hadds).mono hages⟩
    | runPending worker table =>
      obtain ⟨db', hdb', hadds⟩ :=
        leaves_map (f := fun _ => ()) (worker.makes_runPending_addsJobRows table s w _ hw)
      exact ⟨db', hdb', (hdated.adds hadds).mono hages⟩
    | _ => exact hrows.elim
  | stopped _ _ hdisk ih =>
    obtain ⟨db, hw, hdated⟩ := ih
    obtain ⟨db', hdb', hadds⟩ := addsJobRows_of_onDisk hw hdisk
    exact ⟨db', hdb', (hdated.adds hadds).mono (le_of_onDisk hdisk)⟩

end Tabula
