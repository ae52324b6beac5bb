import Tabula.Proofs.Appending
import Tabula.Proofs.Attempts
import Tabula.Proofs.Effects
import Tabula.Proofs.Interruptions
import Tabula.Proofs.Lifecycle
import Tabula.Proofs.Retyping

/-!
# What ingestion does to the database

What is done for a job of a table is one relation between databases, `Database.Ingested` : rows of
the table are appended whose cells conform to its columns, and jobs stay jobs of their tables. It
is reflexive and transitive, so each part of a run makes it because its own parts do, and a run
that is stopped has made it at any moment. `Run.Keeps` is what this takes of the calls about the
job, whatever the relation (`Run.makes_drive`, `Flight.keeps_of_reaches`).

That cells conform is up to the source of the rows. A source is given the columns of the table and
is to make rows for these (`Source.Conforms`), as the synthetic source does
(`conforms_syntheticFactory`). What workers do is then `Worker.Pending`, one job after the other,
also on the disk of a process that was stopped (`pending_of_onDisk`).
-/

namespace Tabula

open Store

/-- The cells are under some of these columns, and each value belongs under its column. -/
def Cells.Conform (types : List (String × ColumnType)) (cells : Cells) : Prop :=
  ∀ column v, cells.get? column = some v → ∃ type, (column, type) ∈ types ∧ type.Admits v

namespace Cells

variable {types : List (String × ColumnType)} {cells : Cells} {column : String}

theorem conform_nil (types : List (String × ColumnType)) : Conform types [] := by
  intro column v h
  simp [get?] at h

/-- It is enough to look at each entry. -/
theorem conform_of_forall (h : ∀ e ∈ cells, ∃ type, (e.1, type) ∈ types ∧ type.Admits e.2) :
    cells.Conform types :=
  fun column v hv => h (column, v) (mem_of_get? hv)

theorem Conform.exists_type (h : cells.Conform types) (hkey : column ∈ cells.map Prod.fst) :
    ∃ type, (column, type) ∈ types := by
  obtain ⟨v, hv⟩ := exists_get?.mpr hkey
  exact (h column v hv).imp fun _ h => h.1

theorem Conform.set (h : cells.Conform types) {type : ColumnType} {v : Value}
    (hcolumn : (column, type) ∈ types) (hv : type.Admits v) :
    (Cells.set column v cells).Conform types := by
  intro other v' hother
  by_cases hne : other = column
  · subst hne
    rw [get?_set_self] at hother
    obtain rfl := Option.some.inj hother
    exact ⟨type, hcolumn, hv⟩
  · rw [get?_set_of_ne hne] at hother
    exact h other v' hother

end Cells

/-! ## Rows that are appended -/

/-- Rows to which rows of one table were appended, whose cells conform. -/
structure Store.Rows.Grow (table : String) (types : List (String × ColumnType))
    (rows rows' : Rows) : Prop where
  added : ∃ new : Rows, rows' = rows ++ new ∧
    ∀ r ∈ new, r.table = table ∧ r.payload.cells.Conform types
  nodup : (rows.map Row.id).Nodup → (rows'.map Row.id).Nodup

namespace Store.Rows

variable {table : String} {types : List (String × ColumnType)} {rows rows' rows'' : Rows}

theorem Grow.refl (table : String) (types : List (String × ColumnType)) (rows : Rows) :
    Grow table types rows rows :=
  ⟨⟨[], (List.append_nil rows).symm, fun _ h => absurd h List.not_mem_nil⟩, id⟩

theorem Grow.trans (h : Grow table types rows rows') (h' : Grow table types rows' rows'') :
    Grow table types rows rows'' := by
  obtain ⟨new, rfl, hnew⟩ := h.added
  obtain ⟨new', rfl, hnew'⟩ := h'.added
  refine ⟨⟨new ++ new', List.append_assoc _ _ _, fun r hr => ?_⟩, fun hn => h'.nodup (h.nodup hn)⟩
  exact (List.mem_append.mp hr).elim (hnew r) (hnew' r)

theorem Grow.mem_iff (h : Grow table types rows rows') {r : Row} (hr : r ∈ rows') :
    r ∈ rows ∨ r.table = table ∧ r.payload.cells.Conform types := by
  obtain ⟨new, rfl, hnew⟩ := h.added
  exact (List.mem_append.mp hr).imp_right (hnew r)

/-- The new rows are made of entries of the batch. -/
theorem exists_append (now : Moment) (table : String) :
    ∀ (es : Batch) (rows : Rows), ∃ new, (append now table es rows).1 = rows ++ new ∧
      ∀ r ∈ new, ∃ e ∈ es, r = Row.ofEntry now table e
  | [], rows => ⟨[], (List.append_nil rows).symm, fun _ h => absurd h List.not_mem_nil⟩
  | e :: es, rows => by
    rw [append]
    split
    · obtain ⟨new, hrows, hnew⟩ := exists_append now table es rows
      exact ⟨new, hrows, fun r hr => (hnew r hr).imp fun _ h => ⟨List.mem_cons_of_mem e h.1, h.2⟩⟩
    · obtain ⟨new, hrows, hnew⟩ := exists_append now table es (rows ++ [Row.ofEntry now table e])
      refine ⟨Row.ofEntry now table e :: new, ?_, fun r hr => ?_⟩
      · exact hrows.trans (List.append_cons rows _ new).symm
      · rcases List.mem_cons.mp hr with rfl | hr
        · exact ⟨e, List.mem_cons_self, rfl⟩
        · exact (hnew r hr).imp fun _ h => ⟨List.mem_cons_of_mem e h.1, h.2⟩

theorem nodup_append (now : Moment) (table : String) :
    ∀ (es : Batch) {rows : Rows}, (rows.map Row.id).Nodup →
      ((append now table es rows).1.map Row.id).Nodup
  | [], _, h => h
  | e :: es, rows, h => by
    rw [append]
    split
    · exact nodup_append now table es h
    · rename_i hnot
      refine nodup_append now table es ?_
      rw [List.map_append, List.nodup_append_comm]
      refine List.nodup_cons.mpr ⟨fun hmem => hnot ?_, h⟩
      obtain ⟨r, hr, hid⟩ := List.mem_map.mp hmem
      exact has_iff.mpr ⟨r, hr, hid⟩

theorem grow_append (now : Moment) (table : String) {types : List (String × ColumnType)}
    (es : Batch) (rows : Rows) (h : ∀ e ∈ es, e.payload.cells.Conform types) :
    Grow table types rows (append now table es rows).1 := by
  obtain ⟨new, hrows, hnew⟩ := exists_append now table es rows
  refine ⟨⟨new, hrows, fun r hr => ?_⟩, nodup_append now table es⟩
  obtain ⟨e, he, rfl⟩ := hnew r hr
  exact ⟨rfl, h e he⟩

end Store.Rows

/-! ## What batches hold -/

namespace Batch

theorem cells_of_checkCells :
    ∀ {es : List (Value × Value)} {cells : Cells}, checkCells es = .ok cells →
      es = cells.map fun e => (.text e.1, e.2)
  | [], cells, h => by
    obtain rfl := Except.ok.inj h
    rfl
  | (key, v) :: es, cells, h => by
    cases key with
    | text column =>
      rw [checkCells] at h
      split at h
      · cases h
      · rcases hes : checkCells es with why | rest
        · simp [hes] at h
        · simp only [hes, Except.ok.injEq] at h
          rw [← h, List.map_cons, cells_of_checkCells hes]
    | _ => cases h

/-- The cells of a mapping of columns are its own. -/
theorem eq_of_cellsOf_object {cells cells' : Cells} (h : cellsOf (.object cells) = .ok cells') :
    cells' = cells := by
  have hmap := cells_of_checkCells h
  refine List.map_injective_iff.mpr (fun a b hab => ?_) hmap.symm
  obtain ⟨hkey, hvalue⟩ := Prod.mk.inj hab
  exact Prod.ext (Value.text.inj hkey) hvalue

/-- Each payload of a batch is what some row holds. -/
theorem exists_of_mem_encodeFrom {idOf : Nat → String} {batch start : Int} :
    ∀ {vs : List Value} {row : Nat} {es : Batch}, encodeFrom idOf batch start row vs = .ok es →
      ∀ e ∈ es, ∃ v ∈ vs, cellsOf v = .ok e.payload.cells
  | [], _, es, h => by
    obtain rfl := Except.ok.inj h
    simp
  | v :: vs, row, es, h => by
    rw [encodeFrom, encodeRow] at h
    rcases hv : cellsOf v with why | cells
    · simp [hv] at h
    rcases hvs : encodeFrom idOf batch start (row + 1) vs with why | entries
    · simp [hv, hvs] at h
    · simp only [hv, hvs, Except.ok.injEq] at h
      obtain rfl := h
      intro e he
      rcases List.mem_cons.mp he with rfl | he
      · exact ⟨v, List.mem_cons_self, hv⟩
      · obtain ⟨v', hv', hcells⟩ := exists_of_mem_encodeFrom hvs e he
        exact ⟨v', List.mem_cons_of_mem v hv', hcells⟩

end Batch

/-- The rows that a source makes conform to these columns, as far as they can be stored. -/
def Source.Conforms (types : List (String × ColumnType)) (source : Source) : Prop :=
  ∀ offset size batch rows, source offset size batch = .ok rows →
    ∀ v ∈ rows, ∀ cells, Batch.cellsOf v = .ok cells → cells.Conform types

namespace Source

theorem conform_syntheticCells {types : List (String × ColumnType)} (job : String) (most : Nat)
    (batch : Int) (row : Nat) :
    ∀ (columns : List (String × ColumnType)) (t : Random.Twister) {cells : Cells},
      (∀ c ∈ columns, c ∈ types) → cells.Conform types →
        (syntheticCells job most batch row columns t cells).1.Conform types
  | [], _, _, _, h => h
  | (column, .number) :: columns, t, cells, hsub, h => by
    rcases hn : t.below most with ⟨n, t'⟩
    rw [syntheticCells, hn]
    exact conform_syntheticCells job most batch row columns t'
      (fun c hc => hsub c (List.mem_cons_of_mem _ hc))
      (h.set (hsub (column, .number) List.mem_cons_self) trivial)
  | (column, .text) :: columns, t, cells, hsub, h => by
    rw [syntheticCells]
    exact conform_syntheticCells job most batch row columns t
      (fun c hc => hsub c (List.mem_cons_of_mem _ hc))
      (h.set (hsub (column, .text) List.mem_cons_self) trivial)

theorem conform_of_mem_syntheticRows (job : String) (columns : List (String × ColumnType))
    (most : Nat) (batch : Int) :
    ∀ (n row : Nat) (t : Random.Twister),
      ∀ cells ∈ syntheticRows job columns most batch n row t, cells.Conform columns
  | 0, _, _, cells, h => by simp [syntheticRows] at h
  | n + 1, row, t, cells, h => by
    rw [syntheticRows] at h
    rcases List.mem_cons.mp h with rfl | h
    · exact conform_syntheticCells job most batch row columns t (fun _ => id) (Cells.conform_nil _)
    · exact conform_of_mem_syntheticRows job columns most batch n _ _ cells h

/-- A synthetic source makes rows for the columns that it is given. -/
theorem conforms_synthetic (job : String) (columns : List (String × ColumnType)) (most : Nat) :
    (synthetic job columns most).Conforms columns := by
  intro offset size batch rows h v hv cells hcells
  obtain rfl := Except.ok.inj h
  obtain ⟨row, hrow, rfl⟩ := List.mem_map.mp hv
  rw [Batch.eq_of_cellsOf_object hcells]
  exact conform_of_mem_syntheticRows job columns most batch _ _ _ row hrow

end Source

/-- A factory whose sources make rows for the columns that they are given. -/
def SourceFactory.Conforms (factory : SourceFactory) : Prop :=
  ∀ job columns source, factory job columns = .ok source → source.Conforms columns

theorem Worker.conforms_syntheticFactory (config : Value) :
    SourceFactory.Conforms (syntheticFactory config) := by
  intro job columns source h
  obtain ⟨_, _, h⟩ := ok_of_bind h
  obtain ⟨_, _, h⟩ := ok_of_bind h
  obtain rfl := Except.ok.inj h
  exact Source.conforms_synthetic _ _ _

/-! ## What a job may change -/

/-- A database before and after something is done for a job of a table : rows of the table are
appended, and the jobs are still jobs of the same tables. -/
structure Database.Ingested (table : String) (types : List (String × ColumnType))
    (db db' : Database) : Prop where
  eq : db' = (db.withRows db'.rows).withJobs db'.jobs
  rows : Rows.Grow table types db.rows db'.rows
  jobs : ∀ j' ∈ db'.jobs, ∃ j ∈ db.jobs, j.table = j'.table

namespace Database.Ingested

variable {table : String} {types : List (String × ColumnType)} {db db' db'' : Database}

theorem refl (table : String) (types : List (String × ColumnType)) (db : Database) :
    Ingested table types db db :=
  ⟨rfl, .refl table types db.rows, fun j hj => ⟨j, hj, rfl⟩⟩

theorem trans (h : Ingested table types db db') (h' : Ingested table types db' db'') :
    Ingested table types db db'' where
  eq := by
    rw [h'.eq, h.eq]
    rfl
  rows := h.rows.trans h'.rows
  jobs := fun j'' hj'' => by
    obtain ⟨j', hj', ht'⟩ := h'.jobs j'' hj''
    obtain ⟨j, hj, ht⟩ := h.jobs j' hj'
    exact ⟨j, hj, ht.trans ht'⟩

end Database.Ingested

/-- A database before and after something is done for one of its jobs. -/
def Database.WorksOff (db db' : Database) : Prop :=
  db' = db ∨ ∃ j ∈ db.jobs, Ingested j.table (Catalog.typesOf j.table db) db db'

theorem Database.Ingested.typesOf_eq {table other : String} {types : List (String × ColumnType)}
    {db db' : Database} (h : Ingested table types db db') :
    Catalog.typesOf other db' = Catalog.typesOf other db := by
  rw [h.eq]
  rfl

section Ingested

open Tabula.Action Database

variable {table : String} {types : List (String × ColumnType)}

theorem RowStore.makes_append {es : Batch} (h : ∀ e ∈ es, e.payload.cells.Conform types) :
    Makes (Ingested table types) (RowStore.append table es) := by
  intro s w db hw
  unfold RowStore.append
  split
  · exact (isQuiet_pure 0).leaves hw (.refl table types db)
  · refine isQuiet_now.leaves_bind hw (.refl table types db) fun now w' _ hw' => ?_
    refine leaves_rowStore (leaves_transaction hw' (.refl table types db) fun n db' hdb => ?_)
    rw [appended] at hdb
    split at hdb
    · obtain ⟨_, rfl⟩ := Prod.mk.inj (Except.ok.inj hdb)
      exact ⟨rfl, Rows.grow_append now table es db.rows h, fun j hj => ⟨j, hj, rfl⟩⟩
    · cases hdb

end Ingested

namespace Ledger

variable {now : Moment} {id : String} {ledger ledger' : Ledger} {j j' : Job}

/-- A job that was there is changed, and keeps its table. -/
theorem tables_of_outcome (h : Outcome now id ledger ledger') (hfind : ledger.find? id = some j) :
    ∀ k ∈ ledger', ∃ i ∈ ledger, i.table = k.table := by
  rcases h with ⟨hnone, _, _⟩ | ⟨hfind', hchanges⟩
  · rw [hnone] at hfind
    cases hfind
  · intro k hk
    rcases mem_put hk with rfl | hk
    · refine ⟨_, mem_of_find? hfind', ?_⟩
      rcases hchanges with _ | _ | _ | _ <;> rfl
    · exact ⟨k, hk, rfl⟩

end Ledger

namespace Jobs

open Tabula.Action Database

variable {table : String} {types : List (String × ColumnType)}

theorem makes_change {α : Type} {f : Moment → Ledger → Except Failure (α × Ledger)}
    (hf : ∀ now ledger a ledger', f now ledger = .ok (a, ledger') →
      ∀ k ∈ ledger', ∃ i ∈ ledger, i.table = k.table) :
    Makes (Ingested table types) (now >>= fun now => change (f now)) := by
  intro s w db hw
  refine isQuiet_now.leaves_bind hw (.refl table types db) fun now w' _ hw' => ?_
  refine leaves_transaction hw' (.refl table types db) fun a db' h => ?_
  obtain ⟨⟨a', jobs⟩, hjobs, h⟩ := ok_of_bind h
  obtain ⟨_, rfl⟩ := Prod.mk.inj (Except.ok.inj h)
  exact ⟨rfl, .refl table types db.rows, hf _ _ _ _ hjobs⟩

theorem makes_markProcessing (id : String) (resumeFrom base : Option Int) :
    Makes (Ingested table types) (markProcessing id resumeFrom base) := by
  refine makes_change fun now ledger j ledger' h => ?_
  obtain ⟨_, hget, _⟩ := ok_of_bind h
  exact Ledger.tables_of_outcome (Ledger.outcome_of_markProcessing h) (Ledger.find?_of_get hget)

theorem makes_advance (id : String) (delta : Int) :
    Makes (Ingested table types) (advance id delta) := by
  refine makes_change fun now ledger x ledger' h => ?_
  have hcall := h
  rw [Ledger.advance] at h
  split at h
  · cases h
  · obtain ⟨_, _, h⟩ := ok_of_bind h
    obtain ⟨_, hget, _⟩ := ok_of_bind h
    exact Ledger.tables_of_outcome (Ledger.outcome_of_advance hcall) (Ledger.find?_of_get hget)

theorem makes_complete (id : String) : Makes (Ingested table types) (complete id) := by
  refine makes_change fun now ledger j ledger' h => ?_
  obtain ⟨_, hended, _⟩ := ok_of_bind h
  obtain ⟨_, hfind, _⟩ := Ledger.eq_of_ended hended
  exact Ledger.tables_of_outcome (Ledger.outcome_of_complete h) hfind

theorem makes_fail (id detail : String) : Makes (Ingested table types) (fail id detail) := by
  refine makes_change fun now ledger j ledger' h => ?_
  obtain ⟨_, hended, _⟩ := ok_of_bind h
  obtain ⟨_, hfind, _⟩ := Ledger.eq_of_ended hended
  exact Ledger.tables_of_outcome (Ledger.outcome_of_fail h) hfind

end Jobs

namespace Checkpoints

open Tabula.Action

theorem isQuiet_save (job rows : Value) : IsQuiet (save job rows) :=
  isQuiet_bind (isQuiet_lift _) fun _ => isQuiet_bind isQuiet_now fun _ => isQuiet_changeFolder _

theorem isQuiet_clear (job : Value) : IsQuiet (clear job) :=
  isQuiet_bind (isQuiet_lift _) fun _ => isQuiet_changeFolder _

theorem isQuiet_read (job : Value) : IsQuiet (read job) :=
  isQuiet_bind (isQuiet_lift _) fun _ => isQuiet_bind (fun _ _ => rfl) fun _ =>
    isQuiet_askFolder _

end Checkpoints

/-! ## Runs of a job -/

namespace Run

open Tabula.Action Database

variable {job : Job} {types : List (String × ColumnType)} {source : Source}

theorem makes_execute (hsource : source.Conforms types) (d : Descriptor) :
    Makes (Ingested job.table types) (execute job source d) := by
  intro s w db hw
  refine leaves_lift_bind hw (.refl _ _ db) fun rows hrows => ?_
  refine leaves_lift_bind hw (.refl _ _ db) fun es hes => ?_
  refine RowStore.makes_append (fun e he => ?_) s w db hw
  obtain ⟨v, hv, hcells⟩ := Batch.exists_of_mem_encodeFrom hes e he
  exact hsource _ _ _ _ hrows v hv _ hcells

theorem isQuiet_mark (id : String) (processed : Int) : IsQuiet (mark id processed) := by
  refine isQuiet_bind (isQuiet_attempt (Checkpoints.isQuiet_save _ _)) fun r => ?_
  rcases r with why | _
  · exact isQuiet_ite (isQuiet_pure _) (isQuiet_throw _)
  · exact isQuiet_pure _

/-- What the calls about a job that a run makes do to any database. -/
structure Keeps (R : Database → Database → Prop) (id : String) : Prop where
  refl : ∀ db, R db db
  trans : ∀ {db₁ db₂ db₃}, R db₁ db₂ → R db₂ db₃ → R db₁ db₃
  advance : ∀ delta, Makes R (Jobs.advance id delta)
  complete : Makes R (Jobs.complete id)
  fail : ∀ detail, Makes R (Jobs.fail id detail)

theorem keeps_ingested (table : String) (types : List (String × ColumnType)) (id : String) :
    Keeps (Ingested table types) id where
  refl := .refl table types
  trans := .trans
  advance := Jobs.makes_advance id
  complete := Jobs.makes_complete id
  fail := Jobs.makes_fail id

section Keeps

variable {R : Database → Database → Prop} {id : String}

theorem makes_count (h : Keeps R id) (d : Descriptor) (r : Run) : Makes R (count id d r) :=
  makes_bind h.trans (h.advance d.size) fun _ =>
    makes_bind h.trans ((isQuiet_mark id _).makes h.refl) fun _ => (isQuiet_pure _).makes h.refl

theorem makes_settle (h : Keeps R id) (r : Run) (f : Finished) : Makes R (settle id r f) := by
  unfold settle
  split
  · exact (isQuiet_pure r).makes h.refl
  · rcases f with ⟨d, why | n⟩
    · exact (isQuiet_pure _).makes h.refl
    · refine makes_bind h.trans (makes_attempt (makes_count h d r)) fun a => ?_
      rcases a with why | r' <;> exact (isQuiet_pure _).makes h.refl

theorem makes_settleAll (h : Keeps R id) :
    ∀ (r : Run) (fs : List Finished), Makes R (settleAll id r fs)
  | r, [] => (isQuiet_pure r).makes h.refl
  | r, f :: fs => makes_bind h.trans (makes_settle h r f) fun r' => makes_settleAll h r' fs

theorem makes_drive (h : Keeps R job.id) (hexecute : ∀ d, Makes R (execute job source d))
    (concurrency : Int) : ∀ (ds : List Descriptor) (inFlight : List Finished) (r : Run),
      Makes R (drive concurrency job source ds inFlight r)
  | [], inFlight, r => makes_settleAll h r inFlight
  | d :: ds, inFlight, r => by
    -- The batch is tried the same way with and without batches settled before it.
    have hnext : ∀ (inFlight : List Finished) (r : Run), Makes R
        (if r.failure.isSome then settleAll job.id r inFlight
        else Action.attempt (execute job source d) >>= fun result =>
          drive concurrency job source ds (inFlight ++ [(d, result)]) r) := by
      intro inFlight r
      split
      · exact makes_settleAll h r inFlight
      · exact makes_bind h.trans (makes_attempt (hexecute d)) fun _ =>
          makes_drive h hexecute concurrency ds _ r
    rw [drive]
    split
    · exact makes_bind h.trans (makes_settleAll h r inFlight) fun r' => hnext [] r'
    · exact hnext inFlight r

theorem makes_finish (h : Keeps R id) (r : Run) : Makes R (finish id r) := by
  unfold finish
  split
  · exact makes_bind h.trans (makes_attempt (h.fail _)) fun _ => (isQuiet_throw _).makes h.refl
  · exact makes_bind h.trans h.complete fun _ =>
      makes_bind h.trans ((Checkpoints.isQuiet_clear _).makes h.refl) fun _ =>
        (isQuiet_pure _).makes h.refl

end Keeps

end Run

namespace Pace

open Tabula.Action Database

theorem makes_run {R : Database → Database → Prop} {job : Job} {source : Source}
    (h : Run.Keeps R job.id) (hexecute : ∀ d, Makes R (Run.execute job source d)) (p : Pace)
    (processed : Int) : Makes R (p.run job source processed) :=
  makes_bind h.trans ((isQuiet_lift _).makes h.refl) fun ds =>
    makes_bind h.trans (Run.makes_drive h hexecute p.concurrency ds [] (Run.start processed))
      fun r => Run.makes_finish h r

end Pace

namespace Worker

open Tabula.Action Database

theorem isQuiet_resumeOffset (job : Job) : IsQuiet (resumeOffset job) := by
  refine isQuiet_bind (isQuiet_bind (Checkpoints.isQuiet_read _) fun _ => isQuiet_pure _)
    fun r => ?_
  rcases r with _ | saved
  · exact isQuiet_ite (isQuiet_bind (isQuiet_rowStore _ (isQuiet_query _)) fun _ => isQuiet_pure _)
      (isQuiet_pure _)
  · exact isQuiet_pure _

theorem isQuiet_basePosition (job : Job) : IsQuiet (basePosition job) := by
  unfold basePosition
  split
  · exact isQuiet_pure _
  · exact isQuiet_rowStore _ (isQuiet_query _)

variable {w : Worker} {id : String} {s : Surroundings} {world : World} {db : Database}

theorem continues_of_markProcessing {resumeFrom : Option Int} {base : Int} {j job : Job}
    {world' : World}
    (hw : world.storage = .ready db) (hj : db.jobs.get id = .ok j)
    (h : Jobs.markProcessing id resumeFrom (some base) s world = (.ok job, world')) :
    j.Continues job := by
  rw [Jobs.markProcessing, run_bind_ok run_now] at h
  rcases hmark : Ledger.markProcessing s.now id resumeFrom (some base) db.jobs with
    why | ⟨job', jobs⟩
  · rw [Jobs.run_change_error hw hmark] at h
    cases h
  · rw [Jobs.run_change hw hmark] at h
    obtain ⟨hjob, _⟩ := Prod.mk.inj h
    obtain rfl := Except.ok.inj hjob
    obtain ⟨j', hj', _, hrestarted⟩ := Ledger.restarted_of_markProcessing hmark
    obtain rfl := Option.some.inj (hj'.symm.trans (Ledger.find?_of_get hj))
    exact hrestarted.continues

theorem leaves_begin (w : Worker) (id : String) (hw : world.storage = .ready db) :
    Leaves db.WorksOff (w.begin id) s world := by
  unfold begin
  refine leaves_query_bind hw (.inl rfl) fun j hj => ?_
  have hfind := Ledger.find?_of_get hj
  split
  · exact (isQuiet_throw _).leaves hw (.inl rfl)
  refine (isQuiet_resumeOffset j).leaves_bind hw (.inl rfl) fun p w₁ _ hw₁ => ?_
  refine (isQuiet_basePosition j).leaves_bind hw₁ (.inl rfl) fun b w₂ _ hw₂ => ?_
  have hmarks : Makes (Ingested j.table (Catalog.typesOf j.table db)) _ :=
    Jobs.makes_markProcessing j.id (some p) (some b)
  obtain ⟨db', hdb', hingested⟩ := hmarks s w₂ db hw₂
  have hworks : db.WorksOff db' := .inr ⟨j, Ledger.mem_of_find? hfind, hingested⟩
  refine leaves_bind ⟨db', hdb', hworks⟩ fun job w₃ h => ?_
  rw [h] at hdb'
  refine leaves_query_bind hdb' hworks fun columns _ => ?_
  exact leaves_lift_bind hdb' hworks fun source _ => (isQuiet_pure _).leaves hdb' hworks

/-- What has begun : the job is there and was marked, behind what was only read; then the source was
made for the columns of its table. -/
theorem marked_of_begin {job : Job} {source : Source} {p : Int} {begun : World}
    (hw : world.storage = .ready db) (h : w.begin id s world = (.ok (job, source, p), begun)) :
    ∃ j b w₂ w₃, db.jobs.find? id = some j ∧ j.Continues job ∧ w₂.storage = .ready db ∧
      Jobs.markProcessing j.id (some p) (some b) s w₂ = (.ok job, w₃) ∧
      ∃ columns, Catalog.columnTypes job.table s w₃ = (.ok columns, begun) ∧
        w.source job columns = .ok source := by
  unfold begin at h
  obtain ⟨j, hj, h⟩ := ok_of_query_bind hw h
  have hfind := Ledger.find?_of_get hj
  split at h
  · cases h
  obtain ⟨p', w₁, hresume, h⟩ := ok_of_run_bind h
  obtain ⟨b, w₂, hbase, h⟩ := ok_of_run_bind h
  obtain ⟨job', w₃, hmark, h⟩ := ok_of_run_bind h
  have hw₂ : w₂.storage = .ready db := by
    rw [(isQuiet_basePosition j).storage_eq hbase, (isQuiet_resumeOffset j).storage_eq hresume, hw]
  obtain ⟨columns, w₄, hcolumns, h⟩ := ok_of_run_bind h
  obtain ⟨source', hsource, h⟩ := ok_of_lift_bind h
  obtain ⟨hanswer, rfl⟩ := Prod.mk.inj h
  obtain ⟨rfl, hrest⟩ := Prod.mk.inj (Except.ok.inj hanswer)
  obtain ⟨rfl, rfl⟩ := Prod.mk.inj hrest
  exact ⟨j, b, w₂, w₃, hfind, continues_of_markProcessing hw₂ (by rwa [Ledger.id_of_find? hfind]) hmark,
    hw₂, hmark, columns, hcolumns, hsource⟩

/-- What an attempt has done once it has begun. -/
theorem ingested_of_begin {job : Job} {source : Source} {p : Int} {begun : World}
    (hw : world.storage = .ready db) (hfactory : SourceFactory.Conforms w.source)
    (h : w.begin id s world = (.ok (job, source, p), begun)) :
    ∃ db', begun.storage = .ready db' ∧ (∃ j ∈ db.jobs, j.table = job.table) ∧
      source.Conforms (Catalog.typesOf job.table db) ∧
        Ingested job.table (Catalog.typesOf job.table db) db db' := by
  obtain ⟨j, b, w₂, w₃, hfind, hcontinues, hw₂, hmark, columns, hcolumns, hsource⟩ :=
    marked_of_begin hw h
  have hmarks : Makes (Ingested job.table (Catalog.typesOf job.table db)) _ :=
    Jobs.makes_markProcessing j.id (some p) (some b)
  obtain ⟨db', hdb', hingested⟩ := hmarks s w₂ db hw₂
  replace hdb' : w₃.storage = .ready db' := by rwa [hmark] at hdb'
  obtain ⟨htypes, rfl⟩ := Prod.mk.inj ((run_query hdb' _).symm.trans hcolumns)
  rw [← Except.ok.inj htypes, hingested.typesOf_eq] at hsource
  exact ⟨db', hdb', ⟨j, Ledger.mem_of_find? hfind, hcontinues.table.symm⟩, hfactory _ _ _ hsource,
    hingested⟩

theorem leaves_run (hw : world.storage = .ready db) (hfactory : SourceFactory.Conforms w.source) :
    Leaves db.WorksOff (w.run id) s world := by
  rw [run_eq]
  refine leaves_bind (leaves_begin _ _ hw) fun a begun h => ?_
  obtain ⟨job, source, p⟩ := a
  obtain ⟨db', hdb', ⟨j, hj, htable⟩, hsource, hingested⟩ := ingested_of_begin hw hfactory h
  obtain ⟨db'', hdb'', hingested'⟩ := w.pace.makes_run (Run.keeps_ingested job.table _ job.id)
    (Run.makes_execute hsource) p s begun db' hdb'
  refine ⟨db'', hdb'', .inr ⟨j, hj, ?_⟩⟩
  rw [htable]
  exact hingested.trans hingested'

/-- Whatever is done, jobs are worked off one after the other. -/
abbrev Pending := Relation.ReflTransGen Database.WorksOff

theorem makes_run (hfactory : SourceFactory.Conforms w.source) (id : String) :
    Makes Pending (w.run id) :=
  fun _ _ _ hw => (leaves_run hw hfactory).mono fun _ h => .single h

theorem makes_drain {R : Database → Database → Prop} (hrefl : ∀ db, R db db)
    (htrans : ∀ {db₁ db₂ db₃}, R db₁ db₂ → R db₂ db₃ → R db₁ db₃)
    (hrun : ∀ id, Makes R (w.run id)) (table : Option String) :
    ∀ (fuel : Nat) (tried : List String), Makes R (w.drain table fuel tried)
  | 0, _ => (isQuiet_pure _).makes hrefl
  | fuel + 1, tried => by
    refine makes_bind htrans ((isQuiet_query _).makes hrefl) fun found => ?_
    rcases found with _ | job
    · exact (isQuiet_pure _).makes hrefl
    simp only
    split
    · exact (isQuiet_pure _).makes hrefl
    · refine makes_bind htrans (makes_attempt (hrun job.id)) fun r => ?_
      rcases r with why | done
      · exact makes_drain hrefl htrans hrun table fuel _
      · exact makes_bind htrans (makes_drain hrefl htrans hrun table fuel _) fun _ =>
          (isQuiet_pure _).makes hrefl

theorem makes_runPending (hfactory : SourceFactory.Conforms w.source) (table : Option String) :
    Makes Pending (w.runPending table) :=
  makes_bind .trans ((isQuiet_query _).makes fun _ => .refl) fun n =>
    makes_drain (fun _ => .refl) .trans (makes_run hfactory) table (n + 1) []

end Worker

/-! ## Runs that are stopped -/

namespace Flight

open Tabula.Action Database

variable {concurrency : Int} {job : Job} {source : Source} {refuses : Descriptor → Failure → Prop}
  {R : Database → Database → Prop} {f f' : Flight} {db : Database}

theorem keeps_of_step (h : Run.Keeps R job.id) (hexecute : ∀ d, Makes R (Run.execute job source d))
    (hstep : Step concurrency job source refuses f f') (hf : f.world.storage = .ready db) :
    ∃ db', f'.world.storage = .ready db' ∧ R db db' := by
  have hkeeps : ∃ db', f.world.storage = .ready db' ∧ R db db' := ⟨db, hf, h.refl db⟩
  cases hstep with
  | submit => exact hkeeps
  | @execute before after d w r s _ hrun =>
    obtain ⟨db', hdb', hR⟩ := makes_attempt (hexecute d) s f.world db hf
    rw [hrun] at hdb'
    exact ⟨db', hdb', hR⟩
  | refuse => exact hkeeps
  | takeSome => exact hkeeps
  | takeAll => exact hkeeps
  | lose => exact hkeeps
  | @count d n rest x w s _ _ _ hrun =>
    obtain ⟨db', hdb', hR⟩ := h.advance d.size s f.world db hf
    rw [hrun] at hdb'
    exact ⟨db', hdb', hR⟩
  | @mark d n rest w s _ _ _ hrun =>
    refine ⟨db, ?_, h.refl db⟩
    rw [← hf]
    exact (Run.isQuiet_mark _ _).storage_eq hrun
  | @haltCount d n rest why w s _ _ _ hrun =>
    obtain ⟨db', hdb', hR⟩ := h.advance d.size s f.world db hf
    rw [hrun] at hdb'
    exact ⟨db', hdb', hR⟩
  | @haltMark d n rest why w s _ _ _ hrun =>
    refine ⟨db, ?_, h.refl db⟩
    rw [← hf]
    exact (Run.isQuiet_mark _ _).storage_eq hrun

/-- At any moment of a run the database has been changed by its parts only. -/
theorem keeps_of_reaches (h : Run.Keeps R job.id)
    (hexecute : ∀ d, Makes R (Run.execute job source d))
    (hreach : Reaches concurrency job source refuses f f') (hf : f.world.storage = .ready db) :
    ∃ db', f'.world.storage = .ready db' ∧ R db db' := by
  induction hreach with
  | refl => exact ⟨db, hf, h.refl db⟩
  | tail _ hstep ih =>
    obtain ⟨db₁, hdb₁, h₁⟩ := ih
    obtain ⟨db₂, hdb₂, h₂⟩ := keeps_of_step h hexecute hstep hdb₁
    exact ⟨db₂, hdb₂, h.trans h₁ h₂⟩

end Flight

section OnDisk

open Tabula.Action Database

variable {w : Worker} {id : String} {refuses : Descriptor → Failure → Prop} {world₀ world : World}
  {db₀ db : Database}

theorem ingested_of_attempted {job : Job} {f : Flight} (hfactory : SourceFactory.Conforms w.source)
    (hw : world.storage = .ready db) (hf : Attempted w id refuses world job f) :
    ∃ db', f.world.storage = .ready db' ∧ (∃ j ∈ db.jobs, j.table = job.table) ∧
      Ingested job.table (Catalog.typesOf job.table db) db db' := by
  obtain ⟨s, source, p, begun, ds, hbegin, _, hreach⟩ := hf
  obtain ⟨db₁, hdb₁, hjob, hsource, h₁⟩ := Worker.ingested_of_begin hw hfactory hbegin
  obtain ⟨db₂, hdb₂, h₂⟩ := Flight.keeps_of_reaches (Run.keeps_ingested job.table _ job.id)
    (Run.makes_execute hsource) hreach hdb₁
  exact ⟨db₂, hdb₂, hjob, h₁.trans h₂⟩

/-- What is done last for the job of an attempt is done for a job. -/
theorem worksOff_of_attempted {α : Type} {job : Job} {f : Flight}
    (hfactory : SourceFactory.Conforms w.source) (hw : world.storage = .ready db)
    (hf : Attempted w id refuses world job f) {x : Action α}
    (hx : ∀ types, Makes (Ingested job.table types) x) (s : Surroundings) :
    Leaves db.WorksOff x s f.world := by
  obtain ⟨db', hdb', ⟨j, hj, htable⟩, hingested⟩ := ingested_of_attempted hfactory hw hf
  refine (hx (Catalog.typesOf job.table db) s f.world db' hdb').mono fun db'' hlast => ?_
  refine .inr ⟨j, hj, ?_⟩
  rw [htable]
  exact hingested.trans hlast

/-- What beginning a job makes, and an attempt at it with what is done last, has been made when a
process stopped. -/
theorem makes_of_onDisk {R : Database → Database → Prop} (refl : ∀ db, R db db)
    (trans : ∀ {db₁ db₂ db₃}, R db₁ db₂ → R db₂ db₃ → R db₁ db₃) (hbegin : Makes R (w.begin id))
    (hattempted : ∀ {world : World} {db : Database} {job : Job} {f : Flight},
      world.storage = .ready db → Attempted w id refuses world job f →
        (∃ db', f.world.storage = .ready db' ∧ R db db') ∧
          ∀ s, Leaves (R db) (Jobs.complete job.id) s f.world ∧
            Leaves (R db) (Run.finish job.id f.run) s f.world)
    (hw : world₀.storage = .ready db₀) (h : OnDisk w id refuses world₀ world) :
    ∃ db, world.storage = .ready db ∧ R db₀ db := by
  induction h with
  | start => exact ⟨db₀, hw, refl db₀⟩
  | begin _ s ih =>
    obtain ⟨db, hdb, hR⟩ := ih
    obtain ⟨db', hdb', hR'⟩ := hbegin s _ db hdb
    exact ⟨db', hdb', trans hR hR'⟩
  | run _ hf ih =>
    obtain ⟨db, hdb, hR⟩ := ih
    obtain ⟨db', hdb', hR'⟩ := (hattempted hdb hf).1
    exact ⟨db', hdb', trans hR hR'⟩
  | complete _ hf _ _ s ih =>
    obtain ⟨db, hdb, hR⟩ := ih
    obtain ⟨db', hdb', hR'⟩ := ((hattempted hdb hf).2 s).1
    exact ⟨db', hdb', trans hR hR'⟩
  | finish _ hf _ s ih =>
    obtain ⟨db, hdb, hR⟩ := ih
    obtain ⟨db', hdb', hR'⟩ := ((hattempted hdb hf).2 s).2
    exact ⟨db', hdb', trans hR hR'⟩

/-- Whatever was done when a process stopped, it was done for jobs. -/
theorem pending_of_onDisk (hfactory : SourceFactory.Conforms w.source)
    (hw : world₀.storage = .ready db₀) (h : OnDisk w id refuses world₀ world) :
    ∃ db, world.storage = .ready db ∧ Worker.Pending db₀ db := by
  refine makes_of_onDisk (fun _ => .refl) .trans (fun s world db hdb => ?_) ?_ hw h
  · exact (Worker.leaves_begin w id hdb).mono fun _ => .single
  · intro world db job f hdb hf
    refine ⟨?_, fun s => ⟨?_, ?_⟩⟩
    · obtain ⟨db', hdb', ⟨j, hj, htable⟩, hingested⟩ := ingested_of_attempted hfactory hdb hf
      exact ⟨db', hdb', .single (.inr ⟨j, hj, by rwa [htable]⟩)⟩
    · exact (worksOff_of_attempted hfactory hdb hf (fun _ => Jobs.makes_complete job.id) s).mono
        fun _ => .single
    · exact (worksOff_of_attempted hfactory hdb hf (fun types =>
        Run.makes_finish (Run.keeps_ingested job.table types job.id) f.run) s).mono
          fun _ => .single

end OnDisk

end Tabula
