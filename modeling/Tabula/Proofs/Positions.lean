import Tabula.Proofs.Additions
import Tabula.Proofs.BatchSizes
import Tabula.Proofs.Isolation
import Tabula.Proofs.Outages

/-!
# Positions

The rows of a table are listed in the order of their positions, so what is appended at once stays
together as long as no two rows of a table are at one position (`Rows.IsSpaced`). Rows are inserted
behind the last one (`Rows.IsSpaced.join`), and the first attempt at a job begins there as well. But
it only notes where it begins. Rows that come in before the job is resumed are put behind those that
are stored by then, which is where the job goes on.

So an attempt keeps the rows apart if none of its batches has a new row where there is one
(`Job.Crosses`), and only then (`isSpaced_of_attempted`). `Uncrossed` are the worlds that come about
without that.
-/

namespace Tabula

open Store Tabula.Action Rows

/-! ## Rows at different positions -/

/-- The table of a row and its position there. -/
def Row.spot (r : Row) : String × Int := (r.table, r.position)

namespace Store.Rows

/-- No two rows of a table are at one position. -/
def IsSpaced (rows : Rows) : Prop := (rows.map Row.spot).Nodup

variable {rows rows' new : Rows}

theorem isSpaced_append : (rows ++ new).IsSpaced ↔
    rows.IsSpaced ∧ new.IsSpaced ∧ ∀ r ∈ rows, ∀ r' ∈ new, r.spot ≠ r'.spot := by
  simp only [IsSpaced, List.map_append, List.nodup_append, List.forall_mem_map]

/-- Rows that stay, stay where they are. -/
theorem IsSpaced.thinned (h : rows.IsSpaced) (hthinned : Thinned rows rows') :
    rows'.IsSpaced := by
  have hspots := hthinned.map Prod.snd
  rw [List.map_map, List.map_map] at hspots
  exact hspots.nodup h

theorem isSpaced_of_positions (h : (new.map Row.position).Nodup) : new.IsSpaced := by
  refine List.Nodup.of_map Prod.snd ?_
  rwa [List.map_map]

/-- Rows that are stored behind all rows of their table. -/
theorem IsSpaced.join {after upTo start : Int} {table : String} {cells : List Cells}
    (h : rows.IsSpaced) (hnew : Stamped after upTo table start cells new)
    (hbehind : ∀ r ∈ rows, r.table = table → r.position < start) : (rows.join new).IsSpaced := by
  have hsub : (rows.novel new).Sublist new := List.filter_sublist
  refine isSpaced_append.mpr ⟨h, isSpaced_of_positions ?_, fun r hr r' hr' hspot => ?_⟩
  · refine (hsub.map Row.position).nodup ?_
    rw [hnew.positions]
    exact List.nodup_range.map fun i j hij => by simpa using hij
  · obtain ⟨htable, hposition⟩ := Prod.mk.inj hspot
    have hlt := hbehind r hr (htable.trans (hnew.tables r' (hsub.subset hr')))
    have hmem : r'.position ∈ new.map Row.position := List.mem_map_of_mem (hsub.subset hr')
    rw [hnew.positions] at hmem
    obtain ⟨i, -, hi⟩ := List.mem_map.mp hmem
    omega

end Store.Rows

/-! ## Attempts -/

/-- A new row of one of some batches comes where a row of the table is. -/
def Job.Crosses (job : Job) (ds : List Descriptor) (rows : Rows) : Prop :=
  ∃ d ∈ ds, ∃ k ∈ rows.freshKeys (d.keys job.id job.base), ∃ r ∈ rows, r.spot = (job.table, k.2)

section Attempted

variable {job j : Job} {ds ds' : List Descriptor} {rows new : Rows}

/-- Batches that begin behind the rows of the table do not come to one. -/
theorem Job.not_crosses_of_behind (hds : ∀ d ∈ ds, 0 ≤ d.offset)
    (hbehind : ∀ r ∈ rows, r.table = job.table → r.position < job.base) :
    ¬ job.Crosses ds rows := by
  rintro ⟨d, hd, k, hk, r, hr, hspot⟩
  obtain ⟨htable, hposition⟩ := Prod.mk.inj hspot
  obtain ⟨row, -, rfl⟩ := List.mem_map.mp (List.mem_filter.mp hk).1
  have hlt := hbehind r hr htable
  have h0 := hds d hd
  simp only at hposition
  omega

/-- Rows of different batches have different positions. -/
theorem nodup_positions_of_keys {size total offset : Int} (hs : 0 < size)
    (hds : ds.Subperm (batchesFrom size total offset))
    (hnew : (new.map Row.key).Perm
      (ds.flatMap fun d => rows.freshKeys (d.keys job.id job.base))) :
    (new.map Row.position).Nodup := by
  obtain ⟨l, hperm, hsub⟩ := hds
  have hoffsets : (ds.flatMap Descriptor.offsets).Nodup := by
    refine (hperm.flatMap_right _).nodup_iff.mp ((hsub.flatMap _).nodup ?_)
    rw [flatMap_offsets hs]
    exact List.nodup_range.map fun i j hij => by simpa using hij
  have hkeys : ((ds.flatMap (Descriptor.keys job.id job.base)).map Prod.snd).Nodup := by
    rw [flatMap_snd_keys]
    exact hoffsets.map (add_right_injective job.base)
  have hpositions : (new.map Row.position).Perm
      ((ds.flatMap fun d => rows.freshKeys (d.keys job.id job.base)).map Prod.snd) := by
    have hsnd := hnew.map Prod.snd
    rwa [List.map_map] at hsnd
  exact hpositions.nodup_iff.mpr (((flatMap_freshKeys_sublist ds).map Prod.snd).nodup hkeys)

/-- The new rows of batches are apart from the others unless one of them comes where one is. -/
theorem isSpaced_append_iff {size total offset : Int} (hs : 0 < size)
    (hds : ds.Subperm (batchesFrom size total offset)) (hrows : rows.IsSpaced)
    (htables : ∀ r ∈ new, r.table = job.table)
    (hnew : (new.map Row.key).Perm
      (ds.flatMap fun d => rows.freshKeys (d.keys job.id job.base))) :
    (rows ++ new).IsSpaced ↔ ¬ job.Crosses ds rows := by
  have hspaced := isSpaced_of_positions (nodup_positions_of_keys hs hds hnew)
  simp only [isSpaced_append, hrows, hspaced, true_and]
  constructor
  · rintro hapart ⟨d, hd, k, hk, r, hr, hspot⟩
    obtain ⟨r', hr', rfl⟩ := List.mem_map.mp (hnew.mem_iff.mpr (List.mem_flatMap.mpr ⟨d, hd, hk⟩))
    refine hapart r hr r' hr' (hspot.trans ?_)
    rw [Row.spot, htables r' hr']
    rfl
  · intro hcrosses r hr r' hr' hspot
    obtain ⟨d, hd, hk⟩ := List.mem_flatMap.mp (hnew.mem_iff.mp (List.mem_map_of_mem hr'))
    refine hcrosses ⟨d, hd, r'.key, hk, r, hr, hspot.trans ?_⟩
    rw [Row.spot, htables r' hr']
    rfl

variable {w : World} {db : Database} {worker : Worker} {id : String} {s : Surroundings}
  {refuses : Descriptor → Failure → Prop} {f : Flight}

theorem isSafeId_of_begin {a : Job × Source × Int} {w' : World} (hw : w.storage = .ready db)
    (h : worker.begin id s w = (.ok a, w')) : Checkpoint.isSafeId id = true := by
  obtain ⟨j, hget, h⟩ := ok_of_query_bind hw h
  have hid := Ledger.id_of_find? (Ledger.find?_of_get hget)
  split at h
  · cases (Prod.mk.inj h).1
  · obtain ⟨p, w', hresume, -⟩ := ok_of_run_bind h
    exact hid ▸ Outage.isSafeId_of_resumeOffset hresume

/-- What an attempt has stored by some moment : the new rows of those of its batches that have
succeeded, which are batches from some offset on. -/
theorem exists_rows_of_attempted (hw : w.storage = .ready db) (hexact : worker.IsExact)
    (hc : 1 ≤ worker.pace.concurrency) (hf : Attempted worker id refuses w job f) :
    ∃ j p size new db', db.jobs.find? id = some j ∧ Worker.Begun p db.rows j job ∧ 0 < size ∧
      (succeeded f.executed).Subperm (batchesFrom size job.total (max 0 p)) ∧
      f.world.storage = .ready db' ∧ db'.rows = db.rows ++ new ∧
      (∀ r ∈ new, r.table = job.table) ∧
      (new.map Row.key).Perm ((succeeded f.executed).flatMap fun d =>
        db.rows.freshKeys (d.keys job.id job.base)) := by
  have hsafe : Checkpoint.isSafeId id = true := by
    obtain ⟨_, _, _, _, _, hbegin, -, -⟩ := hf
    exact isSafeId_of_begin hw hbegin
  obtain ⟨_, j, p, columns, source, ds, hj, -, hbegun, hsource, hds, hreach⟩ :=
    begun_of_attempted hw hsafe hf
  obtain ⟨hs, rfl⟩ := eq_of_descriptors hds
  have hplaced := Flight.placed_of_reaches hreach (Flight.placed_start hc _ p)
  have hdb₁ : (w.withDatabase (db.withJobs (db.jobs.put job))).storage =
    .ready (db.withJobs (db.jobs.put job)) := rfl
  have hstores := Flight.stores_of_reaches hreach (nodup_index_batchesFrom hs)
    (Flight.placed_start hc _ p) (Flight.stores_start hdb₁ p _)
  obtain ⟨new, jobs, hready, -, htables, hperm⟩ := hstores.exists_rows
  refine ⟨j, p, _, new, _, hj, hbegun, hs, hplaced.subperm (List.Subperm.refl _), hready, rfl,
    htables, Run.key_perm (hexact _ _ _ hsource) (fun d hd => ?_) hperm⟩
  obtain ⟨n, hn⟩ := mem_succeeded.mp hd
  obtain ⟨es, hes, -⟩ := hstores.explained _ hn
  exact ⟨es, hes⟩

/-- An attempt leaves the rows apart unless a new row of a batch that is stored comes where a row
is. -/
theorem isSpaced_of_attempted (hw : w.storage = .ready db) (hexact : worker.IsExact)
    (hc : 1 ≤ worker.pace.concurrency) (hspaced : db.rows.IsSpaced)
    (hf : Attempted worker id refuses w job f) :
    ∃ db', f.world.storage = .ready db' ∧
      (db'.rows.IsSpaced ↔ ¬ job.Crosses (succeeded f.executed) db.rows) := by
  obtain ⟨_, _, _, new, db', -, -, hs, hsub, hready, hrows, htables, hperm⟩ :=
    exists_rows_of_attempted hw hexact hc hf
  exact ⟨db', hready, hrows ▸ isSpaced_append_iff hs hsub hspaced htables hperm⟩

/-- The first attempt at a job begins behind the last row. -/
theorem not_crosses_of_first (hw : w.storage = .ready db) (hexact : worker.IsExact)
    (hc : 1 ≤ worker.pace.concurrency) (hf : Attempted worker id refuses w job f)
    (hj : db.jobs.find? id = some j) (hfirst : j.basePosition = none) :
    ¬ job.Crosses (succeeded f.executed) db.rows := by
  obtain ⟨j', p, _, _, _, hj', hbegun, hs, hsub, -⟩ := exists_rows_of_attempted hw hexact hc hf
  obtain rfl := Option.some.inj (hj'.symm.trans hj)
  have hbase : job.base = max 0 (db.rows.nextPosition job.table) := by
    rw [Job.base, hbegun.base, Job.baseAmong, hfirst, hbegun.continues.table]
    rfl
  refine Job.not_crosses_of_behind (fun d hd => ?_) fun r hr ht => ?_
  · have := bounds_of_mem hs (hsub.subset hd)
    omega
  · have := lt_nextPosition hr ht
    omega

end Attempted

/-! ## Worlds in which no attempt has crossed rows -/

/-- What is left of a run : the process stopped at some moment, or the run was over and its job was
ended. -/
inductive Flight.Left (f : Flight) (job : Job) : World → Prop where
  | stopped : Left f job f.world
  | completed (hover : f.IsOver) (hfailure : f.run.failure = none) (s : Surroundings) :
      Left f job (Jobs.complete job.id s f.world).2
  | finished (hover : f.IsOver) (s : Surroundings) :
      Left f job (Run.finish job.id f.run s f.world).2

/-- A worker that may run : its sources make the rows they are asked for, and at least one batch may
be in flight. -/
structure Worker.IsFit (worker : Worker) : Prop where
  conforms : SourceFactory.Conforms worker.source
  exact : worker.IsExact
  concurrency : 1 ≤ worker.pace.concurrency

/-- Whether the operation runs jobs. -/
def Operation.RunsJobs : Operation → Prop
  | runJob _ _ => True
  | runPending _ _ => True
  | _ => False

/-- The worlds that come about from an empty database by operations and by attempts at jobs, each of
which may be stopped at any moment, as long as no attempt crosses rows. New ids are ids that no
record has. -/
inductive Uncrossed : World → Prop where
  | empty {w : World} (hw : w.storage = .ready .empty) : Uncrossed w
  | perform {w : World} (h : Uncrossed w) (settings : Workspace.Settings) {s : Surroundings}
      {op : Operation} (hs : s.IsUnused w) (hsound : op.IsSound) (hruns : ¬ op.RunsJobs) :
      Uncrossed (op.perform settings s w).2
  | begin {w : World} (h : Uncrossed w) {worker : Worker}
      (hfit : worker.IsFit) (id : String) (s : Surroundings) : Uncrossed (worker.begin id s w).2
  | attempt {w w' : World} {db : Database} (h : Uncrossed w) (hw : w.storage = .ready db)
      {worker : Worker} {id : String} {refuses : Descriptor → Failure → Prop} {job : Job}
      {f : Flight} (hfit : worker.IsFit) (hf : Attempted worker id refuses w job f)
      (hcrosses : ¬ job.Crosses (succeeded f.executed) db.rows) (hleft : f.Left job w') :
      Uncrossed w'

section Uncrossed

variable {w w' : World} {db : Database} {worker : Worker} {id : String} {s : Surroundings}
  {refuses : Descriptor → Failure → Prop} {job : Job} {f : Flight}

theorem onDisk_of_left (hf : Attempted worker id refuses w job f) (h : f.Left job w') :
    OnDisk worker id refuses w w' := by
  cases h with
  | stopped => exact .run .start hf
  | completed hover hfailure s => exact .complete .start hf hover hfailure s
  | finished hover s => exact .finish .start hf hover s

theorem Uncrossed.reached (h : Uncrossed w) : Reached (fun _ _ => True) w := by
  induction h with
  | empty hw => exact .empty hw
  | perform _ settings hs hsound _ ih =>
    obtain ⟨db, hw, -⟩ := isLinked_of_reached ih
    exact ih.perform hw settings hs.toIsFresh hsound trivial
  | @begin w _ worker hfit id s ih =>
    have hdisk : OnDisk worker id (fun _ _ => False) w _ := .begin .start s
    exact ih.stopped hfit.conforms hdisk
  | attempt _ _ hfit hf _ hleft ih => exact ih.stopped hfit.conforms (onDisk_of_left hf hleft)

/-- The end of a run leaves the rows. -/
theorem rows_of_left (hw : f.world.storage = .ready db) (h : f.Left job w') :
    ∃ db', w'.storage = .ready db' ∧ db'.rows = db.rows := by
  have hkeeps : Run.Keeps (fun db db' => db'.rows = db.rows) job.id :=
    { refl := fun _ => rfl
      trans := fun h h' => h'.trans h
      advance := fun _ => Jobs.makes_change_rows _
      complete := Jobs.makes_change_rows _
      fail := fun _ => Jobs.makes_change_rows _ }
  cases h with
  | stopped => exact ⟨db, hw, rfl⟩
  | completed _ _ s => exact hkeeps.complete s f.world db hw
  | finished _ s => exact Run.makes_finish hkeeps f.run s f.world db hw

theorem isSpaced_of_left (hw : w.storage = .ready db) (hfit : worker.IsFit)
    (hspaced : db.rows.IsSpaced) (hf : Attempted worker id refuses w job f)
    (hleft : f.Left job w') : ∃ db', w'.storage = .ready db' ∧
      (db'.rows.IsSpaced ↔ ¬ job.Crosses (succeeded f.executed) db.rows) := by
  obtain ⟨db₁, hdb₁, hiff⟩ :=
    isSpaced_of_attempted hw hfit.exact hfit.concurrency hspaced hf
  obtain ⟨db', hdb', hrows⟩ := rows_of_left hdb₁ hleft
  exact ⟨db', hdb', hrows ▸ hiff⟩

theorem leaves_begin_isSpaced (hw : w.storage = .ready db) (hspaced : db.rows.IsSpaced)
    (worker : Worker) (id : String) (s : Surroundings) :
    Leaves (fun db' => db'.rows.IsSpaced) (worker.begin id) s w :=
  (worker.makes_begin_rows id s w db hw).mono fun _ h => h ▸ hspaced

/-- What is done for actors keeps the rows apart. -/
theorem Operation.leaves_isSpaced (settings : Workspace.Settings) (hw : w.storage = .ready db)
    (hs : s.IsUnused w) (hlinked : db.IsLinked) (hspaced : db.rows.IsSpaced) {op : Operation}
    (hsound : op.IsSound) (hruns : ¬ op.RunsJobs) :
    Leaves (fun db' => db'.rows.IsSpaced) (op.perform settings) s w := by
  by_cases hrows : op.AddsRows
  swap
  · have hthins : Leaves (db.Thins fun _ => True) (op.perform settings) s w :=
      op.thins_perform settings hw hsound hrows fun _ _ => trivial
    exact hthins.mono fun db' h => hspaced.thinned h.rows
  cases op with
  | createTable actor base name =>
    refine leaves_map ?_
    rcases Workspace.createsTable (s := s) hw actor base name with hw' | ⟨hw', hid, -, -, -, hnew⟩
    · exact ⟨_, hw', hspaced⟩
    · refine ⟨_, hw', hspaced.join hnew fun r hr ht => absurd ?_
        (hs.unused db hw _ (Nat.lt_succ_self _) .table "tbl")⟩
      obtain ⟨t, htable, hid'⟩ := hlinked.row r hr
      exact (Kind.table.mem_keys_iff _).mpr ⟨t, htable, hid'.trans (ht.trans hid)⟩
  | insertRows actor table rows =>
    obtain ⟨cells, new, hw', hnew⟩ :=
      Workspace.exists_of_insertRows (s := s) hw settings actor table rows
    exact leaves_map ⟨_, hw', hspaced.join hnew fun r hr ht => lt_nextPosition hr ht⟩
  | runJob | runPending => exact absurd trivial hruns
  | _ => exact hrows.elim

theorem Uncrossed.isSpaced (h : Uncrossed w) : ∃ db, w.storage = .ready db ∧ db.rows.IsSpaced := by
  induction h with
  | empty hw => exact ⟨_, hw, List.nodup_nil⟩
  | perform h settings hs hsound hruns ih =>
    obtain ⟨db, hw, hspaced⟩ := ih
    obtain ⟨_, hw', hlinked, -⟩ := isLinked_of_reached h.reached
    obtain rfl := Storage.ready.inj (hw'.symm.trans hw)
    exact Operation.leaves_isSpaced settings hw hs hlinked hspaced hsound hruns
  | @begin _ _ worker _ id s ih =>
    obtain ⟨db, hw, hspaced⟩ := ih
    exact leaves_begin_isSpaced hw hspaced worker id s
  | attempt _ hw hfit hf hcrosses hleft ih =>
    obtain ⟨db, hw', hspaced⟩ := ih
    obtain rfl := Storage.ready.inj (hw'.symm.trans hw)
    obtain ⟨db', hdb', hiff⟩ := isSpaced_of_left hw hfit hspaced hf hleft
    exact ⟨db', hdb', hiff.mpr hcrosses⟩

/-- A run that is not stopped is an attempt that came to its end, or did not come to its batches. -/
theorem left_of_run (hc : 1 ≤ worker.pace.concurrency) (id : String)
    (refuses : Descriptor → Failure → Prop) (s : Surroundings) (w : World) :
    (worker.run id s w).2 = (worker.begin id s w).2 ∨
      ∃ job f, Attempted worker id refuses w job f ∧ f.Left job (worker.run id s w).2 := by
  rw [Worker.run_eq]
  rcases hbegin : worker.begin id s w with ⟨why | ⟨job, source, p⟩, begun⟩
  · exact .inl (congrArg Prod.snd (run_bind_error hbegin _))
  rw [run_bind_ok hbegin]
  dsimp only
  rcases hds : descriptors p worker.pace.batchSize job.total with why | ds
  · refine .inl (congrArg Prod.snd (run_bind_error (e := why) ?_ _))
    rw [run_liftM, hds]
  · obtain ⟨f, hreach, hover, hrun⟩ :=
      Pace.exists_flight_of_descriptors hc hds source refuses s begun
    rw [hrun]
    exact .inr ⟨job, f, ⟨s, source, p, begun, ds, hbegin, hds, hreach⟩, .finished hover s⟩

/-- Positions are not shared as long as no attempt crosses rows, and they are once one does. No
operation makes rows share a position, nor does the beginning of an attempt, nor the first attempt
at a job. A run that is not stopped is one of the attempts. -/
theorem isSpaced_iff_of_uncrossed (h : Uncrossed w) : ∃ db, w.storage = .ready db ∧
    db.rows.IsSpaced ∧
    (∀ (settings : Workspace.Settings) (s : Surroundings) (op : Operation), s.IsUnused w →
      op.IsSound → ¬ op.RunsJobs →
        ∃ db', (op.perform settings s w).2.storage = .ready db' ∧ db'.rows.IsSpaced) ∧
    ∀ (worker : Worker) (id : String), worker.IsFit →
      (∀ s, ∃ db', (worker.begin id s w).2.storage = .ready db' ∧ db'.rows.IsSpaced) ∧
      (∀ refuses job f, Attempted worker id refuses w job f →
        (∀ w', f.Left job w' → ∃ db', w'.storage = .ready db' ∧
          (db'.rows.IsSpaced ↔ ¬ job.Crosses (succeeded f.executed) db.rows)) ∧
        ∀ j, db.jobs.find? id = some j → j.basePosition = none →
          ¬ job.Crosses (succeeded f.executed) db.rows) ∧
      ∀ refuses s, (worker.run id s w).2 = (worker.begin id s w).2 ∨
        ∃ job f, Attempted worker id refuses w job f ∧ f.Left job (worker.run id s w).2 := by
  obtain ⟨db, hw, hspaced⟩ := h.isSpaced
  obtain ⟨_, hw', hlinked, -⟩ := isLinked_of_reached h.reached
  obtain rfl := Storage.ready.inj (hw'.symm.trans hw)
  refine ⟨_, hw, hspaced, fun settings s op hs hsound hruns => ?_, fun worker id hfit =>
    ⟨fun s => ?_, fun refuses job f hf => ⟨fun w' hleft => ?_, fun j hj hfirst => ?_⟩,
      fun refuses s => ?_⟩⟩
  · exact Operation.leaves_isSpaced settings hw hs hlinked hspaced hsound hruns
  · exact leaves_begin_isSpaced hw hspaced worker id s
  · exact isSpaced_of_left hw hfit hspaced hf hleft
  · exact not_crosses_of_first hw hfit.exact hfit.concurrency hf hj hfirst
  · exact left_of_run hfit.concurrency id refuses s w

end Uncrossed

/-! ## Two rows at one position -/

/-- The world once the first batch of an attempt is stored, if the attempt comes to one. -/
def Worker.firstBatch (worker : Worker) (id : String) (s : Surroundings) (w : World) : World :=
  match worker.begin id s w with
  | (.error _, begun) => begun
  | (.ok (job, source, p), begun) =>
    match descriptors p worker.pace.batchSize job.total with
    | .ok (d :: _) => (Run.execute job source d s begun).2
    | _ => begun

theorem left_of_firstBatch {worker : Worker} (hc : 1 ≤ worker.pace.concurrency) (id : String)
    (refuses : Descriptor → Failure → Prop) (s : Surroundings) (w : World) :
    worker.firstBatch id s w = (worker.begin id s w).2 ∨
      ∃ job f, Attempted worker id refuses w job f ∧ f.Left job (worker.firstBatch id s w) := by
  rw [Worker.firstBatch]
  rcases hbegin : worker.begin id s w with ⟨why | ⟨job, source, p⟩, begun⟩
  · exact .inl rfl
  dsimp only
  rcases hds : descriptors p worker.pace.batchSize job.total with why | ds
  · exact .inl rfl
  rcases ds with _ | ⟨d, ds⟩
  · exact .inl rfl
  let submitted : Flight :=
    ⟨begun, Run.start p, ds, [d], [d], [], [], false, []⟩
  have hsubmit : Flight.Step worker.pace.concurrency job source refuses
      (.start begun p (d :: ds)) submitted :=
    .submit rfl rfl rfl rfl (by
      simp only [Flight.start, Flight.inFlight, List.length_nil]
      omega)
  have hexecute := @Flight.Step.execute worker.pace.concurrency job source refuses submitted
    [] [] d _ _ s rfl (run_attempt _)
  exact .inr ⟨job, _, ⟨s, source, p, begun, _, hbegin, hds, .tail (.single hsubmit) hexecute⟩,
    .stopped⟩

/-- The world after an operation, with ids that no record has. -/
def Operation.after (op : Operation) (w : World) : World := (op.perform ⟨.null, 1⟩ (.newTo w) w).2

/-- A worker that stores two rows at once, which have no cells. -/
def blankWorker : Worker :=
  ⟨⟨2, 1⟩, fun _ _ => .ok fun _ size _ => .ok (List.replicate size.toNat (.dict []))⟩

theorem isFit_blankWorker : blankWorker.IsFit where
  conforms := by
    intro job columns source h offset size batch rows hrows v hv cells hcells
    obtain rfl := Except.ok.inj h
    obtain rfl := Except.ok.inj hrows
    obtain rfl := List.eq_of_mem_replicate hv
    obtain rfl := Except.ok.inj hcells
    exact Cells.conform_nil columns
  exact := by
    intro job columns source h offset size batch rows hrows
    obtain rfl := Except.ok.inj h
    obtain rfl := Except.ok.inj hrows
    exact List.length_replicate
  concurrency := le_refl 1

/-- A base of an actor. -/
def baseWorld : World := (Operation.createBase (some "u") (.text "A")).after (plainWorld 0 .empty)

/-- The id of the table that is made there. -/
def tableId : String := "tbl" ++ "_" ++ (Surroundings.newTo baseWorld).token 2

/-- A table with its first rows. -/
def tableWorld : World :=
  (Operation.createTable "u" ("base" ++ "_" ++ longToken 0 1) (.text "A")).after baseWorld

/-- The id of the job that is started there. -/
def jobId : String := "job" ++ "_" ++ (Surroundings.newTo tableWorld).token 8

/-- A job of four rows. -/
def startedWorld : World :=
  (Operation.startIngestion (fun _ => Pure.pure ()) "u" tableId (.int 4)).after tableWorld

/-- The job is stopped when its first two rows are stored. -/
def interruptedWorld : World := blankWorker.firstBatch jobId (.newTo startedWorld) startedWorld

/-- A row is inserted behind them. -/
def grownWorld : World :=
  (Operation.insertRows "u" tableId (.list [.dict []])).after interruptedWorld

/-- The job is resumed and its other rows are stored. -/
def sharedWorld : World := blankWorker.firstBatch jobId (.newTo grownWorld) grownWorld

/-- Whether the database of a world has a property. -/
def World.Has (P : Database → Prop) [DecidablePred P] (w : World) : Bool :=
  match w.storage with
  | .ready db => decide (P db)
  | _ => false

theorem World.exists_of_has {P : Database → Prop} [DecidablePred P] {w : World}
    (h : w.Has P = true) : ∃ db, w.storage = .ready db ∧ P db := by
  rw [Has] at h
  split at h
  · exact ⟨_, ‹_›, of_decide_eq_true h⟩
  · cases h

/-- No job has begun. -/
def Database.Unbegun (db : Database) : Prop := ∀ j ∈ db.jobs, j.basePosition.isNone = true

/-- Two rows of a table that were stored one after the other are at one position. -/
def Database.SharesPosition (db : Database) : Prop :=
  ∃ e ∈ db.rows.zip db.rows.tail,
    e.1.position = e.2.position ∧ e.1.table = e.2.table ∧ e.1.id ≠ e.2.id

instance : DecidablePred Database.Unbegun := fun db =>
  inferInstanceAs (Decidable (∀ j ∈ db.jobs, j.basePosition.isNone = true))

instance : DecidablePred Database.SharesPosition := fun db =>
  inferInstanceAs (Decidable (∃ e ∈ db.rows.zip db.rows.tail,
    e.1.position = e.2.position ∧ e.1.table = e.2.table ∧ e.1.id ≠ e.2.id))

theorem Database.SharesPosition.exists_rows {db : Database} (h : db.SharesPosition) :
    ∃ r ∈ db.rows, ∃ r' ∈ db.rows, r.id ≠ r'.id ∧ r.table = r'.table ∧ r.position = r'.position := by
  obtain ⟨⟨r, r'⟩, hmem, hposition, htable, hid⟩ := h
  obtain ⟨hr, hr'⟩ := List.of_mem_zip hmem
  exact ⟨r, hr, r', List.mem_of_mem_tail hr', hid, htable, hposition⟩

theorem not_isSpaced_of_shares {db : Database} (h : db.SharesPosition) : ¬ db.rows.IsSpaced := by
  intro hspaced
  obtain ⟨r, hr, r', hr', hid, htable, hposition⟩ := h.exists_rows
  have hspot : r.spot = r'.spot := by rw [Row.spot, Row.spot, htable, hposition]
  exact hid (congrArg Row.id (List.inj_on_of_nodup_map hspaced hr hr' hspot))

theorem has_unbegun_and_sharesPosition : (startedWorld.Has Database.Unbegun &&
    sharedWorld.Has Database.SharesPosition) = true := by
  decide +kernel

theorem Uncrossed.after {w : World} (h : Uncrossed w) {op : Operation} (hsound : op.IsSound)
    (hruns : ¬ op.RunsJobs) : Uncrossed (op.after w) :=
  h.perform ⟨.null, 1⟩ (isUnused_newTo w) hsound hruns

theorem uncrossed_startedWorld : Uncrossed startedWorld := by
  have hempty : Uncrossed (plainWorld 0 .empty) := .empty rfl
  have hbase : Uncrossed baseWorld := hempty.after trivial id
  have htable : Uncrossed tableWorld := hbase.after trivial id
  exact htable.after (fun _ => isQuiet_pure ()) id

theorem uncrossed_interruptedWorld : Uncrossed interruptedWorld := by
  obtain ⟨hunbegun, -⟩ := Bool.and_eq_true_iff.mp has_unbegun_and_sharesPosition
  obtain ⟨db, hw, hunbegun⟩ := World.exists_of_has hunbegun
  rcases left_of_firstBatch isFit_blankWorker.concurrency jobId (fun _ _ => False)
    (.newTo startedWorld) startedWorld with hbegin | ⟨job, f, hf, hleft⟩
  · rw [interruptedWorld, hbegin]
    exact uncrossed_startedWorld.begin isFit_blankWorker jobId _
  · refine uncrossed_startedWorld.attempt hw isFit_blankWorker hf ?_ hleft
    obtain ⟨j, -, -, -, -, hj, -⟩ :=
      exists_rows_of_attempted hw isFit_blankWorker.exact isFit_blankWorker.concurrency hf
    exact not_crosses_of_first hw isFit_blankWorker.exact isFit_blankWorker.concurrency hf hj
      (Option.isNone_iff_eq_none.mp (hunbegun j (Ledger.mem_of_find? hj)))

theorem uncrossed_grownWorld : Uncrossed grownWorld := uncrossed_interruptedWorld.after trivial id

/-- The job that is resumed crosses the row that was inserted. -/
theorem isSpaced_iff_of_grownWorld : ∃ db job f db', Uncrossed grownWorld ∧
    grownWorld.storage = .ready db ∧ db.rows.IsSpaced ∧
      Attempted blankWorker jobId (fun _ _ => False) grownWorld job f ∧ f.Left job sharedWorld ∧
        sharedWorld.storage = .ready db' ∧ ¬ db'.rows.IsSpaced ∧
          job.Crosses (succeeded f.executed) db.rows := by
  obtain ⟨-, hshares⟩ := Bool.and_eq_true_iff.mp has_unbegun_and_sharesPosition
  obtain ⟨db', hw', hshares⟩ := World.exists_of_has hshares
  have hshared := not_isSpaced_of_shares hshares
  obtain ⟨db, hw, hspaced, -, hall⟩ := isSpaced_iff_of_uncrossed uncrossed_grownWorld
  obtain ⟨hbegin, hattempt, -⟩ := hall blankWorker jobId isFit_blankWorker
  rcases left_of_firstBatch isFit_blankWorker.concurrency jobId (fun _ _ => False)
    (.newTo grownWorld) grownWorld with heq | ⟨job, f, hf, hleft⟩
  · obtain ⟨db'', hw'', hspaced''⟩ := hbegin (.newTo grownWorld)
    rw [← heq] at hw''
    obtain rfl := Storage.ready.inj (hw''.symm.trans hw')
    exact absurd hspaced'' hshared
  · obtain ⟨db'', hw'', hiff⟩ := (hattempt _ job f hf).1 sharedWorld hleft
    obtain rfl := Storage.ready.inj (hw''.symm.trans hw')
    exact ⟨db, job, f, db'', uncrossed_grownWorld, hw, hspaced, hf, hleft, hw', hshared,
      not_not.mp fun h => hshared (hiff.mpr h)⟩

/-- Whether the operation makes a base or a table, inserts or deletes rows, or starts a job. -/
def Operation.IsAboutRows : Operation → Prop
  | createBase _ _ => True
  | createTable _ _ _ => True
  | insertRows _ _ _ => True
  | deleteRow _ _ => True
  | startIngestion _ _ _ _ => True
  | _ => False

theorem Reached.after {w : World} (h : Reached (fun op _ => op.IsAboutRows) w) {op : Operation}
    (hsound : op.IsSound) (hrows : op.IsAboutRows) :
    Reached (fun op _ => op.IsAboutRows) (op.after w) := by
  obtain ⟨db, hw, -⟩ := isLinked_of_reached h
  exact h.perform hw ⟨.null, 1⟩ (isUnused_newTo w).toIsFresh hsound hrows

theorem Reached.firstBatch {allowed : Operation → Database → Prop} {w : World}
    (h : Reached allowed w) (s : Surroundings) :
    Reached allowed (blankWorker.firstBatch jobId s w) := by
  rcases left_of_firstBatch isFit_blankWorker.concurrency jobId (fun _ _ => False) s w with
    heq | ⟨job, f, hf, hleft⟩
  · rw [heq]
    have hdisk : OnDisk blankWorker jobId (fun _ _ => False) w _ := .begin .start s
    exact h.stopped isFit_blankWorker.conforms hdisk
  · exact h.stopped isFit_blankWorker.conforms (onDisk_of_left hf hleft)

/-- So two rows of a table can come to be at one position. -/
theorem exists_shared_position : Reached (fun op _ => op.IsAboutRows) sharedWorld ∧
    ∃ db, sharedWorld.storage = .ready db ∧ ∃ r ∈ db.rows, ∃ r' ∈ db.rows, r.id ≠ r'.id ∧
      r.table = r'.table ∧ r.position = r'.position := by
  constructor
  · have hempty : Reached (fun op _ => op.IsAboutRows) (plainWorld 0 .empty) := .empty rfl
    have hbase : Reached _ baseWorld := hempty.after trivial trivial
    have htable : Reached _ tableWorld := hbase.after trivial trivial
    have hstarted : Reached _ startedWorld := htable.after (fun _ => isQuiet_pure ()) trivial
    have hinterrupted : Reached _ interruptedWorld := hstarted.firstBatch _
    have hgrown : Reached _ grownWorld := hinterrupted.after trivial trivial
    exact hgrown.firstBatch _
  · obtain ⟨-, hshares⟩ := Bool.and_eq_true_iff.mp has_unbegun_and_sharesPosition
    obtain ⟨db, hw, hshares⟩ := World.exists_of_has hshares
    exact ⟨db, hw, hshares.exists_rows⟩

end Tabula
