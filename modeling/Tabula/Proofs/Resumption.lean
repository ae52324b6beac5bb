import Tabula.Proofs.Completion

/-!
# Resuming a job

A job may have any of its batches stored, by attempts that were interrupted. It is resumed
rightly as long as the batches before the offset from which it resumes are all among them
(`Worker.resumes`) : the batches that are stored already add nothing, the others add their
rows, and in the end there is one row for each offset of the job.
-/

namespace Tabula

open Store

variable {size total base offset : Int} {d : Descriptor} {ds D : List Descriptor} {id : String}
  {rows : Rows}

/-! ## The keys of all batches -/

/-- The id and the position of the row at an offset. -/
def rowKey (job : String) (size base : Int) (o : Int) : String × Int :=
  (Batch.jobRowId job (o / size) (o % size).toNat, base + o)

theorem keys_eq_map_offsets (hs : 0 < size) (h : size ∣ offset)
    (hd : d ∈ batchesFrom size total offset) :
    d.keys id base = d.offsets.map (rowKey id size base) := by
  rw [Descriptor.keys, Descriptor.offsets, List.map_map]
  refine List.map_congr_left fun r hr => ?_
  rw [List.mem_range] at hr
  obtain ⟨hdiv, hmod⟩ := index_of_row hs h hd (r := r) (by omega)
  rw [Function.comp_apply, rowKey, hdiv, hmod, Int.toNat_natCast, Int.add_assoc]

/-- The batches of a job have one row for each of its offsets. -/
theorem flatMap_keys (hs : 0 < size) :
    (batchesFrom size total 0).flatMap (Descriptor.keys id base) =
      (List.range total.toNat).map fun o : Nat => rowKey id size base o := by
  have hkeys : (batchesFrom size total 0).flatMap (Descriptor.keys id base) =
      (batchesFrom size total 0).flatMap fun d => d.offsets.map (rowKey id size base) :=
    List.flatMap_congr fun d hd => keys_eq_map_offsets hs (dvd_zero size) hd
  rw [hkeys, ← List.map_flatMap, flatMap_offsets hs, List.map_map, Int.sub_zero]
  refine List.map_congr_left fun o _ => ?_
  rw [Function.comp_apply, Int.zero_add]

/-! ## What is stored already -/

/-- The rows of a job in some rows are those of some batches. -/
def StoresBatches (id : String) (base : Int) (D : List Descriptor) (rows : Rows) : Prop :=
  ((rows.ofJob id).map Row.key).Perm (D.flatMap (Descriptor.keys id base))

theorem exists_mem_of_key {k : String × Int} (hk : k ∈ d.keys id base) :
    ∃ row : Nat, k.1 = Batch.jobRowId id d.index row := by
  obtain ⟨row, _, rfl⟩ := List.mem_map.mp hk
  exact ⟨row, rfl⟩

theorem Descriptor.first_mem_keys (id : String) (base : Int) (hd : 0 < d.size) :
    (Batch.jobRowId id d.index 0, base + d.offset + (0 : Nat)) ∈ d.keys id base :=
  List.mem_map.mpr ⟨0, List.mem_range.mpr (by omega), rfl⟩

/-- An id that is taken was made for a batch that is stored. -/
theorem exists_index_of_has (h : StoresBatches id base D rows) {k : String × Int}
    (hk : k ∈ d.keys id base) (hhas : rows.has k.1 = true) : ∃ d' ∈ D, d'.index = d.index := by
  obtain ⟨r, hr, hrk⟩ := Rows.has_iff.mp hhas
  obtain ⟨row, hrow⟩ := exists_mem_of_key hk
  have hjob : r ∈ rows.ofJob id := Rows.mem_ofJob.mpr ⟨hr, d.index, row, hrk.trans hrow⟩
  obtain ⟨d', hd', hk'⟩ := List.mem_flatMap.mp (h.mem_iff.mp (List.mem_map_of_mem hjob))
  obtain ⟨row', hrow'⟩ := exists_mem_of_key hk'
  refine ⟨d', hd', (jobRowId_inj.mp (?_ : Batch.jobRowId id d'.index row' =
    Batch.jobRowId id d.index row)).2.1⟩
  rw [← hrow', ← hrow, ← hrk]
  rfl

/-- The ids of a batch that is stored are taken. -/
theorem has_of_mem (h : StoresBatches id base D rows) (hd : d ∈ D) {k : String × Int}
    (hk : k ∈ d.keys id base) : rows.has k.1 = true := by
  obtain ⟨r, hr, rfl⟩ := List.mem_map.mp (h.mem_iff.mpr (List.mem_flatMap.mpr ⟨d, hd, hk⟩))
  exact Rows.has_iff.mpr ⟨r, (Rows.mem_ofJob.mp hr).1, rfl⟩

/-- A batch that is stored adds nothing. -/
theorem freshKeys_of_mem (h : StoresBatches id base D rows) (hd : d ∈ D) :
    rows.freshKeys (d.keys id base) = [] := by
  rw [Rows.freshKeys, List.filter_eq_nil_iff]
  intro k hk
  simp [has_of_mem h hd hk]

/-- A batch that is not stored adds all its rows. -/
theorem freshKeys_of_notMem (hs : 0 < size) (h : StoresBatches id base D rows)
    (hD : ∀ d ∈ D, d ∈ batchesFrom size total 0) (hall : d ∈ batchesFrom size total 0)
    (hd : d ∉ D) : rows.freshKeys (d.keys id base) = d.keys id base := by
  rw [Rows.freshKeys, List.filter_eq_self]
  intro k hk
  rw [Bool.not_eq_true', Bool.eq_false_iff]
  intro hhas
  obtain ⟨d', hd', hindex⟩ := exists_index_of_has h hk hhas
  rw [← eq_of_index_eq hs (hD d' hd') hall hindex] at hd
  exact hd hd'

theorem isRowIdOf_of_perm {new : Rows} (h : (new.map Row.key).Perm
      (ds.flatMap fun d => rows.freshKeys (d.keys id base))) : ∀ r ∈ new, IsRowIdOf id r.id := by
  intro r hr
  obtain ⟨d, _, hk⟩ := List.mem_flatMap.mp (h.mem_iff.mp (List.mem_map_of_mem hr))
  obtain ⟨row, hrow⟩ := exists_mem_of_key (List.mem_filter.mp hk).1
  exact ⟨d.index, row, hrow⟩

/-- The batches from an offset on are those of the whole job that begin there or later. -/
theorem mem_batchesFrom_of_aligned (hs : 0 < size) {p : Int} (h0 : 0 ≤ p)
    (haligned : p = total ∨ size ∣ p) :
    d ∈ batchesFrom size total p ↔ d ∈ batchesFrom size total 0 ∧ p ≤ d.offset := by
  rcases haligned with rfl | hdvd
  · rw [batchesFrom_of_le (le_refl _)]
    refine ⟨fun h => absurd h List.not_mem_nil, fun ⟨h, hle⟩ => ?_⟩
    have := bounds_of_mem hs h
    omega
  · exact mem_batchesFrom_of_dvd hs h0 hdvd

/-- What is stored, and what remains to be stored, are the rows of the job. -/
theorem perm_flatMap_keys (hs : 0 < size) {p : Int} (h : StoresBatches id base D rows)
    (hD : D.Nodup) (hDs : ∀ d ∈ D, d ∈ batchesFrom size total 0) (h0 : 0 ≤ p)
    (haligned : p = total ∨ size ∣ p)
    (hbelow : ∀ d ∈ batchesFrom size total 0, d.offset < p → d ∈ D) :
    (D.flatMap (Descriptor.keys id base) ++
      (batchesFrom size total p).flatMap fun d => rows.freshKeys (d.keys id base)).Perm
        ((List.range total.toNat).map fun o : Nat => rowKey id size base o) := by
  let rest := (batchesFrom size total p).filter fun d => d ∉ D
  have hmem : ∀ d, d ∈ batchesFrom size total p ↔ d ∈ batchesFrom size total 0 ∧ p ≤ d.offset :=
    fun d => mem_batchesFrom_of_aligned hs h0 haligned
  have hfresh : ∀ ds : List Descriptor, (∀ d ∈ ds, d ∈ batchesFrom size total 0) →
      (ds.flatMap fun d => rows.freshKeys (d.keys id base)) =
        (ds.filter fun d => d ∉ D).flatMap (Descriptor.keys id base) := by
    intro ds hds
    induction ds with
    | nil => rfl
    | cons d ds ih =>
      rw [List.flatMap_cons, ih fun e he => hds e (List.mem_cons_of_mem d he)]
      by_cases hd : d ∈ D
      · rw [freshKeys_of_mem h hd, List.filter_cons_of_neg (by simpa using hd), List.nil_append]
      · rw [freshKeys_of_notMem hs h hDs (hds d List.mem_cons_self) hd,
          List.filter_cons_of_pos (by simpa using hd), List.flatMap_cons]
  have hwhole : (D ++ rest).Perm (batchesFrom size total 0) := by
    have hnodup : (D ++ rest).Nodup := by
      refine List.nodup_append.mpr ⟨hD, (nodup_batchesFrom hs).filter _, ?_⟩
      rintro a ha b hb rfl
      simpa [ha] using (List.mem_filter.mp hb).2
    refine (List.perm_ext_iff_of_nodup hnodup (nodup_batchesFrom hs)).mpr fun d => ?_
    rw [List.mem_append, List.mem_filter, hmem]
    constructor
    · rintro (hd | ⟨⟨hd, _⟩, _⟩)
      · exact hDs d hd
      · exact hd
    · intro hd
      by_cases hDd : d ∈ D
      · exact Or.inl hDd
      · refine Or.inr ⟨⟨hd, ?_⟩, by simpa using hDd⟩
        by_contra hlt
        exact hDd (hbelow d hd (by omega))
  rw [hfresh _ fun d hd => ((hmem d).mp hd).1, ← List.flatMap_append, ← flatMap_keys hs]
  exact hwhole.flatMap_right _

/-! ## The resumed job -/

/-- What is left once a job is done, with rows of one size of batches : each of its offsets
has one row, and no other row was touched. -/
structure IsDone (id : String) (j : Job) (size : Int) (db : Database)
    (result : Except Failure Job) (world : World) : Prop where
  exists_job : ∃ done db', result = .ok done ∧ world.storage = .ready db' ∧
    db'.jobs.find? id = some done ∧ done.status = .completed ∧ done.processed = j.total ∧
    done.progress = Job.hundred ∧
    (∃ new, db'.rows = db.rows ++ new ∧ ∀ r ∈ new, IsRowIdOf id r.id) ∧
    (∀ r ∈ db'.rows.ofJob id, r.table = j.table) ∧
    ((db'.rows.ofJob id).map Row.key).Perm
      ((List.range j.total.toNat).map fun o : Nat => rowKey id size (j.baseAmong db.rows) o)
  cleared : ∀ today, Checkpoint.load today id world.folder = .ok none

theorem isDone_of_completes {j job : Job} {p : Int} {db : Database} {result : Except Failure Job}
    {world : World} (hs : 0 < size) (hid : job.id = id) (htable : job.table = j.table)
    (hbase : job.base = j.baseAmong db.rows) (hproc : job.processed = p)
    (hstored : StoresBatches id (j.baseAmong db.rows) D db.rows)
    (htables : ∀ r ∈ db.rows.ofJob id, r.table = j.table)
    (hD : D.Nodup) (hDs : ∀ d ∈ D, d ∈ batchesFrom size j.total 0) (h0 : 0 ≤ p) (hp : p ≤ j.total)
    (haligned : p = j.total ∨ size ∣ p)
    (hbelow : ∀ d ∈ batchesFrom size j.total 0, d.offset < p → d ∈ D)
    (h : Run.Completes job (batchesFrom size j.total p) db result world) :
    IsDone id j size db result world := by
  obtain ⟨⟨new, jobs, done, hresult, hworld, hnewtable, hnew, hfound, hstatus, hdone, hprogress⟩,
    hcleared⟩ := h
  rw [hid] at hnew hfound hcleared
  rw [hbase] at hnew
  have hnewid : ∀ r ∈ new, IsRowIdOf id r.id := isRowIdOf_of_perm hnew
  have hofJob : (db.rows ++ new).ofJob id = db.rows.ofJob id ++ new := by
    rw [Rows.ofJob_append, Rows.ofJob_eq_self hnewid]
  refine ⟨⟨done, _, hresult, hworld, hfound, hstatus, ?_, hprogress, ⟨new, rfl, hnewid⟩, ?_, ?_⟩,
    hcleared⟩
  · rw [hdone, hproc, rowsIn_batchesFrom hs]
    omega
  · intro r hr
    rw [rows_withJobs, rows_withRows, hofJob] at hr
    rcases List.mem_append.mp hr with hr | hr
    · exact htables r hr
    · rw [hnewtable r hr, htable]
  · rw [rows_withJobs, rows_withRows, hofJob, List.map_append]
    exact (hstored.append hnew).trans
      (perm_flatMap_keys hs hstored hD hDs h0 haligned hbelow)

/-- A job of which any batches are stored, those before its resume offset among them, is
completed by an attempt, with one row for each offset : by `Worker.run`, and in whichever
order the batches of the attempt end. -/
theorem Worker.resumes {w : Worker} {j : Job} {world : World} {db : Database} {p : Int}
    {s : Surroundings} (h : CanRun w id j world db)
    (hpositions : p < j.total → j.baseAmong db.rows + j.total ≤ 2 ^ 63)
    (hstored : StoresBatches id (j.baseAmong db.rows) D db.rows)
    (htables : ∀ r ∈ db.rows.ofJob id, r.table = j.table)
    (hD : D.Nodup) (hDs : ∀ d ∈ D, d ∈ batchesFrom w.pace.batchSize j.total 0)
    (hresume : (resumeOffset j s world).1 = .ok p)
    (haligned : p = j.total ∨ w.pace.batchSize ∣ p)
    (hbelow : ∀ d ∈ batchesFrom w.pace.batchSize j.total 0, d.offset < p → d ∈ D) :
    IsDone id j w.pace.batchSize db (w.run id s world).1 (w.run id s world).2 ∧
    ∃ job source begun, w.begin id s world = (.ok (job, source, p), begun) ∧
      ∀ f, Flight.Reaches w.pace.concurrency job source (fun _ _ => False)
          (.start begun p (batchesFrom w.pace.batchSize j.total p)) f →
        (¬ f.IsOver → ∃ f', Flight.Step w.pace.concurrency job source (fun _ _ => False) f f') ∧
        (f.IsOver → ∀ s, IsDone id j w.pace.batchSize db (Run.finish job.id f.run s f.world).1
          (Run.finish job.id f.run s f.world).2) := by
  have hs : 0 < w.pace.batchSize := h.batchSize
  obtain ⟨_, h0, hp⟩ := h.run_resumeOffset hresume
  obtain ⟨job, source, begun, hb⟩ := h.exists_begins hresume
  have hdone : ∀ f, Flight.Reaches w.pace.concurrency job source (fun _ _ => False)
      (.start begun p (batchesFrom w.pace.batchSize j.total p)) f → f.IsOver → ∀ s,
      IsDone id j w.pace.batchSize db (Run.finish job.id f.run s f.world).1
        (Run.finish job.id f.run s f.world).2 := fun f hreach hover s =>
    isDone_of_completes hs hb.id_eq hb.table hb.base hb.processed hstored htables hD hDs h0 hp
      haligned hbelow (hb.completes h h0 hpositions hreach hover s)
  refine ⟨?_, job, source, begun, hb.run_begin, fun f hreach =>
    ⟨Flight.exists_step h.concurrency, hdone f hreach⟩⟩
  obtain ⟨f, hreach, hover, heq⟩ := hb.run
  rw [heq]
  exact hdone f hreach hover s

/-! ## The small job, resumed -/

/-- The rows of the first two offsets. -/
def sampleRows : Rows :=
  [⟨Batch.jobRowId "job_1" 0 0, "t", 0, ⟨[], .spaced⟩, ⟨0⟩, ⟨0⟩⟩,
    ⟨Batch.jobRowId "job_1" 0 1, "t", 1, ⟨[], .spaced⟩, ⟨0⟩, ⟨0⟩⟩]

theorem ofJob_sampleRows : sampleRows.ofJob "job_1" = sampleRows := by
  refine Rows.ofJob_eq_self fun r hr => ?_
  rcases List.mem_cons.mp hr with rfl | hr
  · exact ⟨0, 0, rfl⟩
  · rw [List.mem_singleton.mp hr]
    exact ⟨0, 1, rfl⟩

theorem storesBatches_sampleRows : StoresBatches "job_1" 0 [batchAt 2 4 0] sampleRows := by
  rw [StoresBatches, ofJob_sampleRows]
  exact .of_eq rfl

/-- The small job with its first batch stored and without a checkpoint. -/
theorem Worker.isDone_sampleWorker :
    let world := sampleWorld sampleJob sampleRows (.entries [])
    IsDone "job_1" sampleJob 2 (sampleDatabase sampleJob sampleRows)
      ((sampleWorker 2 2).run "job_1" still world).1
      ((sampleWorker 2 2).run "job_1" still world).2 := by
  intro world
  have hresume : (resumeOffset sampleJob still world).1 = .ok 2 := by
    have h : (resumeOffset sampleJob still world).1.toOption = some 2 := by decide +kernel
    rcases hr : (resumeOffset sampleJob still world).1 with why | p
    · rw [hr] at h
      cases h
    · rw [hr] at h
      rw [Option.some.inj h]
  have htables : ∀ r ∈ sampleRows.ofJob "job_1", r.table = sampleJob.table := by
    rw [ofJob_sampleRows]
    decide
  exact (Worker.resumes (canRun_sampleWorker (by decide) (by decide) sampleRows writable_empty)
    (by decide) storesBatches_sampleRows htables (by decide) (by decide) hresume
    (Or.inr (by decide)) (by decide)).1

/-- A position that the store cannot hold fails the job. -/
theorem Worker.run_of_last_position :
    let job : Job := { sampleJob with basePosition := some 0x7ffffffffffffffd }
    let run := (sampleWorker 2 1).run "job_1" still (sampleWorld job [] (.entries []))
    run.1.toOption = none := by
  decide +kernel

end Tabula
