import Tabula.Proofs.Resumption

/-!
# Resuming with another size of batches

The ids of rows tell their batch, so they depend on the size of batches. A job of which the
first `k` batches of one size are stored is resumed right behind them, but with batches of
another size the first new ones may have indexes that are taken, and then their rows count
as stored. `Worker.isWhole_iff` says exactly when that does not happen : if nothing remains,
if nothing is stored, or if the new batches are not larger than the old ones.
-/

namespace Tabula

open Store

variable {size size' total base : Int} {d : Descriptor} {k : Nat} {id : String} {rows : Rows}

/-! ## The rows that are stored and the rows that remain -/

theorem Descriptor.snd_keys (id : String) (base : Int) (d : Descriptor) :
    (d.keys id base).map Prod.snd = d.offsets.map (base + ·) := by
  rw [keys, offsets, List.map_map, List.map_map]
  refine List.map_congr_left fun r _ => ?_
  exact Int.add_assoc base d.offset r

theorem flatMap_snd_keys (id : String) (base : Int) (ds : List Descriptor) :
    (ds.flatMap (Descriptor.keys id base)).map Prod.snd =
      (ds.flatMap Descriptor.offsets).map (base + ·) := by
  simp only [List.map_flatMap, Descriptor.snd_keys]

/-- The first batches of one size and the batches of another size behind them have each row
once. -/
theorem flatMap_offsets_take (hs : 0 < size) (hs' : 0 < size') (h0 : 0 ≤ total) :
    ((batchesFrom size total 0).take k ++
      batchesFrom size' total (min (k * size) total)).flatMap Descriptor.offsets =
        (List.range total.toNat).map fun o : Nat => (o : Int) := by
  have hrows := rowsIn_take_batchesFrom hs k h0
  rw [Int.sub_zero] at hrows
  have hdrop := eq_batchesFrom_of_append hs
    (List.take_append_drop k (batchesFrom size total 0)).symm
  rw [hrows, Int.zero_add] at hdrop
  have hall := @flatMap_offsets size total 0 hs
  rw [← List.take_append_drop k (batchesFrom size total 0), hdrop, List.flatMap_append,
    flatMap_offsets hs] at hall
  rw [List.flatMap_append, flatMap_offsets hs', hall, Int.sub_zero]
  refine List.map_congr_left fun o _ => ?_
  exact Int.zero_add _

/-! ## Ids that are taken -/

theorem flatMap_freshKeys_sublist :
    ∀ ds : List Descriptor, (ds.flatMap fun d => rows.freshKeys (d.keys id base)).Sublist
      (ds.flatMap (Descriptor.keys id base))
  | [] => List.Sublist.refl []
  | d :: ds => by
    rw [List.flatMap_cons, List.flatMap_cons]
    exact List.filter_sublist.append (flatMap_freshKeys_sublist ds)

/-- Larger batches begin with one that has the index of a batch that is stored. -/
theorem exists_taken_of_larger (hs : 0 < size) (hlarger : size < size') (hk : 0 < k) :
    ∃ i : Nat, i < k ∧ (batchAt size total (0 + i * size)).index =
      (batchAt size' total (k * size)).index := by
  have hk0 : 0 ≤ (k : Int) * size := by positivity
  have hs' : 0 < size' := by omega
  obtain ⟨i, hi⟩ : ∃ i : Nat, (i : Int) = k * size / size' :=
    ⟨_, Int.toNat_of_nonneg (Int.ediv_nonneg hk0 hs'.le)⟩
  refine ⟨i, ?_, ?_⟩
  · have hlt : (k : Int) * size < k * size' := mul_lt_mul_of_pos_left hlarger (by omega)
    have := (Int.ediv_lt_iff_lt_mul hs').mpr hlt
    omega
  · rw [batchAt_index hs, Int.zero_ediv, Int.zero_add, hi]
    exact (Int.fdiv_eq_ediv_of_nonneg _ hs'.le).symm

/-- So the first row that remains is taken for one that is stored. -/
theorem flatMap_freshKeys_ne (hs : 0 < size) (hlarger : size < size') (hk : 0 < k)
    (hrest : (k : Int) * size < total)
    (h : StoresBatches id base ((batchesFrom size total 0).take k) rows) :
    ((batchesFrom size' total (k * size)).flatMap fun d => rows.freshKeys (d.keys id base)) ≠
      (batchesFrom size' total (k * size)).flatMap (Descriptor.keys id base) := by
  intro heq
  obtain ⟨i, hik, hindex⟩ := @exists_taken_of_larger size size' total k hs hlarger hk
  have hirest : 0 + (i : Int) * size < total := by
    have : (i : Int) * size ≤ k * size := mul_le_mul_of_nonneg_right (by omega) hs.le
    omega
  have hmem := (mem_take_batchesFrom hs).mpr ⟨i, hik, hirest, rfl⟩
  have hhas : rows.has (Batch.jobRowId id (batchAt size' total (k * size)).index 0) = true := by
    rw [← hindex]
    refine has_of_mem h hmem (Descriptor.first_mem_keys id base ?_)
    simp only [batchAt]
    omega
  have hnew : batchAt size' total (k * size) ∈ batchesFrom size' total (k * size) := by
    rw [batchesFrom_of_lt (by omega) hrest]
    exact List.mem_cons_self
  have hfresh := List.mem_flatMap.mpr ⟨_, hnew, Descriptor.first_mem_keys id base
    (bounds_of_mem (by omega) hnew).2.1⟩
  rw [← heq] at hfresh
  obtain ⟨e, _, he⟩ := List.mem_flatMap.mp hfresh
  have hnot := (List.mem_filter.mp he).2
  rw [hhas] at hnot
  cases hnot

/-- The indexes of batches that are not larger are new. -/
theorem index_ne_of_notLarger (hs : 0 < size) (hs' : 0 < size')
    (hcond : k = 0 ∨ size' ≤ size) (hd : d ∈ batchesFrom size' total (k * size)) :
    ∀ d' ∈ (batchesFrom size total 0).take k, d'.index ≠ d.index := by
  intro d' hd' hindex
  obtain ⟨i, hik, _, rfl⟩ := (mem_take_batchesFrom hs).mp hd'
  rw [batchAt_index hs, Int.zero_ediv, Int.zero_add] at hindex
  obtain ⟨m, hlt, rfl⟩ := (mem_batchesFrom hs').mp hd
  rw [batchAt_index hs'] at hindex
  have hle : (k : Int) ≤ k * size / size' := by
    rw [Int.le_ediv_iff_mul_le hs']
    exact mul_le_mul_of_nonneg_left (by omega) (by omega)
  omega

/-- None of the rows that remain is taken for one that is stored exactly if nothing remains,
if nothing is stored, or if the new batches are not larger. -/
theorem flatMap_freshKeys_iff (hs : 0 < size) (hs' : 0 < size')
    (h : StoresBatches id base ((batchesFrom size total 0).take k) rows) :
    ((batchesFrom size' total (min (k * size) total)).flatMap fun d =>
        rows.freshKeys (d.keys id base)) =
      (batchesFrom size' total (min (k * size) total)).flatMap (Descriptor.keys id base) ↔
    total ≤ k * size ∨ k = 0 ∨ size' ≤ size := by
  by_cases hle : total ≤ k * size
  · rw [min_eq_right hle, batchesFrom_of_le (le_refl total)]
    exact iff_of_true rfl (Or.inl hle)
  rw [min_eq_left (by omega)]
  constructor
  · intro heq
    by_contra hnot
    simp only [not_or, not_le] at hnot
    exact flatMap_freshKeys_ne hs hnot.2.2 (by omega) (by omega) h heq
  · intro hcond
    refine List.flatMap_congr fun d hd => ?_
    rw [Rows.freshKeys, List.filter_eq_self]
    intro key hkey
    rw [Bool.not_eq_true', Bool.eq_false_iff]
    intro hhas
    obtain ⟨d', hd', hindex⟩ := exists_index_of_has h hkey hhas
    exact index_ne_of_notLarger hs hs' (hcond.resolve_left hle) hd d' hd' hindex

/-! ## The resumed job -/

/-- A job that is completed with one row for each of its offsets, and no others. -/
def IsWhole (id : String) (j : Job) (db : Database) (result : Except Failure Job) (world : World) :
    Prop :=
  ∃ done db', result = .ok done ∧ world.storage = .ready db' ∧ db'.jobs.find? id = some done ∧
    done.status = .completed ∧ ((db'.rows.ofJob id).map Row.position).Perm
      ((List.range j.total.toNat).map fun o : Nat => j.baseAmong db.rows + o)

/-- A run that completes the job makes it whole if all rows that remain were fresh. -/
theorem isWhole_iff_of_completes {j job : Job} {db : Database} {result : Except Failure Job}
    {world : World} (hs : 0 < size) (hs' : 0 < size') (h0 : 0 ≤ j.total) (hid : job.id = id)
    (hbase : job.base = j.baseAmong db.rows)
    (hstored : StoresBatches id (j.baseAmong db.rows) ((batchesFrom size j.total 0).take k) db.rows)
    (h : Run.Completes job (batchesFrom size' j.total (min (k * size) j.total)) db result world) :
    IsWhole id j db result world ↔ j.total ≤ k * size ∨ k = 0 ∨ size' ≤ size := by
  obtain ⟨⟨new, jobs, done, hresult, hworld, _, hnew, hfound, hstatus, _, _⟩, _⟩ := h
  rw [hid, hbase] at hnew
  rw [hid] at hfound
  have hnewid : ∀ r ∈ new, IsRowIdOf id r.id := isRowIdOf_of_perm hnew
  have hofJob : (db.rows ++ new).ofJob id = db.rows.ofJob id ++ new := by
    rw [Rows.ofJob_append, Rows.ofJob_eq_self hnewid]
  have hposition : ∀ rows : Rows, rows.map Row.position = (rows.map Row.key).map Prod.snd := by
    intro rows
    rw [List.map_map]
    rfl
  have hall := congrArg (List.map (j.baseAmong db.rows + ·))
    (@flatMap_offsets_take size size' j.total k hs hs' h0)
  rw [← flatMap_snd_keys id, List.flatMap_append, List.map_map] at hall
  have hperm : (((db.rows ++ new).ofJob id).map Row.position).Perm
      ((((batchesFrom size j.total 0).take k).flatMap (Descriptor.keys id (j.baseAmong db.rows)) ++
        (batchesFrom size' j.total (min (k * size) j.total)).flatMap fun d =>
          db.rows.freshKeys (d.keys id (j.baseAmong db.rows))).map Prod.snd) := by
    rw [hposition, hofJob, List.map_append]
    exact (hstored.append hnew).map Prod.snd
  rw [← flatMap_freshKeys_iff hs hs' hstored]
  constructor
  · rintro ⟨done', db', _, hdb', _, _, hwhole⟩
    obtain rfl := Storage.ready.inj (hdb'.symm.trans hworld)
    have hlen := (hperm.symm.trans hwhole).length_eq
    have hlen' := congrArg List.length hall
    simp only [List.length_map, List.length_append] at hlen hlen'
    exact (flatMap_freshKeys_sublist _).eq_of_length (by omega)
  · intro heq
    refine ⟨done, _, hresult, hworld, hfound, hstatus, ?_⟩
    rw [heq, hall] at hperm
    exact hperm

/-- A job of which the first `k` batches of one size are stored, with the checkpoint behind
them, is completed with one row for each offset by an attempt with another size of batches
exactly if no row remains, or if the store can hold all positions and nothing is stored or
the new batches are not larger : by `Worker.run`, and in whichever order the batches end. -/
theorem Worker.isWhole_iff {w : Worker} {j : Job} {world : World} {db : Database}
    {s : Surroundings} (h : CanRun w id j world db) (hsize : 1 ≤ size)
    (hstored : StoresBatches id (j.baseAmong db.rows) ((batchesFrom size j.total 0).take k) db.rows)
    (hsaved : Checkpoint.load s.today id world.folder = .ok (some (min (k * size) j.total))) :
    let exactly := j.total ≤ k * size ∨
      (k = 0 ∨ w.pace.batchSize ≤ size) ∧ j.baseAmong db.rows + j.total ≤ 2 ^ 63
    (IsWhole id j db (w.run id s world).1 (w.run id s world).2 ↔ exactly) ∧
    ∃ job source p begun, w.begin id s world = (.ok (job, source, p), begun) ∧
      ∀ f, Flight.Reaches w.pace.concurrency job source (fun _ _ => False)
          (.start begun p (batchesFrom w.pace.batchSize j.total p)) f →
        (¬ f.IsOver → ∃ f', Flight.Step w.pace.concurrency job source (fun _ _ => False) f f') ∧
        (f.IsOver → ∀ s, IsWhole id j db (Run.finish job.id f.run s f.world).1
          (Run.finish job.id f.run s f.world).2 ↔ exactly) := by
  intro exactly
  have hs : 0 < size := hsize
  have hk : 0 ≤ (k : Int) * size := by positivity
  have h0 := h.nonneg
  have hid : j.id = id := Ledger.id_of_find? h.found
  have hresume : (resumeOffset j s world).1 = .ok (min (k * size) j.total) := by
    rw [run_resumeOffset (by rw [hid]; exact h.folder.safe) h.ready, Job.resumesAt, hid, hsaved]
    simp
  obtain ⟨job, source, begun, hb⟩ := h.exists_begins hresume
  have hdone : ∀ f, Flight.Reaches w.pace.concurrency job source (fun _ _ => False)
      (.start begun (min (k * size) j.total)
        (batchesFrom w.pace.batchSize j.total (min (k * size) j.total))) f → f.IsOver → ∀ s,
      (IsWhole id j db (Run.finish job.id f.run s f.world).1
        (Run.finish job.id f.run s f.world).2 ↔ exactly) := by
    intro f hreach hover s
    by_cases hpositions :
        min (k * size) j.total < j.total → j.baseAmong db.rows + j.total ≤ 2 ^ 63
    · rw [isWhole_iff_of_completes hs h.batchSize h0 hb.id_eq hb.base hstored
        (hb.completes h (by omega) hpositions hreach hover s)]
      constructor
      · rintro (hle | hsmall)
        · exact Or.inl hle
        · by_cases hle : j.total ≤ k * size
          · exact Or.inl hle
          · exact Or.inr ⟨hsmall, hpositions (by omega)⟩
      · exact fun hex => hex.imp_right And.left
    · have hnot : ¬ exactly := by
        simp only [exactly]
        omega
      refine iff_of_false ?_ hnot
      rintro ⟨done, _, hok, _⟩
      exact hb.ne_ok h (by omega) (by omega) hreach hover s done hok
  refine ⟨?_, job, source, _, begun, hb.run_begin, fun f hreach =>
    ⟨Flight.exists_step h.concurrency, hdone f hreach⟩⟩
  obtain ⟨f, hreach, hover, heq⟩ := hb.run
  rw [heq]
  exact hdone f hreach hover s

/-! ## The small job, resumed with other batches -/

/-- A folder with a checkpoint of the small job. -/
def sampleFolder (rows : Int) : Folder :=
  .entries [("job_1.json", .file (Text.utf8Encode (Checkpoint.fileText ⟨0⟩ "job_1" rows)))]

/-- The small job with one batch of two rows stored, resumed with batches of one row. -/
theorem Worker.isWhole_sampleWorker :
    let world := sampleWorld sampleJob sampleRows (sampleFolder 2)
    IsWhole "job_1" sampleJob (sampleDatabase sampleJob sampleRows)
      ((sampleWorker 1 2).run "job_1" still world).1
      ((sampleWorker 1 2).run "job_1" still world).2 := by
  intro world
  have hfolder : Checkpoint.Writable "job_1" (sampleFolder 2) :=
    ⟨by decide, by decide, _, rfl, by simp [Folder.lookup, Checkpoint.fileName]⟩
  have hsave : Checkpoint.save ⟨0⟩ "job_1" 2 (.entries []) = .ok (sampleFolder 2) := rfl
  have hsaved := Checkpoint.load_of_save (by decide) (by decide) hsave still.today
  have hrun := canRun_sampleWorker (by decide : (1 : Int) ≤ 1) (by decide : (1 : Int) ≤ 2)
    sampleRows hfolder
  obtain ⟨hwhole, _⟩ := @Worker.isWhole_iff 2 1 "job_1" _ _ _ _ still hrun (by decide)
    storesBatches_sampleRows hsaved
  exact hwhole.mpr (Or.inr ⟨Or.inr (by decide), by decide⟩)

/-- With batches of four rows the rows of the second half count as stored. -/
theorem Worker.run_of_larger_batches :
    let run := (sampleWorker 4 1).run "job_1" still
      (sampleWorld sampleJob sampleRows (sampleFolder 2))
    run.1.toOption.map Job.status = some .completed ∧
      (match run.2.storage with
        | .ready db => db.rows.map Row.id
        | _ => []) = [Batch.jobRowId "job_1" 0 0, Batch.jobRowId "job_1" 0 1] := by
  decide +kernel

end Tabula
