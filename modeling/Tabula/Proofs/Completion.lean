import Tabula.Proofs.Attempts
import Tabula.Proofs.RunEnds

/-!
# Runs in which nothing fails

With a synthetic source and positions that the store can hold, a batch fails only if the
store refuses it (`Run.ok_of_explained`). A run without refusals then completes its job
(`Flight.completes`), in whichever order its batches end, and what it stored are the
`Descriptor.keys` of its batches that were not taken. `Worker.Begins` is an attempt that came
to its batches, so `Begins.completes` is about whole attempts. If the store cannot hold the
last position, no attempt ends well (`Begins.ne_ok`).
-/

namespace Tabula

open Store

/-- The ids and positions of the rows of a batch. -/
def Descriptor.keys (job : String) (base : Int) (d : Descriptor) : List (String × Int) :=
  (List.range d.size.toNat).map fun r =>
    (Batch.jobRowId job d.index r, base + d.offset + (r : Nat))

/-- The keys whose ids are not taken. -/
def Store.Rows.freshKeys (rows : Rows) (ks : List (String × Int)) : List (String × Int) :=
  ks.filter fun k => !rows.has k.1

theorem Store.Rows.key_fresh (rows : Rows) (es : Batch) :
    (fresh rows es).map Entry.key = freshKeys rows (es.map Entry.key) := by
  rw [freshKeys, List.filter_map]
  rfl

/-! ## Sources that give what is asked for -/

/-- A source that gives as many rows as it is asked for, if it gives any. -/
def Source.IsExact (source : Source) : Prop :=
  ∀ offset size index rows, source offset size index = .ok rows → rows.length = size.toNat

theorem Source.isExact_synthetic (name : String) (columns : List (String × ColumnType))
    (most : Nat) : (synthetic name columns most).IsExact := by
  intro offset size index rows h
  rw [synthetic] at h
  rw [← Except.ok.inj h, List.length_map, length_syntheticRows]

namespace Run

variable {job : Job} {source : Source} {d : Descriptor} {ds : List Descriptor} {es : Batch}
  {name : String} {columns : List (String × ColumnType)} {most : Nat} {rows new : Rows}
  {refuses : Descriptor → Failure → Prop}

theorem key_of_isExact (hexact : source.IsExact) (h : batchOf job source d = .ok es) :
    es.map Entry.key = d.keys job.id job.base := by
  rw [batchOf] at h
  split at h
  · cases h
  · rename_i vs hvs
    rw [Batch.key_of_encode h, hexact _ _ _ _ hvs, Descriptor.keys]

/-- The keys of the rows that a run has stored. -/
theorem key_perm (hexact : source.IsExact) (hds : ∀ d ∈ ds, ∃ es, batchOf job source d = .ok es)
    (h : (new.map Row.entry).Perm
      (ds.flatMap fun d => Rows.fresh rows (entriesOf job source d))) :
    (new.map Row.key).Perm (ds.flatMap fun d => Rows.freshKeys rows (d.keys job.id job.base)) := by
  have hkeys := h.map Entry.key
  rw [List.map_map, List.map_flatMap] at hkeys
  refine hkeys.trans (.of_eq (List.flatMap_congr fun d hd => ?_))
  obtain ⟨es, hes⟩ := hds d hd
  rw [entriesOf_eq hes, Rows.key_fresh, key_of_isExact hexact hes]

/-- The store can hold the positions of a batch if it can hold the first and the last. -/
theorem fits_of_isExact (hexact : source.IsExact) (hlow : -2 ^ 63 ≤ job.base + d.offset)
    (hhigh : job.base + d.offset + d.size ≤ 2 ^ 63) (h : batchOf job source d = .ok es) :
    ∀ e ∈ es, fitsInteger e.position = true := by
  intro e he
  have hkey : e.key ∈ es.map Entry.key := List.mem_map_of_mem he
  rw [key_of_isExact hexact h] at hkey
  obtain ⟨r, hr, hre⟩ := List.mem_map.mp hkey
  rw [List.mem_range] at hr
  have hposition : job.base + d.offset + (r : Nat) = e.position := congrArg Prod.snd hre
  exact fitsInteger_iff.mpr (by omega)

/-- A batch that the store can hold is stored unless it is refused. -/
theorem ok_of_explained {r : Except Failure Nat} (hlow : -2 ^ 63 ≤ job.base + d.offset)
    (hhigh : job.base + d.offset + d.size ≤ 2 ^ 63) (hrefuses : ∀ why, ¬ refuses d why)
    (h : Explained job (Source.synthetic name columns most) refuses rows (d, r)) :
    ∃ n, r = .ok n := by
  rcases r with why | n
  swap
  · exact ⟨n, rfl⟩
  obtain ⟨es, hes, _⟩ := batchOf_synthetic job name columns most d
  rcases h with h | ⟨es', hes', hfits, _⟩ | h
  · rw [hes] at h
    cases h
  · have hexact := Source.isExact_synthetic name columns most
    exact absurd (fits_of_isExact hexact hlow hhigh hes') hfits
  · exact absurd h (hrefuses why)

/-- The store can hold the last position of a batch that it stored. -/
theorem le_of_explained {n : Nat} (hexact : source.IsExact) (hsize : 0 < d.size)
    (h : Explained job source refuses rows (d, .ok n)) :
    job.base + d.offset + d.size ≤ 2 ^ 63 := by
  obtain ⟨es, hes, hfits, _⟩ := h
  have hmem : (Batch.jobRowId job.id d.index (d.size.toNat - 1),
      job.base + d.offset + (d.size.toNat - 1 : Nat)) ∈ es.map Entry.key := by
    rw [key_of_isExact hexact hes]
    exact List.mem_map.mpr ⟨_, List.mem_range.mpr (by omega), rfl⟩
  obtain ⟨e, he, hek⟩ := List.mem_map.mp hmem
  have hposition : e.position = job.base + d.offset + (d.size.toNat - 1 : Nat) :=
    congrArg Prod.snd hek
  have hfit := fitsInteger_iff.mp (hfits e he)
  omega

end Run

theorem firstFailure_of_all_ok :
    ∀ {fs : List Finished}, (∀ e ∈ fs, ∃ n, e.2 = .ok n) → firstFailure fs = none
  | [], _ => rfl
  | (_, .ok _) :: fs, h => by
    rw [firstFailure]
    exact firstFailure_of_all_ok fun e he => h e (List.mem_cons_of_mem _ he)
  | (d, .error why) :: fs, h => by
    obtain ⟨n, hn⟩ := h (d, .error why) List.mem_cons_self
    cases hn

/-- What a run leaves behind that completed its job. -/
structure Run.Completes (job : Job) (ds : List Descriptor) (db : Database)
    (result : Except Failure Job) (w : World) : Prop where
  exists_job : ∃ new jobs done, result = .ok done ∧
    w.storage = .ready ((db.withRows (db.rows ++ new)).withJobs jobs) ∧
    (∀ r ∈ new, r.table = job.table) ∧ (new.map Row.key).Perm
      (ds.flatMap fun d => Rows.freshKeys db.rows (d.keys job.id job.base)) ∧
    jobs.find? job.id = some done ∧ done.status = .completed ∧
    done.processed = job.processed + rowsIn ds ∧ done.progress = Job.hundred
  cleared : ∀ today, Checkpoint.load today job.id w.folder = .ok none

namespace Flight

variable {concurrency : Int} {job : Job} {ds : List Descriptor} {w : World} {db : Database}
  {processed : Int} {name : String} {columns : List (String × ColumnType)} {most : Nat} {f : Flight}

/-- A run without refusals completes its job. -/
theorem completes (hc : 1 ≤ concurrency) (h : Countable job job ds processed w db)
    (hds : (ds.map Descriptor.index).Nodup)
    (hpositions : ∀ d ∈ ds, -2 ^ 63 ≤ job.base + d.offset ∧ job.base + d.offset + d.size ≤ 2 ^ 63)
    (hreach : Reaches concurrency job (Source.synthetic name columns most) (fun _ _ => False)
      (start w processed ds) f) (hover : f.IsOver) (s : Surroundings) :
    Run.Completes job ds db (Run.finish job.id f.run s f.world).1
      (Run.finish job.id f.run s f.world).2 := by
  obtain ⟨hplaced, hstores, hcounted⟩ := accounts_of_reaches hc h hds hreach
  have hends := ends_of_isOver hplaced hover hstores hcounted s
  have hexecuted := executed_of_isOver hover hcounted.halted
  have hall : firstFailure f.settled = none := by
    refine firstFailure_of_all_ok fun ⟨d, r⟩ he => ?_
    rw [← hexecuted] at he
    have hd : d ∈ ds := by
      rw [← hplaced.whole]
      refine List.mem_append_left _ (hplaced.perm.mem_iff.mpr ?_)
      exact List.mem_append_right _ (List.mem_map_of_mem he)
    obtain ⟨hlow, hhigh⟩ := hpositions d hd
    exact Run.ok_of_explained hlow hhigh (fun _ hno => hno) (hstores.explained _ he)
  have hperm : (succeeded f.settled).Perm ds := by
    rw [firstFailure_eq_none hall, ← submitted_of_isOver hplaced hover hcounted.halted
      (hcounted.failure.trans hall)]
    exact (hplaced.settled_perm hover hcounted.halted).symm
  obtain ⟨new, jobs, done, hdb, htable, hnew, hfound, _, hproc, _, hdone⟩ := hends.exists_job
  rw [hall] at hdone
  obtain ⟨hresult, hstatus, hprogress⟩ := hdone
  refine ⟨⟨new, jobs, done, hresult, hdb, htable, ?_, hfound, hstatus, ?_, hprogress⟩,
    hends.cleared hall⟩
  · refine Run.key_perm (Source.isExact_synthetic name columns most) (fun d _ => ?_)
      (hnew.trans (hperm.flatMap_right _))
    obtain ⟨es, hes, _⟩ := Run.batchOf_synthetic job name columns most d
    exact ⟨es, hes⟩
  · rw [hproc, rowsIn_perm hperm]

end Flight

namespace Worker

/-- A worker whose sources are synthetic. -/
def IsSynthetic (w : Worker) : Prop :=
  ∃ most, ∀ job columns, w.source job columns = .ok (Source.synthetic job.id columns most)

/-- A worker whose sources are exact. -/
def IsExact (w : Worker) : Prop :=
  ∀ job columns source, w.source job columns = .ok source → source.IsExact

theorem IsSynthetic.isExact {w : Worker} (h : w.IsSynthetic) : w.IsExact := by
  obtain ⟨most, hmost⟩ := h
  intro job columns source hsource
  rw [hmost] at hsource
  rw [← Except.ok.inj hsource]
  exact Source.isExact_synthetic _ _ _

/-- The factory of synthetic sources is one if the configuration bounds the numbers. -/
theorem isSynthetic_syntheticFactory {config v : Value} {most : Int}
    (hv : config.require "number_max" = .ok v) (hmost : v.toInteger = .ok most) (pace : Pace) :
    IsSynthetic ⟨pace, syntheticFactory config⟩ := by
  refine ⟨Source.numberBound most, fun job columns => ?_⟩
  simp only [syntheticFactory, hv, hmost, bind, Except.bind]
  rfl

/-- A moment at which a worker can work off an active job : its checkpoint can be written,
and the store can hold its total and the position of its first row. -/
structure CanRun (w : Worker) (id : String) (j : Job) (world : World) (db : Database) : Prop where
  batchSize : 1 ≤ w.pace.batchSize
  concurrency : 1 ≤ w.pace.concurrency
  synthetic : w.IsSynthetic
  ready : world.storage = .ready db
  found : db.jobs.find? id = some j
  active : j.isActive = true
  nonneg : 0 ≤ j.total
  total : fitsInteger j.total = true
  base : fitsInteger (j.baseAmong db.rows) = true
  folder : Checkpoint.Writable id world.folder

variable {w : Worker} {id : String} {j : Job} {world : World} {db : Database} {p : Int}
  {s : Surroundings}

/-- The offset from which an attempt resumes lies in the job. -/
theorem CanRun.run_resumeOffset (h : CanRun w id j world db)
    (hresume : (resumeOffset j s world).1 = .ok p) :
    resumeOffset j s world = (.ok p, world) ∧ 0 ≤ p ∧ p ≤ j.total := by
  have hid : j.id = id := Ledger.id_of_find? h.found
  have hrun := @Worker.run_resumeOffset j s world db (by rw [hid]; exact h.folder.safe) h.ready
  have hp : j.resumesAt s.today world.folder db.rows = .ok p := by
    rw [hrun] at hresume
    exact hresume
  refine ⟨by rw [hrun, hp], ?_⟩
  have h0 := h.nonneg
  rw [Job.resumesAt] at hp
  split at hp
  · cases hp
  · rename_i saved hload
    obtain rfl := Except.ok.inj hp
    have := Checkpoint.nonneg_of_load hload
    omega
  · split at hp
    · rcases hcount : RowStore.answered .count (Rows.countJob j.table j.id db.rows) with e | n
      · simp [hcount, Except.map] at hp
      · simp only [hcount, Except.map, Except.ok.injEq] at hp
        omega
    · obtain rfl := Except.ok.inj hp
      omega

/-- An attempt that has begun : the job and the world from which its batches run. -/
structure Begins (w : Worker) (id : String) (j : Job) (world : World) (db : Database) (p : Int)
    (s : Surroundings) (job : Job) (source : Source) (begun : World) : Prop where
  run_begin : w.begin id s world = (.ok (job, source, p), begun)
  id_eq : job.id = id
  table : job.table = j.table
  total : job.total = j.total
  base : job.base = j.baseAmong db.rows
  processed : job.processed = p
  synthetic : ∃ name columns most, source = Source.synthetic name columns most
  countable : ∃ jobs, Flight.Countable job job (batchesFrom w.pace.batchSize j.total p) p begun
    (db.withJobs jobs)
  run : ∃ f, Flight.Reaches w.pace.concurrency job source (fun _ _ => False)
    (.start begun p (batchesFrom w.pace.batchSize j.total p)) f ∧ f.IsOver ∧
      w.run id s world = Run.finish job.id f.run s f.world

theorem CanRun.exists_begins (h : CanRun w id j world db)
    (hresume : (resumeOffset j s world).1 = .ok p) :
    ∃ job source begun, Begins w id j world db p s job source begun := by
  obtain ⟨hrun, hp0, hp⟩ := h.run_resumeOffset hresume
  obtain ⟨most, hmost⟩ := h.synthetic
  have htotal := fitsInteger_iff.mp h.total
  obtain ⟨job, columns, source, hbegin, hbegun, hsource⟩ := run_begin h.ready h.found h.active hrun
    (fitsInteger_iff.mpr (by omega)) h.base fun job columns => ⟨_, hmost job columns⟩
  rw [hmost] at hsource
  have hid : job.id = id := hbegun.continues.id.trans (Ledger.id_of_find? h.found)
  have hjobtotal := hbegun.continues.total
  have hproc : job.processed = p := by
    rw [hbegun.processed]
    omega
  have hput : (db.jobs.put job).find? job.id = some job := by
    rw [hid]
    exact Ledger.find?_put_self hid h.found
  have hfolder : Checkpoint.Writable job.id world.folder := by
    rw [hid]
    exact h.folder
  have hfits : ∀ {n : Int}, 0 ≤ n → n ≤ j.total → fitsInteger n = true := fun h0 hle =>
    fitsInteger_iff.mpr (by omega)
  have hcountable := @countable_batchesFrom w.pace.batchSize p job job
    (world.withDatabase (db.withJobs (db.jobs.put job))) _ h.batchSize hp0 rfl hput hbegun.status
    hfolder (by rw [hjobtotal]; exact h.total) (by rw [hproc]; exact hfits hp0 hp)
    (by rw [hproc, hjobtotal]; exact hfits (by omega) (by omega))
  obtain ⟨f, hreach, hover, heq⟩ := Pace.exists_flight h.batchSize h.concurrency hp0 job source
    (fun _ _ => False) s (world.withDatabase (db.withJobs (db.jobs.put job)))
  rw [hjobtotal] at hcountable hreach
  refine ⟨job, source, _, hbegin, hid, hbegun.continues.table, hjobtotal, ?_, hproc,
    ⟨_, _, _, (Except.ok.inj hsource).symm⟩, ⟨_, hcountable⟩, f, hreach, hover, ?_⟩
  · rw [Job.base, hbegun.base]
    rfl
  · rw [run_eq, Action.run_bind_ok hbegin, heq]

/-- A run from there completes the job, whichever order its batches end in, if the store can
hold the positions that remain. -/
theorem Begins.completes {job : Job} {source : Source} {begun : World}
    (hb : Begins w id j world db p s job source begun) (h : CanRun w id j world db) (h0 : 0 ≤ p)
    (hpositions : p < j.total → j.baseAmong db.rows + j.total ≤ 2 ^ 63) {f : Flight}
    (hreach : Flight.Reaches w.pace.concurrency job source (fun _ _ => False)
      (.start begun p (batchesFrom w.pace.batchSize j.total p)) f) (hover : f.IsOver)
    (s' : Surroundings) :
    Run.Completes job (batchesFrom w.pace.batchSize j.total p) db
      (Run.finish job.id f.run s' f.world).1 (Run.finish job.id f.run s' f.world).2 := by
  obtain ⟨name, columns, most, rfl⟩ := hb.synthetic
  obtain ⟨jobs, hcountable⟩ := hb.countable
  have hpos : 0 < w.pace.batchSize := h.batchSize
  have hbase := fitsInteger_iff.mp h.base
  have hcompletes := Flight.completes h.concurrency hcountable (nodup_index_batchesFrom hpos)
    (fun d hd => by
      have := bounds_of_mem hpos hd
      have := hpositions (by omega)
      rw [hb.base]
      omega) hreach hover s'
  exact ⟨hcompletes.exists_job, hcompletes.cleared⟩

/-- If the store cannot hold the last position, the run fails. -/
theorem Begins.ne_ok {job : Job} {source : Source} {begun : World}
    (hb : Begins w id j world db p s job source begun) (h : CanRun w id j world db)
    (hp : p < j.total) (hlast : 2 ^ 63 < j.baseAmong db.rows + j.total) {f : Flight}
    (hreach : Flight.Reaches w.pace.concurrency job source (fun _ _ => False)
      (.start begun p (batchesFrom w.pace.batchSize j.total p)) f) (hover : f.IsOver)
    (s' : Surroundings) (done : Job) : (Run.finish job.id f.run s' f.world).1 ≠ .ok done := by
  intro hok
  obtain ⟨name, columns, most, rfl⟩ := hb.synthetic
  obtain ⟨jobs, hcountable⟩ := hb.countable
  have hpos : 0 < w.pace.batchSize := h.batchSize
  obtain ⟨hplaced, hstores, hcounted⟩ := Flight.accounts_of_reaches h.concurrency hcountable
    (nodup_index_batchesFrom hpos) hreach
  obtain ⟨_, _, _, _, _, _, _, _, _, _, hend⟩ :=
    (Flight.ends_of_isOver hplaced hover hstores hcounted s').exists_job
  rcases hfirst : firstFailure f.settled with _ | failure
  swap
  · rw [hfirst] at hend
    rw [hend.1] at hok
    cases hok
  -- without a failure the last batch was stored, with its last position
  obtain ⟨d, hd, hend⟩ := exists_last hpos hp
  have hsize := (bounds_of_mem hpos hd).2.1
  have hsucceeded : d ∈ succeeded f.settled := by
    rw [firstFailure_eq_none hfirst]
    rw [← Flight.submitted_of_isOver hplaced hover hcounted.halted
      (hcounted.failure.trans hfirst)] at hd
    exact (hplaced.settled_perm hover hcounted.halted).mem_iff.mp hd
  obtain ⟨n, hn⟩ := mem_succeeded.mp hsucceeded
  rw [← Flight.executed_of_isOver hover hcounted.halted] at hn
  have hstored := Run.le_of_explained (Source.isExact_synthetic _ _ _) hsize
    (hstores.explained _ hn)
  rw [hb.base] at hstored
  omega

end Worker

/-! ## A worker for the small job -/

def sampleWorker (size concurrency : Int) : Worker :=
  ⟨⟨size, concurrency⟩, fun job columns => .ok (Source.synthetic job.id columns 10)⟩

theorem isSynthetic_sampleWorker (size concurrency : Int) :
    (sampleWorker size concurrency).IsSynthetic := ⟨10, fun _ _ => rfl⟩

theorem canRun_sampleWorker {size concurrency : Int} (hs : 1 ≤ size) (hc : 1 ≤ concurrency)
    (rows : Rows) {folder : Folder} (hfolder : Checkpoint.Writable "job_1" folder) :
    Worker.CanRun (sampleWorker size concurrency) "job_1" sampleJob
      (sampleWorld sampleJob rows folder) (sampleDatabase sampleJob rows) where
  batchSize := hs
  concurrency := hc
  synthetic := isSynthetic_sampleWorker size concurrency
  ready := rfl
  found := rfl
  active := rfl
  nonneg := by decide
  total := by decide
  base := rfl
  folder := hfolder

end Tabula
