import Tabula.Proofs.Accounts

/-!
# How a run ends

After its batches a run completes its job and removes the checkpoint, or fails the job with
the first failure (`Run.run_finish_none`, `Run.run_finish_some`). `Pace.run_accounts` puts
this behind the three invariants of a run : from any processing job on, whichever batches
fail and in whichever order they end, the run comes to an end, and then the rows, the ledger
and the checkpoint all tell of the batches that succeeded.
-/

namespace Tabula

open Store

namespace Run

variable {id : String} {j : Job} {r : Run} {s : Surroundings} {w : World} {db : Database}

/-- A run without a failure completes its job. -/
theorem run_finish_none (hw : w.storage = .ready db) (hfind : db.jobs.find? id = some j)
    (hs : j.status = .processing) (hfolder : Checkpoint.Writable id w.folder)
    (hr : r.failure = none) :
    ∃ done folder, finish id r s w =
        (.ok done, (w.withDatabase (db.withJobs (db.jobs.put done))).withFolder folder) ∧
      j.Continues done ∧ done.status = .completed ∧ done.processed = j.processed ∧
      done.progress = Job.hundred ∧ ∀ today, Checkpoint.load today id folder = .ok none := by
  let done : Job := { j with
    status := .completed, updatedAt := s.now, completedAt := some s.now, progress := Job.hundred }
  have hcomplete : Jobs.complete id s w =
      (.ok done, w.withDatabase (db.withJobs (db.jobs.put done))) := by
    rw [Jobs.complete, Action.run_bind_ok Action.run_now]
    exact Jobs.run_change hw (Ledger.complete_eq hfind hs)
  obtain ⟨folder, hclear, _, hload⟩ := @Checkpoints.run_clear_of_writable id s
    (w.withDatabase (db.withJobs (db.jobs.put done))) hfolder
  refine ⟨done, folder, ?_, ⟨rfl, rfl, rfl, fun _ => rfl⟩, rfl, rfl, rfl, hload⟩
  unfold finish
  simp only [hr]
  rw [Action.run_bind_ok hcomplete, Action.run_bind_ok hclear, Action.run_pure]

/-- A run with a failure fails its job and answers with the failure. -/
theorem run_finish_some (hw : w.storage = .ready db) (hfind : db.jobs.find? id = some j)
    (hs : j.status = .processing) {failure : RunFailure} (hr : r.failure = some failure) :
    ∃ failed, finish id r s w =
        (.error failure.why, w.withDatabase (db.withJobs (db.jobs.put failed))) ∧
      j.Continues failed ∧ failed.status = .failed ∧ failed.processed = j.processed ∧
      failed.error = some (Text.shorten Ledger.detailLimit failure.detail) := by
  let failed : Job := { j with
    status := .failed, updatedAt := s.now, completedAt := some s.now
    error := some (Text.shorten Ledger.detailLimit failure.detail) }
  have hfail : Jobs.fail id failure.detail s w =
      (.ok failed, w.withDatabase (db.withJobs (db.jobs.put failed))) := by
    rw [Jobs.fail, Action.run_bind_ok Action.run_now]
    exact Jobs.run_change hw (Ledger.fail_eq hfind hs failure.detail)
  refine ⟨failed, ?_, ⟨rfl, rfl, rfl, fun _ => rfl⟩, rfl, rfl, rfl⟩
  unfold finish
  simp only [hr]
  rw [Action.run_bind, Action.run_attempt, hfail]
  rfl

/-- What a run leaves behind that settled some batches. The rows are those that were there
and the fresh rows of the batches that succeeded, and the ledger has counted these. The job
is completed and its checkpoint gone, or it is failed with the first failure. -/
structure Ends (job j : Job) (source : Source) (db : Database) (settled : List Finished)
    (result : Except Failure Job) (w : World) : Prop where
  exists_job : ∃ new jobs j',
    w.storage = .ready ((db.withRows (db.rows ++ new)).withJobs jobs) ∧
    (∀ r ∈ new, r.table = job.table) ∧ (new.map Row.entry).Perm
      ((succeeded settled).flatMap fun d => Rows.fresh db.rows (entriesOf job source d)) ∧
    jobs.find? job.id = some j' ∧ j.Continues j' ∧
    j'.processed = j.processed + rowsIn (succeeded settled) ∧
    (∀ id, id ≠ job.id → jobs.find? id = db.jobs.find? id) ∧
    match firstFailure settled with
    | none => result = .ok j' ∧ j'.status = .completed ∧ j'.progress = Job.hundred
    | some failure => result = .error failure.why ∧ j'.status = .failed ∧
        j'.error = some (Text.shorten Ledger.detailLimit failure.detail)
  cleared : firstFailure settled = none →
    ∀ today, Checkpoint.load today job.id w.folder = .ok none

end Run

namespace Flight

variable {concurrency : Int} {job j : Job} {source : Source}
  {refuses : Descriptor → Failure → Prop} {f : Flight} {ds : List Descriptor} {w : World}
  {db : Database} {processed : Int}

/-- A run that is over ends its job in accordance with what it stored. -/
theorem ends_of_isOver (hplaced : Placed concurrency ds f) (hover : f.IsOver)
    (hstores : Stores job source refuses db f) (hf : Counted job j processed w db f)
    (s : Surroundings) :
    Run.Ends job j source db f.settled (Run.finish job.id f.run s f.world).1
      (Run.finish job.id f.run s f.world).2 := by
  obtain ⟨⟨new, jobs, hdb, _, htable, hperm⟩, _⟩ := hstores
  obtain ⟨db₁, j₁, hdb₁, hfound, hcont, hstatus, hproc⟩ := hf.exists_job
  rw [executed_of_isOver hover hf.halted] at hperm
  rw [hf.tallied_of_isOver hplaced hover] at hproc
  obtain rfl := Storage.ready.inj (hdb₁.symm.trans hdb)
  have hid : j₁.id = job.id := Ledger.id_of_find? hfound
  rcases hfirst : firstFailure f.settled with _ | failure
  · obtain ⟨done, folder, hrun, hdone, hcompleted, hsame, hhundred, hload⟩ :=
      @Run.run_finish_none job.id j₁ f.run s f.world _ hdb hfound hstatus hf.writable
        (hf.failure.trans hfirst)
    have hdoneid : done.id = job.id := hdone.id.trans hid
    rw [hrun]
    refine ⟨⟨new, jobs.put done, done, rfl, htable, hperm, Ledger.find?_put_self hdoneid hfound,
      hcont.trans hdone, by rw [hsame, hproc], fun id hne => ?_, ?_⟩, fun _ => hload⟩
    · rw [Ledger.find?_put_of_ne (by rwa [hdoneid])]
      exact hf.others _ id hdb hne
    · rw [hfirst]
      exact ⟨rfl, hcompleted, hhundred⟩
  · obtain ⟨failed, hrun, hcont', hfailed, hsame, herror⟩ :=
      @Run.run_finish_some job.id j₁ f.run s f.world _ hdb hfound hstatus failure
        (hf.failure.trans hfirst)
    have hfailedid : failed.id = job.id := hcont'.id.trans hid
    rw [hrun]
    refine ⟨⟨new, jobs.put failed, failed, rfl, htable, hperm,
      Ledger.find?_put_self hfailedid hfound, hcont.trans hcont', by rw [hsame, hproc],
      fun id hne => ?_, ?_⟩, fun hnone => absurd (hfirst.symm.trans hnone) (by simp)⟩
    · rw [Ledger.find?_put_of_ne (by rwa [hfailedid])]
      exact hf.others _ id hdb hne
    · rw [hfirst]
      exact ⟨rfl, hfailed, herror⟩

/-- From a moment from which ledger and checkpoint can follow, a run is accounted for. -/
theorem accounts_of_reaches (hc : 1 ≤ concurrency) (h : Countable job j ds processed w db)
    (hds : (ds.map Descriptor.index).Nodup)
    (hreach : Reaches concurrency job source refuses (start w processed ds) f) :
    Placed concurrency ds f ∧ Stores job source refuses db f ∧ Counted job j processed w db f := by
  have hplaced : Placed concurrency ds (start w processed ds) := placed_start hc w processed
  exact ⟨placed_of_reaches hreach hplaced,
    stores_of_reaches hreach hds hplaced (stores_start h.ready processed ds),
    counted_of_reaches hreach h hplaced (counted_start h)⟩

end Flight

theorem countable_batchesFrom {size processed : Int} {job j : Job} {w : World} {db : Database}
    (hsize : 1 ≤ size) (h0 : 0 ≤ processed) (hw : w.storage = .ready db)
    (hj : db.jobs.find? job.id = some j) (hs : j.status = .processing)
    (hfolder : Checkpoint.Writable job.id w.folder) (htotal : fitsInteger job.total = true)
    (hfits : fitsInteger j.processed = true)
    (hcount : fitsInteger (j.processed + max 0 (job.total - processed)) = true) :
    Flight.Countable job j (batchesFrom size job.total processed) processed w db where
  ready := hw
  found := hj
  processing := hs
  writable := hfolder
  sizes := fun d hd => (bounds_of_mem (by omega) hd).2.1.le
  nonneg := h0
  saved := by
    intro hne
    have hlt : processed < job.total := by
      by_contra hle
      exact hne (batchesFrom_of_le (by omega))
    have := fitsInteger_iff.mp htotal
    rw [rowsIn_batchesFrom (by omega)]
    omega
  fits := hfits
  counted := by rwa [rowsIn_batchesFrom (by omega)]

theorem Run.finish_congr {r r' : Run} (h : r.failure = r'.failure) (id : String) :
    finish id r = finish id r' := by
  unfold finish
  rw [h]

/-- The batches of a run are those from where it resumes on, or from the first row on. -/
theorem eq_of_descriptors {processed size total : Int} {ds : List Descriptor}
    (h : descriptors processed size total = .ok ds) :
    0 < size ∧ ds = batchesFrom size total (max 0 processed) := by
  by_cases hs : 0 < size
  · rw [descriptors_eq hs] at h
    exact ⟨hs, (Except.ok.inj h).symm⟩
  · rw [descriptors, if_pos (not_lt.mp hs)] at h
    cases h

/-- What `Pace.run` does with its batches is one of the runs that may happen. -/
theorem Pace.exists_flight_of_descriptors {p : Pace} {processed : Int} {job : Job}
    {ds : List Descriptor} (hc : 1 ≤ p.concurrency)
    (hds : descriptors processed p.batchSize job.total = .ok ds) (source : Source)
    (refuses : Descriptor → Failure → Prop) (s : Surroundings) (w : World) :
    ∃ f, Flight.Reaches p.concurrency job source refuses (.start w processed ds) f ∧ f.IsOver ∧
      p.run job source processed s w = Run.finish job.id f.run s f.world := by
  have hquiet : Run.Quiet ds (.start w processed ds) := by
    obtain ⟨hpos, rfl⟩ := eq_of_descriptors hds
    exact ⟨rfl, rfl, rfl, rfl, rfl, rfl, sorted_batchesFrom hpos⟩
  obtain ⟨r, w', f, hdrive, hreach, hover, hworld, hfailure⟩ :=
    @Run.drives p.concurrency job source refuses s hc _ _ hquiet
  refine ⟨f, hreach, hover, ?_⟩
  have hdescriptors : (liftM (descriptors processed p.batchSize job.total) :
      Action (List Descriptor)) s w = (.ok ds, w) := by
    rw [Action.run_liftM, hds]
  rw [Run.finish_congr hfailure, hworld]
  exact (Action.run_bind_ok hdescriptors _).trans (Action.run_bind_ok hdrive _)

theorem Pace.exists_flight {p : Pace} {processed : Int} (hsize : 1 ≤ p.batchSize)
    (hc : 1 ≤ p.concurrency) (h0 : 0 ≤ processed) (job : Job) (source : Source)
    (refuses : Descriptor → Failure → Prop) (s : Surroundings) (w : World) :
    ∃ f, Flight.Reaches p.concurrency job source refuses
        (.start w processed (batchesFrom p.batchSize job.total processed)) f ∧ f.IsOver ∧
      p.run job source processed s w = Run.finish job.id f.run s f.world := by
  refine exists_flight_of_descriptors hc ?_ source refuses s w
  rw [descriptors_eq (by omega), max_eq_right h0]

/-- A run of a processing job, whichever batches fail and in whichever order they end : what
is submitted, that it comes to an end, and what it leaves behind. -/
theorem Pace.run_accounts {p : Pace} {job j : Job} {source : Source}
    {refuses : Descriptor → Failure → Prop} {processed : Int} {w : World} {db : Database}
    (hsize : 1 ≤ p.batchSize) (hc : 1 ≤ p.concurrency) (h0 : 0 ≤ processed)
    (hw : w.storage = .ready db) (hj : db.jobs.find? job.id = some j) (hs : j.status = .processing)
    (hfolder : Checkpoint.Writable job.id w.folder) (htotal : fitsInteger job.total = true)
    (hfits : fitsInteger j.processed = true)
    (hcount : fitsInteger (j.processed + max 0 (job.total - processed)) = true) :
    let ds := batchesFrom p.batchSize job.total processed
    let Step := Flight.Step p.concurrency job source refuses
    let Reaches := Flight.Reaches p.concurrency job source refuses
    (∀ s, ∃ f, Reaches (.start w processed ds) f ∧ f.IsOver ∧
      p.run job source processed s w = Run.finish job.id f.run s f.world) ∧
    (WellFounded fun f' f => Step f f') ∧
    ∀ f, Reaches (.start w processed ds) f →
      f.submitted <+: ds ∧ f.submitted.Nodup ∧ (f.inFlight : Int) ≤ p.concurrency ∧
      f.run.failure = firstFailure f.settled ∧
      (f.run.failure.isSome → ∀ f', Reaches f f' → f'.submitted = f.submitted) ∧
      (¬ f.IsOver → ∃ f', Step f f') ∧
      (f.IsOver →
        f.submitted.Perm (f.settled.map Prod.fst) ∧
        (f.run.failure = none → f.submitted = ds) ∧
        (∀ e ∈ f.settled, Run.Explained job source refuses db.rows e) ∧
        (succeeded f.settled ≠ [] → ∀ today, Checkpoint.load today job.id f.world.folder =
          .ok (some (processed + rowsIn (succeeded f.settled)))) ∧
        ∀ s, Run.Ends job j source db f.settled (Run.finish job.id f.run s f.world).1
          (Run.finish job.id f.run s f.world).2) := by
  intro ds Step Reaches
  have hpos : 0 < p.batchSize := by omega
  have h : Flight.Countable job j ds processed w db :=
    countable_batchesFrom hsize h0 hw hj hs hfolder htotal hfits hcount
  refine ⟨fun s => exists_flight hsize hc h0 job source refuses s w, ?_, fun f hreach => ?_⟩
  · exact Subrelation.wf Flight.remaining_lt (measure Flight.remaining).wf
  · obtain ⟨hplaced, hstores, hcounted⟩ :=
      Flight.accounts_of_reaches hc h (nodup_index_batchesFrom hpos) hreach
    have hinitial : f.submitted <+: ds := ⟨f.waiting, hplaced.whole⟩
    refine ⟨hinitial, hinitial.sublist.nodup (nodup_batchesFrom hpos), hplaced.room,
      hcounted.failure, fun hfailure f' hreach' => (Flight.submitted_of_failure hreach' hfailure).1,
      Flight.exists_step hc, fun hover => ?_⟩
    refine ⟨hplaced.settled_perm hover hcounted.halted,
      Flight.submitted_of_isOver hplaced hover hcounted.halted, ?_, hcounted.saved,
      Flight.ends_of_isOver hplaced hover hstores hcounted⟩
    rw [← Flight.executed_of_isOver hover hcounted.halted]
    exact hstores.explained

/-! ## A small job -/

/-- A job of four rows that is processing. -/
def sampleJob : Job :=
  ⟨"job_1", "t", .processing, 4, 0, some 0, .zero, none, ⟨0⟩, ⟨0⟩, some ⟨0⟩, none⟩

def sampleDatabase (job : Job) (rows : Rows) : Database := ⟨[], [], [], [], rows, [job]⟩

def sampleWorld (job : Job) (rows : Rows) (folder : Folder) : World :=
  ⟨.ready (sampleDatabase job rows), folder, 0, 0, 0, []⟩

/-- Surroundings in which nothing happens. -/
def still : Surroundings := ⟨⟨0⟩, .zero, fun _ => "", fun _ => 0⟩

theorem writable_empty : Checkpoint.Writable "job_1" (.entries []) :=
  ⟨by decide, by decide, [], rfl, by decide⟩

/-- The small job with two batches in flight, of which the store may refuse the first. -/
theorem Pace.exists_ends_of_refused :
    let source := Source.synthetic "job_1" [] 10
    let w := sampleWorld sampleJob [] (.entries [])
    ∃ f, Flight.Reaches 2 sampleJob source (fun d _ => d.index = 0)
        (.start w 0 (batchesFrom 2 sampleJob.total 0)) f ∧ f.IsOver ∧
      f.submitted.Perm (f.settled.map Prod.fst) ∧
      Run.Ends sampleJob sampleJob source (sampleDatabase sampleJob []) f.settled
        (Pace.run ⟨2, 2⟩ sampleJob source 0 still w).1
        (Pace.run ⟨2, 2⟩ sampleJob source 0 still w).2 := by
  intro source w
  obtain ⟨hrun, _, hall⟩ := @Pace.run_accounts ⟨2, 2⟩ sampleJob sampleJob source
    (fun d _ => d.index = 0) 0 w (sampleDatabase sampleJob []) (by decide) (by decide) (by decide)
    rfl rfl rfl writable_empty (by decide) (by decide) (by decide)
  obtain ⟨f, hreach, hover, heq⟩ := hrun still
  obtain ⟨_, _, _, _, _, _, hends⟩ := hall f hreach
  obtain ⟨hperm, _, _, _, hfinish⟩ := hends hover
  refine ⟨f, hreach, hover, hperm, ?_⟩
  rw [heq]
  exact hfinish still

/-- A count that leaves the integers of the store is rounded. -/
theorem Pace.processed_of_overflow :
    let job : Job := { sampleJob with processed := 0x7fffffffffffffff }
    let run := Pace.run ⟨2, 1⟩ job (Source.synthetic "job_1" [] 10) 0 still
      (sampleWorld job [] (.entries []))
    run.1.toOption.map Job.processed = some 0x8000000000000000 ∧
      job.processed + job.total = 0x8000000000000003 := by
  decide +kernel

end Tabula
