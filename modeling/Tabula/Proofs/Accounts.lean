import Mathlib.Data.List.Perm.Subperm
import Mathlib.Data.List.Perm.Lattice
import Tabula.Proofs.Appending
import Tabula.Proofs.Batches
import Tabula.Proofs.CheckpointFiles
import Tabula.Proofs.Flight
import Tabula.Proofs.JobLedger

/-!
# The accounts of a run

Three invariants of a run, each preserved by every step whatever fails and whichever batch
ends first.

`Placed` says where the batches are : those submitted are the first ones, each is running or
has ended, and there are not too many in flight. `Stores` says what the database holds : the
rows that were there, and behind them the fresh rows of the batches that were stored.
`Counted` says what the ledger and the checkpoint tell, as long as both can be written : the
batches that are settled, and the one that is just being settled.

A run that is over has settled all that was submitted, so then the three are about the same
batches.
-/

namespace Tabula

open Store

/-- The batches that were stored, of some that ended. -/
def succeeded (fs : List Finished) : List Descriptor :=
  fs.filterMap fun e => match e.2 with
    | .ok _ => some e.1
    | .error _ => none

section Succeeded

variable {fs fs' : List Finished} {d : Descriptor}

@[simp] theorem succeeded_nil : succeeded [] = [] := rfl

@[simp] theorem succeeded_append : succeeded (fs ++ fs') = succeeded fs ++ succeeded fs' := by
  simp [succeeded]

@[simp] theorem succeeded_ok (n : Nat) : succeeded ((d, .ok n) :: fs) = d :: succeeded fs := rfl

@[simp] theorem succeeded_error (why : Failure) :
    succeeded ((d, .error why) :: fs) = succeeded fs := rfl

theorem mem_succeeded : d ∈ succeeded fs ↔ ∃ n, (d, .ok n) ∈ fs := by
  rw [succeeded, List.mem_filterMap]
  constructor
  · rintro ⟨⟨e, _ | n⟩, he, h⟩
    · simp at h
    · obtain rfl : e = d := by simpa using h
      exact ⟨n, he⟩
  · rintro ⟨n, he⟩
    exact ⟨_, he, rfl⟩

theorem succeeded_perm (h : fs.Perm fs') : (succeeded fs).Perm (succeeded fs') := h.filterMap _

theorem succeeded_sublist (fs : List Finished) : (succeeded fs).Sublist (fs.map Prod.fst) := by
  induction fs with
  | nil => exact List.Sublist.refl []
  | cons e fs ih =>
    obtain ⟨d, _ | n⟩ := e
    · exact ih.cons d
    · exact ih.cons_cons d

/-- The first failure of some batches that ended. -/
def firstFailure : List Finished → Option RunFailure
  | [] => none
  | (_, .ok _) :: fs => firstFailure fs
  | (d, .error why) :: _ => some ⟨why, some d⟩

theorem firstFailure_append_ok (n : Nat) :
    ∀ fs : List Finished, firstFailure (fs ++ [(d, .ok n)]) = firstFailure fs
  | [] => rfl
  | (_, .ok _) :: fs => firstFailure_append_ok n fs
  | (_, .error _) :: _ => rfl

theorem firstFailure_append_error (why : Failure) :
    ∀ fs : List Finished, firstFailure (fs ++ [(d, .error why)]) =
      some ((firstFailure fs).getD ⟨why, some d⟩)
  | [] => rfl
  | (_, .ok _) :: fs => firstFailure_append_error why fs
  | (_, .error _) :: _ => rfl

theorem firstFailure_eq_none : ∀ {fs : List Finished},
    firstFailure fs = none → succeeded fs = fs.map Prod.fst
  | [], _ => rfl
  | (d, .ok _) :: _, h => congrArg (d :: ·) (firstFailure_eq_none h)

theorem failure_record (r : Run) (why : Failure) (batch : Option Descriptor) :
    (r.record why batch).failure = some (r.failure.getD ⟨why, batch⟩) := by
  rw [Run.record]
  split <;> simp_all

theorem processed_record (r : Run) (why : Failure) (batch : Option Descriptor) :
    (r.record why batch).processed = r.processed := by
  rw [Run.record]
  split <;> rfl

/-- Fewer batches have fewer rows. -/
theorem rowsIn_le_of_subperm {ds ds' : List Descriptor} (h : ds.Subperm ds')
    (hsize : ∀ d ∈ ds', 0 ≤ d.size) : rowsIn ds ≤ rowsIn ds' := by
  obtain ⟨l, hperm, hsub⟩ := h
  rw [← rowsIn_perm hperm]
  clear hperm
  induction hsub with
  | slnil => exact le_refl _
  | cons d _ ih =>
    have hd := hsize d List.mem_cons_self
    have := ih fun e he => hsize e (List.mem_cons_of_mem d he)
    rw [rowsIn_cons]
    omega
  | cons_cons d _ ih =>
    have := ih fun e he => hsize e (List.mem_cons_of_mem d he)
    rw [rowsIn_cons, rowsIn_cons]
    omega

end Succeeded

namespace Run

variable {job : Job} {source : Source} {d : Descriptor} {es : Batch}

/-- The rows of a batch, if there is one. -/
def entriesOf (job : Job) (source : Source) (d : Descriptor) : Batch :=
  match batchOf job source d with
  | .ok es => es
  | .error _ => []

theorem entriesOf_eq (h : batchOf job source d = .ok es) : entriesOf job source d = es := by
  rw [entriesOf, h]

/-- How a batch may end : stored, with the number of its fresh rows, or failed because there
is no batch, because the store cannot hold one of its positions, or because the store
refuses. -/
def Explained (job : Job) (source : Source) (refuses : Descriptor → Failure → Prop) (rows : Rows) :
    Finished → Prop
  | (d, .ok n) => ∃ es, batchOf job source d = .ok es ∧ (∀ e ∈ es, fitsInteger e.position) ∧
      n = (Rows.fresh rows es).length
  | (d, .error why) => batchOf job source d = .error why ∨
      (∃ es, batchOf job source d = .ok es ∧ (¬ ∀ e ∈ es, fitsInteger e.position) ∧
        why = .fault .integerTooLarge) ∨ refuses d why

end Run

namespace Flight

variable {concurrency : Int} {job j : Job} {source : Source}
  {refuses : Descriptor → Failure → Prop} {f f' : Flight} {ds : List Descriptor}
  {w : World} {db : Database} {processed : Int}

/-! ## Where the batches are -/

/-- Where the batches of a run are. -/
structure Placed (concurrency : Int) (ds : List Descriptor) (f : Flight) : Prop where
  whole : f.submitted ++ f.waiting = ds
  perm : f.submitted.Perm (f.running ++ f.executed.map Prod.fst)
  room : (f.inFlight : Int) ≤ concurrency
  counts : f.CountsStored

theorem placed_start (hc : 1 ≤ concurrency) (w : World) (processed : Int) :
    Placed concurrency ds (start w processed ds) := by
  refine ⟨rfl, List.Perm.refl _, ?_, fun h => Bool.noConfusion h⟩
  simp only [inFlight, start, List.length_nil]
  omega

/-- Batches that move on, while one more of them may have ended. -/
theorem perm_of_step (h : Step concurrency job source refuses f f')
    (hf : f.submitted.Perm (f.running ++ f.executed.map Prod.fst)) :
    f'.submitted.Perm (f'.running ++ f'.executed.map Prod.fst) := by
  rw [List.perm_iff_count] at hf ⊢
  intro a
  have ha := hf a
  cases h with
  | submit =>
    simp only [executed, List.count_append, List.map_append] at ha ⊢
    omega
  | execute _ hrunning _ =>
    simp only [executed, hrunning, List.count_append, List.map_append, List.count_cons,
      List.map_cons, List.map_nil, List.count_nil] at ha ⊢
    omega
  | refuse hrunning _ =>
    simp only [executed, hrunning, List.count_append, List.map_append, List.count_cons,
      List.map_cons, List.map_nil, List.count_nil] at ha ⊢
    omega
  | takeSome _ _ _ hdue _ hended _ _ =>
    have htaken := (hended.map Prod.fst).count_eq a
    simp only [executed, hdue, List.count_append, List.map_append, List.map_nil,
      List.count_nil] at ha htaken ⊢
    omega
  | takeAll _ _ hdue _ hended _ _ =>
    have htaken := (hended.map Prod.fst).count_eq a
    simp only [executed, hdue, List.count_append, List.map_append, List.map_nil,
      List.count_nil] at ha htaken ⊢
    omega
  | lose _ hdue =>
    simp only [executed, hdue, List.count_append, List.map_append, List.count_cons,
      List.map_cons, List.map_nil, List.count_nil] at ha ⊢
    omega
  | mark _ _ _ hdue _ =>
    simp only [executed, hdue, List.count_append, List.map_append, List.count_cons,
      List.map_cons, List.map_nil, List.count_nil] at ha ⊢
    omega
  | count => exact ha
  | haltCount => exact ha
  | haltMark => exact ha

theorem room_of_step (h : Step concurrency job source refuses f f')
    (hf : (f.inFlight : Int) ≤ concurrency) : (f'.inFlight : Int) ≤ concurrency := by
  cases h with
  | submit _ _ _ _ hroom =>
    simp only [inFlight, List.length_append, List.length_cons, List.length_nil] at hroom ⊢
    omega
  | execute _ hrunning _ =>
    simp only [inFlight, hrunning, List.length_append, List.length_cons, List.length_nil] at hf ⊢
    omega
  | refuse hrunning _ =>
    simp only [inFlight, hrunning, List.length_append, List.length_cons, List.length_nil] at hf ⊢
    omega
  | takeSome _ _ _ hdue _ hended _ _ =>
    have hlen := hended.length_eq
    rw [List.length_append] at hlen
    simp only [inFlight, hdue, List.length_nil] at hf ⊢
    omega
  | takeAll _ _ hdue _ hended _ _ =>
    have hlen := hended.length_eq
    simp only [inFlight, hdue, List.length_nil] at hf ⊢
    omega
  | lose _ hdue =>
    simp only [inFlight, hdue, List.length_cons] at hf ⊢
    omega
  | mark _ _ _ hdue _ =>
    simp only [inFlight, hdue, List.length_cons] at hf ⊢
    omega
  | count => exact hf
  | haltCount => exact hf
  | haltMark => exact hf

theorem placed_of_step (h : Step concurrency job source refuses f f')
    (hf : Placed concurrency ds f) : Placed concurrency ds f' := by
  refine ⟨?_, perm_of_step h hf.perm, room_of_step h hf.room, countsStored_of_step h hf.counts⟩
  cases h with
  | submit hwaiting =>
    have hwhole := hf.whole
    rw [hwaiting] at hwhole
    simpa using hwhole
  | _ => exact hf.whole

theorem placed_of_reaches (h : Reaches concurrency job source refuses f f')
    (hf : Placed concurrency ds f) : Placed concurrency ds f' := by
  induction h with
  | refl => exact hf
  | tail _ hstep ih => exact placed_of_step hstep ih

/-- A batch that runs and one that ended are not one. -/
theorem Placed.index_ne (hf : Placed concurrency ds f) (hds : (ds.map Descriptor.index).Nodup)
    {before after : List Descriptor} {d d' : Descriptor}
    (hrunning : f.running = before ++ d :: after)
    (hd' : d' ∈ f.executed.map Prod.fst) : d'.index ≠ d.index := by
  have hsub : (f.submitted.map Descriptor.index).Nodup := by
    rw [← hf.whole, List.map_append] at hds
    exact (List.nodup_append.mp hds).1
  rw [(hf.perm.map Descriptor.index).nodup_iff, List.map_append, List.nodup_append] at hsub
  have hd : d.index ∈ f.running.map Descriptor.index := by
    refine List.mem_map_of_mem ?_
    rw [hrunning]
    simp
  exact fun h => hsub.2.2 _ hd _ (List.mem_map_of_mem hd') h.symm

/-! ## What is stored -/

theorem goesOn_of_run_advance (hw : w.storage = .ready db) {id : String} {delta : Int}
    {s : Surroundings} {r : Except Failure Binary64} {w' : World}
    (hrun : Jobs.advance id delta s w = (r, w')) :
    ∃ jobs, w' = w.withDatabase (db.withJobs jobs) ∧ Ledger.GoesOn id db.jobs jobs := by
  obtain ⟨jobs, hjobs, hgoes⟩ := @Jobs.goesOn_of_advance s w db hw id delta
  rw [hrun] at hjobs
  exact ⟨jobs, hjobs, hgoes⟩

theorem exists_folder_of_run_mark {id : String} {rows : Int} {s : Surroundings}
    {r : Except Failure Unit} {w' : World} (hrun : Run.mark id rows s w = (r, w')) :
    ∃ folder, w' = w.withFolder folder := by
  obtain ⟨folder, hfolder⟩ := Run.exists_folder_of_mark id rows s w
  rw [hrun] at hfolder
  exact ⟨folder, hfolder⟩

/-- What a step does to the batches that ended and to the database : one batch more has
ended, in one of two ways, or at most the ledger changed. -/
theorem ended_cases (h : Step concurrency job source refuses f f')
    (hw : f.world.storage = .ready db) :
    (∃ before d after r, f.running = before ++ d :: after ∧
      f'.executed.Perm ((d, r) :: f.executed) ∧
      ((∃ s, Run.execute job source d s f.world = (r, f'.world)) ∨
        ∃ why, r = .error why ∧ refuses d why ∧ f'.world = f.world)) ∨
    f'.executed.Perm f.executed ∧ ∃ jobs, f'.world.storage = .ready (db.withJobs jobs) ∧
      Ledger.GoesOn job.id db.jobs jobs := by
  have hrefl := Ledger.GoesOn.refl job.id db.jobs
  have hkeep : ∃ jobs, f.world.storage = .ready (db.withJobs jobs) ∧
      Ledger.GoesOn job.id db.jobs jobs := ⟨db.jobs, hw, hrefl⟩
  have hadvance : ∀ {d : Descriptor} {s : Surroundings} {r : Except Failure Binary64} {w : World},
      Jobs.advance job.id d.size s f.world = (r, w) →
        ∃ jobs, w.storage = .ready (db.withJobs jobs) ∧ Ledger.GoesOn job.id db.jobs jobs := by
    intro d s r w hrun
    obtain ⟨jobs, rfl, hgoes⟩ := goesOn_of_run_advance hw hrun
    exact ⟨jobs, rfl, hgoes⟩
  have hmark : ∀ {s : Surroundings} {r : Except Failure Unit} {w : World},
      Run.mark job.id f.run.processed s f.world = (r, w) →
        ∃ jobs, w.storage = .ready (db.withJobs jobs) ∧ Ledger.GoesOn job.id db.jobs jobs := by
    intro s r w hrun
    obtain ⟨folder, rfl⟩ := exists_folder_of_run_mark hrun
    exact ⟨db.jobs, hw, hrefl⟩
  cases h with
  | submit => exact Or.inr ⟨.refl _, hkeep⟩
  | @execute before after d w r s hrunning hrun =>
    refine Or.inl ⟨before, d, after, r, hrunning, ?_, Or.inl ⟨s, ?_⟩⟩
    · simp only [executed, List.append_assoc]
      exact List.perm_middle
    · rw [Action.run_attempt] at hrun
      obtain ⟨hr, rfl⟩ := Prod.mk.inj hrun
      rw [← Except.ok.inj hr]
  | @refuse before after d why hrunning hwhy =>
    refine Or.inl ⟨before, d, after, _, hrunning, ?_, Or.inr ⟨why, rfl, hwhy, rfl⟩⟩
    simp only [executed, List.append_assoc]
    exact List.perm_middle
  | takeSome _ _ _ hdue _ hended _ _ =>
    refine Or.inr ⟨?_, hkeep⟩
    simp only [executed, hdue, List.append_nil]
    exact (List.perm_append_comm.trans hended.symm).append_right _
  | takeAll _ _ hdue _ hended _ _ =>
    refine Or.inr ⟨?_, hkeep⟩
    simp only [executed, hdue, List.append_nil, List.nil_append]
    exact hended.symm.append_right _
  | @lose d why rest _ hdue =>
    refine Or.inr ⟨?_, hkeep⟩
    simp only [executed, hdue, List.append_assoc, List.cons_append]
    rw [← List.append_assoc rest]
    exact (List.perm_append_singleton _ _).append_left _
  | count _ _ _ _ hrun => exact Or.inr ⟨.refl _, hadvance hrun⟩
  | @mark d n rest w s _ _ hdue hrun =>
    refine Or.inr ⟨?_, hmark hrun⟩
    simp only [executed, hdue, List.append_assoc, List.cons_append]
    rw [← List.append_assoc rest]
    exact (List.perm_append_singleton _ _).append_left _
  | haltCount _ _ _ _ hrun => exact Or.inr ⟨.refl _, hadvance hrun⟩
  | haltMark _ _ _ _ hrun => exact Or.inr ⟨.refl _, hmark hrun⟩

variable (job source refuses db) in
/-- What a run has done to the database : the rows are those that were there and, behind
them, the fresh rows of the batches that succeeded. The others failed for a reason. -/
structure Stores (f : Flight) : Prop where
  exists_rows : ∃ new jobs,
    f.world.storage = .ready ((db.withRows (db.rows ++ new)).withJobs jobs) ∧
      Ledger.GoesOn job.id db.jobs jobs ∧ (∀ r ∈ new, r.table = job.table) ∧
      (new.map Row.entry).Perm
        ((succeeded f.executed).flatMap fun d => Rows.fresh db.rows (Run.entriesOf job source d))
  explained : ∀ e ∈ f.executed, Run.Explained job source refuses db.rows e

theorem stores_start (hw : w.storage = .ready db) (processed : Int) (ds : List Descriptor) :
    Stores job source refuses db (start w processed ds) := by
  refine ⟨⟨[], db.jobs, ?_, Ledger.GoesOn.refl _ _, fun r hr => absurd hr List.not_mem_nil,
    .refl _⟩, fun e he => absurd he List.not_mem_nil⟩
  rw [List.append_nil]
  exact hw

/-- The rows that a run stored have the ids of the batches that ended. -/
theorem exists_index_of_mem {new : Rows} (h : (new.map Row.entry).Perm
      ((succeeded f.executed).flatMap fun d => Rows.fresh db.rows (Run.entriesOf job source d)))
    {r : Row} (hr : r ∈ new) :
    ∃ d ∈ succeeded f.executed, ∃ row, r.id = Batch.jobRowId job.id d.index row := by
  have hm := h.mem_iff.mp (List.mem_map_of_mem hr)
  obtain ⟨d, hd, he⟩ := List.mem_flatMap.mp hm
  refine ⟨d, hd, ?_⟩
  have hes := (Rows.mem_fresh.mp he).1
  rcases hb : Run.batchOf job source d with e | es
  · rw [Run.entriesOf, hb] at hes
    exact absurd hes List.not_mem_nil
  · rw [Run.entriesOf_eq hb] at hes
    exact Run.isRowIdOf_of_mem_batchOf hb hes

/-- The rows of a batch that is running are as fresh as before the run. -/
theorem Placed.fresh_eq {new : Rows} (hplaced : Placed concurrency ds f)
    (hds : (ds.map Descriptor.index).Nodup) {before after : List Descriptor} {d : Descriptor}
    (hrunning : f.running = before ++ d :: after) (hnew : (new.map Row.entry).Perm
      ((succeeded f.executed).flatMap fun d => Rows.fresh db.rows (Run.entriesOf job source d)))
    {es : Batch} (hes : Run.batchOf job source d = .ok es) :
    Rows.fresh (db.rows ++ new) es = Rows.fresh db.rows es := by
  refine Rows.fresh_append fun r hr e he hid => ?_
  obtain ⟨d', hd', row', hr'⟩ := exists_index_of_mem hnew hr
  obtain ⟨row, he'⟩ := Run.isRowIdOf_of_mem_batchOf hes he
  rw [hr', he', jobRowId_inj] at hid
  have hmem : d' ∈ f.executed.map Prod.fst := (succeeded_sublist _).subset hd'
  exact hplaced.index_ne hds hrunning hmem hid.2.1

/-- A batch that failed has stored nothing. -/
theorem Stores.of_failed (hf : Stores job source refuses db f) {d : Descriptor} {why : Failure}
    (hended : f'.executed.Perm ((d, .error why) :: f.executed))
    (hwhy : Run.Explained job source refuses db.rows (d, .error why))
    (hworld : f'.world = f.world) : Stores job source refuses db f' := by
  obtain ⟨⟨new, jobs, hw, hgoes, htable, hperm⟩, hexplained⟩ := hf
  refine ⟨⟨new, jobs, by rw [hworld, hw], hgoes, htable, ?_⟩, fun e he => ?_⟩
  · exact hperm.trans ((succeeded_perm hended).symm.flatMap_right _)
  · rcases List.mem_cons.mp (hended.mem_iff.mp he) with rfl | he
    · exact hwhy
    · exact hexplained e he

theorem stores_of_step (h : Step concurrency job source refuses f f')
    (hds : (ds.map Descriptor.index).Nodup) (hplaced : Placed concurrency ds f)
    (hf : Stores job source refuses db f) : Stores job source refuses db f' := by
  have hstores := hf
  obtain ⟨⟨new, jobs, hw, hgoes, htable, hperm⟩, hexplained⟩ := hf
  rcases ended_cases h hw with
    ⟨before, d, after, r, hrunning, hended, hone⟩ | ⟨hended, jobs', hw', hgoes'⟩
  swap
  · refine ⟨⟨new, jobs', hw', hgoes.trans hgoes', htable, ?_⟩, fun e he =>
      hexplained e (hended.mem_iff.mp he)⟩
    exact hperm.trans ((succeeded_perm hended).symm.flatMap_right _)
  rcases hone with ⟨s, hrun⟩ | ⟨why, rfl, hwhy, hworld⟩
  swap
  · exact hstores.of_failed hended (Or.inr (Or.inr hwhy)) hworld
  rcases hb : Run.batchOf job source d with e | es
  · rw [Run.run_execute_of_error hb] at hrun
    obtain ⟨rfl, hworld⟩ := Prod.mk.inj hrun
    exact hstores.of_failed hended (Or.inl hb) hworld.symm
  by_cases hfits : ∀ e ∈ es, fitsInteger e.position
  swap
  · rw [Run.run_execute_of_not_fits hw hb hfits] at hrun
    obtain ⟨rfl, hworld⟩ := Prod.mk.inj hrun
    exact hstores.of_failed hended (Or.inr (Or.inl ⟨es, hb, hfits, rfl⟩)) hworld.symm
  have hfresh := hplaced.fresh_eq hds hrunning hperm hb
  rw [Run.run_execute_of_fits hw hb hfits] at hrun
  obtain ⟨rfl, hworld⟩ := Prod.mk.inj hrun
  rw [rows_withJobs, rows_withRows, hfresh] at hworld
  rw [rows_withJobs, rows_withRows, hfresh] at hended
  refine ⟨⟨new ++ (Rows.fresh db.rows es).map (Row.ofEntry s.now job.table), jobs, ?_, hgoes, ?_,
    ?_⟩, ?_⟩
  · rw [← hworld, ← List.append_assoc]
    rfl
  · intro r hr
    rcases List.mem_append.mp hr with hr | hr
    · exact htable r hr
    · obtain ⟨e, _, rfl⟩ := List.mem_map.mp hr
      rfl
  · have hnew : ((Rows.fresh db.rows es).map (Row.ofEntry s.now job.table)).map Row.entry =
        Rows.fresh db.rows (Run.entriesOf job source d) := by
      rw [Run.entriesOf_eq hb, List.map_map]
      exact List.map_id _
    rw [List.map_append, hnew]
    refine (hperm.append_right _).trans (List.perm_append_comm.trans ?_)
    exact (succeeded_perm hended).symm.flatMap_right
      fun d => Rows.fresh db.rows (Run.entriesOf job source d)
  · intro e he
    rcases List.mem_cons.mp (hended.mem_iff.mp he) with rfl | he
    · exact ⟨es, hb, hfits, rfl⟩
    · exact hexplained e he

theorem stores_of_reaches (h : Reaches concurrency job source refuses f f')
    (hds : (ds.map Descriptor.index).Nodup) (hplaced : Placed concurrency ds f)
    (hf : Stores job source refuses db f) : Stores job source refuses db f' := by
  induction h with
  | refl => exact hf
  | tail hreach hstep ih => exact stores_of_step hstep hds (placed_of_reaches hreach hplaced) ih

/-! ## What is counted -/

/-- A moment from which ledger and checkpoint can follow a run : the job is processing, its
checkpoint can be written, and the counts stay where the store and a checkpoint can hold
them. -/
structure Countable (job j : Job) (ds : List Descriptor) (processed : Int) (w : World)
    (db : Database) : Prop where
  ready : w.storage = .ready db
  found : db.jobs.find? job.id = some j
  processing : j.status = .processing
  writable : Checkpoint.Writable job.id w.folder
  sizes : ∀ d ∈ ds, 0 ≤ d.size
  nonneg : 0 ≤ processed
  saved : ds ≠ [] → processed + rowsIn ds < 2 ^ 63
  fits : fitsInteger j.processed = true
  counted : fitsInteger (j.processed + rowsIn ds) = true

/-- The batches that are counted in the ledger. -/
def tallied (f : Flight) : List Descriptor :=
  succeeded (f.settled ++ if f.counted then f.due.take 1 else [])

/-- What ledger and checkpoint tell of a run. -/
structure Counted (job j : Job) (processed : Int) (w : World) (db : Database) (f : Flight) :
    Prop where
  halted : f.run.halted = false
  failure : f.run.failure = firstFailure f.settled
  sum : f.run.processed = processed + rowsIn f.tallied
  exists_job : ∃ db' j', f.world.storage = .ready db' ∧ db'.jobs.find? job.id = some j' ∧
    j.Continues j' ∧ j'.status = .processing ∧ j'.processed = j.processed + rowsIn f.tallied
  others : ∀ db' id, f.world.storage = .ready db' → id ≠ job.id →
    db'.jobs.find? id = db.jobs.find? id
  writable : Checkpoint.Writable job.id f.world.folder
  unsaved : succeeded f.settled = [] → f.world.folder = w.folder
  saved : succeeded f.settled ≠ [] → ∀ today, Checkpoint.load today job.id f.world.folder =
    .ok (some (processed + rowsIn (succeeded f.settled)))

theorem tallied_of_not_counted (h : f.counted = false) : f.tallied = succeeded f.settled := by
  simp [tallied, h]

theorem tallied_of_counted {d : Descriptor} {n : Nat} {rest : List Finished} (h : f.counted = true)
    (hdue : f.due = (d, .ok n) :: rest) : f.tallied = succeeded f.settled ++ [d] := by
  simp [tallied, h, hdue]

/-- A coordinator that has taken nothing is not amid counting. -/
theorem not_counted_of_due (h : f.CountsStored) (hdue : f.due = []) : f.counted = false := by
  rw [Bool.eq_false_iff]
  intro hc
  obtain ⟨_, _, _, hd⟩ := h hc
  rw [hdue] at hd
  cases hd

/-- A batch that is lost was not being counted. -/
theorem not_counted_of_lost (h : f.CountsStored) {d : Descriptor} {why : Failure}
    {rest : List Finished} (hdue : f.due = (d, .error why) :: rest) : f.counted = false := by
  rw [Bool.eq_false_iff]
  intro hc
  obtain ⟨_, _, _, hd⟩ := h hc
  simp [hdue] at hd

/-- The run counts what the ledger counts. -/
theorem sum_of_step (h : Step concurrency job source refuses f f') (hcounts : f.CountsStored)
    (hf : f.run.processed = processed + rowsIn f.tallied) :
    f'.run.processed = processed + rowsIn f'.tallied := by
  cases h with
  | submit => exact hf
  | execute => exact hf
  | refuse => exact hf
  | takeSome _ _ _ hdue _ _ _ _ =>
    have hcounted := not_counted_of_due hcounts hdue
    rw [tallied_of_not_counted hcounted] at hf
    simpa [tallied, hcounted] using hf
  | takeAll _ _ hdue _ _ _ _ =>
    have hcounted := not_counted_of_due hcounts hdue
    rw [tallied_of_not_counted hcounted] at hf
    simpa [tallied, hcounted] using hf
  | lose _ hdue =>
    have hcounted := not_counted_of_lost hcounts hdue
    rw [tallied_of_not_counted hcounted] at hf
    simpa [tallied, hcounted, processed_record] using hf
  | count _ _ hcounted hdue _ =>
    rw [tallied_of_not_counted hcounted] at hf
    simp [tallied, hdue, hf, Int.add_assoc]
  | mark _ _ hcounted hdue _ =>
    rw [tallied_of_counted hcounted hdue] at hf
    simpa [tallied] using hf
  | haltCount => simpa [tallied, processed_record] using hf
  | haltMark => simpa [tallied, processed_record] using hf

theorem Placed.subperm (hf : Placed concurrency ds f) {fs : List Finished}
    (hfs : fs.Subperm f.executed) : (succeeded fs).Subperm ds := by
  have h₁ : (succeeded fs).Subperm (fs.map Prod.fst) := (succeeded_sublist fs).subperm
  have h₂ : (fs.map Prod.fst).Subperm (f.executed.map Prod.fst) := by
    obtain ⟨l, hperm, hsub⟩ := hfs
    exact ⟨_, hperm.map _, hsub.map _⟩
  have h₃ : (f.executed.map Prod.fst).Subperm f.submitted :=
    ((List.sublist_append_right _ _).subperm).trans hf.perm.symm.subperm
  have h₄ : f.submitted.Subperm ds := by
    rw [← hf.whole]
    exact (List.sublist_append_left _ _).subperm
  exact ((h₁.trans h₂).trans h₃).trans h₄

/-- Batches that succeeded have no more rows than the run. -/
theorem Placed.rowsIn_bounds (hf : Placed concurrency ds f) (hsize : ∀ d ∈ ds, 0 ≤ d.size)
    {fs : List Finished} (hfs : fs.Subperm f.executed) :
    0 ≤ rowsIn (succeeded fs) ∧ rowsIn (succeeded fs) ≤ rowsIn ds := by
  have hsub := hf.subperm hfs
  refine ⟨?_, rowsIn_le_of_subperm hsub hsize⟩
  exact rowsIn_le_of_subperm List.nil_subperm fun d hd => hsize d (hsub.subset hd)

/-- The batches that are settled, and the first of those that were taken, have ended. -/
theorem subperm_executed (f : Flight) : (f.settled ++ f.due.take 1).Subperm f.executed := by
  refine ⟨f.due.take 1 ++ f.settled, List.perm_append_comm, ?_⟩
  rw [executed, List.append_assoc]
  refine List.Sublist.trans ?_ (List.sublist_append_right _ _)
  exact (List.take_sublist 1 f.due).append_right _

theorem counted_start (h : Countable job j ds processed w db) :
    Counted job j processed w db (start w processed ds) where
  halted := rfl
  failure := rfl
  sum := (Int.add_zero processed).symm
  exists_job := ⟨db, j, h.ready, h.found, ⟨rfl, rfl, rfl, fun _ => rfl⟩, h.processing,
    (Int.add_zero j.processed).symm⟩
  others := by
    intro db' id hdb' _
    rw [Storage.ready.inj (hdb'.symm.trans h.ready)]
  writable := h.writable
  unsaved := fun _ => rfl
  saved := fun hne => absurd rfl hne

/-- A step that neither counts nor saves. -/
theorem Counted.of_eq (hf : Counted job j processed w db f) (hhalted : f'.run.halted = false)
    (hfailure : f'.run.failure = firstFailure f'.settled)
    (hsum : f'.run.processed = processed + rowsIn f'.tallied)
    (hsettled : succeeded f'.settled = succeeded f.settled) (htallied : f'.tallied = f.tallied)
    (hfolder : f'.world.folder = f.world.folder)
    (hjobs : ∀ db₁, f.world.storage = .ready db₁ →
      ∃ db₂, f'.world.storage = .ready db₂ ∧ db₂.jobs = db₁.jobs) :
    Counted job j processed w db f' := by
  obtain ⟨db₁, j', hdb₁, hfound, hrest⟩ := hf.exists_job
  obtain ⟨db₂, hdb₂, heq⟩ := hjobs db₁ hdb₁
  refine ⟨hhalted, hfailure, hsum, ⟨db₂, j', hdb₂, by rw [heq, hfound], by rwa [htallied]⟩, ?_, ?_,
    ?_, ?_⟩
  · intro db' id hdb' hid
    rw [Storage.ready.inj (hdb'.symm.trans hdb₂), heq]
    exact hf.others db₁ id hdb₁ hid
  · rw [hfolder]
    exact hf.writable
  · rw [hsettled, hfolder]
    exact hf.unsaved
  · rw [hsettled, hfolder]
    exact hf.saved

/-- The ledger counts the first of the batches that were taken. -/
theorem exists_advance (h : Countable job j ds processed w db)
    (hplaced : Placed concurrency ds f) (hf : Counted job j processed w db f)
    (hcounted : f.counted = false) {d : Descriptor} {n : Nat} {rest : List Finished}
    (hdue : f.due = (d, .ok n) :: rest) (s : Surroundings) :
    ∃ db' j' x, f.world.storage = .ready db' ∧ db'.jobs.find? job.id = some j' ∧
      j.Continues j' ∧ j'.status = .processing ∧
      j'.processed = j.processed + rowsIn (succeeded f.settled) ∧
      Jobs.advance job.id d.size s f.world = (.ok x, f.world.withDatabase (db'.withJobs
        (db'.jobs.put { j' with
          processed := j'.processed + d.size, progress := x, updatedAt := s.now }))) := by
  obtain ⟨db', j', hdb', hfound, hcont, hstatus, hproc⟩ := hf.exists_job
  rw [tallied_of_not_counted hcounted] at hproc
  have hfirst := subperm_executed f
  rw [hdue, List.take_succ_cons, List.take_zero] at hfirst
  have hset := hplaced.rowsIn_bounds h.sizes ((List.sublist_append_left _ _).subperm.trans hfirst)
  have hle := (hplaced.rowsIn_bounds h.sizes hfirst).2
  have hmem : d ∈ ds := (hplaced.subperm hfirst).subset (by simp)
  have hd := h.sizes d hmem
  rw [succeeded_append, rowsIn_append, succeeded_ok, succeeded_nil, rowsIn_cons, rowsIn_nil] at hle
  have hlow := fitsInteger_iff.mp h.fits
  have hhigh := fitsInteger_iff.mp h.counted
  have hsaved := h.saved (List.ne_nil_of_mem hmem)
  have hpos := h.nonneg
  obtain ⟨x, hx⟩ := @Ledger.advance_eq db'.jobs job.id j' s.now d.size hfound hstatus hd
    (fitsInteger_iff.mpr (by omega)) (fitsInteger_iff.mpr (by omega))
  refine ⟨db', j', x, hdb', hfound, hcont, hstatus, hproc, ?_⟩
  rw [Jobs.advance, Action.run_bind_ok Action.run_now]
  exact Jobs.run_change hdb' hx

/-- Then its checkpoint is written. -/
theorem exists_mark (h : Countable job j ds processed w db)
    (hplaced : Placed concurrency ds f) (hf : Counted job j processed w db f)
    (hcounted : f.counted = true) {d : Descriptor} {n : Nat} {rest : List Finished}
    (hdue : f.due = (d, .ok n) :: rest) (s : Surroundings) :
    ∃ folder, Run.mark job.id f.run.processed s f.world = (.ok (), f.world.withFolder folder) ∧
      Checkpoint.Writable job.id folder ∧
      ∀ today, Checkpoint.load today job.id folder = .ok (some f.run.processed) := by
  have hfirst := subperm_executed f
  rw [hdue, List.take_succ_cons, List.take_zero] at hfirst
  have hbounds := hplaced.rowsIn_bounds h.sizes hfirst
  have hsum := hf.sum
  rw [tallied_of_counted hcounted hdue] at hsum
  rw [succeeded_append, succeeded_ok, succeeded_nil] at hbounds
  have hmem : d ∈ ds := (hplaced.subperm hfirst).subset (by simp)
  have hsaved := h.saved (List.ne_nil_of_mem hmem)
  have hpos := h.nonneg
  exact Run.run_mark_of_writable hf.writable (by omega) (by omega)

/-- The ledger counts a batch that is stored. -/
theorem Counted.of_advance (hf : Counted job j processed w db f)
    (h : Countable job j ds processed w db) (hplaced : Placed concurrency ds f)
    (hcounted : f.counted = false) {d : Descriptor} {n : Nat} {rest : List Finished}
    (hdue : f.due = (d, .ok n) :: rest) {x : Binary64} {w' : World} {s : Surroundings}
    (hrun : Jobs.advance job.id d.size s f.world = (.ok x, w')) :
    Counted job j processed w db { f with
      world := w', counted := true
      run := { f.run with processed := f.run.processed + d.size } } := by
  obtain ⟨db₁, j', y, hdb₁, hfound, hcont, hstatus, hproc, hok⟩ :=
    exists_advance h hplaced hf hcounted hdue s
  rw [hok] at hrun
  obtain ⟨_, rfl⟩ := Prod.mk.inj hrun
  have hid : j'.id = job.id := Ledger.id_of_find? hfound
  have htallied : ∀ w' r, rowsIn (tallied { f with world := w', run := r, counted := true }) =
      rowsIn (succeeded f.settled) + d.size := by
    intro w' r
    simp [tallied, hdue]
  have hput := @Ledger.find?_put_self job.id j' { j' with
    processed := j'.processed + d.size, progress := y, updatedAt := s.now } hid db₁.jobs hfound
  have hsum := hf.sum
  rw [tallied_of_not_counted hcounted] at hsum
  refine ⟨hf.halted, hf.failure, ?_, ⟨_, _, rfl, hput, ?_, hstatus, ?_⟩, ?_, hf.writable,
    hf.unsaved, hf.saved⟩
  · rw [htallied, hsum, Int.add_assoc]
  · exact ⟨hcont.id, hcont.table, hcont.total, hcont.base⟩
  · rw [htallied]
    show j'.processed + d.size = _
    omega
  · intro db' id hdb' hne
    rw [← Storage.ready.inj hdb', jobs_withJobs, Ledger.find?_put_of_ne (by rwa [hid])]
    exact hf.others db₁ id hdb₁ hne

/-- The checkpoint follows the ledger. -/
theorem Counted.of_mark (hf : Counted job j processed w db f)
    (h : Countable job j ds processed w db) (hplaced : Placed concurrency ds f)
    (hcounted : f.counted = true) {d : Descriptor} {n : Nat} {rest : List Finished}
    (hdue : f.due = (d, .ok n) :: rest) {w' : World} {s : Surroundings}
    (hrun : Run.mark job.id f.run.processed s f.world = (.ok (), w')) :
    Counted job j processed w db { f with
      world := w', due := rest, counted := false, settled := f.settled ++ [(d, .ok n)] } := by
  obtain ⟨folder, hok, hwritable, hload⟩ := exists_mark h hplaced hf hcounted hdue s
  rw [hok] at hrun
  obtain ⟨_, rfl⟩ := Prod.mk.inj hrun
  have hsucceeded : succeeded (f.settled ++ [(d, .ok n)]) = f.tallied := by
    rw [tallied_of_counted hcounted hdue]
    simp
  have htallied : tallied { f with
      world := f.world.withFolder folder, due := rest, counted := false
      settled := f.settled ++ [(d, .ok n)] } = f.tallied := hsucceeded ▸ by simp [tallied]
  refine ⟨hf.halted, ?_, by rw [htallied]; exact hf.sum, ?_, hf.others, hwritable, ?_, ?_⟩
  · rw [firstFailure_append_ok]
    exact hf.failure
  · rw [htallied]
    exact hf.exists_job
  · simp
  · rw [hsucceeded, ← hf.sum]
    exact fun _ => hload

theorem counted_of_step (hstep : Step concurrency job source refuses f f')
    (h : Countable job j ds processed w db) (hplaced : Placed concurrency ds f)
    (hf : Counted job j processed w db f) : Counted job j processed w db f' := by
  have hsum := sum_of_step hstep hplaced.counts hf.sum
  have hsame : ∀ db₁, f.world.storage = .ready db₁ →
      ∃ db₂, f.world.storage = .ready db₂ ∧ db₂.jobs = db₁.jobs := fun db₁ hdb₁ => ⟨db₁, hdb₁, rfl⟩
  cases hstep with
  | submit => exact hf.of_eq hf.halted hf.failure hsum rfl rfl rfl hsame
  | @execute before after d w' r s hrunning hrun =>
    obtain ⟨db₁, _, hdb₁, _⟩ := hf.exists_job
    obtain ⟨rows, hrows⟩ := Run.exists_rows_of_execute hdb₁ job source d s
    rw [Action.run_attempt, hrows] at hrun
    obtain ⟨_, rfl⟩ := Prod.mk.inj hrun
    refine hf.of_eq hf.halted hf.failure hsum rfl rfl rfl fun db₂ hdb₂ => ⟨_, rfl, ?_⟩
    rw [Storage.ready.inj (hdb₂.symm.trans hdb₁)]
    rfl
  | refuse => exact hf.of_eq hf.halted hf.failure hsum rfl rfl rfl hsame
  | takeSome _ _ _ hdue _ _ _ _ =>
    have hcounted := not_counted_of_due hplaced.counts hdue
    exact hf.of_eq hf.halted hf.failure hsum rfl (by simp [tallied, hcounted]) rfl hsame
  | takeAll _ _ hdue _ _ _ _ =>
    have hcounted := not_counted_of_due hplaced.counts hdue
    exact hf.of_eq hf.halted hf.failure hsum rfl (by simp [tallied, hcounted]) rfl hsame
  | @lose d why rest _ hdue =>
    have hcounted := not_counted_of_lost hplaced.counts hdue
    refine hf.of_eq ((halted_record _ _ _).trans hf.halted) ?_ hsum (by simp)
      (by simp [tallied, hcounted]) rfl hsame
    rw [failure_record, hf.failure, firstFailure_append_error]
  | count s _ hcounted hdue hrun => exact hf.of_advance h hplaced hcounted hdue hrun
  | mark s _ hcounted hdue hrun => exact hf.of_mark h hplaced hcounted hdue hrun
  | haltCount s _ hcounted hdue hrun =>
    obtain ⟨_, _, _, _, _, _, _, _, hok⟩ := exists_advance h hplaced hf hcounted hdue s
    rw [hok] at hrun
    cases hrun
  | haltMark s _ hcounted hdue hrun =>
    obtain ⟨_, hok, _⟩ := exists_mark h hplaced hf hcounted hdue s
    rw [hok] at hrun
    cases hrun

theorem counted_of_reaches (hreach : Reaches concurrency job source refuses f f')
    (h : Countable job j ds processed w db) (hplaced : Placed concurrency ds f)
    (hf : Counted job j processed w db f) : Counted job j processed w db f' := by
  induction hreach with
  | refl => exact hf
  | tail hreach hstep ih => exact counted_of_step hstep h (placed_of_reaches hreach hplaced) ih

/-! ## Runs that are over -/

/-- All batches that were submitted are settled. -/
theorem executed_of_isOver (hover : f.IsOver) (hhalted : f.run.halted = false) :
    f.executed = f.settled := by
  obtain ⟨_, hhalt | ⟨hended, hdue, _⟩⟩ := hover
  · exact absurd (hhalted.symm.trans hhalt) Bool.false_ne_true
  · rw [executed, hended, hdue]
    rfl

theorem Placed.settled_perm (hf : Placed concurrency ds f) (hover : f.IsOver)
    (hhalted : f.run.halted = false) : f.submitted.Perm (f.settled.map Prod.fst) := by
  have hperm := hf.perm
  rwa [hover.1, executed_of_isOver hover hhalted] at hperm

/-- Without a failure all batches were submitted. -/
theorem submitted_of_isOver (hf : Placed concurrency ds f) (hover : f.IsOver)
    (hhalted : f.run.halted = false) (hfailure : f.run.failure = none) : f.submitted = ds := by
  obtain ⟨_, hhalt | ⟨_, _, hfail | hwaiting⟩⟩ := hover
  · exact absurd (hhalted.symm.trans hhalt) Bool.false_ne_true
  · rw [hfailure] at hfail
    cases hfail
  · rw [← hf.whole, hwaiting, List.append_nil]

theorem Counted.tallied_of_isOver (hf : Counted job j processed w db f)
    (hplaced : Placed concurrency ds f) (hover : f.IsOver) : f.tallied = succeeded f.settled := by
  obtain ⟨_, hhalt | ⟨_, hdue, _⟩⟩ := hover
  · exact absurd (hf.halted.symm.trans hhalt) Bool.false_ne_true
  · exact tallied_of_not_counted (not_counted_of_due hplaced.counts hdue)

end Flight

end Tabula
