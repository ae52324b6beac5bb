import Tabula.Proofs.JobQueue
import Tabula.Proofs.Lifecycle
import Tabula.Proofs.RunEnds

/-!
# Working off all jobs

A worker asks for the newest active job, runs it and asks again, until there is none or it is given
one that it has tried. What becomes of the job in an attempt is followed in two parts. Beginning it
leaves it in its place with work to do (`Worker.begin_standing`). From then on each step of its run
counts it and keeps the files (`Run.Goes`), through all batches (`Run.tracks_drive`), and the end
completes or fails it (`Run.exists_finish`). So an attempt ends its job exactly if it comes to the
batches (`Worker.exists_attempted`).

`Worker.Drains` lists the attempts one after the other. By induction on the line they are all those
in line, up to the first that does not come to its batches (`Worker.exists_drains`), which is what a
worker answers with and leaves behind (`Worker.runPending_drains`).
-/

namespace Tabula

open Store

/-! ## What a run keeps -/

/-- What happens to the ledger, with files that could be written before still such. -/
def World.Keeps (L : Ledger → Ledger → Prop) (w w' : World) : Prop :=
  ∀ db, w.storage = .ready db →
    (∃ db', w'.storage = .ready db' ∧ L db.jobs db'.jobs) ∧
      ∀ id, Checkpoint.Writable id w.folder → Checkpoint.Writable id w'.folder

namespace World.Keeps

variable {L : Ledger → Ledger → Prop} {w w' w'' : World}

theorem refl (hL : ∀ ledger, L ledger ledger) (w : World) : Keeps L w w :=
  fun db hw => ⟨⟨db, hw, hL _⟩, fun _ h => h⟩

theorem trans (hL : ∀ {a b c}, L a b → L b c → L a c) (h : Keeps L w w') (h' : Keeps L w' w'') :
    Keeps L w w'' := by
  intro db hw
  obtain ⟨⟨db', hw', hl⟩, hfiles⟩ := h db hw
  obtain ⟨⟨db'', hw'', hl'⟩, hfiles'⟩ := h' db' hw'
  exact ⟨⟨db'', hw'', hL hl hl'⟩, fun id hid => hfiles' id (hfiles id hid)⟩

end World.Keeps

namespace Action

variable {α β : Type} {R : World → World → Prop} {x : Action α} {f : α → Action β}

/-- Whatever the world is, it is so related to the one that the action leaves. -/
def Leads (R : World → World → Prop) (x : Action α) : Prop := ∀ s w, R w (x s w).2

theorem leads_pure (refl : ∀ w, R w w) (a : α) : Leads R (Pure.pure a : Action α) :=
  fun _ w => refl w

theorem leads_lift (refl : ∀ w, R w w) (r : Except Failure α) : Leads R (liftM r : Action α) :=
  fun _ w => refl w

theorem leads_throw (refl : ∀ w, R w w) (e : Failure) : Leads R (throw e : Action α) :=
  fun _ w => refl w

theorem leads_now (refl : ∀ w, R w w) : Leads R now := fun _ w => refl w

theorem leads_bind (trans : ∀ {w w' w''}, R w w' → R w' w'' → R w w'') (hx : Leads R x)
    (hf : ∀ a, Leads R (f a)) : Leads R (x >>= f) := by
  intro s w
  have hw := hx s w
  rcases h : x s w with ⟨e | a, w'⟩ <;> rw [h] at hw
  · rwa [run_bind_error h]
  · rw [run_bind_ok h]
    exact trans hw (hf a s w')

theorem leads_attempt (hx : Leads R x) : Leads R (attempt x) := hx

/-- The action gives an answer, and the world that it leaves is so related to the one before. -/
def Tracks (R : World → World → Prop) (x : Action α) : Prop :=
  ∀ s w, ∃ a w', x s w = (.ok a, w') ∧ R w w'

theorem tracks_pure (refl : ∀ w, R w w) (a : α) : Tracks R (Pure.pure a : Action α) :=
  fun _ w => ⟨a, w, rfl, refl w⟩

theorem tracks_attempt (hx : Leads R x) : Tracks R (attempt x) :=
  fun s w => ⟨_, _, rfl, hx s w⟩

theorem tracks_bind (trans : ∀ {w w' w''}, R w w' → R w' w'' → R w w'') (hx : Tracks R x)
    (hf : ∀ a, Tracks R (f a)) : Tracks R (x >>= f) := by
  intro s w
  obtain ⟨a, w₁, ha, hw₁⟩ := hx s w
  obtain ⟨b, w₂, hb, hw₂⟩ := hf a s w₁
  exact ⟨b, w₂, (run_bind_ok ha f).trans hb, trans hw₁ hw₂⟩

end Action

namespace Run

open Tabula.Action

section Tracks

variable {job : Job} {source : Source} {R : World → World → Prop} (refl : ∀ w, R w w)
  (trans : ∀ {w w' w''}, R w w' → R w' w'' → R w w'')
  (hexecute : ∀ d, Leads R (execute job source d))
  (hadvance : ∀ delta, Leads R (Jobs.advance job.id delta))
  (hmark : ∀ processed, Leads R (mark job.id processed))

include refl trans hadvance hmark in
theorem tracks_settleAll : ∀ (r : Run) (fs : List Finished), Tracks R (settleAll job.id r fs)
  | r, [] => tracks_pure refl r
  | r, f :: fs => by
    refine tracks_bind trans ?_ fun r' => tracks_settleAll r' fs
    unfold settle
    split
    · exact tracks_pure refl r
    · rcases f with ⟨d, why | n⟩
      · exact tracks_pure refl _
      · refine tracks_bind trans (tracks_attempt (leads_bind trans (hadvance d.size) fun _ =>
          leads_bind trans (hmark _) fun _ => leads_pure refl _)) fun result => ?_
        rcases result with why | r' <;> exact tracks_pure refl _

include refl trans hexecute hadvance hmark in
/-- Failures of batches are settled, so driving batches ends well, and what is kept by executing a
batch, by counting it and by a checkpoint is kept. -/
theorem tracks_drive (concurrency : Int) :
    ∀ (ds : List Descriptor) (inFlight : List Finished) (r : Run),
      Tracks R (drive concurrency job source ds inFlight r)
  | [], inFlight, r => tracks_settleAll refl trans hadvance hmark r inFlight
  | d :: ds, inFlight, r => by
    have hnext : ∀ (inFlight : List Finished) (r : Run), Tracks R
        (if r.failure.isSome then settleAll job.id r inFlight
        else Action.attempt (execute job source d) >>= fun result =>
          drive concurrency job source ds (inFlight ++ [(d, result)]) r) := by
      intro inFlight r
      split
      · exact tracks_settleAll refl trans hadvance hmark r inFlight
      · exact tracks_bind trans (tracks_attempt (hexecute d)) fun _ =>
          tracks_drive concurrency ds _ r
    rw [drive]
    split
    · exact tracks_bind trans (tracks_settleAll refl trans hadvance hmark r inFlight) fun r' =>
        hnext [] r'
    · exact hnext inFlight r

end Tracks

end Run

/-! ## Files that can be written -/

namespace Checkpoint

theorem Writable.of_save {now : Moment} {job other : String} {rows : Int} {folder folder' : Folder}
    (h : Writable other folder) (hsave : Checkpoint.save now job rows folder = .ok folder') :
    Writable other folder' := by
  obtain ⟨hsafe, hshort, es, rfl, hes⟩ := h
  rw [Checkpoint.save] at hsave
  split at hsave
  · cases hsave
  · split at hsave
    · cases hsave
    · obtain rfl := Except.ok.inj hsave
      refine ⟨hsafe, hshort, _, rfl, ?_⟩
      rw [Folder.lookup_put]
      split
      · simp
      · exact hes

theorem Writable.of_clear {job other : String} {folder folder' : Folder}
    (h : Writable other folder) (hclear : Checkpoint.clear job folder = .ok folder') :
    Writable other folder' := by
  obtain ⟨hsafe, hshort, es, rfl, hes⟩ := h
  obtain ⟨-, _, hentries, -, rfl⟩ := clear_eq_ok_iff.mp hclear
  obtain rfl := Folder.entries.inj hentries
  refine ⟨hsafe, hshort, _, rfl, ?_⟩
  by_cases hname : fileName other = fileName job
  · rw [hname, Folder.lookup_filter_self]
    simp
  · rwa [Folder.lookup_filter_of_ne hname]

end Checkpoint

/-! ## A run keeps its job processing -/

namespace Run

open Tabula.Action

/-- While batches are driven, a job goes on processing. -/
abbrev Goes (id : String) : World → World → Prop := World.Keeps (Ledger.Counts id)

theorem goes_refl (id : String) (w : World) : Goes id w w := .refl (Ledger.Counts.refl id) w

theorem Goes.trans {id : String} {w w' w'' : World} (h : Goes id w w') (h' : Goes id w' w'') :
    Goes id w w'' := World.Keeps.trans .trans h h'

variable (id : String)

theorem leads_execute (job : Job) (source : Source) (d : Descriptor) :
    Leads (Goes id) (execute job source d) := by
  intro s w db hw
  obtain ⟨rows, hrows⟩ := exists_rows_of_execute hw job source d s
  rw [hrows]
  exact ⟨⟨_, rfl, .refl id _⟩, fun _ h => h⟩

theorem leads_advance (delta : Int) : Leads (Goes id) (Jobs.advance id delta) := by
  intro s w db hw
  rw [Jobs.advance, run_bind_ok run_now]
  rcases hadvance : Ledger.advance s.now id delta db.jobs with why | ⟨x, jobs⟩
  · rw [Jobs.run_change_error hw hadvance]
    exact ⟨⟨db, hw, .refl id _⟩, fun _ h => h⟩
  · rw [Jobs.run_change hw hadvance]
    exact ⟨⟨_, rfl, Ledger.counts_of_advance hadvance⟩, fun _ h => h⟩

theorem leads_changeFolder {f : Folder → Except Failure Folder}
    (hf : ∀ folder folder', f folder = .ok folder' →
      ∀ other, Checkpoint.Writable other folder → Checkpoint.Writable other folder') :
    Leads (Goes id) (changeFolder f) := by
  intro s w db hw
  rw [run_changeFolder]
  split
  · rename_i folder hfolder
    exact ⟨⟨db, hw, .refl id _⟩, hf _ _ hfolder⟩
  · exact goes_refl id w db hw

theorem leads_save (job rows : Value) : Leads (Goes id) (Checkpoints.save job rows) := by
  refine leads_bind .trans (leads_lift (goes_refl id) _) fun name => ?_
  refine leads_bind .trans (leads_now (goes_refl id)) fun now => leads_changeFolder id ?_
  intro folder folder' h other hother
  split at h
  · cases h
  all_goals exact hother.of_save h

theorem leads_clear (job : Value) : Leads (Goes id) (Checkpoints.clear job) :=
  leads_bind .trans (leads_lift (goes_refl id) _) fun _ =>
    leads_changeFolder id fun _ _ h _ hother => hother.of_clear h

theorem leads_mark (job : String) (processed : Int) : Leads (Goes id) (mark job processed) := by
  refine leads_bind .trans (leads_attempt (leads_save id _ _)) fun result => ?_
  rcases result with why | _
  · dsimp only
    split
    · exact leads_pure (goes_refl id) _
    · exact leads_throw (goes_refl id) _
  · exact leads_pure (goes_refl id) _

end Run

namespace Run

open Tabula.Action

variable {id : String} {j : Job} {s : Surroundings} {w : World} {db : Database}

/-- At its end a run completes its processing job and answers with it, or fails it. -/
theorem exists_finish (hw : w.storage = .ready db) (hj : db.jobs.find? id = some j)
    (hs : j.status = .processing) (hfile : Checkpoint.Writable id w.folder) (r : Run) :
    ∃ j', (finish id r s w).2.storage = .ready (db.withJobs (db.jobs.put j')) ∧
      j.Changes s.now j' ∧ j'.isActive = false ∧
      (∀ other, Checkpoint.Writable other w.folder →
        Checkpoint.Writable other (finish id r s w).2.folder) ∧
      ∀ done, (finish id r s w).1 = .ok done ↔ j'.status = .completed ∧ done = j' := by
  unfold finish
  rcases r.failure with _ | failure
  · let done : Job := { j with
      status := .completed, updatedAt := s.now, completedAt := some s.now, progress := Job.hundred }
    have hcomplete : Jobs.complete id s w =
        (.ok done, w.withDatabase (db.withJobs (db.jobs.put done))) := by
      rw [Jobs.complete, run_bind_ok run_now]
      exact Jobs.run_change hw (Ledger.complete_eq hj hs)
    obtain ⟨folder, hclear, _⟩ := @Checkpoints.run_clear_of_writable id s
      (w.withDatabase (db.withJobs (db.jobs.put done))) hfile
    have hfiles := (leads_clear id (.text id) s (w.withDatabase (db.withJobs (db.jobs.put done))) _
      rfl).2
    rw [hclear] at hfiles
    dsimp only
    rw [run_bind_ok hcomplete, run_bind_ok hclear]
    exact ⟨done, rfl, .completed hs, rfl, hfiles, fun other => by simp [done, eq_comm]⟩
  · let failed : Job := { j with
      status := .failed, updatedAt := s.now, completedAt := some s.now
      error := some (Text.shorten Ledger.detailLimit failure.detail) }
    have hfail : attempt (Jobs.fail id failure.detail) s w =
        (.ok (.ok failed), w.withDatabase (db.withJobs (db.jobs.put failed))) := by
      rw [run_attempt, Jobs.fail, run_bind_ok run_now,
        Jobs.run_change hw (Ledger.fail_eq hj hs failure.detail)]
    dsimp only
    rw [run_bind_ok hfail]
    exact ⟨failed, rfl, .failed _ hs, rfl, fun _ h => h, fun done => by simp [failed]⟩

end Run

namespace Pace

open Tabula.Action

variable {p : Pace} {job j : Job} {source : Source} {s : Surroundings} {w : World} {db : Database}

/-- A run ends its job, and touches no other one. It answers with the job if that is completed. -/
theorem exists_ended (source : Source) (s : Surroundings) (hsize : 1 ≤ p.batchSize)
    (hw : w.storage = .ready db)
    (hj : db.jobs.find? job.id = some j) (hs : j.status = .processing)
    (hfile : Checkpoint.Writable job.id w.folder) (processed : Int) :
    ∃ j' db', (p.run job source processed s w).2.storage = .ready db' ∧
      db'.jobs = db.jobs.put j' ∧ j.Stands j' ∧ j'.isActive = false ∧
      (∀ other, Checkpoint.Writable other w.folder →
        Checkpoint.Writable other (p.run job source processed s w).2.folder) ∧
      ∀ done, (p.run job source processed s w).1 = .ok done ↔
        j'.status = .completed ∧ done = j' := by
  obtain ⟨r, w₁, hdrive, hgoes⟩ := Run.tracks_drive (Run.goes_refl job.id) .trans
    (Run.leads_execute job.id job source) (Run.leads_advance job.id) (Run.leads_mark job.id job.id)
    p.concurrency (batchesFrom p.batchSize job.total (max 0 processed)) [] (Run.start processed) s w
  have hrun : p.run job source processed s w = Run.finish job.id r s w₁ :=
    (run_lift_bind (descriptors_eq (by omega) processed) _).trans (run_bind_ok hdrive _)
  obtain ⟨⟨db₁, hw₁, hcounts⟩, hfiles⟩ := hgoes db hw
  obtain ⟨j₁, hj₁, hs₁, hstands, hput⟩ := hcounts j hj hs
  obtain ⟨j', hj', hchanges, hended, hfiles', hanswer⟩ :=
    Run.exists_finish (s := s) hw₁ hj₁ hs₁ (hfiles _ hfile) r
  have hid : j'.id = job.id := hchanges.stands.id.trans (Ledger.id_of_find? hj₁)
  rw [hrun]
  exact ⟨j', _, hj', hput j' hid, hstands.trans hchanges.stands, hended,
    fun other hother => hfiles' other (hfiles other hother), hanswer⟩

end Pace

/-! ## One attempt -/

namespace Worker

open Tabula.Action

variable {worker : Worker} {s : Surroundings} {w : World} {db : Database} {id : String} {j : Job}

/-- An attempt comes to its batches : the job is processing, and there is a source for it. -/
def Starts (worker : Worker) (s : Surroundings) (id : String) (w : World) : Prop :=
  ∃ a, (worker.begin id s w).1 = .ok a

theorem leaves_begin_standing (worker : Worker) (id : String) (hw : w.storage = .ready db) :
    Leaves (fun db' => db'.jobs = db.jobs ∨ ∃ j job, db.jobs.find? id = some j ∧ j.Stands job ∧
      db'.jobs = db.jobs.put job) (worker.begin id) s w := by
  unfold begin
  refine leaves_query_bind hw (.inl rfl) fun j hj => ?_
  have hid := Ledger.id_of_find? (Ledger.find?_of_get hj)
  split
  · exact (isQuiet_throw _).leaves hw (.inl rfl)
  refine (isQuiet_resumeOffset j).leaves_bind hw (.inl rfl) fun p w₁ _ hw₁ => ?_
  refine (isQuiet_basePosition j).leaves_bind hw₁ (.inl rfl) fun b w₂ _ hw₂ => ?_
  have hmark : Leaves (fun db' => db'.jobs = db.jobs ∨ ∃ j job, db.jobs.find? id = some j ∧
      j.Stands job ∧ db'.jobs = db.jobs.put job)
      (Jobs.markProcessing j.id (some p) (some b)) s w₂ := by
    rw [hid]
    refine isQuiet_now.leaves_bind hw₂ (.inl rfl) fun now w₃ _ hw₃ => ?_
    refine leaves_transaction hw₃ (.inl rfl) fun job db' h => ?_
    obtain ⟨⟨job', jobs⟩, hmark, h⟩ := ok_of_bind h
    obtain ⟨_, rfl⟩ := Prod.mk.inj (Except.ok.inj h)
    obtain ⟨k, hk, hstands, rfl⟩ := Ledger.stands_of_markProcessing hmark
    exact .inr ⟨k, job', hk, hstands, rfl⟩
  refine leaves_bind hmark fun job w₃ h => ?_
  obtain ⟨db', hdb', hjobs⟩ := hmark
  rw [h] at hdb'
  refine leaves_query_bind hdb' hjobs fun columns _ => ?_
  exact leaves_lift_bind hdb' hjobs fun source _ => (isQuiet_pure _).leaves hdb' hjobs

/-- However far the beginning of an attempt comes, its job stays where it is, with work to do. -/
theorem begin_standing (worker : Worker) (s : Surroundings) (hw : w.storage = .ready db)
    (hnodup : (db.jobs.map Job.id).Nodup) (hsafe : Checkpoint.isSafeId id = true)
    (hj : db.jobs.find? id = some j) (hactive : j.isActive = true) :
    ∃ job, j.Stands job ∧ job.isActive = true ∧
      (worker.begin id s w).2 = w.withDatabase (db.withJobs (db.jobs.put job)) ∧
      ∀ a, (worker.begin id s w).1 = .ok a → a.1 = job ∧ job.status = .processing := by
  rcases begin_cases (w := worker) (s := s) hw hsafe with
    ⟨why, hrun⟩ | ⟨j', p, job, columns, hj', _, hbegun, hrun⟩
  · refine ⟨j, .refl j, hactive, ?_, fun a ha => ?_⟩
    · rw [hrun, Ledger.put_self hnodup hj]
      exact (withDatabase_self hw).symm
    · rw [hrun] at ha
      cases ha
  · obtain rfl := Option.some.inj (hj'.symm.trans hj)
    have hid : job.id = id := hbegun.continues.id.trans (Ledger.id_of_find? hj)
    have hfound := Ledger.find?_put_self hid hj
    have hstands : j'.Stands job := by
      obtain ⟨db', hdb', hjobs⟩ := leaves_begin_standing (s := s) worker id hw
      rw [hrun] at hdb'
      obtain rfl := Storage.ready.inj hdb'
      rcases hjobs with hsame | ⟨k, job', hk, hstands, hput⟩
      · replace hsame : db.jobs.put job = db.jobs := hsame
        rw [hsame] at hfound
        obtain rfl := Option.some.inj (hfound.symm.trans hj)
        exact .refl _
      · replace hput : db.jobs.put job = db.jobs.put job' := hput
        obtain rfl := Option.some.inj (hk.symm.trans hj)
        rw [hput, Ledger.find?_put_self (hstands.id.trans (Ledger.id_of_find? hj)) hj] at hfound
        obtain rfl := Option.some.inj hfound
        exact hstands
    refine ⟨job, hstands, Job.isActive_iff.mpr (.inr hbegun.status), by rw [hrun], fun a ha => ?_⟩
    rw [hrun] at ha
    rcases hsource : worker.source job columns with why | source <;> rw [hsource] at ha <;> cases ha
    exact ⟨rfl, hbegun.status⟩

/-- What an attempt at an active job leaves. No other job is touched, and no file that could be
written is lost. Once the attempt came to its batches the job has ended, and else it still has work
to do. -/
structure Attempted (worker : Worker) (s : Surroundings) (w : World) (db : Database) (j j' : Job)
    (db' : Database) : Prop where
  ready : (worker.run j.id s w).2.storage = .ready db'
  jobs : db'.jobs = db.jobs.put j'
  stands : j.Stands j'
  files : ∀ other, Checkpoint.Writable other w.folder →
    Checkpoint.Writable other (worker.run j.id s w).2.folder
  active : j'.isActive = true ↔ ¬ worker.Starts s j.id w
  answer : ∀ done, (worker.run j.id s w).1 = .ok done ↔ j'.status = .completed ∧ done = j'

theorem exists_attempted (hsize : 1 ≤ worker.pace.batchSize) (hw : w.storage = .ready db)
    (hnodup : (db.jobs.map Job.id).Nodup) (hj : db.jobs.find? j.id = some j)
    (hactive : j.isActive = true) (hfile : Checkpoint.Writable j.id w.folder) :
    ∃ j' db', Attempted worker s w db j j' db' := by
  obtain ⟨job, hstands, hjob, hworld, hbegun⟩ := begin_standing worker s hw hnodup hfile.safe hj
    hactive
  rcases hbegin : worker.begin j.id s w with ⟨why | ⟨job', source, p⟩, w₁⟩
  · have hrun : worker.run j.id s w = (.error why, w₁) := by
      rw [run_eq, run_bind_error hbegin]
    rw [hbegin] at hworld
    obtain rfl := hworld
    have hstarts : ¬ worker.Starts s j.id w := by
      rintro ⟨a, ha⟩
      rw [hbegin] at ha
      cases ha
    exact ⟨job, _, by rw [hrun]; rfl, rfl, hstands, fun _ h => by rw [hrun]; exact h,
      iff_of_true hjob hstarts, fun done => by
        rw [hrun]
        simp [Job.not_completed_of_isActive hjob]⟩
  · obtain ⟨rfl, hs⟩ := hbegun (job', source, p) (by rw [hbegin])
    rw [hbegin] at hworld
    obtain rfl := hworld
    have hrun : worker.run j.id s w =
        worker.pace.run job' source p s (w.withDatabase (db.withJobs (db.jobs.put job'))) := by
      rw [run_eq, run_bind_ok hbegin]
    obtain ⟨j', db', hdb', hjobs, hstands', hended, hfiles, hanswer⟩ :=
      Pace.exists_ended source s hsize
        (w := w.withDatabase (db.withJobs (db.jobs.put job'))) rfl
        (Ledger.find?_put_self rfl (hstands.id ▸ hj)) hs (hstands.id.symm ▸ hfile) p
    refine ⟨j', db', by rw [hrun, hdb'], ?_, hstands.trans hstands', by rw [hrun]; exact hfiles,
      ?_, by rw [hrun]; exact hanswer⟩
    · rw [hjobs]
      exact Ledger.put_put hstands'.id.symm _
    · rw [hended]
      exact iff_of_false (by simp) fun hnot => hnot ⟨_, by rw [hbegin]⟩

end Worker

/-! ## All attempts -/

/-- An attempt at a job : the world before it, and what it answers with. -/
structure Attempt where
  job : String
  before : World
  result : Except Failure Job

namespace Worker

open Tabula.Action

variable {worker : Worker} {table : Option String} {s : Surroundings} {w w' : World} {db : Database}
  {tried : List String} {log : List Attempt}

/-- The attempts at the newest active job, one after the other, until there is none or the newest
one has been tried. -/
inductive Drains (worker : Worker) (table : Option String) (s : Surroundings) :
    List String → World → List Attempt → World → Prop where
  | idle {tried : List String} {w : World}
      (hnone : Jobs.findActive table s w = (.ok none, w)) : Drains worker table s tried w [] w
  | again {tried : List String} {w : World} {job : Job}
      (hfound : Jobs.findActive table s w = (.ok (some job), w)) (htried : job.id ∈ tried) :
      Drains worker table s tried w [] w
  | attempt {tried : List String} {w w₁ w' : World} {job : Job} {result : Except Failure Job}
      {log : List Attempt} (hfound : Jobs.findActive table s w = (.ok (some job), w))
      (hnew : job.id ∉ tried) (hrun : worker.run job.id s w = (result, w₁))
      (hrest : Drains worker table s (job.id :: tried) w₁ log w') :
      Drains worker table s tried w (⟨job.id, w, result⟩ :: log) w'

/-- With fuel for all attempts, the answer has the jobs that they answered with. -/
theorem run_drain (h : Drains worker table s tried w log w') :
    ∀ {fuel : Nat}, log.length < fuel →
      worker.drain table fuel tried s w = (.ok (log.filterMap fun a => a.result.toOption), w') := by
  induction h with
  | idle hnone =>
    rintro (_ | fuel) hfuel
    · cases hfuel
    · rw [drain, run_bind_ok hnone]
      rfl
  | again hfound htried =>
    rintro (_ | fuel) hfuel
    · cases hfuel
    · rw [drain, run_bind_ok hfound]
      simp only [List.contains_iff_mem.mpr htried, if_true]
      rfl
  | @attempt tried w w₁ w' job result log hfound hnew hrun _ ih =>
    rintro (_ | fuel) hfuel
    · cases hfuel
    · have hattempt : attempt (worker.run job.id) s w = (.ok result, w₁) := by
        rw [run_attempt, hrun]
      have hrest := @ih fuel (by simpa using hfuel)
      rw [drain, run_bind_ok hfound]
      simp only [mt List.contains_iff_mem.mp hnew, Bool.false_eq_true, if_false]
      rw [run_bind_ok hattempt]
      rcases result with why | done
      · exact hrest
      · dsimp only
        rw [run_bind_ok hrest]
        rfl

theorem run_findActive (hw : w.storage = .ready db) :
    Jobs.findActive table s w = (.ok (db.jobs.waiting table).head?, w) := by
  rw [← Ledger.findActive_eq]
  exact run_query hw _

/-- What attempts at the jobs in line have come to. -/
structure Drained (worker : Worker) (s : Surroundings) (line : List Job) (log : List Attempt)
    (ledger ledger' : Ledger) : Prop where
  initial : log.map Attempt.job <+: line.map Job.id
  ended : ∀ a ∈ log, ∃ j', ledger'.find? a.job = some j' ∧
    (j'.isActive = true ↔ ¬ worker.Starts s a.job a.before) ∧
    ∀ done, a.result = .ok done ↔ j'.status = .completed ∧ done = j'
  others : ∀ id, id ∉ log.map Attempt.job → ledger'.find? id = ledger.find? id
  whole : (∀ a ∈ log, worker.Starts s a.job a.before) → log.map Attempt.job = line.map Job.id
  last : ∀ a ∈ log.dropLast, worker.Starts s a.job a.before

section Attempted

variable {j j' : Job} {rest : List Job} {db' : Database} {ledger : Ledger}
  (h : Attempted worker s w db j j' db') (hj : db.jobs.find? j.id = some j)

include h

theorem Attempted.find?_of_ne {id : String} (hid : id ≠ j.id) :
    db'.jobs.find? id = db.jobs.find? id := by
  rw [h.jobs]
  exact Ledger.find?_put_of_ne (by rwa [h.stands.id]) db.jobs

include hj

theorem Attempted.find?_self : db'.jobs.find? j.id = some j' := by
  rw [h.jobs]
  exact Ledger.find?_put_self h.stands.id hj

/-- The attempt comes to its batches, and the others in line are attempted after it. -/
theorem Drained.cons (hstarts : worker.Starts s j.id w) (hid : j.id ∉ rest.map Job.id)
    (hrest : Drained worker s rest log db'.jobs ledger) :
    Drained worker s (j :: rest) (⟨j.id, w, (worker.run j.id s w).1⟩ :: log) db.jobs ledger where
  initial := List.cons_prefix_cons.mpr ⟨rfl, hrest.initial⟩
  ended := by
    have hnotMem : j.id ∉ log.map Attempt.job := fun hlog => hid (hrest.initial.subset hlog)
    refine List.forall_mem_cons.mpr ⟨⟨j', ?_, h.active, h.answer⟩, hrest.ended⟩
    exact (hrest.others j.id hnotMem).trans (h.find?_self hj)
  others := by
    intro id hid
    rw [List.map_cons, List.mem_cons, not_or] at hid
    exact (hrest.others id hid.2).trans (h.find?_of_ne hid.1)
  whole := by
    intro hall
    rw [List.map_cons, List.map_cons, hrest.whole (List.forall_mem_cons.mp hall).2]
  last := by
    rcases log with _ | ⟨a, log⟩
    · simp
    · exact List.forall_mem_cons.mpr ⟨hstarts, hrest.last⟩

/-- The attempt does not come to its batches, and no other is made. -/
theorem Drained.of_not_starts (hstarts : ¬ worker.Starts s j.id w) :
    Drained worker s (j :: rest) [⟨j.id, w, (worker.run j.id s w).1⟩] db.jobs db'.jobs where
  initial := List.cons_prefix_cons.mpr ⟨rfl, List.nil_prefix⟩
  ended := List.forall_mem_singleton.mpr ⟨j', h.find?_self hj, h.active, h.answer⟩
  others := fun id hid => h.find?_of_ne (by simpa using hid)
  whole := fun hall => absurd (hall _ List.mem_cons_self) hstarts
  last := by simp

end Attempted

/-- A job whose attempt does not come to its batches is found again, so it is the last one. -/
theorem drains_of_not_starts (hw : w.storage = .ready db) (hnodup : (db.jobs.map Job.id).Nodup)
    {j j' : Job} {rest : List Job} (hline : db.jobs.waiting table = j :: rest) {db' : Database}
    (h : Attempted worker s w db j j' db') (hstarts : ¬ worker.Starts s j.id w)
    (hnew : j.id ∉ tried) :
    Drains worker table s tried w [⟨j.id, w, (worker.run j.id s w).1⟩] (worker.run j.id s w).2 := by
  have hfirst : Jobs.findActive table s w = (.ok (some j), w) := by
    rw [run_findActive hw, hline]
    rfl
  have hagain : Jobs.findActive table s (worker.run j.id s w).2 =
      (.ok (some j'), (worker.run j.id s w).2) := by
    rw [run_findActive h.ready, h.jobs, ← Ledger.findActive_eq,
      Ledger.findActive_put hnodup hline h.stands (h.active.mpr hstarts)]
  exact .attempt hfirst hnew rfl (.again hagain (h.stands.id ▸ List.mem_cons_self))

theorem exists_drains (hsize : 1 ≤ worker.pace.batchSize) :
    ∀ (line : List Job) (tried : List String) {w : World} {db : Database},
      w.storage = .ready db → (db.jobs.map Job.id).Nodup → db.jobs.waiting table = line →
      (∀ j ∈ line, Checkpoint.Writable j.id w.folder) → (∀ j ∈ line, j.id ∉ tried) →
      ∃ log w' db', Drains worker table s tried w log w' ∧ w'.storage = .ready db' ∧
        Drained worker s line log db.jobs db'.jobs
  | [], tried, w, db, hw, _, hline, _, _ => by
    refine ⟨[], w, db, .idle ?_, hw, by simp, by simp, fun _ _ => rfl, fun _ => rfl, by simp⟩
    rw [run_findActive hw, hline]
    rfl
  | j :: rest, tried, w, db, hw, hnodup, hline, hfiles, hnew => by
    have hmem := Ledger.mem_waiting.mp (hline ▸ List.mem_cons_self : j ∈ db.jobs.waiting table)
    have hj := Ledger.find?_of_mem hnodup hmem.1
    have hids := Ledger.nodup_waiting hnodup table
    rw [hline, List.map_cons, List.nodup_cons] at hids
    obtain ⟨j', db₁, h⟩ := exists_attempted (s := s) hsize hw hnodup hj hmem.2.2
      (hfiles j List.mem_cons_self)
    by_cases hstarts : worker.Starts s j.id w
    · -- The job has ended, so the others are in line.
      have hended : j'.isActive = false := by
        rw [← Bool.not_eq_true]
        exact fun hactive => h.active.mp hactive hstarts
      obtain ⟨log, w', db', hdrains, hw', hdrained⟩ := exists_drains hsize rest (j.id :: tried)
        h.ready (by rw [h.jobs, Ledger.map_id_put]; exact hnodup)
        (by rw [h.jobs]; exact Ledger.waiting_put_of_first hnodup hline h.stands hended)
        (fun k hk => h.files k.id (hfiles k (List.mem_cons_of_mem j hk)))
        fun k hk => by
          rw [List.mem_cons, not_or]
          exact ⟨fun hid => hids.1 (hid ▸ List.mem_map_of_mem hk),
            hnew k (List.mem_cons_of_mem j hk)⟩
      have hnext : Jobs.findActive table s w = (.ok (some j), w) := by
        rw [run_findActive hw, hline]
        rfl
      exact ⟨_, w', db', .attempt hnext (hnew j List.mem_cons_self) rfl hdrains, hw',
        .cons h hj hstarts hids.1 hdrained⟩
    · exact ⟨_, _, db₁, drains_of_not_starts hw hnodup hline h hstarts (hnew j List.mem_cons_self),
        h.ready, .of_not_starts h hj hstarts⟩

/-- The job with this id, if it is completed. -/
def completed (ledger : Ledger) (id : String) : Option Job :=
  (ledger.find? id).filter fun j => j.status = .completed

/-- What is answered with is what is completed. -/
theorem Drained.answer {line : List Job} {ledger ledger' : Ledger}
    (h : Drained worker s line log ledger ledger') (hnodup : (line.map Job.id).Nodup)
    (hline : ∀ j ∈ line, ledger.find? j.id = some j ∧ j.isActive = true) :
    (log.filterMap fun a => a.result.toOption) =
      line.filterMap fun j => completed ledger' j.id := by
  have hlog : ∀ a ∈ log, a.result.toOption = completed ledger' a.job := by
    intro a ha
    obtain ⟨j', hj', _, hanswer⟩ := h.ended a ha
    rw [completed, hj', Option.filter_some]
    rcases hresult : a.result with why | done
    · have hs : j'.status ≠ .completed := fun hs => by
        rw [(hanswer j').mpr ⟨hs, rfl⟩] at hresult
        cases hresult
      simp [hs, Except.toOption]
    · obtain ⟨hs, rfl⟩ := (hanswer done).mp hresult
      simp [hs, Except.toOption]
  obtain ⟨rest, hrest⟩ := h.initial
  have hnone : rest.filterMap (completed ledger') = [] := by
    refine List.filterMap_eq_nil_iff.mpr fun id hid => ?_
    rw [← hrest, List.nodup_append'] at hnodup
    have hmem : id ∈ line.map Job.id := hrest ▸ List.mem_append_right _ hid
    obtain ⟨j, hj, rfl⟩ := List.mem_map.mp hmem
    rw [completed, h.others _ fun hmem => hnodup.2.2 hmem hid, (hline j hj).1, Option.filter_some]
    simp [Job.not_completed_of_isActive (hline j hj).2]
  calc (log.filterMap fun a => a.result.toOption)
      = (log.map Attempt.job).filterMap (completed ledger') := by
        rw [List.filterMap_map]
        exact List.filterMap_congr hlog
    _ = (line.map Job.id).filterMap (completed ledger') := by
        rw [← hrest, List.filterMap_append, hnone, List.append_nil]
    _ = line.filterMap fun j => completed ledger' j.id := by
        rw [List.filterMap_map]
        rfl

/-- All jobs in line are attempted and have ended exactly if every attempt comes to its batches. -/
theorem Drained.all_ended_iff {line : List Job} {ledger ledger' : Ledger}
    (h : Drained worker s line log ledger ledger') :
    (log.map Attempt.job = line.map Job.id ∧
      ∀ j ∈ line, ∃ j', ledger'.find? j.id = some j' ∧ j'.isActive = false) ↔
        ∀ a ∈ log, worker.Starts s a.job a.before := by
  constructor
  · rintro ⟨_, hall⟩ a ha
    obtain ⟨j, hj, hid⟩ := List.mem_map.mp (h.initial.subset (List.mem_map_of_mem ha))
    obtain ⟨j', hj', hended⟩ := hall j hj
    obtain ⟨j'', hj'', hactive, _⟩ := h.ended a ha
    rw [← hid, hj'] at hj''
    obtain rfl := Option.some.inj hj''
    by_contra hstarts
    rw [hactive.mpr hstarts] at hended
    cases hended
  · intro hall
    have hwhole := h.whole hall
    refine ⟨hwhole, fun j hj => ?_⟩
    obtain ⟨a, ha, hid⟩ := List.mem_map.mp (hwhole.symm ▸ List.mem_map_of_mem hj :
      j.id ∈ log.map Attempt.job)
    obtain ⟨j', hj', hactive, _⟩ := h.ended a ha
    refine ⟨j', hid ▸ hj', ?_⟩
    rw [← Bool.not_eq_true]
    exact fun h => hactive.mp h (hall a ha)

/-- A worker works off the active jobs, the newest first and each one once, and answers with those
that it completed. All are tried, and end, exactly if every attempt comes to its batches. Otherwise
the first one that does not is the last attempt, and the older jobs are as they were. -/
theorem runPending_drains (hsize : 1 ≤ worker.pace.batchSize) (hw : w.storage = .ready db)
    (hnodup : (db.jobs.map Job.id).Nodup)
    (hfiles : ∀ j ∈ db.jobs.waiting table, Checkpoint.Writable j.id w.folder) :
    ∃ log w' db', Drains worker table s [] w log w' ∧ w'.storage = .ready db' ∧
      worker.runPending table s w =
        (.ok ((db.jobs.waiting table).filterMap fun j => completed db'.jobs j.id), w') ∧
      log.map Attempt.job <+: (db.jobs.waiting table).map Job.id ∧ (log.map Attempt.job).Nodup ∧
      (∀ j ∈ db.jobs.waiting table, j.id ∉ log.map Attempt.job →
        db'.jobs.find? j.id = some j) ∧
      (db.jobs.waiting table).Pairwise (fun a b => Ledger.newerOrSame a b = true) ∧
      (∀ a ∈ log.dropLast, worker.Starts s a.job a.before) ∧
      ((log.map Attempt.job = (db.jobs.waiting table).map Job.id ∧
        ∀ j ∈ db.jobs.waiting table, ∃ j', db'.jobs.find? j.id = some j' ∧ j'.isActive = false) ↔
          ∀ a ∈ log, worker.Starts s a.job a.before) := by
  have hline : ∀ j ∈ db.jobs.waiting table, db.jobs.find? j.id = some j ∧ j.isActive = true :=
    fun j hj => ⟨Ledger.find?_of_mem hnodup (Ledger.mem_waiting.mp hj).1,
      (Ledger.mem_waiting.mp hj).2.2⟩
  have hids := Ledger.nodup_waiting hnodup table
  obtain ⟨log, w', db', hdrains, hw', h⟩ := exists_drains (s := s) hsize _ [] hw hnodup
    rfl hfiles (by simp)
  have hlength : log.length < db.jobs.length + 1 := by
    have := h.initial.length_le.trans_eq (List.length_map _)
    have := Ledger.length_waiting_le db.jobs table
    rw [List.length_map] at *
    omega
  refine ⟨log, w', db', hdrains, hw', ?_, h.initial, hids.sublist h.initial.sublist,
    fun j hj hid => (h.others j.id hid).trans (hline j hj).1, Ledger.pairwise_waiting _ _, h.last,
    h.all_ended_iff⟩
  have hcount : jobCount s w = (.ok db.jobs.length, w) := run_query hw _
  rw [runPending, run_bind_ok hcount, run_drain hdrains hlength, h.answer hids hline]

/-- The small job is worked off. -/
theorem exists_drains_sampleWorker :
    let w := sampleWorld sampleJob [] (.entries [])
    ∃ log w' db', (sampleWorker 2 2).Drains none still [] w log w' ∧ w'.storage = .ready db' ∧
      (sampleWorker 2 2).runPending none still w =
        (.ok ((Ledger.waiting none [sampleJob]).filterMap fun j => completed db'.jobs j.id), w') ∧
      ((log.map Attempt.job = (Ledger.waiting none [sampleJob]).map Job.id ∧
        ∀ j ∈ Ledger.waiting none [sampleJob], ∃ j', db'.jobs.find? j.id = some j' ∧
          j'.isActive = false) ↔
        ∀ a ∈ log, (sampleWorker 2 2).Starts still a.job a.before) := by
  intro w
  obtain ⟨log, w', db', hdrains, hw', hrun, _, _, _, _, _, hall⟩ :=
    @runPending_drains (sampleWorker 2 2) none still w (sampleDatabase sampleJob []) (by decide) rfl
      (by decide) fun j hj => by
        rw [List.mem_singleton.mp (Ledger.mem_waiting.mp hj).1]
        exact writable_empty
  exact ⟨log, w', db', hdrains, hw', hrun, hall⟩

/-- A job that gets no source stays processing, and the older one is not tried. -/
theorem runPending_of_no_source :
    let older : Job :=
      { sampleJob with status := .pending, basePosition := none, startedAt := none }
    let newer : Job := { older with id := "job_2", createdAt := ⟨1⟩ }
    let worker : Worker := ⟨⟨2, 2⟩, syntheticFactory (.object [("number_max", .text "x")])⟩
    let ended := worker.runPending none still
      ⟨.ready ⟨[], [], [], [], [], [older, newer]⟩, .entries [], 0, 0, 0, []⟩
    ended.1.toOption = some [] ∧ ended.2.jobs.map Job.status = [.pending, .processing] := by
  intro older newer worker ended
  let w : World := ⟨.ready ⟨[], [], [], [], [], [older, newer]⟩, .entries [], 0, 0, 0, []⟩
  have hnone : (worker.run newer.id still w).1.toOption.isSome = false := by decide +kernel
  have hjobs : (worker.run newer.id still w).2.jobs.map Job.status = [.pending, .processing] := by
    decide +kernel
  have hline : Ledger.waiting none [older, newer] = [newer, older] := by
    have hall : [older, newer].filter (Ledger.isOf none) = [older, newer] := rfl
    rw [Ledger.waiting, Ledger.newestFirst, hall, mergeSort_pair, if_neg (by decide)]
    rfl
  have hstarts : ¬ worker.Starts still newer.id w := by
    rintro ⟨a, ha⟩
    have hsome : (worker.begin newer.id still w).1.toOption.isSome = false := by decide +kernel
    rw [ha] at hsome
    cases hsome
  obtain ⟨j', db', hattempted⟩ := @exists_attempted worker still w _ newer (by decide) rfl
    (by decide) (by decide +kernel) rfl ⟨by decide, by decide, [], rfl, by decide⟩
  have hrun : ended = (.ok _, _) := run_drain
    (drains_of_not_starts rfl (by decide) hline hattempted hstarts (List.not_mem_nil)) (by decide)
  rw [hrun]
  refine ⟨congrArg some ?_, hjobs⟩
  rw [Option.isSome_eq_false_iff, Option.isNone_iff_eq_none] at hnone
  exact List.filterMap_cons_none hnone

end Worker

end Tabula
