import Tabula.Proofs.Ingesting

/-!
# Jobs stay the same jobs

Whatever a worker does, the database has the jobs that it had, in the order in which they were
made (`Database.SameJobs`). Only calls about jobs touch the ledger, and each of these puts a job in
the place of one with its id (`Jobs.sameJobs_change`).
-/

namespace Tabula

open Store Database Tabula.Action

namespace Database

/-- The jobs are those that there were, whatever became of them. -/
def SameJobs (db db' : Database) : Prop := db'.jobs.map Job.id = db.jobs.map Job.id

theorem SameJobs.refl (db : Database) : SameJobs db db := rfl

theorem SameJobs.trans {db₁ db₂ db₃ : Database} (h : SameJobs db₁ db₂) (h' : SameJobs db₂ db₃) :
    SameJobs db₁ db₃ :=
  Eq.trans h' h

end Database

namespace Jobs

/-- A call that puts a job in the place of one with its id. -/
theorem sameJobs_change {α : Type} {f : Moment → Ledger → Except Failure (α × Ledger)}
    (hf : ∀ now ledger a ledger', f now ledger = .ok (a, ledger') → ∃ j, ledger' = ledger.put j) :
    Makes SameJobs (now >>= fun now => change (f now)) := by
  intro s w db hw
  refine isQuiet_now.leaves_bind hw rfl fun now w' _ hw' => ?_
  refine leaves_transaction hw' rfl fun a db' h => ?_
  obtain ⟨⟨a', jobs⟩, hjobs, h⟩ := ok_of_bind h
  obtain ⟨_, rfl⟩ := Prod.mk.inj (Except.ok.inj h)
  obtain ⟨j, rfl⟩ := hf _ _ _ _ hjobs
  exact Ledger.map_id_put db.jobs j

theorem sameJobs_markProcessing (id : String) (resumeFrom base : Option Int) :
    Makes SameJobs (markProcessing id resumeFrom base) := by
  refine sameJobs_change fun now ledger j ledger' h => ?_
  obtain ⟨_, _, h⟩ := ok_of_bind h
  split at h
  · cases h
  · obtain ⟨_, _, h⟩ := ok_of_bind h
    obtain ⟨_, _, h⟩ := ok_of_bind h
    exact ⟨_, (Prod.mk.inj (Except.ok.inj h)).2.symm⟩

theorem sameJobs_advance (id : String) (delta : Int) : Makes SameJobs (advance id delta) := by
  refine sameJobs_change fun now ledger x ledger' h => ?_
  rw [Ledger.advance] at h
  split at h
  · cases h
  · obtain ⟨_, _, h⟩ := ok_of_bind h
    obtain ⟨_, _, h⟩ := ok_of_bind h
    split at h
    · cases h
    · obtain ⟨_, _, h⟩ := ok_of_bind h
      exact ⟨_, (Prod.mk.inj (Except.ok.inj h)).2.symm⟩

theorem sameJobs_complete (id : String) : Makes SameJobs (complete id) := by
  refine sameJobs_change fun now ledger j ledger' h => ?_
  obtain ⟨_, _, h⟩ := ok_of_bind h
  exact ⟨_, (Prod.mk.inj (Except.ok.inj h)).2.symm⟩

theorem sameJobs_fail (id detail : String) : Makes SameJobs (fail id detail) := by
  refine sameJobs_change fun now ledger j ledger' h => ?_
  obtain ⟨_, _, h⟩ := ok_of_bind h
  exact ⟨_, (Prod.mk.inj (Except.ok.inj h)).2.symm⟩

end Jobs

theorem Run.keeps_sameJobs (id : String) : Run.Keeps SameJobs id where
  refl := .refl
  trans := .trans
  advance := Jobs.sameJobs_advance id
  complete := Jobs.sameJobs_complete id
  fail := Jobs.sameJobs_fail id

/-- Executing a batch does not touch the ledger. -/
theorem Run.sameJobs_execute (job : Job) (source : Source) (d : Descriptor) :
    Makes SameJobs (Run.execute job source d) := by
  intro s w db hw
  refine leaves_lift_bind hw rfl fun rows _ => ?_
  refine leaves_lift_bind hw rfl fun es _ => ?_
  unfold RowStore.append
  split
  · exact (isQuiet_pure 0).leaves hw rfl
  · refine isQuiet_now.leaves_bind hw rfl fun now w' _ hw' => ?_
    refine leaves_rowStore (leaves_transaction hw' rfl fun n db' h => ?_)
    rw [RowStore.appended] at h
    split at h
    · obtain ⟨_, rfl⟩ := Prod.mk.inj (Except.ok.inj h)
      exact rfl
    · cases h

namespace Worker

variable {w : Worker}

theorem sameJobs_begin (w : Worker) (id : String) : Makes SameJobs (w.begin id) := by
  have hquiet : ∀ {α : Type} {x : Action α}, IsQuiet x → Makes SameJobs x :=
    fun hx => hx.makes SameJobs.refl
  unfold begin
  refine makes_bind .trans (hquiet (isQuiet_query _)) fun j => ?_
  split
  · exact hquiet (isQuiet_throw _)
  refine makes_bind .trans (hquiet (isQuiet_resumeOffset j)) fun p => ?_
  refine makes_bind .trans (hquiet (isQuiet_basePosition j)) fun b => ?_
  refine makes_bind .trans (Jobs.sameJobs_markProcessing _ _ _) fun job => ?_
  refine hquiet (isQuiet_bind (isQuiet_query _) fun columns => ?_)
  exact isQuiet_bind (isQuiet_lift _) fun _ => isQuiet_pure _

theorem sameJobs_run (w : Worker) (id : String) : Makes SameJobs (w.run id) := by
  rw [run_eq]
  exact makes_bind .trans (sameJobs_begin w id) fun ⟨job, source, p⟩ =>
    w.pace.makes_run (Run.keeps_sameJobs job.id) (Run.sameJobs_execute job source) p

theorem sameJobs_runPending (w : Worker) (table : Option String) :
    Makes SameJobs (w.runPending table) :=
  makes_bind .trans ((isQuiet_query _).makes SameJobs.refl) fun n =>
    makes_drain SameJobs.refl .trans (sameJobs_run w) table (n + 1) []

end Worker

/-- Also on the disk of a process that was stopped. -/
theorem sameJobs_of_onDisk {w : Worker} {id : String} {refuses : Descriptor → Failure → Prop}
    {world₀ world : World} {db₀ : Database} (hw : world₀.storage = .ready db₀)
    (h : OnDisk w id refuses world₀ world) :
    ∃ db, world.storage = .ready db ∧ SameJobs db₀ db := by
  refine makes_of_onDisk SameJobs.refl .trans (Worker.sameJobs_begin w id) ?_ hw h
  rintro world db job f hdb ⟨s, source, p, begun, ds, hbegin, _, hreach⟩
  obtain ⟨db₁, hdb₁, h₁⟩ := Worker.sameJobs_begin w id s world db hdb
  rw [hbegin] at hdb₁
  obtain ⟨db₂, hdb₂, h₂⟩ := Flight.keeps_of_reaches (Run.keeps_sameJobs job.id)
    (Run.sameJobs_execute job source) hreach hdb₁
  have hrun := h₁.trans h₂
  exact ⟨⟨db₂, hdb₂, hrun⟩, fun s =>
    ⟨(Jobs.sameJobs_complete job.id s _ db₂ hdb₂).mono fun _ => hrun.trans,
      (Run.makes_finish (Run.keeps_sameJobs job.id) f.run s _ db₂ hdb₂).mono fun _ => hrun.trans⟩⟩

end Tabula
