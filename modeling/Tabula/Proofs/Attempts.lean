import Tabula.Ingest.Worker
import Tabula.Proofs.CheckpointFiles
import Tabula.Proofs.JobLedger

/-!
# Attempts at a job

`Worker.begin` is what `Worker.run` does before its first batch : it finds where the job
resumes and moves it to processing (`Worker.run_eq`). Where a job resumes is a function of
the folder and the rows, `Job.resumesAt`. `run_begin` says when an attempt begins well, and
`begin_cases` what can have happened in any case.
-/

namespace Tabula

open Store

namespace Job

/-- The position of a job's first row once it runs : its own, or the one after the last row
of its table. -/
def baseAmong (j : Job) (rows : Rows) : Int :=
  j.basePosition.getD (max 0 (Rows.nextPosition j.table rows))

/-- Where a job resumes : at its checkpoint, else after the rows it has if it is processing. -/
def resumesAt (today : Date) (folder : Folder) (rows : Rows) (j : Job) : Except Failure Int :=
  match Checkpoint.load today j.id folder with
  | .error e => .error e
  | .ok (some saved) => .ok (min saved j.total)
  | .ok none =>
    if j.status = .processing then
      (RowStore.answered .count (Rows.countJob j.table j.id rows)).map
        fun n : Nat => min (n : Int) j.total
    else .ok 0

end Job

namespace Worker

variable {j : Job} {s : Surroundings} {world : World} {db : Database} {p : Int}

/-- Looking where a job resumes changes nothing. -/
theorem run_resumeOffset (hsafe : Checkpoint.isSafeId j.id = true)
    (hw : world.storage = .ready db) :
    resumeOffset j s world = (j.resumesAt s.today world.folder db.rows, world) := by
  have hload := @Checkpoints.run_load j.id s world hsafe
  unfold resumeOffset
  rw [Action.run_bind, hload, Job.resumesAt]
  rcases Checkpoint.load s.today j.id world.folder with e | _ | saved
  · rfl
  · simp only
    by_cases hs : j.status = .processing
    · have hcount : RowStore.countJob j.table j.id s world =
          (RowStore.answered .count (Rows.countJob j.table j.id db.rows), world) :=
        Action.run_answered hw .count fun db => Rows.countJob j.table j.id db.rows
      rw [if_pos hs, if_pos hs, Action.run_bind, hcount]
      rcases RowStore.answered .count (Rows.countJob j.table j.id db.rows) with e | n <;> rfl
    · rw [if_neg hs, if_neg hs]
      rfl
  · rfl

/-- A job that has a base position keeps it. -/
theorem run_basePosition (hw : world.storage = .ready db) :
    basePosition j s world =
      (.ok (j.basePosition.getD (Rows.nextPosition j.table db.rows)), world) := by
  unfold basePosition
  rcases j.basePosition with _ | b
  · exact Action.run_rowStore_ok (Action.run_query hw _)
  · rfl

/-- What `run` does before the first batch. The answer is the processing job, its source and
where it resumes. -/
def begin (w : Worker) (id : String) : Action (Job × Source × Int) := do
  let job ← Jobs.get id
  if job.status.isTerminal then throw (.jobState id (.alreadyEnded job.status))
  let processed ← resumeOffset job
  let base ← basePosition job
  let job ← Jobs.markProcessing job.id (some processed) (some base)
  let columns ← Catalog.columnTypes job.table
  let source ← w.source job columns
  return (job, source, processed)

theorem run_eq (w : Worker) (id : String) :
    w.run id = w.begin id >>= fun a => w.pace.run a.1 a.2.1 a.2.2 := by
  unfold run begin
  simp only [bind_assoc]
  refine congrArg (Jobs.get id >>= ·) (funext fun job => ?_)
  split
  · rfl
  · simp

/-- A job that was moved to processing, with its base position. -/
structure Begun (p : Int) (rows : Rows) (j job : Job) : Prop where
  active : j.isActive = true
  continues : j.Continues job
  status : job.status = .processing
  processed : job.processed = min (max 0 p) j.total
  base : job.basePosition = some (j.baseAmong rows)

theorem getD_max (b : Option Int) (n : Int) :
    b.getD (max 0 (b.getD n)) = b.getD (max 0 n) := by
  rcases b with _ | _ <;> rfl

theorem begun_of_restarted {rows : Rows} {job : Job} (h : Ledger.Restarted (some p)
      (j.basePosition.getD (Rows.nextPosition j.table rows)) j job) : Begun p rows j job where
  active := h.active
  continues := h.continues
  status := h.status
  processed := h.processed
  base := by rw [h.base, getD_max, Job.baseAmong]

variable {w : Worker} {id : String}

/-- Once its job is moved to processing, an attempt needs nothing but a source. -/
theorem run_begin_of_markProcessing {job : Job} {jobs : Ledger}
    (hw : world.storage = .ready db) (hj : db.jobs.find? id = some j) (hactive : j.isActive = true)
    (hresume : resumeOffset j s world = (.ok p, world))
    (hmark : Ledger.markProcessing s.now id (some p)
      (some (j.basePosition.getD (Rows.nextPosition j.table db.rows))) db.jobs = .ok (job, jobs)) :
    w.begin id s world =
      ((w.source job (Catalog.typesOf job.table (db.withJobs jobs))).map fun source =>
        (job, source, p), world.withDatabase (db.withJobs jobs)) := by
  have hid : j.id = id := Ledger.id_of_find? hj
  have hget : Jobs.get id s world = (.ok j, world) := by
    rw [Jobs.run_get hw, Ledger.get_eq hj]
  have hterminal : j.status.isTerminal = false := by simpa [Job.isActive] using hactive
  have hprocessing : Jobs.markProcessing j.id (some p)
      (some (j.basePosition.getD (Rows.nextPosition j.table db.rows))) s world =
        (.ok job, world.withDatabase (db.withJobs jobs)) := by
    rw [hid, Jobs.markProcessing, Action.run_bind_ok Action.run_now]
    exact Jobs.run_change hw hmark
  unfold begin
  rw [Action.run_bind_ok hget]
  simp only [hterminal, Bool.false_eq_true, if_false]
  rw [Action.run_bind_ok hresume, Action.run_bind_ok (run_basePosition hw),
    Action.run_bind_ok hprocessing]
  have hcolumns : Catalog.columnTypes job.table s (world.withDatabase (db.withJobs jobs)) =
      (.ok (Catalog.typesOf job.table (db.withJobs jobs)),
        world.withDatabase (db.withJobs jobs)) := Action.run_query rfl _
  rw [Action.run_bind_ok hcolumns, Action.run_bind, Action.run_liftM]
  rcases w.source job (Catalog.typesOf job.table (db.withJobs jobs)) with why | source <;> rfl

/-- An attempt begins well with an active job whose counts and positions the store can hold. -/
theorem run_begin (hw : world.storage = .ready db) (hj : db.jobs.find? id = some j)
    (hactive : j.isActive = true) (hresume : resumeOffset j s world = (.ok p, world))
    (hcount : fitsInteger (min (max 0 p) j.total) = true)
    (hbase : fitsInteger (j.baseAmong db.rows) = true)
    (hsource : ∀ job columns, ∃ source, w.source job columns = .ok source) :
    ∃ job columns source, w.begin id s world =
        (.ok (job, source, p), world.withDatabase (db.withJobs (db.jobs.put job))) ∧
      Begun p db.rows j job ∧ w.source job columns = .ok source := by
  have hfits : fitsInteger (j.basePosition.getD
      (max 0 (j.basePosition.getD (Rows.nextPosition j.table db.rows)))) = true := by
    rwa [getD_max]
  obtain ⟨job, hmark⟩ := @Ledger.exists_markProcessing db.jobs id j s.now hj hactive (some p)
    (j.basePosition.getD (Rows.nextPosition j.table db.rows)) (by simpa using hcount) hfits
  obtain ⟨j', hj', _, hrestarted⟩ := Ledger.restarted_of_markProcessing hmark
  obtain rfl := Option.some.inj (hj'.symm.trans hj)
  obtain ⟨source, hs⟩ := hsource job (Catalog.typesOf job.table (db.withJobs (db.jobs.put job)))
  refine ⟨job, _, source, ?_, begun_of_restarted hrestarted, hs⟩
  rw [run_begin_of_markProcessing hw hj hactive hresume hmark, hs]
  rfl

/-- What the beginning of an attempt can have done : nothing, or it moved the job to
processing, and began unless there is no source. -/
theorem begin_cases (hw : world.storage = .ready db)
    (hsafe : Checkpoint.isSafeId id = true) :
    (∃ why, w.begin id s world = (.error why, world)) ∨
      ∃ j p job columns, db.jobs.find? id = some j ∧
        j.resumesAt s.today world.folder db.rows = .ok p ∧ Begun p db.rows j job ∧
        w.begin id s world = ((w.source job columns).map fun source => (job, source, p),
          world.withDatabase (db.withJobs (db.jobs.put job))) := by
  rcases hj : db.jobs.find? id with _ | j
  · have hget : Jobs.get id s world = (.error (.notFound .job id), world) := by
      rw [Jobs.run_get hw, Ledger.get, hj]
    exact Or.inl ⟨_, Action.run_bind_error hget _⟩
  have hget : Jobs.get id s world = (.ok j, world) := by
    rw [Jobs.run_get hw, Ledger.get_eq hj]
  have hid : j.id = id := Ledger.id_of_find? hj
  have hresume := @run_resumeOffset j s world db (by rwa [hid]) hw
  rcases hterminal : j.status.isTerminal with _ | _
  swap
  · refine Or.inl ⟨.jobState id (.alreadyEnded j.status), ?_⟩
    unfold begin
    rw [Action.run_bind_ok hget]
    simp only [hterminal, if_true]
    rfl
  rcases hp : j.resumesAt s.today world.folder db.rows with why | p
  · rw [hp] at hresume
    refine Or.inl ⟨why, ?_⟩
    unfold begin
    rw [Action.run_bind_ok hget]
    simp only [hterminal, Bool.false_eq_true, if_false]
    exact Action.run_bind_error hresume _
  rw [hp] at hresume
  rcases hmark : Ledger.markProcessing s.now id (some p)
      (some (j.basePosition.getD (Rows.nextPosition j.table db.rows))) db.jobs with
    why | ⟨job, jobs⟩
  · have hprocessing : Jobs.markProcessing j.id (some p)
        (some (j.basePosition.getD (Rows.nextPosition j.table db.rows))) s world =
          (.error why, world) := by
      rw [hid, Jobs.markProcessing, Action.run_bind_ok Action.run_now]
      exact Jobs.run_change_error hw hmark
    refine Or.inl ⟨why, ?_⟩
    unfold begin
    rw [Action.run_bind_ok hget]
    simp only [hterminal, Bool.false_eq_true, if_false]
    rw [Action.run_bind_ok hresume, Action.run_bind_ok (run_basePosition hw)]
    exact Action.run_bind_error hprocessing _
  · obtain ⟨j', hj', rfl, hrestarted⟩ := Ledger.restarted_of_markProcessing hmark
    obtain rfl := Option.some.inj (hj'.symm.trans hj)
    exact Or.inr ⟨j', p, job, _, rfl, hp, begun_of_restarted hrestarted,
      run_begin_of_markProcessing hw hj hrestarted.active hresume hmark⟩

end Worker

end Tabula
