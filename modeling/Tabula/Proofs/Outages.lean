import Tabula.Ingest.Outage
import Tabula.Proofs.Ingesting
import Tabula.Proofs.Draining

/-!
# What outages of the checkpoint files do to a run

A run uses the checkpoint of its job in three places : it looks for one before it starts, writes it
after each batch and removes it once the job is complete. What goes wrong with the writing is passed
over. `Outage.outcome_run` says what the other two come to, for a job that has not been started and
that a run with an empty folder completes : a run that cannot look fails before it changes anything,
and a run that cannot remove the file fails after it has completed the job, so that the list of
`runPending` lacks a job that is complete. In all other cases the run answers with the completed job.

The run under an outage is compared step by step with the run in an empty folder. `Follows` says
that a step does the same to all but the folder, where the checkpoint stays removable or stays in
the way.
-/

namespace Tabula

/-! ## Actions that leave the folder aside -/

namespace Action

variable {α β : Type}

/-- An action that neither asks for the folder nor changes it. -/
def IgnoresFolder (x : Action α) : Prop :=
  ∀ s w folder, x s (w.withFolder folder) = ((x s w).1, (x s w).2.withFolder folder)

theorem ignoresFolder_pure (a : α) : IgnoresFolder (Pure.pure a : Action α) := fun _ _ _ => rfl

theorem ignoresFolder_lift (r : Except Failure α) : IgnoresFolder (liftM r : Action α) :=
  fun _ _ _ => rfl

theorem ignoresFolder_now : IgnoresFolder now := fun _ _ _ => rfl

theorem ignoresFolder_transaction (f : Database → Except Failure (α × Database)) :
    IgnoresFolder (transaction f) := by
  intro s w folder
  unfold transaction
  rw [show (w.withFolder folder).storage = w.storage from rfl]
  rcases w.storage with db | _ | _
  · simp only
    rcases f db with e | ⟨a, db'⟩ <;> rfl
  · rfl
  · rfl

theorem ignoresFolder_query (f : Database → Except Failure α) : IgnoresFolder (query f) :=
  ignoresFolder_transaction _

theorem ignoresFolder_bind {x : Action α} {f : α → Action β} (hx : IgnoresFolder x)
    (hf : ∀ a, IgnoresFolder (f a)) : IgnoresFolder (x >>= f) := by
  intro s w folder
  rw [run_bind, run_bind, hx]
  rcases x s w with ⟨e | a, w'⟩
  · rfl
  · exact hf a s w' folder

theorem ignoresFolder_attempt {x : Action α} (hx : IgnoresFolder x) : IgnoresFolder (attempt x) := by
  intro s w folder
  rw [run_attempt, run_attempt, hx]

theorem ignoresFolder_rowStore (action : RowAction) {x : Action α} (hx : IgnoresFolder x) :
    IgnoresFolder (rowStore action x) := by
  intro s w folder
  unfold rowStore
  rw [hx]
  rcases x s w with ⟨e | a, w'⟩ <;> rfl

theorem ignoresFolder_ite {c : Prop} [Decidable c] {x y : Action α} (hx : IgnoresFolder x)
    (hy : IgnoresFolder y) : IgnoresFolder (if c then x else y) := by
  split
  · exact hx
  · exact hy

/-! ## Actions that leave a database -/

/-- An action that leaves a database where there was one. -/
def StaysReady (x : Action α) : Prop := Makes (fun _ _ => True) x

theorem IsQuiet.staysReady {x : Action α} (hx : IsQuiet x) : StaysReady x :=
  hx.makes fun _ => trivial

theorem staysReady_bind {x : Action α} {f : α → Action β} (hx : StaysReady x)
    (hf : ∀ a, StaysReady (f a)) : StaysReady (x >>= f) :=
  makes_bind (fun _ _ => trivial) hx hf

theorem staysReady_transaction (f : Database → Except Failure (α × Database)) :
    StaysReady (transaction f) :=
  fun _ _ _ hw => leaves_transaction hw trivial fun _ _ _ => trivial

theorem staysReady_rowStore (action : RowAction) {x : Action α} (hx : StaysReady x) :
    StaysReady (rowStore action x) := fun s w db hw => leaves_rowStore (hx s w db hw)

end Action

open Tabula.Action

theorem Run.staysReady_execute (job : Job) (source : Source) (d : Descriptor) :
    StaysReady (execute job source d) := by
  refine staysReady_bind (isQuiet_lift _).staysReady fun _ =>
    staysReady_bind (isQuiet_lift _).staysReady fun _ => ?_
  rw [RowStore.append]
  split
  · exact (isQuiet_pure _).staysReady
  · exact staysReady_bind isQuiet_now.staysReady fun _ =>
      staysReady_rowStore _ (staysReady_transaction _)

theorem Jobs.staysReady_change {α : Type} (f : Moment → Ledger → Except Failure (α × Ledger)) :
    StaysReady (now >>= fun now => change (f now)) :=
  staysReady_bind isQuiet_now.staysReady fun _ => staysReady_transaction _

/-- A change of the ledger that gave an answer. -/
theorem Jobs.ok_of_change {α : Type} {f : Moment → Ledger → Except Failure (α × Ledger)} {a : α}
    {s : Surroundings} {w w' : World}
    (h : (now >>= fun now => change (f now)) s w = (.ok a, w')) :
    ∃ db jobs, w.storage = .ready db ∧ f s.now db.jobs = .ok (a, jobs) ∧
      w' = w.withDatabase (db.withJobs jobs) := by
  rw [run_bind_ok run_now] at h
  rcases hw : w.storage with db | _ | _
  · obtain ⟨db', hchange, rfl⟩ := ok_of_transaction hw h
    obtain ⟨⟨a', jobs⟩, hf, hjobs⟩ := ok_of_bind hchange
    obtain ⟨rfl, rfl⟩ := Prod.mk.inj (Except.ok.inj hjobs)
    exact ⟨db, jobs, rfl, hf, rfl⟩
  all_goals
    simp [change, transaction, hw] at h

theorem RowStore.ignoresFolder_append (table : String) (batch : Batch) :
    IgnoresFolder (append table batch) :=
  ignoresFolder_ite (ignoresFolder_pure _) (ignoresFolder_bind ignoresFolder_now fun _ =>
    ignoresFolder_rowStore _ (ignoresFolder_transaction _))

theorem Run.ignoresFolder_execute (job : Job) (source : Source) (d : Descriptor) :
    IgnoresFolder (execute job source d) :=
  ignoresFolder_bind (ignoresFolder_lift _) fun _ => ignoresFolder_bind (ignoresFolder_lift _)
    fun _ => RowStore.ignoresFolder_append _ _

theorem Jobs.ignoresFolder_change {α : Type} (f : Moment → Ledger → Except Failure (α × Ledger)) :
    IgnoresFolder (now >>= fun now => change (f now)) :=
  ignoresFolder_bind ignoresFolder_now fun _ => ignoresFolder_transaction _

theorem Worker.ignoresFolder_basePosition (job : Job) : IgnoresFolder (basePosition job) := by
  unfold basePosition
  split
  · exact ignoresFolder_pure _
  · exact ignoresFolder_rowStore _ (ignoresFolder_query _)

namespace Outage

variable {α β : Type} {s : Surroundings} {w w' : World} {id : String} {o : Outage} {folder : Folder}

/-! ## Without refusals -/

/-- What begins with the check of a job id may check it before. -/
theorem jobId_bind (job : String) {f : String → Action α} :
    (do let _ ← (liftM (Checkpoint.jobId (.text job)) : Action String)
        (liftM (Checkpoint.jobId (.text job)) >>= f)) =
      (liftM (Checkpoint.jobId (.text job)) >>= f : Action α) := by
  funext s w
  rcases h : Checkpoint.jobId (.text job) with e | name
  · rw [run_bind_error (run_liftM _), run_bind_error (run_liftM _)]
  · rw [run_bind_ok (run_liftM _)]

theorem none_save (job : String) (rows : Int) :
    none.save job rows = Checkpoints.save (.text job) (.int rows) := jobId_bind job

theorem none_clear (job : String) : none.clear job = Checkpoints.clear (.text job) := jobId_bind job

theorem none_load (job : String) : none.load job = Checkpoints.load (.text job) := by
  have hload : ∀ job, Checkpoints.load job =
      (liftM (Checkpoint.jobId job) : Action String) >>= fun job =>
        today >>= fun today => askFolder (Checkpoint.read today job) >>= fun c =>
          Pure.pure (c.map Checkpoint.rows) := by
    intro job
    simp only [Checkpoints.load, Checkpoints.read, LawfulMonad.bind_assoc]
  rw [hload, ← jobId_bind job, ← hload]
  rw [load]
  simp only [none]
  exact congrArg _ (funext fun _ => Action.bind_pure _)

theorem none_mark : none.mark = Run.mark := by
  funext job processed
  rw [mark, none_save]
  rfl

theorem none_count : none.count = Run.count := by
  funext job d r
  rw [count, none_mark]
  rfl

theorem none_settle (job : String) (r : Run) (f : Finished) :
    none.settle job r f = Run.settle job r f := by
  unfold settle
  rw [none_count]
  rfl

theorem none_settleAll (job : String) : ∀ r fs, none.settleAll job r fs = Run.settleAll job r fs
  | r, [] => rfl
  | r, f :: fs => by
    rw [settleAll, Run.settleAll, none_settle]
    exact congrArg _ (funext fun r' => none_settleAll job r' fs)

theorem none_drive (concurrency : Int) (job : Job) (source : Source) : ∀ ds inFlight r,
    none.drive concurrency job source ds inFlight r = Run.drive concurrency job source ds inFlight r
  | [], inFlight, r => none_settleAll job.id r inFlight
  | d :: ds, inFlight, r => by
    rw [drive, Run.drive]
    simp only [none_settleAll, none_drive concurrency job source ds]

theorem none_runBatches (p : Pace) : none.runBatches p = p.run := by
  have hfinish : none.finish = Run.finish := by
    funext job r
    rw [finish, none_clear]
    rfl
  funext job source processed
  rw [runBatches, hfinish]
  simp only [none_drive]
  rfl

theorem none_resumeOffset : none.resumeOffset = Worker.resumeOffset := by
  funext job
  rw [resumeOffset, none_load]
  rfl

/-- A worker that is refused no file is the worker. -/
theorem none_run (worker : Worker) : none.run worker = worker.run := by
  funext id
  rw [run, none_resumeOffset, none_runBatches]
  rfl

theorem none_runPending (worker : Worker) : none.runPending worker = worker.runPending := by
  have hdrain : ∀ table fuel tried,
      none.drain worker table fuel tried = worker.drain table fuel tried := by
    intro table fuel
    induction fuel with
    | zero => exact fun _ => rfl
    | succ fuel ih =>
      intro tried
      rw [drain, none_run]
      simp only [ih]
      rfl
  funext table
  rw [runPending]
  simp only [hdrain]
  rfl

/-! ## Runs that differ in the folder -/

/-- The checkpoint of the job can be removed, or is not there. -/
def Clears (id : String) (folder : Folder) : Prop :=
  ∃ folder', Checkpoint.clear id folder = .ok folder'

/-- The second action does in another folder what the first one does, to all but the folder, in
which the checkpoint of the job stays removable or stays in the way. -/
def Follows (id : String) (folder : Folder) (s : Surroundings) (w : World) (x y : Action α) : Prop :=
  ∃ folder', y s (w.withFolder folder) = ((x s w).1, (x s w).2.withFolder folder') ∧
    (Clears id folder' ↔ Clears id folder)

theorem follows_of_ignoresFolder {x : Action α} (hx : IgnoresFolder x) :
    Follows id folder s w x x := ⟨folder, hx s w folder, .rfl⟩

theorem follows_bind {x y : Action α} {f g : α → Action β} (hx : Follows id folder s w x y)
    (hf : ∀ a w' folder', x s w = (.ok a, w') → Follows id folder' s w' (f a) (g a)) :
    Follows id folder s w (x >>= f) (y >>= g) := by
  obtain ⟨folder', hy, hclears⟩ := hx
  rcases hrun : x s w with ⟨e | a, w'⟩
  · rw [hrun] at hy
    exact ⟨folder', by rw [run_bind_error hy, run_bind_error hrun], hclears⟩
  · rw [hrun] at hy
    obtain ⟨folder'', hg, hclears'⟩ := hf a w' folder' hrun
    exact ⟨folder'', by rw [run_bind_ok hy, run_bind_ok hrun, hg], hclears'.trans hclears⟩

theorem follows_attempt {x y : Action α} (hx : Follows id folder s w x y) :
    Follows id folder s w (attempt x) (attempt y) := by
  obtain ⟨folder', hy, hclears⟩ := hx
  exact ⟨folder', by rw [run_attempt, run_attempt, hy], hclears⟩

theorem clears_iff {es : List (String × FileEntry)} : Clears id (.entries es) ↔
    (Checkpoint.fileName id).utf8ByteSize ≤ Checkpoint.nameLimit ∧
      Folder.lookup es (Checkpoint.fileName id) ≠ some .directory := by
  constructor
  · rintro ⟨_, h⟩
    rw [Checkpoint.clear] at h
    split at h
    · cases h
    · rename_i hshort
      split at h
      · cases h
      · rename_i hfile
        exact ⟨not_lt.mp hshort, hfile⟩
  · rintro ⟨hshort, hfile⟩
    refine ⟨.entries (es.filter fun e => e.1 != Checkpoint.fileName id), ?_⟩
    rw [Checkpoint.clear, if_neg (not_lt.mpr hshort)]
    split
    · rename_i hdirectory
      exact absurd hdirectory hfile
    · rfl

/-- A folder in which a checkpoint was written is one in which it can be removed. -/
theorem clears_of_save {now : Moment} {rows : Int} {folder' : Folder}
    (h : Checkpoint.save now id rows folder = .ok folder') : Clears id folder ∧ Clears id folder' := by
  unfold Checkpoint.save at h
  split at h
  · cases h
  · split at h
    · cases h
    · rename_i hshort
      have hname : (Checkpoint.fileName id).utf8ByteSize ≤ Checkpoint.nameLimit := by
        rw [Checkpoint.utf8ByteSize_fileName]
        simp only [Checkpoint.temporaryExtra] at hshort
        omega
      split at h
      · cases h
      · rename_i hfile
        obtain rfl := Except.ok.inj h
        refine ⟨clears_iff.mpr ⟨hname, hfile⟩, clears_iff.mpr ⟨hname, ?_⟩⟩
        rw [Folder.lookup_put, if_pos rfl]
        simp

theorem isFileFault_of_save {now : Moment} {rows : Int} {e : Failure}
    (h : Checkpoint.save now id rows folder = .error e) : Run.isFileFault e = true := by
  unfold Checkpoint.save at h
  split at h
  · exact Except.error.inj h ▸ rfl
  · split at h
    · exact Except.error.inj h ▸ rfl
    · split at h
      · exact Except.error.inj h ▸ rfl
      · cases h

/-- Whether the checkpoint can be written or not, the run goes on. -/
theorem exists_run_mark (o : Outage) (hsafe : Checkpoint.isSafeId id = true) (rows : Int)
    (s : Surroundings) (w : World) :
    ∃ folder', o.mark id rows s w = (.ok (), w.withFolder folder') ∧
      (Clears id folder' ↔ Clears id w.folder) := by
  have hsave : ∃ r folder', o.save id rows s w = (r, w.withFolder folder') ∧
      (∀ e, r = .error e → Run.isFileFault e = true) ∧ (Clears id folder' ↔ Clears id w.folder) := by
    rw [save, run_bind_ok (Checkpoints.run_jobId hsafe)]
    rcases hrefusal : o.refusal (.save id rows) with _ | e
    · simp only [Checkpoints.run_save hsafe]
      rcases hsaved : Checkpoint.save s.now id rows w.folder with e | folder'
      · exact ⟨.error e, w.folder, rfl, fun _ he => Except.error.inj he ▸ isFileFault_of_save hsaved,
          .rfl⟩
      · have hclears := clears_of_save hsaved
        exact ⟨.ok (), folder', rfl, fun _ he => (nomatch he), iff_of_true hclears.2 hclears.1⟩
    · exact ⟨.error e, w.folder, rfl,
        fun _ he => Except.error.inj he ▸ o.isFileFault _ _ hrefusal, .rfl⟩
  obtain ⟨r, folder', hrun, hfault, hclears⟩ := hsave
  refine ⟨folder', ?_, hclears⟩
  rw [mark, run_bind, run_attempt, hrun]
  rcases r with e | _
  · simp [hfault e rfl]
  · rfl

theorem follows_mark (hsafe : Checkpoint.isSafeId id = true) (rows : Int) :
    Follows id folder s w (Run.mark id rows) (o.mark id rows) := by
  obtain ⟨working, hworking, _⟩ := exists_run_mark none hsafe rows s w
  obtain ⟨folder', hmark, hclears⟩ := exists_run_mark o hsafe rows s (w.withFolder folder)
  rw [none_mark] at hworking
  exact ⟨folder', by rw [hmark, hworking]; rfl, hclears⟩

theorem follows_settle (hsafe : Checkpoint.isSafeId id = true) (r : Run) (f : Finished) :
    Follows id folder s w (Run.settle id r f) (o.settle id r f) := by
  have hcount : ∀ d, Follows id folder s w (Run.count id d r) (o.count id d r) := fun d =>
    follows_bind (follows_of_ignoresFolder (Jobs.ignoresFolder_change _)) fun _ _ _ _ =>
      follows_bind (follows_mark hsafe _) fun _ _ _ _ =>
        follows_of_ignoresFolder (ignoresFolder_pure _)
  unfold Run.settle settle
  split
  · exact follows_of_ignoresFolder (ignoresFolder_pure _)
  · rcases f with ⟨d, why | n⟩
    · exact follows_of_ignoresFolder (ignoresFolder_pure _)
    · refine follows_bind (follows_attempt (hcount d)) fun a _ _ _ => ?_
      rcases a with why | r' <;> exact follows_of_ignoresFolder (ignoresFolder_pure _)

theorem follows_settleAll (hsafe : Checkpoint.isSafeId id = true) :
    ∀ {w : World} {folder : Folder} (r : Run) (fs : List Finished),
      Follows id folder s w (Run.settleAll id r fs) (o.settleAll id r fs)
  | _, _, r, [] => follows_of_ignoresFolder (ignoresFolder_pure r)
  | _, _, r, f :: fs => follows_bind (follows_settle hsafe r f) fun r' _ _ _ =>
      follows_settleAll hsafe r' fs

theorem follows_drive {job : Job} (hsafe : Checkpoint.isSafeId job.id = true) (concurrency : Int)
    (source : Source) :
    ∀ {w : World} {folder : Folder} (ds : List Descriptor) (inFlight : List Finished) (r : Run),
      Follows job.id folder s w (Run.drive concurrency job source ds inFlight r)
        (o.drive concurrency job source ds inFlight r)
  | _, _, [], inFlight, r => follows_settleAll hsafe r inFlight
  | w, folder, d :: ds, inFlight, r => by
    have hnext : ∀ {w : World} {folder : Folder} (inFlight : List Finished) (r : Run),
        Follows job.id folder s w
          (if r.failure.isSome then Run.settleAll job.id r inFlight
          else Action.attempt (Run.execute job source d) >>= fun result =>
            Run.drive concurrency job source ds (inFlight ++ [(d, result)]) r)
          (if r.failure.isSome then o.settleAll job.id r inFlight
          else Action.attempt (Run.execute job source d) >>= fun result =>
            o.drive concurrency job source ds (inFlight ++ [(d, result)]) r) := by
      intro w folder inFlight r
      split
      · exact follows_settleAll hsafe r inFlight
      · exact follows_bind
          (follows_of_ignoresFolder (ignoresFolder_attempt (Run.ignoresFolder_execute _ _ _)))
          fun _ _ _ _ => follows_drive hsafe concurrency source ds _ r
    rw [Run.drive, drive]
    split
    · exact follows_bind (follows_settleAll hsafe r inFlight) fun r' _ _ _ => hnext [] r'
    · exact hnext inFlight r

/-! ## How a run under an outage ends -/

variable {worker : Worker} {db : Database} {j done : Job} {w₁ : World}

/-- Nothing keeps a run from removing the checkpoint of its job. -/
def Lets (o : Outage) (id : String) (folder : Folder) : Prop :=
  o.refusal (.clear id) = .none ∧ Clears id folder

/-- A run cannot find out whether its job has a checkpoint. -/
def Bars (o : Outage) (id : String) : Prop :=
  ∃ e, o.refusal (.look id) = some e ∧ isNoFolder e = false

/-- An answer that is given if the checkpoint can be removed; otherwise there is a fault of the
files in its place. -/
structure Ends (o : Outage) (id : String) (folder : Folder) (a : α) (r : Except Failure α) : Prop where
  lets : o.Lets id folder → r = .ok a
  not_lets : ¬ o.Lets id folder → ∃ e, r = .error e ∧ Run.isFileFault e = true

theorem Ends.map {a : α} {r : Except Failure α} (h : Ends o id folder a r) (f : α → β) :
    Ends o id folder (f a) (r.map f) where
  lets hlets := by rw [h.lets hlets]; rfl
  not_lets hnot := by
    obtain ⟨e, rfl, hfault⟩ := h.not_lets hnot
    exact ⟨e, rfl, hfault⟩

theorem isFileFault_of_clear {e : Failure} (h : Checkpoint.clear id folder = .error e) :
    Run.isFileFault e = true := by
  unfold Checkpoint.clear at h
  split at h
  · exact Except.error.inj h ▸ rfl
  · split at h
    · exact Except.error.inj h ▸ rfl
    · split at h
      · exact Except.error.inj h ▸ rfl
      · cases h

theorem exists_run_clear (o : Outage) (hsafe : Checkpoint.isSafeId id = true) (s : Surroundings)
    (w : World) :
    ∃ r folder', o.clear id s w = (r, w.withFolder folder') ∧ Ends o id w.folder () r := by
  rw [clear, run_bind_ok (Checkpoints.run_jobId hsafe)]
  rcases hrefusal : o.refusal (.clear id) with _ | e
  · simp only [Checkpoints.clear]
    rw [run_bind_ok (Checkpoints.run_jobId hsafe), run_changeFolder]
    rcases hcleared : Checkpoint.clear id w.folder with e | folder'
    · refine ⟨.error e, w.folder, rfl, fun h => ?_, fun _ => ⟨e, rfl, isFileFault_of_clear hcleared⟩⟩
      obtain ⟨_, folder', hfolder⟩ := h
      cases hcleared.symm.trans hfolder
    · exact ⟨.ok (), folder', rfl, fun _ => rfl, fun h => absurd ⟨hrefusal, folder', hcleared⟩ h⟩
  · refine ⟨.error e, w.folder, rfl, fun h => ?_, fun _ => ⟨e, rfl, o.isFileFault _ _ hrefusal⟩⟩
    cases hrefusal.symm.trans h.1

/-- A run that ends well has completed its job. -/
theorem exists_complete_of_finish {r : Run} (hrun : Run.finish id r s w = (.ok done, w₁)) :
    r.failure = .none ∧
      ∃ w' working, Jobs.complete id s w = (.ok done, w') ∧ w₁ = w'.withFolder working := by
  rw [Run.finish] at hrun
  rcases hfailure : r.failure with _ | f
  · simp only [hfailure] at hrun
    obtain ⟨done', w', hcomplete, hrun⟩ := ok_of_run_bind hrun
    obtain ⟨_, w'', hclear, hrun⟩ := ok_of_run_bind hrun
    obtain ⟨hdone, rfl⟩ := Prod.mk.inj hrun
    obtain rfl := Except.ok.inj hdone
    obtain ⟨name, hname, hclear⟩ := ok_of_lift_bind hclear
    rw [run_changeFolder] at hclear
    split at hclear
    · exact ⟨rfl, w', _, hcomplete, (Prod.mk.inj hclear).2.symm⟩
    · cases (Prod.mk.inj hclear).1
  · simp only [hfailure] at hrun
    obtain ⟨_, w', _, hrun⟩ := ok_of_run_bind hrun
    cases (Prod.mk.inj hrun).1

theorem ends_finish (o : Outage) (folder : Folder) (hsafe : Checkpoint.isSafeId id = true) {r : Run}
    (hrun : Run.finish id r s w = (.ok done, w₁)) :
    ∃ answer folder', o.finish id r s (w.withFolder folder) = (answer, w₁.withFolder folder') ∧
      Ends o id folder done answer := by
  obtain ⟨hfailure, w', working, hcomplete, rfl⟩ := exists_complete_of_finish hrun
  have hother : Jobs.complete id s (w.withFolder folder) = (.ok done, w'.withFolder folder) := by
    rw [Jobs.complete, Jobs.ignoresFolder_change, ← Jobs.complete, hcomplete]
  obtain ⟨r', folder', hclear, hends⟩ := exists_run_clear o hsafe s (w'.withFolder folder)
  refine ⟨r'.map fun _ => done, folder', ?_, hends.map fun _ => done⟩
  rw [finish, hfailure]
  simp only
  rw [run_bind_ok hother, run_bind, hclear]
  rcases r' with e | _ <;> rfl

/-- A job that has no checkpoint and has not been started resumes at its first row. -/
theorem run_resumeOffset (o : Outage) (hsafe : Checkpoint.isSafeId j.id = true)
    (hpending : j.status = .pending)
    (hnone : Checkpoint.load s.today j.id w.folder = .ok .none) (hbars : ¬ o.Bars j.id) :
    o.resumeOffset j s w = (.ok 0, w) := by
  have hload : o.load j.id s w = (.ok .none, w) := by
    rw [load, run_bind_ok (Checkpoints.run_jobId hsafe)]
    rcases hrefusal : o.refusal (.look j.id) with _ | e
    · have hread := @Checkpoints.run_load j.id s w hsafe
      rw [hnone] at hread
      simp only
      rw [run_bind_ok hread, ite_self]
      rfl
    · rcases hfolder : isNoFolder e with _ | _
      · exact absurd ⟨e, hrefusal, hfolder⟩ hbars
      · simp only [hfolder, if_true]
        rfl
  rw [resumeOffset, run_bind_ok hload]
  simp [hpending]

/-- An outage that hides whether there is a checkpoint stops a run before it changes anything. -/
theorem run_of_bars (hsafe : Checkpoint.isSafeId id = true) (hw : w.storage = .ready db)
    (hj : db.jobs.find? id = some j) (hpending : j.status = .pending) (hbars : o.Bars id) :
    ∃ e, o.run worker id s w = (.error e, w) ∧ Run.isFileFault e = true := by
  obtain rfl : j.id = id := Ledger.id_of_find? hj
  obtain ⟨e, hrefusal, hfolder⟩ := hbars
  have hload : o.load j.id s w = (.error e, w) := by
    rw [load, run_bind_ok (Checkpoints.run_jobId hsafe), hrefusal]
    simp [hfolder]
  have hresume : o.resumeOffset j s w = (.error e, w) := run_bind_error hload _
  have hget : Jobs.get j.id s w = (.ok j, w) := by
    rw [Jobs.run_get hw, Ledger.get_eq hj]
  refine ⟨e, ?_, o.isFileFault _ _ hrefusal⟩
  rw [run, run_bind_ok hget]
  simp only [hpending, JobStatus.isTerminal, Bool.false_eq_true, if_false]
  exact run_bind_error hresume _

/-- What the run does before its first batch is what the worker does, if both find the same place to
resume. -/
theorem run_eq (hget : Jobs.get id s w = (.ok j, w))
    (hresume : o.resumeOffset j s w = Worker.resumeOffset j s w) :
    o.run worker id s w =
      (worker.begin id >>= fun a => o.runBatches worker.pace a.1 a.2.1 a.2.2) s w := by
  rw [run, Worker.begin, LawfulMonad.bind_assoc, run_bind_ok hget, run_bind_ok hget]
  split
  · rfl
  · simp only [LawfulMonad.bind_assoc, LawfulMonad.pure_bind]
    rw [run_bind, run_bind, hresume]

/-- Once it is known where a job resumes, its run begins in the same way in any folder. -/
theorem begin_withFolder (worker : Worker) {p : Int} (hw : w.storage = .ready db)
    (hj : db.jobs.find? id = some j)
    (hactive : j.isActive = true) (hresume : Worker.resumeOffset j s w = (.ok p, w))
    (hresume' : Worker.resumeOffset j s (w.withFolder folder) = (.ok p, w.withFolder folder)) :
    worker.begin id s (w.withFolder folder) =
      ((worker.begin id s w).1, (worker.begin id s w).2.withFolder folder) := by
  have hget : ∀ w : World, w.storage = .ready db → Jobs.get id s w = (.ok j, w) := fun w hw => by
    rw [Jobs.run_get hw, Ledger.get_eq hj]
  have hterminal : j.status.isTerminal = false := by simpa [Job.isActive] using hactive
  have hrest : IgnoresFolder (do
      let base ← Worker.basePosition j
      let job ← Jobs.markProcessing j.id (some p) (some base)
      let columns ← Catalog.columnTypes job.table
      let source ← (worker.source job columns : Except Failure Source)
      return (job, source, p)) :=
    ignoresFolder_bind (Worker.ignoresFolder_basePosition j) fun _ =>
      ignoresFolder_bind (Jobs.ignoresFolder_change _) fun _ =>
        ignoresFolder_bind (ignoresFolder_query _) fun _ =>
          ignoresFolder_bind (ignoresFolder_lift _) fun _ => ignoresFolder_pure _
  rw [Worker.begin, run_bind_ok (hget (w.withFolder folder) hw), run_bind_ok (hget w hw)]
  simp only [hterminal, Bool.false_eq_true, if_false]
  rw [run_bind_ok hresume, run_bind_ok hresume']
  exact hrest s w folder

theorem isSafeId_of_resumeOffset {p : Int}
    (h : Worker.resumeOffset j s w = (.ok p, w')) : Checkpoint.isSafeId j.id = true := by
  obtain ⟨_, _, hload, _⟩ := ok_of_run_bind h
  obtain ⟨_, _, hread, _⟩ := ok_of_run_bind hload
  obtain ⟨name, hname, _⟩ := ok_of_lift_bind hread
  rw [Checkpoint.jobId] at hname
  split at hname
  · cases hname
  · split at hname
    · assumption
    · cases hname

theorem resumeOffset_of_begin {a : Job × Source × Int} (hw : w.storage = .ready db)
    (hj : db.jobs.find? id = some j) (h : worker.begin id s w = (.ok a, w')) :
    ∃ p w', Worker.resumeOffset j s w = (.ok p, w') := by
  obtain ⟨j', hget, h⟩ := ok_of_query_bind hw h
  obtain rfl := Option.some.inj ((Ledger.find?_of_get hget).symm.trans hj)
  split at h
  · cases (Prod.mk.inj h).1
  · obtain ⟨p, w', hresume, _⟩ := ok_of_run_bind h
    exact ⟨p, w', hresume⟩

/-- A job that was completed is found with its new status. -/
theorem found_of_complete (h : Jobs.complete id s w = (.ok done, w')) :
    done.id = id ∧ done.status = .completed ∧
      ∃ db', w'.storage = .ready db' ∧ db'.jobs.find? id = some done := by
  obtain ⟨db, jobs, _, hcomplete, rfl⟩ := Jobs.ok_of_change h
  obtain ⟨j, hended, hput⟩ := ok_of_bind hcomplete
  obtain ⟨rfl, rfl⟩ := Prod.mk.inj (Except.ok.inj hput)
  obtain ⟨k, hk, _, rfl⟩ := Ledger.eq_of_ended hended
  have hid := Ledger.id_of_find? hk
  exact ⟨hid, rfl, _, rfl, Ledger.find?_put_self (by exact hid) hk⟩

theorem load_empty {today : Date} {r : Option Int}
    (h : Checkpoint.load today id .empty = .ok r) : r = .none := by
  unfold Checkpoint.load Checkpoint.read Folder.empty at h
  dsimp only at h
  split at h
  · cases h
  · exact (Except.ok.inj h).symm

/-- A run works on the job that it was asked for. -/
theorem id_of_begin {job : Job} {source : Source} {p : Int} (hw : w.storage = .ready db)
    (hsafe : Checkpoint.isSafeId id = true)
    (h : worker.begin id s w = (.ok (job, source, p), w')) : job.id = id := by
  rcases Worker.begin_cases (w := worker) hw hsafe with
    ⟨_, herror⟩ | ⟨k, _, job', columns, hk, _, hbegun, hmap⟩
  · cases (Prod.mk.inj (h.symm.trans herror)).1
  · have hmap := (Prod.mk.inj (h.symm.trans hmap)).1
    rcases hsource : worker.source job' columns with _ | _
    · rw [hsource] at hmap
      cases hmap
    · rw [hsource] at hmap
      obtain ⟨rfl, _⟩ := Prod.mk.inj (Except.ok.inj hmap)
      exact hbegun.continues.id.trans (Ledger.id_of_find? hk)

/-- Batches that are run to a good end leave the job completed. -/
theorem found_of_pace {job : Job} {source : Source} {p : Int}
    (hrun : worker.pace.run job source p s w = (.ok done, w₁)) :
    done.id = job.id ∧ done.status = .completed ∧
      ∃ db₁, w₁.storage = .ready db₁ ∧ db₁.jobs.find? job.id = some done := by
  obtain ⟨_, _, hrun⟩ := ok_of_lift_bind hrun
  obtain ⟨_, _, _, hfinish⟩ := ok_of_run_bind hrun
  obtain ⟨_, _, _, hcomplete, rfl⟩ := exists_complete_of_finish hfinish
  obtain ⟨hid, hstatus, db₁, hw₁, hfound⟩ := found_of_complete hcomplete
  exact ⟨hid, hstatus, db₁, hw₁, hfound⟩

/-- Batches that are run to a good end without an outage are run to the same end under one, except
for what becomes of the checkpoint. -/
theorem ends_runBatches (o : Outage) (folder : Folder) {job : Job} {source : Source} {p : Int}
    (hsafe : Checkpoint.isSafeId job.id = true)
    (hrun : worker.pace.run job source p s w = (.ok done, w₁)) :
    ∃ answer folder', o.runBatches worker.pace job source p s (w.withFolder folder) =
      (answer, w₁.withFolder folder') ∧ Ends o job.id folder done answer := by
  obtain ⟨ds, hds, hrun⟩ := ok_of_lift_bind hrun
  obtain ⟨r, w', hdrive, hfinish⟩ := ok_of_run_bind hrun
  have hfollows : Follows job.id folder s w _ (o.drive _ job source ds [] _) :=
    follows_drive hsafe worker.pace.concurrency source ds [] (Run.start p)
  obtain ⟨folder₁, hdrive', hclears⟩ := hfollows
  rw [hdrive] at hdrive'
  obtain ⟨answer, folder', hfinish', hends⟩ := ends_finish o folder₁ hsafe hfinish
  have hlets : o.Lets job.id folder₁ ↔ o.Lets job.id folder := by
    rw [Lets, Lets, hclears]
  refine ⟨answer, folder', ?_, fun hl => hends.lets (hlets.mpr hl),
    fun hl => hends.not_lets fun hl' => hl (hlets.mp hl')⟩
  rw [runBatches, run_lift_bind hds, run_bind_ok hdrive']
  exact hfinish'

/-- What a run does under an outage to a job that has not been started and has no checkpoint, where
a run with an empty folder and no outage completes the job. -/
structure Outcome (o : Outage) (worker : Worker) (id : String) (s : Surroundings) (w : World)
    (done : Job) (w₁ : World) : Prop where
  safe : Checkpoint.isSafeId id = true
  completed : done.id = id ∧ done.status = .completed ∧
    ∃ db₁, w₁.storage = .ready db₁ ∧ db₁.jobs.find? id = some done
  bars : o.Bars id → ∃ e, o.run worker id s w = (.error e, w) ∧ Run.isFileFault e = true
  goes : ¬ o.Bars id → ∃ r folder', o.run worker id s w = (r, w₁.withFolder folder') ∧
    Ends o id w.folder done r

theorem outcome_run (o : Outage) (folder : Folder) (hw : w.storage = .ready db)
    (hj : db.jobs.find? id = some j) (hpending : j.status = .pending)
    (hnone : Checkpoint.load s.today id folder = .ok .none)
    (hrun : worker.run id s (w.withFolder .empty) = (.ok done, w₁)) :
    Outcome o worker id s (w.withFolder folder) done w₁ := by
  obtain rfl : j.id = id := Ledger.id_of_find? hj
  have hempty : (w.withFolder .empty).storage = .ready db := hw
  have hactive : j.isActive = true := by simp [Job.isActive, hpending, JobStatus.isTerminal]
  rw [Worker.run_eq] at hrun
  obtain ⟨⟨job, source, p⟩, w₂, hbegin, hpace⟩ := ok_of_run_bind hrun
  -- both runs begin at the first row
  obtain ⟨p', _, hresume⟩ := resumeOffset_of_begin hempty hj hbegin
  have hsafe := isSafeId_of_resumeOffset hresume
  have hload : Checkpoint.load s.today j.id .empty = .ok .none := by
    obtain ⟨r, _, hload, _⟩ := ok_of_run_bind hresume
    rw [Checkpoints.run_load hsafe] at hload
    obtain hload := (Prod.mk.inj hload).1
    rwa [load_empty hload] at hload
  have hbars : ¬ none.Bars j.id := by
    rintro ⟨_, hrefusal, _⟩
    cases hrefusal
  have hstart : ∀ folder, Checkpoint.load s.today j.id folder = .ok .none →
      Worker.resumeOffset j s (w.withFolder folder) = (.ok 0, w.withFolder folder) :=
    fun folder hnone => by
      rw [← none_resumeOffset]
      exact run_resumeOffset (w := w.withFolder folder) none hsafe hpending hnone hbars
  have hbegin' := begin_withFolder worker hempty hj hactive (hstart .empty hload)
    (hstart folder hnone)
  rw [hbegin] at hbegin'
  have hid := id_of_begin hempty hsafe hbegin
  -- both runs write the same batches
  obtain ⟨answer, folder', hbatches, hends⟩ := ends_runBatches o folder (hid ▸ hsafe) hpace
  obtain ⟨hdone, hstatus, db₁, hw₁, hfound⟩ := found_of_pace hpace
  refine ⟨hsafe, ⟨hdone.trans hid, hstatus, db₁, hw₁, hid ▸ hfound⟩,
    fun h => run_of_bars hsafe hw hj hpending h, fun h => ⟨answer, folder', ?_, hid ▸ hends⟩⟩
  have hget : Jobs.get j.id s (w.withFolder folder) = (.ok j, w.withFolder folder) := by
    rw [Jobs.run_get (w := w.withFolder folder) hw, Ledger.get_eq hj]
  rw [run_eq hget ((run_resumeOffset o hsafe hpending hnone h).trans (hstart folder hnone).symm)]
  exact (run_bind_ok hbegin' _).trans hbatches

/-! ## Working off jobs under an outage -/

theorem isQuiet_mark (id : String) (rows : Int) : IsQuiet (o.mark id rows) := by
  have hsave : IsQuiet (o.save id rows) := by
    refine isQuiet_bind (isQuiet_lift _) fun _ => ?_
    split
    · exact isQuiet_throw _
    · exact Checkpoints.isQuiet_save _ _
  refine isQuiet_bind (isQuiet_attempt hsave) fun r => ?_
  rcases r with e | _
  · exact isQuiet_ite (isQuiet_pure _) (isQuiet_throw _)
  · exact isQuiet_pure _

theorem isQuiet_clear (id : String) : IsQuiet (o.clear id) := by
  refine isQuiet_bind (isQuiet_lift _) fun _ => ?_
  split
  · exact isQuiet_throw _
  · exact Checkpoints.isQuiet_clear _

theorem isQuiet_resumeOffset (j : Job) : IsQuiet (o.resumeOffset j) := by
  have hload : IsQuiet (o.load j.id) := by
    refine isQuiet_bind (isQuiet_lift _) fun _ => ?_
    split
    · exact isQuiet_ite (isQuiet_pure _) (isQuiet_throw _)
    · exact isQuiet_bind (isQuiet_bind (Checkpoints.isQuiet_read _) fun _ => isQuiet_pure _)
        fun _ => isQuiet_pure _
  refine isQuiet_bind hload fun saved => ?_
  split
  · exact isQuiet_pure _
  · exact isQuiet_ite (isQuiet_bind (isQuiet_rowStore _ (isQuiet_query _)) fun _ => isQuiet_pure _)
      (isQuiet_pure _)

theorem staysReady_settle (r : Run) (f : Finished) : StaysReady (o.settle id r f) := by
  have hcount : ∀ d, StaysReady (o.count id d r) := fun d =>
    staysReady_bind (Jobs.staysReady_change _) fun _ =>
      staysReady_bind (isQuiet_mark id _).staysReady fun _ => (isQuiet_pure _).staysReady
  unfold settle
  split
  · exact (isQuiet_pure _).staysReady
  · rcases f with ⟨d, why | n⟩
    · exact (isQuiet_pure _).staysReady
    · refine staysReady_bind (makes_attempt (hcount d)) fun a => ?_
      rcases a with why | r' <;> exact (isQuiet_pure _).staysReady

theorem staysReady_settleAll : ∀ (r : Run) (fs : List Finished), StaysReady (o.settleAll id r fs)
  | r, [] => (isQuiet_pure r).staysReady
  | r, f :: fs => staysReady_bind (staysReady_settle r f) fun r' => staysReady_settleAll r' fs

theorem staysReady_drive (concurrency : Int) (job : Job) (source : Source) :
    ∀ (ds : List Descriptor) (inFlight : List Finished) (r : Run),
      StaysReady (o.drive concurrency job source ds inFlight r)
  | [], inFlight, r => staysReady_settleAll r inFlight
  | d :: ds, inFlight, r => by
    have hnext : ∀ (inFlight : List Finished) (r : Run), StaysReady
        (if r.failure.isSome then o.settleAll job.id r inFlight
        else Action.attempt (Run.execute job source d) >>= fun result =>
          o.drive concurrency job source ds (inFlight ++ [(d, result)]) r) := by
      intro inFlight r
      split
      · exact staysReady_settleAll r inFlight
      · exact staysReady_bind (makes_attempt (Run.staysReady_execute job source d)) fun _ =>
          staysReady_drive concurrency job source ds _ r
    rw [drive]
    split
    · exact staysReady_bind (staysReady_settleAll r inFlight) fun r' => hnext [] r'
    · exact hnext inFlight r

theorem staysReady_finish (id : String) (r : Run) : StaysReady (o.finish id r) := by
  rw [finish]
  split
  · exact staysReady_bind (makes_attempt (Jobs.staysReady_change _)) fun _ =>
      (isQuiet_throw _).staysReady
  · exact staysReady_bind (Jobs.staysReady_change _) fun _ =>
      staysReady_bind (isQuiet_clear id).staysReady fun _ => (isQuiet_pure _).staysReady

/-- A run may fail anywhere, but the database is there after it. -/
theorem staysReady_run (worker : Worker) (id : String) : StaysReady (o.run worker id) := by
  refine staysReady_bind (isQuiet_query _).staysReady fun j => ?_
  split
  · exact (isQuiet_throw _).staysReady
  refine staysReady_bind (isQuiet_resumeOffset j).staysReady fun p => ?_
  have hbase : IsQuiet (Worker.basePosition j) := by
    unfold Worker.basePosition
    split
    · exact isQuiet_pure _
    · exact isQuiet_rowStore _ (isQuiet_query _)
  refine staysReady_bind hbase.staysReady fun base =>
    staysReady_bind (Jobs.staysReady_change _) fun job =>
      staysReady_bind (isQuiet_query _).staysReady fun columns =>
        staysReady_bind (isQuiet_lift _).staysReady fun source =>
          staysReady_bind (isQuiet_lift _).staysReady fun ds =>
            staysReady_bind (staysReady_drive _ job source ds [] _) fun r =>
              staysReady_finish job.id r

theorem id_of_finish {r : Run} (h : o.finish id r s w = (.ok done, w')) : done.id = id := by
  rw [finish] at h
  rcases hfailure : r.failure with _ | f <;> simp only [hfailure] at h
  · obtain ⟨done', _, hcomplete, h⟩ := ok_of_run_bind h
    obtain ⟨_, _, _, h⟩ := ok_of_run_bind h
    obtain rfl := Except.ok.inj (Prod.mk.inj h).1
    exact (found_of_complete hcomplete).1
  · obtain ⟨_, _, _, h⟩ := ok_of_run_bind h
    cases (Prod.mk.inj h).1

/-- A run answers with the job that it is asked to run. -/
theorem id_of_run (hw : w.storage = .ready db) (h : o.run worker id s w = (.ok done, w')) :
    done.id = id := by
  rw [run] at h
  obtain ⟨j, hget, h⟩ := ok_of_query_bind hw h
  split at h
  · cases (Prod.mk.inj h).1
  obtain ⟨p, _, _, h⟩ := ok_of_run_bind h
  obtain ⟨base, _, _, h⟩ := ok_of_run_bind h
  obtain ⟨job, _, hmark, h⟩ := ok_of_run_bind h
  obtain ⟨columns, _, _, h⟩ := ok_of_run_bind h
  obtain ⟨source, _, _, h⟩ := ok_of_run_bind h
  obtain ⟨ds, _, _, h⟩ := ok_of_run_bind h
  obtain ⟨r, _, _, hfinish⟩ := ok_of_run_bind h
  obtain ⟨_, _, _, hprocessing, _⟩ := Jobs.ok_of_change hmark
  obtain ⟨k, hk, _, hrestarted⟩ := Ledger.restarted_of_markProcessing hprocessing
  rw [id_of_finish hfinish, hrestarted.continues.id, Ledger.id_of_find? hk,
    Ledger.id_of_find? (Ledger.find?_of_get hget)]

/-- Working off jobs ends, and a job that has been tried is not in the answer. -/
theorem exists_run_drain (o : Outage) (worker : Worker) (table : Option String) (s : Surroundings) :
    ∀ (fuel : Nat) (tried : List String) {w : World} {db : Database}, w.storage = .ready db →
      ∃ jobs w', o.drain worker table fuel tried s w = (.ok jobs, w') ∧
        ∀ k ∈ jobs, k.id ∉ tried
  | 0, _, w, _, _ => ⟨[], w, rfl, fun _ hk => nomatch hk⟩
  | fuel + 1, tried, w, db, hw => by
    have hfind : Jobs.findActive table s w = (.ok (db.jobs.findActive table), w) := run_query hw _
    rw [drain, run_bind_ok hfind]
    rcases db.jobs.findActive table with _ | j
    · exact ⟨[], w, rfl, fun _ hk => nomatch hk⟩
    by_cases htried : j.id ∈ tried
    · simp only [List.contains_iff_mem.mpr htried, if_true]
      exact ⟨[], w, rfl, fun _ hk => nomatch hk⟩
    simp only [mt List.contains_iff_mem.mp htried, Bool.false_eq_true, if_false]
    obtain ⟨db', hw', -⟩ := staysReady_run (o := o) worker j.id s w db hw
    rw [run_bind, run_attempt]
    obtain ⟨jobs, w'', hrest, hnew⟩ := exists_run_drain o worker table s fuel (j.id :: tried) hw'
    have hnew : ∀ k ∈ jobs, k.id ∉ tried := fun k hk hmem =>
      hnew k hk (List.mem_cons_of_mem _ hmem)
    rcases hrun : (o.run worker j.id s w).1 with e | done
    · exact ⟨jobs, w'', hrest, hnew⟩
    · have hid : done.id = j.id := id_of_run hw (Prod.ext hrun rfl)
      dsimp only
      rw [run_bind_ok hrest]
      refine ⟨done :: jobs, w'', rfl, fun k hk => ?_⟩
      rcases List.mem_cons.mp hk with rfl | hk
      · rwa [hid]
      · exact hnew k hk

/-- The newest active job is in the answer exactly if its run answers. -/
theorem drain_of_run (hw : w.storage = .ready db) {table : Option String}
    (hfirst : db.jobs.findActive table = some j) {tried : List String} (hnew : j.id ∉ tried)
    (o : Outage) (worker : Worker) (fuel : Nat) (s : Surroundings) :
    ∃ jobs w', o.drain worker table (fuel + 1) tried s w = (.ok jobs, w') ∧
      match (o.run worker j.id s w).1 with
      | .ok done => ∃ rest, jobs = done :: rest
      | .error _ => ∀ k ∈ jobs, k.id ≠ j.id := by
  have hfind : Jobs.findActive table s w = (.ok (some j), w) := (run_query hw _).trans (by rw [hfirst])
  obtain ⟨db', hw', -⟩ := staysReady_run (o := o) worker j.id s w db hw
  obtain ⟨rest, w', hrest, htried⟩ := exists_run_drain o worker table s fuel (j.id :: tried) hw'
  rw [drain, run_bind_ok hfind]
  simp only [mt List.contains_iff_mem.mp hnew, Bool.false_eq_true, if_false]
  rw [run_bind, run_attempt]
  rcases (o.run worker j.id s w).1 with e | done
  · exact ⟨rest, w', hrest, fun k hk hid => htried k hk (hid ▸ List.mem_cons_self)⟩
  · dsimp only
    rw [run_bind_ok hrest]
    exact ⟨done :: rest, w', rfl, rest, rfl⟩

/-- Let a job be new and without a checkpoint, and let a run with an empty folder complete it. Under
an outage, in any folder, the run answers with the same job and leaves the same database exactly if
it can look for a checkpoint and remove it. If it cannot look, nothing changes. If it cannot remove
the checkpoint, the database is the same and the job complete, but the run fails with the fault of
the file, and the answer to working off the jobs lacks the job. -/
theorem run_completes_iff (o : Outage) (folder : Folder) (hw : w.storage = .ready db)
    (hj : db.jobs.find? id = some j) (hpending : j.status = .pending)
    (hnone : Checkpoint.load s.today id folder = .ok .none)
    (hrun : worker.run id s (w.withFolder .empty) = (.ok done, w₁)) :
    Outcome o worker id s (w.withFolder folder) done w₁ ∧
      (∀ table fuel tried, db.jobs.findActive table = some j → id ∉ tried →
        ∃ jobs w', o.drain worker table (fuel + 1) tried s (w.withFolder folder) = (.ok jobs, w') ∧
          (¬ o.Bars id ∧ o.Lets id folder → ∃ rest, jobs = done :: rest) ∧
          (¬ (¬ o.Bars id ∧ o.Lets id folder) → ∀ k ∈ jobs, k.id ≠ id)) ∧
      ∀ table, o.runPending worker table s (w.withFolder folder) =
        o.drain worker table (db.jobs.length + 1) [] s (w.withFolder folder) := by
  obtain rfl : j.id = id := Ledger.id_of_find? hj
  have houtcome := outcome_run o folder hw hj hpending hnone hrun
  have hready : (w.withFolder folder).storage = .ready db := hw
  refine ⟨houtcome, fun table fuel tried hfirst hnew => ?_, fun table => ?_⟩
  · obtain ⟨jobs, w', hdrain, hanswer⟩ := drain_of_run hready hfirst hnew o worker fuel s
    refine ⟨jobs, w', hdrain, ?_⟩
    by_cases hbars : o.Bars j.id
    · obtain ⟨e, hfails, -⟩ := houtcome.bars hbars
      rw [hfails] at hanswer
      exact ⟨fun h => absurd hbars h.1, fun _ => hanswer⟩
    obtain ⟨r, folder', hends, hr⟩ := houtcome.goes hbars
    rw [hends] at hanswer
    by_cases hlets : o.Lets j.id folder
    · rw [hr.lets hlets] at hanswer
      exact ⟨fun _ => hanswer, fun h => absurd ⟨hbars, hlets⟩ h⟩
    · obtain ⟨e, rfl, -⟩ := hr.not_lets hlets
      exact ⟨fun h => absurd h.2 hlets, fun _ => hanswer⟩
  · have hcount : Worker.jobCount s (w.withFolder folder) = (.ok db.jobs.length, w.withFolder folder) :=
      run_query hready _
    rw [runPending, run_bind_ok hcount]

/-- The small job before it is started. -/
def newJob : Job := { sampleJob with status := .pending, basePosition := .none, startedAt := .none }

/-- The run of a new job whose folder is blocked. -/
theorem run_completes_iff_newJob :
    let w := sampleWorld newJob [] .blocked
    let worker := sampleWorker 2 2
    ∃ done w₁, worker.run "job_1" still (w.withFolder .empty) = (.ok done, w₁) ∧
      Outcome none worker "job_1" still w done w₁ ∧
      (∀ table fuel tried, Ledger.findActive [newJob] table = some newJob → "job_1" ∉ tried →
        ∃ jobs w', none.drain worker table (fuel + 1) tried still w = (.ok jobs, w') ∧
          (¬ none.Bars "job_1" ∧ none.Lets "job_1" .blocked → ∃ rest, jobs = done :: rest) ∧
          (¬ (¬ none.Bars "job_1" ∧ none.Lets "job_1" .blocked) → ∀ k ∈ jobs, k.id ≠ "job_1")) ∧
      ∀ table, none.runPending worker table still w = none.drain worker table 2 [] still w := by
  intro w worker
  have hok : (worker.run "job_1" still (w.withFolder .empty)).1.isOk = true := by decide +kernel
  rcases hrun : worker.run "job_1" still (w.withFolder .empty) with ⟨e | done, w₁⟩
  · rw [hrun] at hok
    cases hok
  · exact ⟨done, w₁, rfl, run_completes_iff (w := w) (j := newJob) none .blocked
      (rfl : w.storage = .ready (sampleDatabase newJob [])) rfl rfl rfl hrun⟩

/-- If the run of the only job fails and ends the job, working off the jobs answers with none. -/
theorem runPending_of_fails (hw : w.storage = .ready db) (hjobs : db.jobs = [j])
    (hactive : j.isActive = true) (hfails : (worker.run j.id s w).1.toOption = .none)
    (hended : ∀ k ∈ (worker.run j.id s w).2.jobs, k.isActive = false) :
    (worker.runPending .none s w).1.toOption = some [] := by
  obtain ⟨db₁, hw₁, -⟩ := staysReady_run (o := none) worker j.id s w db hw
  rw [none_run] at hw₁
  rcases hrun : worker.run j.id s w with ⟨result, w₁⟩
  rw [hrun] at hfails hended hw₁
  have hfirst : Jobs.findActive .none s w = (.ok (some j), w) := by
    rw [Worker.run_findActive hw, hjobs, ← Ledger.findActive_eq, Ledger.findActive,
      Ledger.newestFirst, show [j].filter (Ledger.isOf .none) = [j] from rfl,
      List.mergeSort_singleton, List.find?_cons_of_pos hactive]
  have hnext : Jobs.findActive .none s w₁ = (.ok .none, w₁) := by
    have hline : db₁.jobs.waiting .none = [] := by
      refine List.eq_nil_iff_forall_not_mem.mpr fun k hk => ?_
      obtain ⟨hmem, -, hk⟩ := Ledger.mem_waiting.mp hk
      rw [World.jobs, hw₁] at hended
      simp [hended k hmem] at hk
    rw [Worker.run_findActive hw₁, hline]
    rfl
  have hdrains : worker.Drains .none s [] w [⟨j.id, w, result⟩] w₁ :=
    .attempt hfirst List.not_mem_nil hrun (.idle hnext)
  have hcount : Worker.jobCount s w = (.ok 1, w) := (run_query hw _).trans (by rw [hjobs]; rfl)
  rw [Worker.runPending, run_bind_ok hcount, Worker.run_drain hdrains (by simp)]
  exact congrArg some (List.filterMap_cons_none hfails)

/-- A file stands where the folder should be : the job is complete and its rows are there, but its
run has failed, and working off the jobs answers with none. -/
theorem run_blocked_of_complete :
    let worker := sampleWorker 2 2
    let run := worker.run "job_1" still (sampleWorld newJob [] .blocked)
    let working := worker.run "job_1" still (sampleWorld newJob [] .empty)
    run.2.jobs = working.2.jobs ∧ run.2.jobs.map Job.status = [.completed] ∧
      working.1.toOption.map Job.status = some .completed ∧ run.1.toOption = .none ∧
      (worker.runPending .none still (sampleWorld newJob [] .blocked)).1.toOption = some [] := by
  intro worker run working
  have hfails : run.1.toOption = .none := by
    rw [← Option.isNone_iff_eq_none]
    decide +kernel
  have hended : run.2.jobs.all (fun k => k.isActive = false) = true := by decide +kernel
  refine ⟨by decide +kernel, by decide +kernel, by decide +kernel, hfails, ?_⟩
  exact runPending_of_fails (w := sampleWorld newJob [] .blocked) (j := newJob) rfl rfl rfl hfails
    fun k hk => by simpa using List.all_eq_true.mp hended k hk

end Outage

end Tabula
