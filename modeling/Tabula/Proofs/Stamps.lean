import Tabula.Proofs.Operations

/-!
# Stamps go up

The world keeps the latest stamp of a batch. Only `Action.stamp` changes it, to a later one, so it
never goes down whatever is done (`Action.Ages`), by the service (`Operation.ages_perform`) and by
workers, also those that are stopped (`le_of_onDisk`). How a job is announced is not up to the
service (`Operation.IsPunctual`).
-/

namespace Tabula

open Store

namespace Action

variable {α β : Type}

/-- The latest stamp does not go down. -/
def Ages (x : Action α) : Prop := ∀ s w, w.lastStamp ≤ (x s w).2.lastStamp

theorem ages_pure (a : α) : Ages (Pure.pure a : Action α) := fun _ _ => le_refl _

theorem ages_lift (r : Except Failure α) : Ages (liftM r : Action α) := fun _ _ => le_refl _

theorem ages_throw (e : Failure) : Ages (throw e : Action α) := fun _ _ => le_refl _

theorem ages_now : Ages now := fun _ _ => le_refl _

theorem ages_newId (kind : String) : Ages (newId kind) := fun _ _ => le_refl _

theorem ages_ending (length : Nat) : Ages (ending length) := fun _ _ => le_refl _

theorem ages_askFolder (f : Folder → Except Failure α) : Ages (askFolder f) := fun _ _ => le_refl _

/-- A stamp is later than the latest one. -/
theorem ages_stamp : Ages stamp := by
  intro s w
  simp only [stamp]
  split <;> omega

theorem ages_transaction (f : Database → Except Failure (α × Database)) : Ages (transaction f) := by
  intro s w
  unfold transaction
  split
  · split <;> exact le_refl _
  · exact le_refl _
  · exact le_refl _

theorem ages_query (f : Database → Except Failure α) : Ages (query f) := ages_transaction _

theorem ages_changeFolder (f : Folder → Except Failure Folder) : Ages (changeFolder f) := by
  intro s w
  rw [run_changeFolder]
  split <;> exact le_refl _

theorem ages_attempt {x : Action α} (hx : Ages x) : Ages (attempt x) := hx

theorem ages_rowStore (action : RowAction) {x : Action α} (hx : Ages x) :
    Ages (rowStore action x) := by
  intro s w
  have h := hx s w
  rcases hrun : x s w with ⟨e | a, w'⟩ <;> rw [hrun] at h
  · rwa [run_rowStore_error hrun]
  · rwa [run_rowStore_ok hrun]

theorem ages_bind {x : Action α} {f : α → Action β} (hx : Ages x) (hf : ∀ a, Ages (f a)) :
    Ages (x >>= f) := by
  intro s w
  have h := hx s w
  rcases hrun : x s w with ⟨e | a, w'⟩ <;> rw [hrun] at h
  · rwa [run_bind_error hrun]
  · rw [run_bind_ok hrun]
    exact h.trans (hf a s w')

/-- What does not hang on the answer. -/
theorem ages_map {x : Action α} {f : α → β} (hx : Ages x) :
    Ages (do return f (← x) : Action β) :=
  ages_bind hx fun _ => ages_pure _

theorem ages_query_bind {f : Database → Except Failure α} {k : α → Action β} (hk : ∀ a, Ages (k a)) :
    Ages (query f >>= k) :=
  ages_bind (ages_query f) hk

theorem ages_lift_bind {r : Except Failure α} {k : α → Action β} (hk : ∀ a, Ages (k a)) :
    Ages ((liftM r : Action α) >>= k) :=
  ages_bind (ages_lift r) hk

theorem ages_ite {c : Prop} [Decidable c] {x y : Action α} (hx : Ages x) (hy : Ages y) :
    Ages (if c then x else y) := by
  split
  · exact hx
  · exact hy

theorem ages_endings : ∀ n, Ages (endings n)
  | 0 => ages_pure []
  | n + 1 => ages_bind (ages_ending 6) fun _ => ages_map (ages_endings n)

theorem Ages.le_of_run {x : Action α} (hx : Ages x) {s : Surroundings} {w w' : World}
    {r : Except Failure α} (h : x s w = (r, w')) : w.lastStamp ≤ w'.lastStamp := by
  have hle := hx s w
  rwa [h] at hle

end Action

open Tabula.Action

variable {α : Type}

/-! ## The service -/

namespace Workspace

theorem ages_ensureBaseOwner (actor id : String) : Ages (Catalog.ensureBaseOwner actor id) := by
  refine ages_query_bind fun b => ?_
  dsimp only
  split
  · exact ages_throw _
  · exact ages_pure _

theorem ages_newColumns (table : String) : ∀ n k, Ages (newColumns table k n)
  | 0, _ => ages_pure _
  | n + 1, k => ages_bind (ages_newId _) fun _ => ages_bind ages_now fun _ =>
      ages_map (ages_newColumns table n (k + 1))

theorem ages_sampleRow : ∀ columns, Ages (sampleRow columns)
  | [] => ages_pure _
  | _ :: columns => ages_bind (ages_ending 6) fun _ => ages_map (ages_sampleRow columns)

theorem ages_sampleData (columns : List Column) : ∀ n, Ages (sampleData columns n)
  | 0 => ages_pure _
  | n + 1 => ages_bind (ages_sampleRow columns) fun _ => ages_map (ages_sampleData columns n)

theorem ages_looseBatch (batch start : Int) (rows : List Value) :
    Ages (looseBatch batch start rows) :=
  ages_bind ages_stamp fun _ => ages_bind (ages_endings _) fun _ => ages_lift _

theorem ages_createTable (actor base : String) (name : Value) :
    Ages (createTable actor base name) :=
  ages_bind (ages_ensureBaseOwner actor base) fun _ => ages_lift_bind fun _ =>
    ages_bind (ages_newId _) fun id => ages_bind ages_now fun _ =>
      ages_bind (ages_newColumns id _ _) fun columns =>
        ages_bind (ages_sampleData columns _) fun _ => ages_bind (ages_looseBatch _ _ _) fun _ =>
          ages_map (ages_transaction _)

theorem ages_createColumn (table : Option String) (name type order : Value) :
    Ages (Catalog.createColumn table name type order) := by
  unfold Catalog.createColumn
  split
  · exact ages_throw _
  · exact ages_lift_bind fun _ => ages_lift_bind fun _ => ages_bind (ages_newId _) fun _ =>
      ages_lift_bind fun _ => ages_bind ages_now fun _ => ages_transaction _

theorem ages_addColumn (actor table : String) (name type order : Value) :
    Ages (addColumn actor table name type order) := by
  refine ages_query_bind fun _ => ?_
  dsimp only
  split
  · exact ages_query_bind fun _ => ages_map (ages_createColumn _ _ _ _)
  · exact ages_map (ages_createColumn _ _ _ _)

theorem ages_updateColumn (actor id : String) (name type order : Value) :
    Ages (updateColumn actor id name type order) := by
  have hconversion : ∀ c, Ages (conversion id type c) := by
    intro c
    unfold conversion
    exact ages_ite (ages_pure _) (ages_lift_bind fun target => ages_ite
      (ages_bind ages_now fun _ => ages_transaction _) (ages_pure _))
  rw [updateColumn_eq]
  exact ages_query_bind fun c => ages_query_bind fun _ => ages_bind (hconversion c) fun _ =>
    ages_map (ages_transaction _)

theorem ages_typesFor (table : String) : Ages (typesFor table) := ages_map (ages_query _)

theorem ages_listRows (settings : Settings) (actor table : String)
    (filter sort limit offset : Value) :
    Ages (listRows settings actor table filter sort limit offset) :=
  ages_query_bind fun _ => ages_lift_bind fun _ => ages_bind (ages_typesFor table) fun _ =>
    ages_lift_bind fun _ => ages_map (ages_rowStore _ (ages_query _))

theorem ages_countRows (actor table : String) (filter : Value) :
    Ages (countRows actor table filter) :=
  ages_query_bind fun _ => ages_bind (ages_typesFor table) fun _ => ages_lift_bind fun _ =>
    ages_rowStore _ (ages_query _)

theorem ages_search (settings : Settings) (actor : String) (text limit : Value) :
    Ages (search settings actor text limit) := by
  unfold search
  split
  · split
    · exact ages_throw _
    · refine ages_lift_bind fun page => ages_query_bind fun tables => ages_map ?_
      unfold RowStore.search
      exact ages_ite (ages_pure _) (ages_rowStore _ (ages_query _))
  · exact ages_throw _

theorem ages_append (table : String) (es : Batch) : Ages (RowStore.append table es) := by
  unfold RowStore.append
  split
  · exact ages_pure 0
  · exact ages_bind ages_now fun _ => ages_rowStore _ (ages_transaction _)

theorem ages_insertChunks (table : String) : ∀ (chunks : List (List Cells)) (position batch : Int),
    Ages (insertChunks table position batch chunks)
  | [], _, _ => ages_pure _
  | _ :: chunks, _, _ => ages_bind (ages_looseBatch _ _ _) fun _ =>
      ages_bind (ages_append table _) fun _ => ages_map (ages_insertChunks table chunks _ _)

theorem ages_insertRows (settings : Settings) (actor table : String) (rows : Value) :
    Ages (insertRows settings actor table rows) := by
  refine ages_query_bind fun _ => ?_
  dsimp only
  split
  on_goal 3 => exact ages_throw _
  all_goals
    refine ages_query_bind fun types => ages_lift_bind fun prepared =>
      ages_bind (ages_rowStore _ (ages_query _)) fun position => ?_
    split
    · exact ages_insertChunks table _ _ _
    · exact ages_throw _

theorem ages_updateCell (actor row : String) (column value : Value) :
    Ages (updateCell actor row column value) :=
  ages_bind (ages_rowStore _ (ages_query _)) fun _ => ages_query_bind fun _ =>
    ages_query_bind fun _ => ages_lift_bind fun _ =>
      ages_map (ages_bind ages_now fun _ => ages_rowStore _ (ages_transaction _))

theorem ages_deleteRow (actor row : String) : Ages (deleteRow actor row) :=
  ages_bind (ages_rowStore _ (ages_query _)) fun _ => ages_query_bind fun _ =>
    ages_rowStore _ (ages_transaction _)

theorem ages_keptConfigs (table : String) (filter sort : Value) :
    Ages (keptConfigs table filter sort) :=
  ages_lift_bind fun _ => ages_lift_bind fun _ => ages_bind (ages_typesFor table) fun _ =>
    ages_map (ages_lift _)

theorem ages_createView (actor table : String) (name filter sort : Value) :
    Ages (createView actor table name filter sort) :=
  ages_query_bind fun _ => ages_bind (ages_keptConfigs _ _ _) fun _ =>
    ages_map (ages_lift_bind fun _ => ages_bind (ages_newId _) fun _ => ages_bind ages_now fun _ =>
      ages_transaction _)

theorem ages_updateView (actor id : String) (name filter sort : Value) :
    Ages (updateView actor id name filter sort) :=
  ages_query_bind fun _ => ages_query_bind fun _ => ages_bind (ages_keptConfigs _ _ _) fun _ =>
    ages_map (ages_transaction _)

end Workspace

theorem Ingestion.ages_start {announce : String → Action Unit}
    (hannounce : ∀ job, Ages (announce job)) (actor table : String) (total : Value) :
    Ages (start announce actor table total) :=
  ages_lift_bind fun _ => ages_query_bind fun _ =>
    ages_bind (ages_lift_bind fun _ => ages_bind (ages_newId _) fun _ => ages_bind ages_now fun _ =>
        ages_transaction _) fun job =>
      ages_bind (ages_attempt (hannounce job.id)) fun _ => ages_pure _

/-! ## Workers -/

namespace Checkpoints

theorem ages_read (job : Value) : Ages (read job) :=
  ages_lift_bind fun _ => ages_bind (fun _ _ => le_refl _) fun _ => ages_askFolder _

theorem ages_save (job rows : Value) : Ages (save job rows) :=
  ages_lift_bind fun _ => ages_bind ages_now fun _ => ages_changeFolder _

theorem ages_clear (job : Value) : Ages (clear job) := ages_lift_bind fun _ => ages_changeFolder _

end Checkpoints

theorem Jobs.ages_change (f : Moment → Ledger → Except Failure (α × Ledger)) :
    Ages (now >>= fun now => change (f now)) :=
  ages_bind ages_now fun _ => ages_transaction _

namespace Run

theorem ages_execute (job : Job) (source : Source) (d : Descriptor) :
    Ages (execute job source d) :=
  ages_lift_bind fun _ => ages_lift_bind fun _ => Workspace.ages_append _ _

theorem ages_mark (id : String) (processed : Int) : Ages (mark id processed) := by
  refine ages_bind (ages_attempt (Checkpoints.ages_save _ _)) fun r => ?_
  rcases r with why | _
  · exact ages_ite (ages_pure _) (ages_throw _)
  · exact ages_pure _

theorem ages_settle (id : String) (r : Run) (f : Finished) : Ages (settle id r f) := by
  unfold settle
  split
  · exact ages_pure r
  · rcases f with ⟨d, why | n⟩
    · exact ages_pure _
    · refine ages_bind (ages_attempt (ages_bind (Jobs.ages_change _) fun _ =>
        ages_map (ages_mark id _))) fun a => ?_
      rcases a with why | r' <;> exact ages_pure _

theorem ages_settleAll (id : String) : ∀ (r : Run) (fs : List Finished), Ages (settleAll id r fs)
  | r, [] => ages_pure r
  | r, f :: fs => ages_bind (ages_settle id r f) fun r' => ages_settleAll id r' fs

theorem ages_drive (concurrency : Int) (job : Job) (source : Source) :
    ∀ (ds : List Descriptor) (inFlight : List Finished) (r : Run),
      Ages (drive concurrency job source ds inFlight r)
  | [], inFlight, r => ages_settleAll job.id r inFlight
  | d :: ds, inFlight, r => by
    have hnext : ∀ (inFlight : List Finished) (r : Run), Ages
        (if r.failure.isSome then settleAll job.id r inFlight
        else Action.attempt (execute job source d) >>= fun result =>
          drive concurrency job source ds (inFlight ++ [(d, result)]) r) := fun inFlight r =>
      ages_ite (ages_settleAll job.id r inFlight) (ages_bind (ages_attempt (ages_execute _ _ _))
        fun _ => ages_drive concurrency job source ds _ r)
    rw [drive]
    split
    · exact ages_bind (ages_settleAll job.id r inFlight) fun r' => hnext [] r'
    · exact hnext inFlight r

theorem ages_finish (id : String) (r : Run) : Ages (finish id r) := by
  unfold finish
  split
  · exact ages_bind (ages_attempt (Jobs.ages_change _)) fun _ => ages_throw _
  · exact ages_bind (Jobs.ages_change _) fun _ => ages_map (Checkpoints.ages_clear _)

end Run

namespace Worker

variable (w : Worker)

theorem ages_begin (id : String) : Ages (w.begin id) := by
  have hresume : ∀ j, Ages (resumeOffset j) := by
    intro j
    refine ages_bind (ages_map (Checkpoints.ages_read _)) fun saved => ?_
    rcases saved with _ | saved
    · exact ages_ite (ages_map (ages_rowStore _ (ages_query _))) (ages_pure _)
    · exact ages_pure _
  have hbase : ∀ j, Ages (basePosition j) := by
    intro j
    unfold basePosition
    split
    · exact ages_pure _
    · exact ages_rowStore _ (ages_query _)
  unfold begin
  refine ages_query_bind fun j => ?_
  split
  · exact ages_throw _
  · exact ages_bind (hresume j) fun _ => ages_bind (hbase j) fun _ => ages_bind (Jobs.ages_change _)
      fun _ => ages_query_bind fun _ => ages_lift_bind fun _ => ages_pure _

theorem ages_run (id : String) : Ages (w.run id) := by
  rw [run_eq]
  exact ages_bind (w.ages_begin id) fun a => ages_lift_bind fun ds =>
    ages_bind (Run.ages_drive _ _ _ ds [] _) fun r => Run.ages_finish _ r

theorem ages_drain (table : Option String) : ∀ (fuel : Nat) (tried : List String),
    Ages (w.drain table fuel tried)
  | 0, _ => ages_pure _
  | fuel + 1, tried => by
    refine ages_query_bind fun found => ?_
    rcases found with _ | job
    · exact ages_pure _
    simp only
    split
    · exact ages_pure _
    · refine ages_bind (ages_attempt (w.ages_run job.id)) fun r => ?_
      rcases r with why | done
      · exact ages_drain table fuel _
      · exact ages_map (ages_drain table fuel _)

theorem ages_runPending (table : Option String) : Ages (w.runPending table) :=
  ages_query_bind fun n => w.ages_drain table (n + 1) []

end Worker

/-! ## Runs that are stopped -/

theorem Flight.le_of_step {concurrency : Int} {job : Job} {source : Source}
    {refuses : Descriptor → Failure → Prop} {f f' : Flight}
    (h : Step concurrency job source refuses f f') : f.world.lastStamp ≤ f'.world.lastStamp := by
  cases h with
  | submit | refuse | takeSome | takeAll | lose => exact le_refl _
  | execute s _ hrun => exact (ages_attempt (Run.ages_execute _ _ _)).le_of_run hrun
  | count s _ _ _ hrun | haltCount s _ _ _ hrun => exact (Jobs.ages_change _).le_of_run hrun
  | mark s _ _ _ hrun | haltMark s _ _ _ hrun => exact (Run.ages_mark _ _).le_of_run hrun

theorem le_of_attempted {w : Worker} {id : String} {refuses : Descriptor → Failure → Prop}
    {world : World} {job : Job} {f : Flight} (h : Attempted w id refuses world job f) :
    world.lastStamp ≤ f.world.lastStamp := by
  obtain ⟨s, source, p, begun, ds, hbegin, _, hreach⟩ := h
  refine ((w.ages_begin id).le_of_run hbegin).trans ?_
  induction hreach with
  | refl => exact le_refl _
  | tail _ hstep ih => exact ih.trans (Flight.le_of_step hstep)

theorem le_of_onDisk {w : Worker} {id : String} {refuses : Descriptor → Failure → Prop}
    {world₀ world : World} (h : OnDisk w id refuses world₀ world) :
    world₀.lastStamp ≤ world.lastStamp := by
  induction h with
  | start => exact le_refl _
  | begin _ s ih => exact ih.trans (w.ages_begin id s _)
  | run _ hf ih => exact ih.trans (le_of_attempted hf)
  | complete _ hf _ _ s ih => exact (ih.trans (le_of_attempted hf)).trans (Jobs.ages_change _ s _)
  | finish _ hf _ s ih => exact (ih.trans (le_of_attempted hf)).trans (Run.ages_finish _ _ s _)

/-! ## Whatever is asked for -/

namespace Operation

/-- An announcement does not turn the stamps back. -/
def IsPunctual : Operation → Prop
  | startIngestion announce _ _ _ => ∀ job, Ages (announce job)
  | _ => True

theorem ages_perform (settings : Workspace.Settings) {op : Operation} (h : op.IsPunctual) :
    Ages (op.perform settings) := by
  cases op with
  | createBase actor name =>
    exact ages_map (ages_map (ages_lift_bind fun _ => ages_bind (ages_newId _) fun _ =>
      ages_bind ages_now fun _ => ages_transaction _))
  | listBases => exact ages_map (ages_map (ages_query _))
  | createTable actor base name => exact ages_map (Workspace.ages_createTable actor base name)
  | deleteTable actor table => exact ages_query_bind fun _ => ages_transaction _
  | addColumn actor table name type order =>
    exact ages_map (Workspace.ages_addColumn actor table name type order)
  | updateColumn actor column name type order =>
    exact ages_map (Workspace.ages_updateColumn actor column name type order)
  | deleteColumn actor column =>
    exact ages_map (ages_query_bind fun _ => ages_query_bind fun _ => ages_bind ages_now fun _ =>
      ages_transaction _)
  | getTable | listViews | getView =>
    exact ages_map (ages_query_bind fun _ => ages_query_bind fun _ => ages_pure _)
  | listRows actor table filter sort limit offset =>
    exact ages_map (Workspace.ages_listRows settings actor table filter sort limit offset)
  | countRows actor table filter => exact ages_map (Workspace.ages_countRows actor table filter)
  | insertRows actor table rows =>
    exact ages_map (Workspace.ages_insertRows settings actor table rows)
  | updateCell actor row column value =>
    exact ages_map (Workspace.ages_updateCell actor row column value)
  | deleteRow actor row => exact Workspace.ages_deleteRow actor row
  | createView actor table name filter sort =>
    exact ages_map (Workspace.ages_createView actor table name filter sort)
  | updateView actor view name filter sort =>
    exact ages_map (Workspace.ages_updateView actor view name filter sort)
  | listViewRows actor view limit offset =>
    exact ages_map (ages_query_bind fun _ => Workspace.ages_listRows settings actor _ _ _ limit offset)
  | search actor text limit => exact ages_map (Workspace.ages_search settings actor text limit)
  | startIngestion announce actor table total =>
    exact ages_map (Ingestion.ages_start h actor table total)
  | runJob worker job => exact ages_map (worker.ages_run job)
  | runPending worker table => exact ages_map (worker.ages_runPending table)

end Operation

end Tabula
