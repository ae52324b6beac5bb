import Mathlib.Data.List.Nodup
import Mathlib.Logic.Relation
import Tabula.Proofs.FloatOrder
import Tabula.Proofs.JobLedger

/-!
# The life of a job

`LedgerCall` are the calls that change the ledger. `LedgerCall.outcome` sums up what one of
them does : it fails and nothing stored changes, or it makes a new job, or it changes the job
it names in one of the four ways of `Job.Changes`.

`Job.IsSound` is what holds of a job at any time, and `Job.Ages` what a later state of a job
keeps of an earlier one. A change keeps the first (`Changes.isSound`) and is a case of the
second in which the status makes one move at most (`Changes.ages`); `Ledger.lifecycle`
carries both through any number of calls on any number of jobs.
-/

namespace Tabula

/-! ## States of a job -/

/-- The moves of a job's status. -/
inductive JobStatus.Move : JobStatus → JobStatus → Prop where
  | start : Move .pending .processing
  | complete : Move .processing .completed
  | fail : Move .processing .failed

namespace Job

/-- What holds of a job at any time. -/
structure IsSound (j : Job) : Prop where
  running : j.status ≠ .completed → j.progress.le progressCeiling = true
  done : j.progress = hundred ↔ j.status = .completed
  startedAt : j.startedAt.isSome = true ↔ j.status ≠ .pending
  completedAt : j.completedAt.isSome = true ↔ j.status.isTerminal = true

/-- A job that was just made. -/
structure IsNew (j : Job) : Prop where
  status : j.status = .pending
  processed : j.processed = 0
  progress : j.progress = .zero
  base : j.basePosition = none
  startedAt : j.startedAt = none
  completedAt : j.completedAt = none

/-- What a later state of a job keeps of an earlier one, its status having moved as `moves`
allows. -/
structure Ages (moves : JobStatus → JobStatus → Prop) (j j' : Job) : Prop
    extends j.Continues j' where
  status : moves j.status j'.status
  frozen : j.status.isTerminal = true → j' = j
  progress : j.progress.le j'.progress = true
  createdAt : j'.createdAt = j.createdAt
  startedAt : j.startedAt ≠ none → j'.startedAt = j.startedAt

theorem not_hundred_le_ceiling : hundred.le progressCeiling = false := by decide +kernel

theorem zero_le_ceiling : Binary64.zero.le progressCeiling = true := by decide +kernel

theorem hundred_ne_nan : hundred ≠ .nan := by simp [hundred, Binary64.ofInt, Binary64.ofRatio]

theorem ceiling_le_hundred : progressCeiling.le hundred = true := by decide +kernel

theorem IsNew.isSound {j : Job} (h : j.IsNew) : j.IsSound where
  running := fun _ => by rw [h.progress]; exact zero_le_ceiling
  done := by
    rw [h.progress, h.status]
    have : Binary64.zero ≠ hundred := by decide +kernel
    simp [this]
  startedAt := by simp [h.startedAt, h.status]
  completedAt := by simp [h.completedAt, h.status, JobStatus.isTerminal]

/-- Whatever its status, the progress of a sound job is a number up to one hundred. -/
theorem IsSound.progress_le {j : Job} (h : j.IsSound) : j.progress.le hundred = true := by
  by_cases hs : j.status = .completed
  · rw [h.done.mpr hs]
    exact Binary64.le_refl hundred_ne_nan
  · exact Binary64.le_trans (h.running hs) ceiling_le_hundred

theorem IsSound.ages_refl {j : Job} (h : j.IsSound) {moves : JobStatus → JobStatus → Prop}
    (hmoves : moves j.status j.status) : j.Ages moves j where
  toContinues := ⟨rfl, rfl, rfl, fun _ => rfl⟩
  status := hmoves
  frozen := fun _ => rfl
  progress := Binary64.le_refl (Binary64.ne_nan_of_le h.progress_le)
  createdAt := rfl
  startedAt := fun _ => rfl

theorem Ages.trans {moves moves' moves'' : JobStatus → JobStatus → Prop} {j j' j'' : Job}
    (h : j.Ages moves j') (h' : j'.Ages moves' j'')
    (hmoves : moves j.status j'.status → moves' j'.status j''.status →
      moves'' j.status j''.status) : j.Ages moves'' j'' where
  toContinues := h.toContinues.trans h'.toContinues
  status := hmoves h.status h'.status
  frozen := fun ht => by
    obtain rfl := h.frozen ht
    exact h'.frozen ht
  progress := Binary64.le_trans h.progress h'.progress
  createdAt := h'.createdAt.trans h.createdAt
  startedAt := fun hne => (h'.startedAt (by rwa [h.startedAt hne])).trans (h.startedAt hne)

/-! ## Changes of a job -/

/-- Progress that stays, or goes up to what it is while the job runs. -/
def Raised (p p' : Binary64) : Prop :=
  p' = p ∨ ∃ x, x.le progressCeiling = true ∧ p' = p.max x

/-- What a call that succeeds does to the job it names. -/
inductive Changes (now : Moment) (j : Job) : Job → Prop where
  | restarted (processed : Int) {base : Option Int} {progress : Binary64}
      (active : j.isActive = true) (hbase : j.basePosition ≠ none → base = j.basePosition)
      (hprogress : Raised j.progress progress) :
      Changes now j { j with
        status := .processing
        startedAt := if j.status = .pending then some now else j.startedAt
        basePosition := base, processed := processed, progress := progress, updatedAt := now }
  | advanced (processed : Int) {progress : Binary64} (status : j.status = .processing)
      (hprogress : Raised j.progress progress) :
      Changes now j { j with processed := processed, progress := progress, updatedAt := now }
  | completed (status : j.status = .processing) :
      Changes now j { j with
        status := .completed, updatedAt := now, completedAt := some now, progress := hundred }
  | failed (detail : String) (status : j.status = .processing) :
      Changes now j { j with
        status := .failed, updatedAt := now, completedAt := some now, error := some detail }

variable {now : Moment} {j j' : Job} {p p' : Binary64}

theorem Raised.le (h : Raised p p') (hp : p ≠ .nan) : p.le p' = true := by
  rcases h with rfl | ⟨x, _, rfl⟩
  · exact Binary64.le_refl hp
  · exact Binary64.le_max_left hp x

theorem Raised.le_ceiling (h : Raised p p') (hp : p.le progressCeiling = true) :
    p'.le progressCeiling = true := by
  rcases h with rfl | ⟨x, hx, rfl⟩
  · exact hp
  · exact Binary64.max_le hp hx

theorem ne_hundred_of_le (h : p.le progressCeiling = true) : p ≠ hundred := by
  rintro rfl
  rw [not_hundred_le_ceiling] at h
  exact Bool.false_ne_true h

theorem isActive_iff : j.isActive = true ↔ j.status = .pending ∨ j.status = .processing := by
  rw [isActive]
  cases j.status <;> simp [JobStatus.isTerminal]

theorem Changes.isActive (h : j.Changes now j') : j.isActive = true := by
  rcases h with ⟨_, hactive, _, _⟩ | ⟨_, hs, _⟩ | hs | ⟨_, hs⟩
  · exact hactive
  all_goals exact isActive_iff.mpr (.inr hs)

theorem not_completed_of_isActive (h : j.isActive = true) : j.status ≠ .completed := by
  rcases isActive_iff.mp h with hs | hs <;> simp [hs]

/-- A change keeps a job sound. -/
theorem Changes.isSound (h : j.Changes now j') (hj : j.IsSound) : j'.IsSound := by
  have hle := hj.running (not_completed_of_isActive h.isActive)
  rcases h with ⟨processed, hactive, hbase, hp⟩ | ⟨processed, hs, hp⟩ | hs | ⟨detail, hs⟩
  · have hp' := hp.le_ceiling hle
    have hc : j.completedAt.isSome = false := by
      rw [Bool.eq_false_iff, ne_eq, hj.completedAt]
      simpa [Job.isActive] using hactive
    refine ⟨fun _ => hp', ?_, ?_, ?_⟩
    · simp [ne_hundred_of_le hp']
    · rcases isActive_iff.mp hactive with hs | hs
      · simp [hs]
      · simpa [hs] using hj.startedAt
    · simp [hc, JobStatus.isTerminal]
  · have hp' := hp.le_ceiling hle
    exact ⟨fun _ => hp', by simp [ne_hundred_of_le hp', hs], hj.startedAt, hj.completedAt⟩
  · refine ⟨fun hne => absurd rfl hne, by simp, ?_, by simp [JobStatus.isTerminal]⟩
    simpa [hs] using hj.startedAt
  · refine ⟨fun _ => hle, by simp [ne_hundred_of_le hle], ?_, by simp [JobStatus.isTerminal]⟩
    simpa [hs] using hj.startedAt

/-- A change moves the status once at most, and keeps all that a later state keeps. -/
theorem Changes.ages (h : j.Changes now j') (hj : j.IsSound) :
    j.Ages (Relation.ReflGen JobStatus.Move) j' := by
  have hfrozen : j.status.isTerminal = true → j' = j := fun ht => by
    have hactive := h.isActive
    simp [Job.isActive, ht] at hactive
  have hnan := Binary64.ne_nan_of_le hj.progress_le
  rcases h with ⟨processed, hactive, hbase, hp⟩ | ⟨processed, hs, hp⟩ | hs | ⟨detail, hs⟩
  · refine ⟨⟨rfl, rfl, rfl, hbase⟩, ?_, hfrozen, hp.le hnan, rfl, fun hne => ?_⟩
    · rcases isActive_iff.mp hactive with hs | hs
      · rw [hs]
        exact .single .start
      · rw [hs]
    · have hs : j.status ≠ .pending := hj.startedAt.mp (Option.isSome_iff_ne_none.mpr hne)
      simp [hs]
  · exact ⟨⟨rfl, rfl, rfl, fun _ => rfl⟩, .refl, hfrozen, hp.le hnan, rfl, fun _ => rfl⟩
  · refine ⟨⟨rfl, rfl, rfl, fun _ => rfl⟩, ?_, hfrozen, hj.progress_le, rfl, fun _ => rfl⟩
    rw [hs]
    exact .single .complete
  · refine ⟨⟨rfl, rfl, rfl, fun _ => rfl⟩, ?_, hfrozen, Binary64.le_refl hnan, rfl, fun _ => rfl⟩
    rw [hs]
    exact .single .fail

theorem runningProgress_le {processed total : Int} {x : Binary64}
    (h : runningProgress processed total = .ok x) : x.le progressCeiling = true := by
  rw [runningProgress] at h
  split at h
  · rw [← Except.ok.inj h]
    exact zero_le_ceiling
  · dsimp only at h
    split at h
    · rw [← Except.ok.inj h]
      have hshare : ((Binary64.ofRatio processed total.toNat).mul hundred) ≠ .nan := by
        simp [Binary64.ofRatio, Binary64.mul, hundred, Binary64.ofInt]
      exact Binary64.min_le_right (Binary64.min_ne_nan hshare hundred_ne_nan)
        (Binary64.ne_nan_of_le ceiling_le_hundred)
    · cases h

end Job

/-! ## What the operations do -/

namespace Ledger

variable {now : Moment} {ledger ledger' : Ledger} {id : String} {j j' : Job}

/-- What a call that succeeds does to the ledger : there is a new job, or the job it names is
changed. -/
inductive Outcome (now : Moment) (id : String) (ledger : Ledger) : Ledger → Prop where
  | made {j : Job} (hnone : ledger.find? id = none) (hid : j.id = id) (hnew : j.IsNew) :
      Outcome now id ledger (ledger ++ [j])
  | changed {j j' : Job} (hfind : ledger.find? id = some j) (hchanges : j.Changes now j') :
      Outcome now id ledger (ledger.put j')

theorem outcome_of_create {table : String} {total : Int} (hnone : ledger.find? id = none)
    (h : create now id table total ledger = .ok (j, ledger')) :
    Outcome now id ledger ledger' := by
  rw [create] at h
  obtain ⟨total, _, h⟩ := ok_of_bind h
  obtain ⟨_, rfl⟩ := Prod.mk.inj (Except.ok.inj h)
  exact .made hnone rfl ⟨rfl, rfl, rfl, rfl, rfl, rfl⟩

/-- Starting an active job and fixing its base position, if it has none. -/
theorem based_started (now : Moment) (hactive : j.isActive = true) (base : Option Int) :
    ∃ b, (j.basePosition ≠ none → b = j.basePosition) ∧
      based base (started now j) = { j with
        status := .processing
        startedAt := if j.status = .pending then some now else j.startedAt
        basePosition := b } := by
  have hstarted : started now j = { j with
      status := .processing
      startedAt := if j.status = .pending then some now else j.startedAt } := by
    rw [started]
    rcases Job.isActive_iff.mp hactive with hs | hs
    · simp [hs]
    · have hne : j.status ≠ .pending := by simp [hs]
      rw [if_neg hne, if_neg hne, ← hs]
  rcases hb : j.basePosition with _ | p
  · rcases base with _ | q
    · exact ⟨none, fun hne => absurd rfl hne, by simp [based, hstarted, hb]⟩
    · exact ⟨some (max 0 q), fun hne => absurd rfl hne, by simp [based, hstarted, hb]⟩
  · exact ⟨some p, fun _ => rfl, by rw [hstarted]; simp only [based, hb]⟩

theorem raised_of_resumed {resumeFrom : Option Int} (h : resumed resumeFrom j = .ok j') :
    ∃ processed progress, Job.Raised j.progress progress ∧
      j' = { j with processed := processed, progress := progress } := by
  rcases resumeFrom with _ | n
  · exact ⟨j.processed, j.progress, .inl rfl, (Except.ok.inj h).symm⟩
  · obtain ⟨x, hx, h⟩ := ok_of_bind h
    exact ⟨_, _, .inr ⟨x, Job.runningProgress_le hx, rfl⟩, (Except.ok.inj h).symm⟩

theorem outcome_of_markProcessing {resumeFrom base : Option Int}
    (h : markProcessing now id resumeFrom base ledger = .ok (j', ledger')) :
    Outcome now id ledger ledger' := by
  rw [markProcessing] at h
  obtain ⟨j, hj, h⟩ := ok_of_bind h
  split at h
  · cases h
  · rename_i hactive
    have hactive : j.isActive = true := by simpa using hactive
    obtain ⟨k, hk, h⟩ := ok_of_bind h
    obtain ⟨_, _, h⟩ := ok_of_bind h
    obtain ⟨_, rfl⟩ := Prod.mk.inj (Except.ok.inj h)
    obtain ⟨b, hb, hbased⟩ := based_started now hactive base
    rw [hbased] at hk
    obtain ⟨processed, progress, hraised, rfl⟩ := raised_of_resumed hk
    exact .changed (find?_of_get hj) (.restarted processed hactive hb hraised)

theorem outcome_of_advance {delta : Int} {x : Binary64}
    (h : advance now id delta ledger = .ok (x, ledger')) : Outcome now id ledger ledger' := by
  rw [advance] at h
  split at h
  · cases h
  · obtain ⟨_, _, h⟩ := ok_of_bind h
    obtain ⟨j, hj, h⟩ := ok_of_bind h
    split at h
    · cases h
    · rename_i hs
      obtain ⟨y, hy, h⟩ := ok_of_bind h
      obtain ⟨_, rfl⟩ := Prod.mk.inj (Except.ok.inj h)
      exact .changed (find?_of_get hj)
        (.advanced _ (not_not.mp hs) (.inr ⟨y, Job.runningProgress_le hy, rfl⟩))

theorem outcome_of_complete (h : complete now id ledger = .ok (j', ledger')) :
    Outcome now id ledger ledger' := by
  rw [complete] at h
  obtain ⟨k, hk, h⟩ := ok_of_bind h
  obtain ⟨_, rfl⟩ := Prod.mk.inj (Except.ok.inj h)
  obtain ⟨j, hj, hs, rfl⟩ := eq_of_ended hk
  exact .changed hj (.completed hs)

theorem outcome_of_fail {detail : String} (h : fail now id detail ledger = .ok (j', ledger')) :
    Outcome now id ledger ledger' := by
  rw [fail] at h
  obtain ⟨k, hk, h⟩ := ok_of_bind h
  obtain ⟨_, rfl⟩ := Prod.mk.inj (Except.ok.inj h)
  obtain ⟨j, hj, hs, rfl⟩ := eq_of_ended hk
  exact .changed hj (.failed _ hs)

/-! ## What an outcome keeps -/

/-- A ledger of sound jobs with distinct ids. -/
structure IsSound (ledger : Ledger) : Prop where
  nodup : (ledger.map Job.id).Nodup
  sound : ∀ j ∈ ledger, j.IsSound

/-- What becomes of a ledger by a call about one job : no other job changes, and the job
goes on from what it was, or is new. -/
structure Turns (id : String) (ledger ledger' : Ledger) : Prop where
  others : ∀ other, other ≠ id → ledger'.find? other = ledger.find? other
  known : ∀ j, ledger.find? id = some j →
    ∃ j', ledger'.find? id = some j' ∧ j.Ages (Relation.ReflGen JobStatus.Move) j'
  unknown : ledger.find? id = none → ∃ j', ledger'.find? id = some j' ∧ j'.IsNew

theorem mem_of_find? (h : ledger.find? id = some j) : j ∈ ledger := List.mem_of_find?_eq_some h

theorem find?_eq_none : ledger.find? id = none ↔ id ∉ ledger.map Job.id := by
  simp [find?]

theorem find?_append (k : Job) (ledger : Ledger) (id : String) :
    find? (ledger ++ [k]) id = (find? ledger id).or (if k.id = id then some k else none) := by
  rw [find?, List.find?_append]
  by_cases h : k.id = id <;> simp [find?, h]

theorem map_id_put (ledger : Ledger) (j' : Job) :
    (ledger.put j').map Job.id = ledger.map Job.id := by
  rw [put, List.map_map]
  refine List.map_congr_left fun j _ => ?_
  by_cases h : j.id = j'.id <;> simp [h]

theorem mem_put {k : Job} (h : k ∈ ledger.put j') : k = j' ∨ k ∈ ledger := by
  obtain ⟨j, hj, hk⟩ := List.mem_map.mp h
  split at hk
  · exact .inl hk.symm
  · exact .inr (hk ▸ hj)

theorem Outcome.isSound (h : Outcome now id ledger ledger') (hledger : ledger.IsSound) :
    ledger'.IsSound := by
  obtain ⟨hnodup, hsound⟩ := hledger
  rcases h with ⟨hnone, hid, hnew⟩ | ⟨hfind, hchanges⟩
  · refine ⟨?_, fun k hk => ?_⟩
    · rw [List.map_append, List.map_singleton, hid, List.nodup_append_comm]
      exact List.nodup_cons.mpr ⟨find?_eq_none.mp hnone, hnodup⟩
    · rcases List.mem_append.mp hk with hk | hk
      · exact hsound k hk
      · rw [List.mem_singleton.mp hk]
        exact hnew.isSound
  · refine ⟨by rwa [map_id_put], fun k hk => ?_⟩
    rcases mem_put hk with rfl | hk
    · exact hchanges.isSound (hsound _ (mem_of_find? hfind))
    · exact hsound k hk

theorem Outcome.turns (h : Outcome now id ledger ledger') (hledger : ledger.IsSound) :
    ledger.Turns id ledger' := by
  rcases h with ⟨hnone, hid, hnew⟩ | ⟨hfind, hchanges⟩
  · refine ⟨fun other ho => ?_, fun k hk => ?_, fun _ => ⟨_, ?_, hnew⟩⟩
    · rw [find?_append, if_neg (by rw [hid]; exact ho.symm), Option.or_none]
    · rw [hnone] at hk
      cases hk
    · rw [find?_append, hnone, if_pos hid, Option.none_or]
  · rename_i j j'
    have hages := hchanges.ages (hledger.sound j (mem_of_find? hfind))
    have hid : j'.id = id := hages.id.trans (id_of_find? hfind)
    refine ⟨fun other ho => ?_, fun k hk => ?_, fun hnone => ?_⟩
    · exact find?_put_of_ne (by rw [hid]; exact ho) ledger
    · obtain rfl := Option.some.inj (hfind.symm.trans hk)
      exact ⟨j', find?_put_self hid hfind, hages⟩
    · rw [hfind] at hnone
      cases hnone

end Ledger

/-! ## Calls -/

/-- The jobs that are stored. -/
def World.jobs (w : World) : Ledger :=
  match w.storage with
  | .ready db => db.jobs
  | _ => []

/-- A call that changes the ledger. -/
inductive LedgerCall where
  | create (table : Option String) (total : Value)
  | markProcessing (id : String) (resumeFrom base : Option Int)
  | advance (id : String) (delta : Int)
  | complete (id : String)
  | fail (id detail : String)

namespace LedgerCall

/-- The call as an action, whose answer does not matter. -/
def perform : LedgerCall → Action Unit
  | create table total => do let _ ← Jobs.create table total
  | markProcessing id resumeFrom base => do let _ ← Jobs.markProcessing id resumeFrom base
  | advance id delta => do let _ ← Jobs.advance id delta
  | complete id => do let _ ← Jobs.complete id
  | fail id detail => do let _ ← Jobs.fail id detail

/-- The job that the call is about : the one it names, or the one it is to make. -/
def subject (s : Surroundings) (w : World) : LedgerCall → String
  | create _ _ => "job" ++ "_" ++ s.token (w.tokens + 1)
  | markProcessing id _ _ => id
  | advance id _ => id
  | complete id => id
  | fail id _ => id

/-- Whether no job has the id that the call makes, if it makes one. -/
def IsFresh (s : Surroundings) (w : World) : LedgerCall → Prop
  | create table total => w.jobs.find? ((create table total).subject s w) = none
  | _ => True

end LedgerCall

theorem World.jobs_eq {w : World} {db : Database} (hw : w.storage = .ready db) :
    w.jobs = db.jobs := by
  rw [World.jobs, hw]

/-- What an action has done to the jobs of a world : it has failed and nothing stored has
changed, or the jobs are those of an outcome. -/
def Settles {α : Type} (s : Surroundings) (id : String) (w : World)
    (run : Except Failure α × World) : Prop :=
  (∃ e, run.1 = .error e ∧ run.2.storage = w.storage) ∨
    ∃ a, run.1 = .ok a ∧ Ledger.Outcome s.now id w.jobs run.2.jobs

section Settles

variable {α : Type} {s : Surroundings} {w : World} {id : String}

theorem Settles.discard {x : Action α} (h : Settles s id w (x s w)) :
    Settles s id w ((do let _ ← x : Action Unit) s w) := by
  rcases hx : x s w with ⟨e | a, w'⟩ <;> rw [hx] at h
  · rw [Action.run_bind_error hx]
    rcases h with ⟨_, _, hw⟩ | ⟨_, ha, _⟩
    · exact .inl ⟨e, rfl, hw⟩
    · cases ha
  · rw [Action.run_bind_ok hx, Action.run_pure]
    rcases h with ⟨_, he, _⟩ | ⟨_, _, hjobs⟩
    · cases he
    · exact .inr ⟨(), rfl, hjobs⟩

/-- A change of the ledger at the present moment settles if each of its results is an
outcome. -/
theorem settles_change {f : Moment → Ledger → Except Failure (α × Ledger)}
    (hf : ∀ a jobs, f s.now w.jobs = .ok (a, jobs) → Ledger.Outcome s.now id w.jobs jobs) :
    Settles s id w ((do let now ← Action.now; Jobs.change (f now) : Action α) s w) := by
  rw [Action.run_bind_ok Action.run_now]
  rcases hw : w.storage with db | _ | _
  · rcases hj : f s.now db.jobs with e | ⟨a, jobs⟩
    · rw [Jobs.run_change_error hw hj]
      exact .inl ⟨e, rfl, rfl⟩
    · rw [Jobs.run_change hw hj]
      exact .inr ⟨a, rfl, hf a jobs (by rw [World.jobs_eq hw]; exact hj)⟩
  all_goals
    simp only [Jobs.change, Action.transaction, hw]
    exact .inl ⟨_, rfl, rfl⟩

theorem settles_create (table : Option String) (total : Value)
    (hnone : w.jobs.find? ("job" ++ "_" ++ s.token (w.tokens + 1)) = none) :
    Settles s ("job" ++ "_" ++ s.token (w.tokens + 1)) w (Jobs.create table total s w) := by
  unfold Jobs.create
  rcases htotal : Ledger.rowTotal "total_rows" total with e | n
  · exact .inl ⟨e, rfl, rfl⟩
  · -- The id is drawn before the change, which leaves the jobs as they are.
    have hid : Action.newId "job" s w =
        (.ok ("job" ++ "_" ++ s.token (w.tokens + 1)), { w with tokens := w.tokens + 1 }) := rfl
    rw [Action.run_bind_ok (Action.run_liftM _), Action.run_bind_ok hid]
    refine settles_change (w := { w with tokens := w.tokens + 1 }) fun a jobs h => ?_
    obtain ⟨_, _, h⟩ := ok_of_bind h
    obtain ⟨_, _, h⟩ := ok_of_bind h
    exact Ledger.outcome_of_create hnone h

end Settles

/-- One call : it fails and leaves what is stored, or has one of the outcomes. -/
theorem LedgerCall.settles {s : Surroundings} {w : World} (c : LedgerCall)
    (hfresh : c.IsFresh s w) :
    Settles s (c.subject s w) w (c.perform s w) := by
  cases c with
  | create table total => exact (settles_create table total hfresh).discard
  | markProcessing id resumeFrom base =>
    exact (settles_change (f := fun now => Ledger.markProcessing now id resumeFrom base)
      fun _ _ => Ledger.outcome_of_markProcessing).discard
  | advance id delta =>
    exact (settles_change (f := fun now => Ledger.advance now id delta)
      fun _ _ => Ledger.outcome_of_advance).discard
  | complete id =>
    exact (settles_change (f := fun now => Ledger.complete now id)
      fun _ _ => Ledger.outcome_of_complete).discard
  | fail id detail =>
    exact (settles_change (f := fun now => Ledger.fail now id detail)
      fun _ _ => Ledger.outcome_of_fail).discard

/-! ## Any number of calls -/

/-- The worlds that calls lead to, whether the calls succeed or fail. The ids that they make
are new. -/
inductive Calls (w : World) : World → Prop where
  | start : Calls w w
  | call {w' : World} (c : LedgerCall) (s : Surroundings) (before : Calls w w')
      (hfresh : c.IsFresh s w') : Calls w (c.perform s w').2

theorem World.jobs_congr {w w' : World} (h : w'.storage = w.storage) : w'.jobs = w.jobs := by
  rw [World.jobs, World.jobs, h]

theorem isSound_of_calls {w w' : World} (hw : w.jobs.IsSound) (h : Calls w w') :
    w'.jobs.IsSound := by
  induction h with
  | start => exact hw
  | call c s _ hfresh ih =>
    rcases c.settles hfresh with ⟨_, _, hstorage⟩ | ⟨_, _, houtcome⟩
    · rw [World.jobs_congr hstorage]
      exact ih
    · exact houtcome.isSound ih

/-- A job that is there goes on through any number of calls. -/
theorem ages_of_calls {w w' : World} (hw : w.jobs.IsSound) (h : Calls w w') {id : String} {j : Job}
    (hj : w.jobs.find? id = some j) :
    ∃ j', w'.jobs.find? id = some j' ∧ j.Ages (Relation.ReflTransGen JobStatus.Move) j' := by
  induction h with
  | start => exact ⟨j, hj, (hw.sound j (Ledger.mem_of_find? hj)).ages_refl .refl⟩
  | @call w' c s before hfresh ih =>
    obtain ⟨k, hk, hages⟩ := ih
    rcases c.settles hfresh with ⟨_, _, hstorage⟩ | ⟨_, _, houtcome⟩
    · rw [World.jobs_congr hstorage]
      exact ⟨k, hk, hages⟩
    · have hturns := houtcome.turns (isSound_of_calls hw before)
      by_cases hid : id = c.subject s w'
      · obtain ⟨j', hj', hages'⟩ := hturns.known k (hid ▸ hk)
        refine ⟨j', hid ▸ hj', hages.trans hages' fun hm hm' => hm.trans ?_⟩
        exact hm'.to_reflTransGen
      · exact ⟨k, (hturns.others id hid).trans hk, hages⟩

/-- The life of the jobs of a ledger, from an empty one on. At any time the jobs are sound and
their ids distinct. A call that fails leaves what is stored; one that succeeds is about one
job, whose status it moves once at most. Through any number of calls a job that is there
keeps what a later state keeps. -/
theorem Ledger.lifecycle {w₀ w : World} (hempty : w₀.jobs = []) (hcalls : Calls w₀ w) :
    w.jobs.IsSound ∧
    (∀ (c : LedgerCall) (s : Surroundings), c.IsFresh s w →
      (∀ e, (c.perform s w).1 = .error e → (c.perform s w).2.storage = w.storage) ∧
      ((c.perform s w).1 = .ok () → w.jobs.Turns (c.subject s w) (c.perform s w).2.jobs)) ∧
    ∀ w', Calls w w' → ∀ id j, w.jobs.find? id = some j →
      ∃ j', w'.jobs.find? id = some j' ∧
        j.Ages (Relation.ReflTransGen JobStatus.Move) j' := by
  have hsound : w.jobs.IsSound := by
    refine isSound_of_calls ?_ hcalls
    rw [hempty]
    exact ⟨List.nodup_nil, by simp⟩
  refine ⟨hsound, fun c s hfresh => ?_, fun w' h id j hj => ages_of_calls hsound h hj⟩
  rcases c.settles hfresh with ⟨e, he, hstorage⟩ | ⟨a, ha, houtcome⟩
  · refine ⟨fun _ _ => hstorage, fun h => ?_⟩
    rw [he] at h
    cases h
  · refine ⟨fun e h => ?_, fun _ => houtcome.turns hsound⟩
    rw [ha] at h
    cases h

/-- A job that is made, started twice and completed. -/
theorem Ledger.lifecycle_of_completed :
    let w₀ : World := ⟨.ready .empty, .entries [], 0, 0, 0, []⟩
    ∃ w, Calls w₀ w ∧ (∃ j ∈ w.jobs, j.status = .completed ∧ j.progress = Job.hundred) ∧
      w.jobs.IsSound := by
  intro w₀
  let s : Surroundings := ⟨⟨0⟩, .zero, fun _ => "1", fun _ => 0⟩
  have h₁ := Calls.call (.create (some "t") (.int 4)) s (.start (w := w₀)) rfl
  have h₂ := Calls.call (.markProcessing "job_1" none (some 0)) s h₁ trivial
  have h₃ := Calls.call (.markProcessing "job_1" (some 2) (some 7)) s h₂ trivial
  have h₄ := Calls.call (.complete "job_1") s h₃ trivial
  refine ⟨_, h₄, ?_, (Ledger.lifecycle rfl h₄).1⟩
  decide +kernel

end Tabula
