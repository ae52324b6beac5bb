import Tabula.Proofs.Interruptions

/-!
# When checkpoint and count are truthful

With one batch in flight the rows of a job come in their order, so checkpoint and count never
tell of a row that is not stored. With two of them the second batch may be stored while the
first one is not (`Flight.exists_second_stored`), and then its rows are counted as if they were
the first ones. `Worker.truthful_iff` says exactly when that may happen.
-/

namespace Tabula

open Store

/-! ## Jobs of which nothing is stored -/

/-- A job that has neither rows nor a checkpoint, and no other rows look like its own. -/
structure Untouched (id : String) (j : Job) (world : World) (db : Database) : Prop where
  ready : world.storage = .ready db
  found : db.jobs.find? id = some j
  nonneg : 0 ≤ j.total
  total : fitsInteger j.total = true
  base : ∀ b ∈ j.basePosition, fitsInteger b = true
  rows : ∀ r ∈ db.rows, ¬ IsRowIdOf id r.id ∧ likeText (Rows.jobPattern id) (some r.id) ≠ .ok true
  unsaved : ∀ today, Checkpoint.load today id world.folder = .ok none

section Untouched

variable {id : String} {j job : Job} {world : World} {db : Database} {size : Int}

theorem Untouched.ofJob_eq_nil (h : Untouched id j world db) : db.rows.ofJob id = [] :=
  List.eq_nil_iff_forall_not_mem.mpr fun r hr =>
    (h.rows r (Rows.mem_ofJob.mp hr).1).1 (Rows.mem_ofJob.mp hr).2

theorem prefixed_of_untouched (h : Untouched id j world db) :
    Prefixed size (j.baseAmong db.rows) j world := by
  have hid : j.id = id := Ledger.id_of_find? h.found
  have hrows : RowsUpTo size (j.baseAmong db.rows) j 0 db.rows := by
    refine ⟨rfl, ?_, ?_, fun r hr _ => ?_⟩
    · rw [StoresBatches, hid, h.ofJob_eq_nil, batchesFrom_of_le (le_refl 0)]
      exact .refl _
    · rw [hid, h.ofJob_eq_nil]
      exact fun r hr => absurd hr List.not_mem_nil
    · rw [hid]
      exact (h.rows r hr).2
  refine ⟨0, db, j, ⟨le_refl 0, h.nonneg, Or.inr (dvd_zero size)⟩, h.ready, ?_,
    ⟨rfl, rfl, rfl, fun _ => rfl⟩, hrows, ?_⟩
  · rw [hid, h.found]
  · intro today q hq
    rw [hid, h.unsaved today] at hq
    cases hq

theorem exists_countJob (table : String) (rows : Rows)
    (h : (Rows.jobPattern id).utf8ByteSize ≤ patternLimit) (h0 : HasNoZero id) :
    ∃ m, Rows.countJob table id rows = .ok m := by
  have hlike : ∀ r : Row, ∃ b, likeText (Rows.jobPattern id) (some r.id) = .ok b := by
    intro r
    simp only [likeText]
    rw [upToZero_eq (hasNoZero_jobPattern h0), if_neg (by omega)]
    exact ⟨_, rfl⟩
  have hselect : ∀ rows : Rows, ∃ kept,
      Rows.select (fun r => likeText (Rows.jobPattern id) (some r.id)) rows = .ok kept := by
    intro rows
    induction rows with
    | nil => exact ⟨[], rfl⟩
    | cons r rows ih =>
      obtain ⟨kept, hkept⟩ := ih
      obtain ⟨b, hb⟩ := hlike r
      exact ⟨_, by rw [Rows.select, hb, hkept]⟩
  obtain ⟨kept, hkept⟩ := hselect (rows.ofTable table)
  exact ⟨kept.length, by rw [Rows.countJob, hkept]; rfl⟩

theorem fresh_eq_self {rows : Rows} {es : Batch} (h : ∀ e ∈ es, rows.has e.id = false) :
    Rows.fresh rows es = es :=
  List.filter_eq_self.mpr fun e he => by rw [h e he, Bool.not_false]

/-- With room for two batches, the second one of a job may be the only one that is stored. -/
theorem Flight.exists_second_stored {concurrency total : Int}
    (refuses : Descriptor → Failure → Prop) (name : String) (columns : List (String × ColumnType))
    (most : Nat) (hs : 0 < size) (hc : 2 ≤ concurrency) (htotal : size < total)
    (hw : world.storage = .ready db) (hnone : ∀ r ∈ db.rows, ¬ IsRowIdOf job.id r.id)
    (hlow : -2 ^ 63 ≤ job.base) (hhigh : job.base + min (2 * size) total ≤ 2 ^ 63)
    (s : Surroundings) :
    ∃ f new, Reaches concurrency job (Source.synthetic name columns most) refuses
        (start world 0 (batchesFrom size total 0)) f ∧
      f.world = world.withDatabase (db.withRows (db.rows ++ new)) ∧
      new.map Row.key = (batchAt size total size).keys job.id job.base ∧
      ∀ r ∈ new, r.table = job.table := by
  obtain ⟨es, hes, _⟩ := Run.batchOf_synthetic job name columns most (batchAt size total size)
  have hkeys := Run.key_of_isExact (Source.isExact_synthetic name columns most) hes
  have hfits := Run.fits_of_isExact (Source.isExact_synthetic name columns most)
    (show -2 ^ 63 ≤ job.base + size by omega)
    (show job.base + size + (batchAt size total size).size ≤ 2 ^ 63 by
      simp only [batchAt]
      omega) hes
  have hrun := Action.run_attempt (Run.execute job (Source.synthetic name columns most)
    (batchAt size total size)) (s := s) (w := world)
  rw [Run.run_execute_of_fits hw hes hfits] at hrun
  have hfresh : Rows.fresh db.rows es = es := by
    refine fresh_eq_self fun e he => Bool.eq_false_iff.mpr fun hhas => ?_
    obtain ⟨r, hr, hre⟩ := Rows.has_iff.mp hhas
    obtain ⟨row, hrow⟩ := Run.isRowIdOf_of_mem_batchOf hes he
    exact hnone r hr ⟨_, row, hre.trans hrow⟩
  rw [hfresh] at hrun
  have hds := batchesFrom_of_lt hs (show (0 : Int) < total by omega)
  rw [Int.zero_add, batchesFrom_of_lt hs htotal] at hds
  let rest := batchesFrom size total (size + size)
  let one : Flight := ⟨world, Run.start 0, batchAt size total size :: rest, [batchAt size total 0],
    [batchAt size total 0], [], [], false, []⟩
  let two : Flight := ⟨world, Run.start 0, rest, [batchAt size total 0, batchAt size total size],
    [batchAt size total 0, batchAt size total size], [], [], false, []⟩
  have hone : Step concurrency job (Source.synthetic name columns most) refuses
      (start world 0 (batchesFrom size total 0)) one :=
    .submit hds rfl rfl rfl (by simp only [start, inFlight, List.length_nil]; omega)
  have htwo : Step concurrency job (Source.synthetic name columns most) refuses one two :=
    .submit rfl rfl rfl rfl (by simp only [one, inFlight, List.length_cons, List.length_nil]; omega)
  have hstored := @Step.execute concurrency job (Source.synthetic name columns most) refuses two
    [batchAt size total 0] [] (batchAt size total size) _ _ s rfl hrun
  refine ⟨_, _, .tail (.tail (.single hone) htwo) hstored, rfl, ?_, ?_⟩
  · rw [List.map_map, ← hkeys]
    rfl
  · intro r hr
    obtain ⟨e, _, rfl⟩ := List.mem_map.mp hr
    rfl

theorem Untouched.low_baseAmong (h : Untouched id j world db) : -2 ^ 63 ≤ j.baseAmong db.rows := by
  rw [Job.baseAmong]
  rcases hb : j.basePosition with _ | b
  · simp only [Option.getD_none]
    omega
  · exact (fitsInteger_iff.mp (h.base b hb)).1

variable {w : Worker} {refuses : Descriptor → Failure → Prop}

/-- The first attempt at such a job begins with its first row. -/
theorem Untouched.run_resumeOffset (h : Untouched id j world db)
    (hsafe : Checkpoint.isSafeId id = true)
    (hpattern : (Rows.jobPattern id).utf8ByteSize ≤ patternLimit) (s : Surroundings) :
    Worker.resumeOffset j s world = (.ok 0, world) := by
  have hid : j.id = id := Ledger.id_of_find? h.found
  have h0 := Checkpoint.hasNoZero_of_isSafeId hsafe
  have hnonneg := h.nonneg
  rw [Worker.run_resumeOffset (by rwa [hid]) h.ready, Job.resumesAt, hid, h.unsaved]
  simp only
  split
  · obtain ⟨m, hm⟩ := exists_countJob j.table db.rows hpattern h0
    have hlen := eq_length_of_countJob h0 (by simp [h.ofJob_eq_nil])
      (fun r hr _ => (h.rows r hr).2) hm
    rw [h.ofJob_eq_nil] at hlen
    rw [hm, hlen]
    exact congrArg (fun n => (Except.ok n, world)) (min_eq_left hnonneg)
  · rfl

/-- The rows of the second batch alone are counted without being the first ones. -/
theorem not_storedUpTo_of_second {rows new : Rows} {table : String} {m : Nat} (h0 : HasNoZero id)
    (hnone : ∀ r ∈ rows, ¬ IsRowIdOf id r.id ∧
      likeText (Rows.jobPattern id) (some r.id) ≠ .ok true)
    (hnew : ∀ r ∈ new, r.table = table ∧ ∃ row : Nat, r.id = Batch.jobRowId id 1 row)
    (hne : new ≠ []) (hm : Rows.countJob table id (rows ++ new) = .ok m) :
    ¬ StoredUpTo size id m (rows ++ new) := by
  have hnewid : ∀ r ∈ new, IsRowIdOf id r.id := fun r hr =>
    (hnew r hr).2.elim fun row hrow => ⟨1, row, hrow⟩
  have hrows : rows.ofJob id = [] := List.eq_nil_iff_forall_not_mem.mpr fun r hr =>
    (hnone r (Rows.mem_ofJob.mp hr).1).1 (Rows.mem_ofJob.mp hr).2
  have hofJob : (rows ++ new).ofJob id = new := by
    rw [Rows.ofJob_append, hrows, List.nil_append, Rows.ofJob_eq_self hnewid]
  have hcount := eq_length_of_countJob h0 (fun r hr => (hnew r (hofJob ▸ hr)).1)
    (fun r hr hnot => by
      rcases List.mem_append.mp hr with hr | hr
      · exact (hnone r hr).2
      · exact absurd (hnewid r hr) hnot) hm
  rw [hofJob] at hcount
  have hpos := List.length_pos_iff.mpr hne
  intro hstored
  obtain ⟨r, hr, hrid⟩ := Rows.has_iff.mp (hstored 0 (le_refl 0) (by omega))
  rcases List.mem_append.mp hr with hr | hr
  · exact (hnone r hr).1 ⟨_, _, hrid⟩
  · obtain ⟨_, row, hrow⟩ := hnew r hr
    have hindexes := (jobRowId_inj.mp (hrow.symm.trans hrid)).2.1
    rw [Int.zero_ediv] at hindexes
    omega

/-- With room for two batches, the rows of such a job may be counted without being the first
ones. -/
theorem Untouched.exists_not_truthful (h : Untouched id j world db) (hs : 0 < w.pace.batchSize)
    (hc : 2 ≤ w.pace.concurrency) (hsource : w.IsSynthetic) (hactive : j.isActive = true)
    (hsafe : Checkpoint.isSafeId id = true)
    (hpattern : (Rows.jobPattern id).utf8ByteSize ≤ patternLimit)
    (htotal : w.pace.batchSize < j.total)
    (hhigh : j.baseAmong db.rows + min (2 * w.pace.batchSize) j.total ≤ 2 ^ 63) :
    ∃ world', OnDisk w id refuses world world' ∧ ¬ Truthful w.pace.batchSize id world' := by
  obtain ⟨most, hmost⟩ := hsource
  have hid : j.id = id := Ledger.id_of_find? h.found
  have h0 := Checkpoint.hasNoZero_of_isSafeId hsafe
  have hlow := h.low_baseAmong
  have hfits := fitsInteger_iff.mp h.total
  obtain ⟨job, columns, source, hbegin, hbegun, hsource⟩ := Worker.run_begin (w := w) h.ready
    h.found hactive (h.run_resumeOffset hsafe hpattern still) (fitsInteger_iff.mpr (by omega))
    (fitsInteger_iff.mpr (by omega)) fun job columns => ⟨_, hmost job columns⟩
  rw [hmost] at hsource
  obtain rfl := Except.ok.inj hsource
  have hjobid : job.id = id := hbegun.continues.id.trans hid
  have hbase : job.base = j.baseAmong db.rows := by
    rw [Job.base, hbegun.base]
    rfl
  rw [← hbase] at hlow hhigh
  obtain ⟨f, new, hreach, hf, hkeys, htable⟩ := Flight.exists_second_stored
    refuses job.id columns most hs hc htotal
    (show (world.withDatabase (db.withJobs (db.jobs.put job))).storage = .ready _ from rfl)
    (fun r hr => by rw [hjobid]; exact (h.rows r hr).1) hlow hhigh still
  have hdisk : OnDisk w id refuses world f.world := .run .start ⟨still, _, 0, _, _, hbegin, by
    rw [hbegun.continues.total, descriptors_eq hs, max_self], hreach⟩
  rw [hjobid] at hkeys
  rw [hf] at hdisk
  refine ⟨_, hdisk, fun htruthful => ?_⟩
  have hnew : ∀ r ∈ new, r.table = job.table ∧ ∃ row : Nat, r.id = Batch.jobRowId id 1 row := by
    intro r hr
    refine ⟨htable r hr, ?_⟩
    have hkey : r.key ∈ new.map Row.key := List.mem_map_of_mem hr
    rw [hkeys] at hkey
    obtain ⟨row, hrow⟩ := exists_mem_of_key hkey
    rw [show (batchAt _ j.total w.pace.batchSize).index = 1 from Int.fdiv_self hs.ne'] at hrow
    exact ⟨row, hrow⟩
  have hne : new ≠ [] := by
    rintro rfl
    have hsize : 0 < (batchAt w.pace.batchSize j.total w.pace.batchSize).size := by
      simp only [batchAt]
      omega
    have hfirst := Descriptor.first_mem_keys id job.base hsize
    rw [← hkeys] at hfirst
    cases hfirst
  obtain ⟨m, hm⟩ := exists_countJob job.table (db.rows ++ new) hpattern h0
  exact not_storedUpTo_of_second h0 h.rows hnew hne hm (htruthful.count _ job still.today m rfl
    (Ledger.find?_put_self hjobid h.found) hbegun.status (h.unsaved _) hm)

end Untouched

/-! ## The condition -/

/-- Checkpoint and count of a job never tell of a row that is not stored, whichever batches
fail, in whichever order they end and whenever the process stops, if there is never more than
one batch in flight or never more than one that the store can hold. Otherwise they may. -/
theorem Worker.truthful_iff {w : Worker} {id : String} {j : Job} {world : World} {db : Database}
    (hsize : 1 ≤ w.pace.batchSize) (hc : 1 ≤ w.pace.concurrency) (hexact : w.IsExact)
    (hsafe : Checkpoint.isSafeId id = true) (hactive : j.isActive = true)
    (h : Untouched id j world db) :
    let inOrder := w.pace.concurrency = 1 ∨ j.total ≤ w.pace.batchSize ∨
      2 ^ 63 < j.baseAmong db.rows + min (2 * w.pace.batchSize) j.total
    (inOrder → ∀ refuses world', OnDisk w id refuses world world' →
      Truthful w.pace.batchSize id world') ∧
    (w.IsSynthetic → (Rows.jobPattern id).utf8ByteSize ≤ patternLimit → ¬ inOrder →
      ∀ refuses, ∃ world', OnDisk w id refuses world world' ∧
        ¬ Truthful w.pace.batchSize id world') := by
  intro inOrder
  have hs : 0 < w.pace.batchSize := hsize
  have hid : j.id = id := Ledger.id_of_find? h.found
  constructor
  · intro hin refuses world' hdisk
    have hprefixed := prefixed_of_onDisk hs hc hexact (by rwa [hid])
      (fitsInteger_iff.mp h.total).2 hin (prefixed_of_untouched h) (by rwa [hid])
    rw [← hid] at hsafe ⊢
    exact truthful_of_prefixed hs hsafe hprefixed
  · intro hsource hpattern hnot refuses
    simp only [inOrder, not_or, not_le, not_lt] at hnot
    obtain ⟨hone, htotal, hhigh⟩ := hnot
    exact h.exists_not_truthful hs (by omega) hsource hactive hsafe hpattern htotal hhigh

/-! ## The small job, interrupted -/

theorem untouched_sampleJob :
    Untouched "job_1" sampleJob (sampleWorld sampleJob [] (.entries []))
      (sampleDatabase sampleJob []) where
  ready := rfl
  found := rfl
  nonneg := by decide
  total := by decide
  base := by decide
  rows := by simp [sampleDatabase]
  unsaved := fun _ => rfl

/-- With one batch in flight, whatever is on disk when all batches of the small job ended. -/
theorem exists_truthful_sampleWorker :
    ∃ job f, Attempted (sampleWorker 2 1) "job_1" (fun _ _ => False)
        (sampleWorld sampleJob [] (.entries [])) job f ∧ f.IsOver ∧
      Truthful 2 "job_1" f.world := by
  have hrun := canRun_sampleWorker (by decide : (1 : Int) ≤ 2) (le_refl 1) [] writable_empty
  have hresume := untouched_sampleJob.run_resumeOffset (by decide) (by decide) still
  obtain ⟨job, source, begun, hb⟩ := hrun.exists_begins (congrArg Prod.fst hresume)
  obtain ⟨f, hreach, hover, _⟩ := hb.run
  have hattempted : Attempted (sampleWorker 2 1) "job_1" (fun _ _ => False)
      (sampleWorld sampleJob [] (.entries [])) job f :=
    ⟨still, source, 0, begun, _, hb.run_begin, by rw [hb.total]; rfl, hreach⟩
  refine ⟨job, f, hattempted, hover, ?_⟩
  exact (Worker.truthful_iff (by decide) (by decide) hrun.synthetic.isExact (by decide) rfl
    untouched_sampleJob).1 (Or.inl rfl) _ _ (.run .start hattempted)

/-- With two batches in flight. -/
theorem exists_not_truthful_sampleWorker :
    ∃ world', OnDisk (sampleWorker 2 2) "job_1" (fun _ _ => False)
        (sampleWorld sampleJob [] (.entries [])) world' ∧ ¬ Truthful 2 "job_1" world' :=
  untouched_sampleJob.exists_not_truthful (by decide) (by decide) (isSynthetic_sampleWorker 2 2)
    rfl (by decide) (by decide) (by decide) (by decide)

end Tabula
