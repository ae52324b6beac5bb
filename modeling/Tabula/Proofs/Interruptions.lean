import Tabula.Proofs.Resumption
import Tabula.Proofs.Sequential

/-!
# What is on disk

A process may stop at any moment, and another one may begin where it stopped. `OnDisk` are
the worlds that are left behind then, whichever batches the store refuses and in whichever
order they end. A world is `Truthful` if the checkpoint of the job, or the count of its rows
without one, never tells of a row that is not stored.

A world is `Prefixed` if the rows of the job are those of its first batches and the checkpoint
does not go beyond them. Such a world is truthful (`truthful_of_prefixed`), and whatever an
attempt does keeps it so as long as the batches that succeed are the first ones
(`prefixed_of_onDisk`) : if there is room for one batch in flight only, or if the job has one
batch only or one that the store can hold.
-/

namespace Tabula

open Store

/-- The rows of a job at the offsets below `n` are stored. -/
def StoredUpTo (size : Int) (job : String) (n : Int) (rows : Rows) : Prop :=
  ∀ o : Int, 0 ≤ o → o < n → rows.has (Batch.jobRowId job (o / size) (o % size).toNat) = true

/-- A world in which checkpoint, count and resume offset of a job tell of stored rows. -/
structure Truthful (size : Int) (id : String) (world : World) : Prop where
  checkpoint : ∀ db today p, world.storage = .ready db →
    Checkpoint.load today id world.folder = .ok (some p) → StoredUpTo size id p db.rows
  count : ∀ db j today n, world.storage = .ready db → db.jobs.find? id = some j →
    j.status = .processing → Checkpoint.load today id world.folder = .ok none →
    Rows.countJob j.table id db.rows = .ok n → StoredUpTo size id n db.rows
  resume : ∀ db j s p, world.storage = .ready db → db.jobs.find? id = some j →
    (Worker.resumeOffset j s world).1 = .ok p → StoredUpTo size id p db.rows

/-- An attempt that was begun in a world and came to a moment of its run. -/
def Attempted (w : Worker) (id : String) (refuses : Descriptor → Failure → Prop) (world : World)
    (job : Job) (f : Flight) : Prop :=
  ∃ s source p begun ds, w.begin id s world = (.ok (job, source, p), begun) ∧
    descriptors p w.pace.batchSize job.total = .ok ds ∧
    Flight.Reaches w.pace.concurrency job source refuses (.start begun p ds) f

/-- Where an attempt began : with a job that was found, from where it resumes on. -/
theorem begun_of_attempted {w : Worker} {id : String} {refuses : Descriptor → Failure → Prop}
    {world : World} {db : Database} {job : Job} {f : Flight} (hw : world.storage = .ready db)
    (hsafe : Checkpoint.isSafeId id = true) (h : Attempted w id refuses world job f) :
    ∃ (s : Surroundings) (j : Job) (p : Int) (columns : List (String × ColumnType))
        (source : Source) (ds : List Descriptor), db.jobs.find? id = some j ∧
      j.resumesAt s.today world.folder db.rows = .ok p ∧ Worker.Begun p db.rows j job ∧
      w.source job columns = .ok source ∧ descriptors p w.pace.batchSize job.total = .ok ds ∧
      Flight.Reaches w.pace.concurrency job source refuses
        (.start (world.withDatabase (db.withJobs (db.jobs.put job))) p ds) f := by
  obtain ⟨s, source, p, begun, ds, hbegin, hds, hreach⟩ := h
  rcases Worker.begin_cases (w := w) (s := s) hw hsafe with
    ⟨why, hrun⟩ | ⟨j, p', job', columns, hj, hp, hbegun, hrun⟩
  · rw [hrun] at hbegin
    cases hbegin
  rw [hrun] at hbegin
  obtain ⟨hanswer, rfl⟩ := Prod.mk.inj hbegin
  rcases hsource : w.source job' columns with why | source'
  · rw [hsource] at hanswer
    cases hanswer
  rw [hsource] at hanswer
  obtain ⟨rfl, hpair⟩ := Prod.mk.inj (Except.ok.inj hanswer)
  obtain ⟨rfl, rfl⟩ := Prod.mk.inj hpair
  exact ⟨s, j, p', columns, source', ds, hj, hp, hbegun, hsource, hds, hreach⟩

/-- The worlds that are left behind if the process stops at any moment, over any number of
attempts. -/
inductive OnDisk (w : Worker) (id : String) (refuses : Descriptor → Failure → Prop)
    (world₀ : World) : World → Prop where
  | start : OnDisk w id refuses world₀ world₀
  | begin {world : World} (h : OnDisk w id refuses world₀ world) (s : Surroundings) :
      OnDisk w id refuses world₀ (w.begin id s world).2
  | run {world : World} {job : Job} {f : Flight} (h : OnDisk w id refuses world₀ world)
      (hf : Attempted w id refuses world job f) : OnDisk w id refuses world₀ f.world
  | complete {world : World} {job : Job} {f : Flight} (h : OnDisk w id refuses world₀ world)
      (hf : Attempted w id refuses world job f) (hover : f.IsOver)
      (hfailure : f.run.failure = none) (s : Surroundings) :
      OnDisk w id refuses world₀ (Jobs.complete job.id s f.world).2
  | finish {world : World} {job : Job} {f : Flight} (h : OnDisk w id refuses world₀ world)
      (hf : Attempted w id refuses world job f) (hover : f.IsOver) (s : Surroundings) :
      OnDisk w id refuses world₀ (Run.finish job.id f.run s f.world).2

/-! ## Rows up to an edge -/

/-- Batches that follow an edge below which all rows are stored add the rows from there on. -/
theorem perm_batchesFrom {size total n p base : Int} {id : String} {rows : Rows}
    {ds rest : List Descriptor} (hs : 0 < size)
    (hstored : StoresBatches id base (batchesFrom size n 0) rows) (hn : IsEdge size total n)
    (hp : IsEdge size total p) (hpn : p ≤ n) (hds : batchesFrom size total p = ds ++ rest) :
    ((batchesFrom size n 0).flatMap (Descriptor.keys id base) ++
      ds.flatMap fun d => rows.freshKeys (d.keys id base)).Perm
        ((batchesFrom size (max n (p + rowsIn ds)) 0).flatMap (Descriptor.keys id base)) := by
  have hm := isEdge_of_append hs hp hds
  obtain ⟨m, hmeq⟩ : ∃ m, p + rowsIn ds = m := ⟨_, rfl⟩
  have heq := eq_batchesFrom_of_prefix hs hds
  rw [hmeq] at hm heq ⊢
  by_cases hle : m ≤ n
  · -- these batches are all stored
    have hnil : (ds.flatMap fun d => rows.freshKeys (d.keys id base)) = [] := by
      refine List.flatMap_eq_nil_iff.mpr fun d hd => freshKeys_of_mem hstored ?_
      have hlast := bounds_of_mem hs (heq ▸ hd)
      have hall : d ∈ batchesFrom size total p := by
        rw [hds]
        exact List.mem_append_left _ hd
      refine (mem_batchesFrom_edge hs hn).mpr ⟨?_, by omega⟩
      exact ((mem_batchesFrom_of_aligned hs hp.nonneg hp.aligned).mp hall).1
    rw [hnil, List.append_nil, max_eq_left hle]
  · have hmtotal := hm.le
    have hnm : IsEdge size m n :=
      ⟨hn.nonneg, by omega, Or.inr (hn.aligned.resolve_left (by omega))⟩
    have hpdvd : size ∣ p := hp.aligned.resolve_left (by omega)
    have hwhole := @flatMap_keys size m base id hs
    rw [max_eq_right (by omega), heq, hwhole]
    refine perm_flatMap_keys hs hstored (nodup_batchesFrom hs)
      (fun d hd => ((mem_batchesFrom_edge hs hnm).mp hd).1) hp.nonneg (Or.inr hpdvd)
      fun d hd hlt => (mem_batchesFrom_edge hs hnm).mpr ⟨hd, by omega⟩

/-- The rows of a job are those of its batches up to `n`, from its base position on, and the
pattern of the job tells them from all others. -/
structure RowsUpTo (size base : Int) (j : Job) (n : Int) (rows : Rows) : Prop where
  base_eq : j.baseAmong rows = base
  stored : StoresBatches j.id base (batchesFrom size n 0) rows
  table : ∀ r ∈ rows.ofJob j.id, r.table = j.table
  others : ∀ r ∈ rows, ¬ IsRowIdOf j.id r.id →
    likeText (Rows.jobPattern j.id) (some r.id) ≠ .ok true

section RowsUpTo

variable {size base n : Int} {j job : Job} {rows : Rows}

theorem eq_filter_of_select {keep : Row → Except Refusal Bool} {p : Row → Bool} :
    ∀ {rows kept : Rows}, (∀ r ∈ rows, ∀ b, keep r = .ok b → b = p r) →
      Rows.select keep rows = .ok kept → kept = rows.filter p
  | [], kept, _, h => (Except.ok.inj h).symm
  | r :: rows, kept, hkeep, h => by
    rw [Rows.select] at h
    rcases hr : keep r with why | b
    · simp [hr] at h
    rcases hrows : Rows.select keep rows with why | kept'
    · simp [hr, hrows] at h
    have ih := eq_filter_of_select (fun r' hr' => hkeep r' (List.mem_cons_of_mem r hr')) hrows
    simp only [hr, hrows, Except.ok.injEq] at h
    rw [← h, ih, hkeep r List.mem_cons_self b hr, List.filter_cons]

open Classical in
/-- The number of a job's rows that the store gives. -/
theorem eq_length_of_countJob {id table : String} {m : Nat} (h0 : HasNoZero id)
    (htable : ∀ r ∈ rows.ofJob id, r.table = table)
    (hothers : ∀ r ∈ rows, ¬ IsRowIdOf id r.id →
      likeText (Rows.jobPattern id) (some r.id) ≠ .ok true)
    (h : Rows.countJob table id rows = .ok m) : m = (rows.ofJob id).length := by
  have hkeep : ∀ r ∈ rows.ofTable table, ∀ b,
      likeText (Rows.jobPattern id) (some r.id) = .ok b → b = decide (IsRowIdOf id r.id) := by
    intro r hr b hb
    by_cases hid : IsRowIdOf id r.id
    · obtain ⟨batch, row, hrow⟩ := hid
      rw [hrow, likeText_jobPattern h0] at hb
      split at hb
      · cases hb
      · simp [← Except.ok.inj hb, hrow, IsRowIdOf]
    · rcases b with _ | _
      · simp [hid]
      · exact absurd hb (hothers r (List.mem_filter.mp hr).1 hid)
  rw [Rows.countJob] at h
  rcases hselect : Rows.select (fun r => likeText (Rows.jobPattern id) (some r.id))
      (rows.ofTable table) with why | kept
  · rw [hselect] at h
    cases h
  · rw [hselect] at h
    rw [← Except.ok.inj h, eq_filter_of_select hkeep hselect, Rows.ofTable, List.filter_filter]
    refine congrArg List.length (List.filter_congr fun r hr => ?_)
    by_cases hid : IsRowIdOf id r.id
    · simp [hid, htable r (Rows.mem_ofJob.mpr ⟨hr, hid⟩)]
    · simp [hid]

theorem RowsUpTo.eq_of_countJob {m : Nat} (h : RowsUpTo size base j n rows) (hs : 0 < size)
    (h0 : HasNoZero j.id) (hcount : Rows.countJob j.table j.id rows = .ok m) : m = n.toNat := by
  have hlen := h.stored.length_eq
  rw [flatMap_keys hs, List.length_map, List.length_map, List.length_range] at hlen
  rw [eq_length_of_countJob h0 h.table h.others hcount, hlen]

theorem RowsUpTo.storedUpTo (h : RowsUpTo size base j n rows) (hs : 0 < size) {p : Int}
    (hp : p ≤ n) : StoredUpTo size j.id p rows := by
  intro o h0 ho
  have hkey : rowKey j.id size base o ∈
      (batchesFrom size n 0).flatMap (Descriptor.keys j.id base) := by
    rw [flatMap_keys hs]
    refine List.mem_map.mpr ⟨o.toNat, List.mem_range.mpr (by omega), ?_⟩
    rw [Int.toNat_of_nonneg h0]
  obtain ⟨d, hd, hk⟩ := List.mem_flatMap.mp hkey
  exact has_of_mem h.stored hd hk

/-- A job that goes on with the same base position has the same rows. -/
theorem RowsUpTo.of_continues (h : RowsUpTo size base j n rows) (hcont : j.Continues job)
    (hbase : job.baseAmong rows = base) : RowsUpTo size base job n rows where
  base_eq := hbase
  stored := by
    rw [hcont.id]
    exact h.stored
  table := by
    rw [hcont.id, hcont.table]
    exact h.table
  others := by
    rw [hcont.id]
    exact h.others

/-- What the first batches from an edge on add makes the rows those up to another edge. -/
theorem RowsUpTo.append {total p : Int} {ds rest : List Descriptor} {new : Rows}
    (h : RowsUpTo size base j n rows) (hs : 0 < size) (hn : IsEdge size total n)
    (hp : IsEdge size total p) (hpn : p ≤ n) (hds : batchesFrom size total p = ds ++ rest)
    (hbase : j.baseAmong (rows ++ new) = base) (htable : ∀ r ∈ new, r.table = j.table)
    (hnew : (new.map Row.key).Perm (ds.flatMap fun d => rows.freshKeys (d.keys j.id base))) :
    RowsUpTo size base j (max n (p + rowsIn ds)) (rows ++ new) := by
  have hnewid := isRowIdOf_of_perm hnew
  have hofJob : (rows ++ new).ofJob j.id = rows.ofJob j.id ++ new := by
    rw [Rows.ofJob_append, Rows.ofJob_eq_self hnewid]
  refine ⟨hbase, ?_, ?_, ?_⟩
  · rw [StoresBatches, hofJob, List.map_append]
    exact (h.stored.append hnew).trans (perm_batchesFrom hs h.stored hn hp hpn hds)
  · intro r hr
    rw [hofJob] at hr
    rcases List.mem_append.mp hr with hr | hr
    · exact h.table r hr
    · exact htable r hr
  · intro r hr hnot
    rcases List.mem_append.mp hr with hr | hr
    · exact h.others r hr hnot
    · exact absurd (hnewid r hr) hnot

end RowsUpTo

/-! ## Worlds in which the rows come in their order -/

/-- A world in which the rows of a job are those up to some edge, and its checkpoint does not
go beyond that. -/
def Prefixed (size base : Int) (j₀ : Job) (world : World) : Prop :=
  ∃ n db j, IsEdge size j₀.total n ∧ world.storage = .ready db ∧
    db.jobs.find? j₀.id = some j ∧ j₀.Continues j ∧ RowsUpTo size base j n db.rows ∧
    Flight.SavedUpTo size j₀.total n j₀.id world.folder

section Prefixed

variable {size base n p : Int} {j j₀ job : Job} {rows : Rows} {world : World} {db : Database}

/-- Where a job resumes then. -/
theorem edge_of_resumesAt (hs : 0 < size) (h0 : HasNoZero j.id) (hn : IsEdge size j.total n)
    (hrows : RowsUpTo size base j n rows) {folder : Folder}
    (hsaved : Flight.SavedUpTo size j.total n j.id folder) {today : Date}
    (h : j.resumesAt today folder rows = .ok p) : IsEdge size j.total p ∧ p ≤ n := by
  have hle := hn.le
  have hnonneg := hn.nonneg
  rw [Job.resumesAt] at h
  split at h
  · cases h
  · rename_i saved hload
    obtain ⟨hedge, hp⟩ := hsaved today saved hload
    have := hedge.le
    obtain rfl := Except.ok.inj h
    rw [min_eq_left this]
    exact ⟨hedge, hp⟩
  · split at h
    · rcases hcount : Rows.countJob j.table j.id rows with why | m
      · rw [hcount] at h
        cases h
      · rw [hcount] at h
        obtain rfl := Except.ok.inj h
        have hm : (m : Int) = n := by
          rw [hrows.eq_of_countJob hs h0 hcount, Int.toNat_of_nonneg hnonneg]
        simp only [hm, min_eq_left hle]
        exact ⟨hn, le_refl n⟩
    · obtain rfl := Except.ok.inj h
      exact ⟨⟨le_refl 0, by omega, Or.inr (dvd_zero size)⟩, hnonneg⟩

theorem truthful_of_prefixed (hs : 0 < size) (hsafe : Checkpoint.isSafeId j₀.id = true)
    (h : Prefixed size base j₀ world) : Truthful size j₀.id world := by
  obtain ⟨n, db, j, hn, hw, hj, hcont, hrows, hsaved⟩ := h
  have hid := hcont.id
  rw [← hcont.total] at hn hsaved
  rw [← hid] at hsafe hsaved ⊢
  have h0 := Checkpoint.hasNoZero_of_isSafeId hsafe
  constructor
  · intro db' today p hw' hload
    rw [Storage.ready.inj (hw'.symm.trans hw)]
    exact hrows.storedUpTo hs (hsaved today p hload).2
  · intro db' j' today m hw' hj' _ _ hcount
    rw [Storage.ready.inj (hw'.symm.trans hw)] at hj' hcount ⊢
    rw [hid] at hj'
    obtain rfl := Option.some.inj (hj'.symm.trans hj)
    have := hn.nonneg
    have := hrows.eq_of_countJob hs h0 hcount
    exact hrows.storedUpTo hs (by omega)
  · intro db' j' s p hw' hj' hresume
    rw [Storage.ready.inj (hw'.symm.trans hw)] at hj' ⊢
    rw [hid] at hj'
    obtain rfl := Option.some.inj (hj'.symm.trans hj)
    rw [Worker.run_resumeOffset hsafe hw] at hresume
    exact hrows.storedUpTo hs (edge_of_resumesAt hs h0 hn hrows hsaved hresume).2

theorem baseAmong_of_begun (h : Worker.Begun p rows j job) (rows' : Rows) :
    job.baseAmong rows' = j.baseAmong rows := by
  rw [Job.baseAmong, h.base]
  rfl

/-- The rows that a steady run has stored are those up to an edge. -/
theorem prefixed_of_steady {refuses : Descriptor → Failure → Prop}
    {source : Source} {jobs : Ledger} {f : Flight} {concurrency : Int} (hs : 0 < size)
    (hexact : source.IsExact) (hj : jobs.find? j₀.id = some job)
    (hcont : j₀.Continues job) (hbegun : Worker.Begun p db.rows j job)
    (hn : IsEdge size j₀.total n) (hp : IsEdge size j₀.total p) (hpn : p ≤ n)
    (hrows : RowsUpTo size base j n db.rows)
    (hinitial : succeeded f.ordered <+: batchesFrom size j₀.total p)
    (hf : Flight.Steady concurrency job source refuses size j₀.total p n (db.withJobs jobs) f) :
    Prefixed size base j₀ f.world := by
  obtain ⟨_, hstores, _, hsaved⟩ := hf
  obtain ⟨new, jobs', hw, hgoes, htable, hperm⟩ := hstores.exists_rows
  rw [hcont.id] at hgoes hsaved
  obtain ⟨j', hj', hcont', hkept⟩ := hgoes job hj
  obtain ⟨rest, hrest⟩ := hinitial
  have hordered := succeeded_perm f.ordered_perm
  have hnew := Run.key_perm hexact (fun d hd => ?_) (hperm.trans (hordered.symm.flatMap_right _))
  swap
  · obtain ⟨m, hm⟩ := mem_succeeded.mp (hordered.mem_iff.mp hd)
    obtain ⟨es, hes, _⟩ := hstores.explained _ hm
    exact ⟨es, hes⟩
  have hm := isEdge_of_append hs hp hrest.symm
  have hbegunbase := baseAmong_of_begun hbegun
  rw [hrows.base_eq] at hbegunbase
  have hbase : job.base = base := by
    rw [Job.base, hbegun.base, hrows.base_eq]
    rfl
  rw [hbase] at hnew
  have hgrown := (hrows.of_continues hbegun.continues (hbegunbase db.rows)).append hs hn hp hpn
    hrest.symm (hbegunbase _) htable hnew
  rw [← rowsIn_perm hordered] at hsaved
  refine ⟨_, _, j', ?_, hw, hj', hcont.trans hcont', hgrown.of_continues hcont' ?_, hsaved⟩
  · rcases le_total n (p + rowsIn (succeeded f.ordered)) with hle | hle
    · rwa [max_eq_right hle]
    · rwa [max_eq_left hle]
  · rw [← hgrown.base_eq]
    simp only [Job.baseAmong, hkept, hcont'.table]

theorem prefixed_of_goesOn {world' : World} (h : Prefixed size base j₀ world)
    (hworld : ∀ db, world.storage = .ready db → ∃ jobs,
      world' = world.withDatabase (db.withJobs jobs) ∧ Ledger.GoesOn j₀.id db.jobs jobs) :
    Prefixed size base j₀ world' := by
  obtain ⟨n, db, j, hn, hw, hj, hcont, hrows, hsaved⟩ := h
  obtain ⟨jobs, rfl, hgoes⟩ := hworld db hw
  obtain ⟨j', hj', hcont', hkept⟩ := hgoes j hj
  refine ⟨n, _, j', hn, rfl, hj', hcont.trans hcont', hrows.of_continues hcont' ?_, hsaved⟩
  rw [← hrows.base_eq]
  simp only [Job.baseAmong, hkept, hcont'.table]

variable {w : Worker} {refuses : Descriptor → Failure → Prop} {s : Surroundings}

theorem prefixed_of_begin (hsafe : Checkpoint.isSafeId j₀.id = true)
    (h : Prefixed size base j₀ world) : Prefixed size base j₀ (w.begin j₀.id s world).2 := by
  have hP := h
  obtain ⟨n, db, j, hn, hw, hj, hcont, hrows, hsaved⟩ := h
  rcases @Worker.begin_cases s world db w j₀.id hw hsafe with
    ⟨why, hrun⟩ | ⟨j', p, job, columns, hj', _, hbegun, hrun⟩
  · rw [hrun]
    exact hP
  · obtain rfl := Option.some.inj (hj'.symm.trans hj)
    have hcont' := hcont.trans hbegun.continues
    rw [hrun]
    exact ⟨n, _, job, hn, rfl, Ledger.find?_put_self hcont'.id hj, hcont',
      hrows.of_continues hbegun.continues ((baseAmong_of_begun hbegun _).trans hrows.base_eq),
      hsaved⟩

theorem prefixed_of_attempted {f : Flight} (hs : 0 < w.pace.batchSize)
    (hc : 1 ≤ w.pace.concurrency) (hexact : w.IsExact) (hsafe : Checkpoint.isSafeId j₀.id = true)
    (htotal : j₀.total < 2 ^ 63)
    (hone : w.pace.concurrency = 1 ∨ j₀.total ≤ w.pace.batchSize ∨
      2 ^ 63 < base + min (2 * w.pace.batchSize) j₀.total)
    (h : Prefixed w.pace.batchSize base j₀ world) (hf : Attempted w j₀.id refuses world job f) :
    Prefixed w.pace.batchSize base j₀ f.world ∧ job.id = j₀.id := by
  obtain ⟨n, db, j, hn, hw, hj, hcont, hrows, hsaved⟩ := h
  obtain ⟨s, j', p, columns, source, ds, hj', hp, hbegun, hsource, hds, hreach⟩ :=
    begun_of_attempted hw hsafe hf
  obtain rfl := Option.some.inj (hj'.symm.trans hj)
  have hexact := hexact _ _ _ hsource
  have hcont' := hcont.trans hbegun.continues
  have hput := Ledger.find?_put_self hcont'.id hj
  rw [← hcont.id] at hsafe
  have hedge := edge_of_resumesAt hs (Checkpoint.hasNoZero_of_isSafeId hsafe)
    (by rwa [hcont.total]) hrows (by rwa [hcont.total, hcont.id]) hp
  rw [hcont.total] at hedge
  obtain ⟨hedge, hle⟩ := hedge
  rw [hcont'.total, descriptors_eq hs, max_eq_right hedge.nonneg] at hds
  obtain rfl := Except.ok.inj hds
  have hbase : job.base = base := by
    rw [Job.base, hbegun.base, hrows.base_eq]
    rfl
  rw [← hbase] at hone
  have hsteady := Flight.steady_of_reaches hreach hs (by rwa [hbegun.continues.id]) htotal hedge
    (fun f h => Flight.prefix_succeeded_of_reaches hs hc hexact hedge rfl hone h)
    (Flight.steady_start hc rfl (by rwa [hcont'.id]))
  refine ⟨prefixed_of_steady hs hexact hput hcont' hbegun hn hedge hle hrows ?_ hsteady,
    hcont'.id⟩
  exact Flight.prefix_succeeded_of_reaches hs hc hexact hedge rfl hone hreach

theorem prefixed_of_fail (h : Prefixed size base j₀ world) (detail : String) :
    Prefixed size base j₀ (Jobs.fail j₀.id detail s world).2 :=
  prefixed_of_goesOn h fun _ hw => Jobs.goesOn_of_fail hw j₀.id detail

theorem prefixed_of_complete (h : Prefixed size base j₀ world) :
    Prefixed size base j₀ (Jobs.complete j₀.id s world).2 :=
  prefixed_of_goesOn h fun _ hw => Jobs.goesOn_of_complete hw j₀.id

theorem prefixed_of_clear (hsafe : Checkpoint.isSafeId j₀.id = true)
    (h : Prefixed size base j₀ world) :
    Prefixed size base j₀ (Checkpoints.clear (.text j₀.id) s world).2 := by
  obtain ⟨n, db, j, hn, hw, hj, hcont, hrows, hsaved⟩ := h
  obtain ⟨folder, hworld, hfolder⟩ := Checkpoints.folder_of_clear hsafe s world
  rw [hworld]
  refine ⟨n, db, j, hn, hw, hj, hcont, hrows, ?_⟩
  rcases hfolder with rfl | hnone
  · exact hsaved
  · intro today q hq
    have hload : Checkpoint.load today j₀.id folder = .ok (some q) := hq
    rw [hnone today] at hload
    cases hload

theorem prefixed_of_finish {r : Run} (hsafe : Checkpoint.isSafeId j₀.id = true)
    (h : Prefixed size base j₀ world) : Prefixed size base j₀ (Run.finish j₀.id r s world).2 := by
  unfold Run.finish
  rcases r.failure with _ | failure
  · simp only
    have hcomplete := prefixed_of_complete h (s := s)
    rcases hrun : Jobs.complete j₀.id s world with ⟨why | done, completed⟩
    · rw [Action.run_bind_error hrun]
      rwa [hrun] at hcomplete
    rw [hrun] at hcomplete
    have hclear := prefixed_of_clear hsafe hcomplete (s := s)
    rw [Action.run_bind_ok hrun]
    rcases hrun' : Checkpoints.clear (.text j₀.id) s completed with ⟨why | _, cleared⟩
    · rw [Action.run_bind_error hrun']
      rwa [hrun'] at hclear
    · rw [Action.run_bind_ok hrun', Action.run_pure]
      rwa [hrun'] at hclear
  · simp only
    rw [Action.run_bind, Action.run_attempt]
    exact prefixed_of_fail h failure.detail

/-- Whatever happened before a process stopped, the rows come in their order if there was
never more than one batch in flight, or never more than one that the store can hold. -/
theorem prefixed_of_onDisk {world₀ : World} (hs : 0 < w.pace.batchSize)
    (hc : 1 ≤ w.pace.concurrency) (hexact : w.IsExact) (hsafe : Checkpoint.isSafeId j₀.id = true)
    (htotal : j₀.total < 2 ^ 63)
    (hone : w.pace.concurrency = 1 ∨ j₀.total ≤ w.pace.batchSize ∨
      2 ^ 63 < base + min (2 * w.pace.batchSize) j₀.total)
    (h₀ : Prefixed w.pace.batchSize base j₀ world₀) (h : OnDisk w j₀.id refuses world₀ world) :
    Prefixed w.pace.batchSize base j₀ world := by
  induction h with
  | start => exact h₀
  | begin _ s ih => exact prefixed_of_begin hsafe ih
  | run _ hf ih => exact (prefixed_of_attempted hs hc hexact hsafe htotal hone ih hf).1
  | complete _ hf _ _ s ih =>
    obtain ⟨hprefixed, hid⟩ := prefixed_of_attempted hs hc hexact hsafe htotal hone ih hf
    rw [hid]
    exact prefixed_of_complete hprefixed
  | finish _ hf _ s ih =>
    obtain ⟨hprefixed, hid⟩ := prefixed_of_attempted hs hc hexact hsafe htotal hone ih hf
    rw [hid]
    exact prefixed_of_finish hsafe hprefixed

end Prefixed

end Tabula
