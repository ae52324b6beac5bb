import Tabula.Proofs.RunEnds

/-!
# Batches that come again

A batch may be appended more than once, and the batches of a job in any order. Appending stores
the first entry of each id that is not taken and nothing else (`Rows.append_eq_firsts`), and a
batch of which a position does not fit the store is refused as a whole (`RowStore.run_append`).

`Run.executeAll` executes batches one after the other, whatever becomes of each. What is new then is
an entry that some batch offers, under an id that was not taken (`exists_executeAll`). As entries of
one id are one entry, in whichever batch, this names the new rows up to their order : order and
repetitions do not matter (`RowStore.append_confluent`).
-/

namespace Tabula

open Store

/-! ## Appending any batch -/

/-- The entries of a batch, of those with one id only the first. -/
def Batch.firsts : Batch → Batch
  | [] => []
  | e :: es => e :: (firsts es).filter fun later => later.id != e.id

namespace Batch

/-- An entry is among them if none before it has its id. -/
theorem mem_firsts {es : Batch} {e : Entry} :
    e ∈ firsts es ↔
      ∃ front back, es = front ++ e :: back ∧ ∀ before ∈ front, before.id ≠ e.id := by
  induction es with
  | nil => simp [firsts]
  | cons first es ih =>
    rw [firsts, List.mem_cons, List.mem_filter, ih, bne_iff_ne]
    constructor
    · rintro (rfl | ⟨⟨front, back, rfl, hfront⟩, hne⟩)
      · exact ⟨[], es, rfl, by simp⟩
      · refine ⟨first :: front, back, rfl, fun before hbefore => ?_⟩
        rcases List.mem_cons.mp hbefore with rfl | hbefore
        · exact hne.symm
        · exact hfront before hbefore
    · rintro ⟨front, back, heq, hfront⟩
      rcases front with _ | ⟨f, front⟩
      · exact .inl (List.cons.inj heq).1.symm
      · obtain ⟨rfl, rfl⟩ := List.cons.inj heq
        exact .inr ⟨⟨front, back, rfl, fun before h => hfront before (List.mem_cons_of_mem _ h)⟩,
          (hfront _ List.mem_cons_self).symm⟩

end Batch

namespace Store.Rows

/-- The first entry of each id that is not taken becomes a row, and nothing else changes. -/
theorem append_eq_firsts (now : Moment) (table : String) :
    ∀ (rows : Rows) (es : Batch), append now table es rows =
      (rows ++ (fresh rows (Batch.firsts es)).map (Row.ofEntry now table),
        (fresh rows (Batch.firsts es)).length)
  | rows, [] => by simp [append, Batch.firsts, fresh]
  | rows, e :: es => by
    have hsplit : fresh rows (Batch.firsts (e :: es)) =
        if rows.has e.id then fresh rows (Batch.firsts es)
        else e :: fresh (rows ++ [Row.ofEntry now table e]) (Batch.firsts es) := by
      rw [Batch.firsts, fresh, List.filter_cons, List.filter_filter]
      by_cases hh : rows.has e.id = true
      · rw [if_neg (by simp [hh]), if_pos hh]
        refine List.filter_congr fun later _ => ?_
        rcases eq_or_ne later.id e.id with hid | hid
        · simp [hid, hh]
        · simp [hid]
      · rw [if_pos (by simp [hh]), if_neg hh]
        refine congrArg (e :: ·) (List.filter_congr fun later _ => ?_)
        rcases eq_or_ne later.id e.id with hid | hid
        · simp [has, Row.ofEntry, hid]
        · simp [has, Row.ofEntry, hid, beq_eq_false_iff_ne.mpr hid.symm]
    rw [hsplit, append]
    split
    · exact append_eq_firsts now table rows es
    · have ih := append_eq_firsts now table (rows ++ [Row.ofEntry now table e]) es
      rw [Row.ofEntry] at ih
      rw [ih]
      simp [Row.ofEntry]

end Store.Rows

namespace RowStore

open Tabula.Action

variable {s : Surroundings} {w : World} {db : Database}

/-- A batch is appended if its positions fit, and otherwise refused as a whole. -/
theorem run_append (hw : w.storage = .ready db) (table : String) (es : Batch) :
    append table es s w =
      if es.all fun e => fitsInteger e.position then
        (.ok (Rows.fresh db.rows (Batch.firsts es)).length, w.withDatabase (db.withRows
          (db.rows ++ (Rows.fresh db.rows (Batch.firsts es)).map (Row.ofEntry s.now table))))
      else (.error (.fault .integerTooLarge), w) := by
  unfold append
  rcases es with _ | ⟨e, es⟩
  · simp [Batch.firsts, Rows.fresh, Database.withRows, withDatabase_self hw]
  · dsimp only [List.isEmpty_cons]
    rw [if_neg Bool.false_ne_true, run_bind_ok run_now]
    split
    · rename_i hfits
      refine run_rowStore_ok (run_transaction_ok hw ?_)
      rw [appended, if_pos hfits, Rows.append_eq_firsts]
      rfl
    · rename_i hfits
      have hfail : appended s.now table (e :: es) db = .error (.fault .integerTooLarge) := by
        rw [appended, if_neg hfits]
      exact run_rowStore_error (run_transaction_error hw hfail)

end RowStore

/-! ## Batches in any order -/

namespace Run

variable {job : Job} {source : Source} {s : Surroundings} {w : World} {db : Database}

/-- The entries that executing a batch offers to the store : none if there is no batch, or if the
store cannot hold all their positions. -/
def offered (job : Job) (source : Source) (d : Descriptor) : Batch :=
  match batchOf job source d with
  | .error _ => []
  | .ok es => if es.all fun e => fitsInteger e.position then es else []

theorem exists_of_mem_offered {d : Descriptor} {e : Entry} (h : e ∈ offered job source d) :
    ∃ es, batchOf job source d = .ok es ∧ e ∈ es := by
  rw [offered] at h
  split at h
  · cases h
  · rename_i es hes
    split at h
    · exact ⟨es, hes, h⟩
    · cases h

theorem nodup_offered (job : Job) (source : Source) (d : Descriptor) :
    ((offered job source d).map Entry.id).Nodup := by
  rw [offered]
  split
  · exact List.nodup_nil
  · rename_i es hes
    split
    · exact nodup_batchOf hes
    · exact List.nodup_nil

/-- Executing a batch stores what is fresh of its entries. -/
theorem world_of_execute (hw : w.storage = .ready db) (d : Descriptor) :
    (execute job source d s w).2 = w.withDatabase (db.withRows (db.rows ++
      (Rows.fresh db.rows (offered job source d)).map (Row.ofEntry s.now job.table))) := by
  have hkeep : w = w.withDatabase (db.withRows (db.rows ++ [])) := by
    rw [List.append_nil]
    exact (withDatabase_self hw).symm
  rcases hb : batchOf job source d with e | es
  · rw [run_execute_of_error hb, offered, hb]
    exact hkeep
  · by_cases hfits : ∀ e ∈ es, fitsInteger e.position = true
    · rw [run_execute_of_fits hw hb hfits, offered, hb]
      simp only [List.all_eq_true.mpr hfits, if_true]
    · rw [run_execute_of_not_fits hw hb hfits, offered, hb]
      simp only [mt List.all_eq_true.mp hfits, Bool.false_eq_true, if_false]
      exact hkeep

/-- Entries with one id, in whichever batch of a job, are one entry. -/
theorem eq_of_offered {d d' : Descriptor} {e e' : Entry} (hindex : d.index = d'.index → d = d')
    (he : e ∈ offered job source d) (he' : e' ∈ offered job source d') (hid : e.id = e'.id) :
    e = e' := by
  obtain ⟨es, hes, he⟩ := exists_of_mem_offered he
  obtain ⟨es', hes', he'⟩ := exists_of_mem_offered he'
  obtain ⟨row, hrow⟩ := isRowIdOf_of_mem_batchOf hes he
  obtain ⟨row', hrow'⟩ := isRowIdOf_of_mem_batchOf hes' he'
  obtain rfl := hindex (jobRowId_inj.mp (hrow.symm.trans (hid.trans hrow'))).2.1
  obtain rfl := Except.ok.inj (hes.symm.trans hes')
  exact List.inj_on_of_nodup_map (nodup_batchOf hes) he he' hid

/-- Executes batches one after the other, each in surroundings of its own, whatever becomes of
them. -/
def executeAll (job : Job) (source : Source) : List (Surroundings × Descriptor) → World → World
  | [], w => w
  | (s, d) :: rest, w => executeAll job source rest (execute job source d s w).2

/-- What executing batches adds : the entries that some batch offers and whose ids are not taken,
each one once. -/
structure Adds (job : Job) (source : Source) (ds : List Descriptor) (rows new : Rows) : Prop where
  table : ∀ r ∈ new, r.table = job.table
  nodup : (new.map Row.id).Nodup
  mem : ∀ e, e ∈ new.map Row.entry ↔
    (∃ d ∈ ds, e ∈ offered job source d) ∧ ¬ ∃ r ∈ rows, r.id = e.id

theorem adds_nil (job : Job) (source : Source) (rows : Rows) : Adds job source [] rows [] :=
  ⟨by simp, by simp, by simp⟩

theorem map_entry_ofEntry (now : Moment) (table : String) (es : Batch) :
    (es.map (Row.ofEntry now table)).map Row.entry = es := by
  rw [List.map_map]
  exact List.map_id _

theorem map_id_entry (rows : Rows) : (rows.map Row.entry).map Entry.id = rows.map Row.id :=
  List.map_map

/-- The ids that are taken once entries have been stored. -/
theorem exists_stored_iff {now : Moment} {table id : String} {rows : Rows} {es : Batch} :
    (∃ r ∈ rows ++ es.map (Row.ofEntry now table), r.id = id) ↔
      (∃ r ∈ rows, r.id = id) ∨ ∃ e ∈ es, e.id = id := by
  simp [or_and_right, exists_or, Row.ofEntry]

/-- The entries of one batch that are fresh, and what the batches after it add. -/
theorem Adds.cons {d : Descriptor} {ds : List Descriptor} {rows new : Rows} (now : Moment)
    (hindex : ∀ d' ∈ ds, d.index = d'.index → d = d')
    (h : Adds job source ds (rows ++ (Rows.fresh rows (offered job source d)).map
      (Row.ofEntry now job.table)) new) :
    Adds job source (d :: ds) rows ((Rows.fresh rows (offered job source d)).map
      (Row.ofEntry now job.table) ++ new) := by
  refine ⟨fun r hr => ?_, ?_, fun e => ?_⟩
  · rcases List.mem_append.mp hr with hr | hr
    · obtain ⟨e, _, rfl⟩ := List.mem_map.mp hr
      rfl
    · exact h.table r hr
  · rw [List.map_append, List.nodup_append']
    rw [← map_id_entry, map_entry_ofEntry, ← map_id_entry new]
    refine ⟨(nodup_offered job source d).sublist (List.filter_sublist.map _),
      (map_id_entry new).symm ▸ h.nodup, fun id hadded hnew => ?_⟩
    obtain ⟨e, he, rfl⟩ := List.mem_map.mp hadded
    obtain ⟨e', he', heq⟩ := List.mem_map.mp hnew
    exact ((h.mem e').mp he').2 (exists_stored_iff.mpr (.inr ⟨e, he, heq.symm⟩))
  · rw [List.map_append, List.mem_append, map_entry_ofEntry, h.mem, exists_stored_iff,
      Rows.mem_fresh, List.exists_mem_cons_iff]
    constructor
    · rintro (⟨he, hfree⟩ | ⟨hlater, hfree⟩)
      · exact ⟨.inl he, hfree⟩
      · exact ⟨.inr hlater, fun htaken => hfree (.inl htaken)⟩
    · rintro ⟨he | ⟨d', hd', he⟩, hfree⟩
      · exact .inl ⟨he, hfree⟩
      · -- An entry of a later batch is stored now if this batch has it too.
        by_cases hnow : ∃ e' ∈ Rows.fresh rows (offered job source d), e'.id = e.id
        · obtain ⟨e', he', hid⟩ := hnow
          obtain rfl := eq_of_offered (hindex d' hd') (Rows.mem_fresh.mp he').1 he hid
          exact .inl (Rows.mem_fresh.mp he')
        · exact .inr ⟨⟨d', hd', he⟩, not_or.mpr ⟨hfree, hnow⟩⟩

/-- What two runs over the same batches add is the same but for the order. -/
theorem Adds.perm {ds ds' : List Descriptor} {rows new new' : Rows}
    (h : Adds job source ds rows new) (h' : Adds job source ds' rows new')
    (hmem : ∀ d, d ∈ ds ↔ d ∈ ds') :
    (new.map Row.entry).Perm (new'.map Row.entry) := by
  have hnodup : ∀ {ds : List Descriptor} {new : Rows}, Adds job source ds rows new →
      (new.map Row.entry).Nodup := by
    intro ds new h
    exact List.Nodup.of_map Entry.id ((map_id_entry new).symm ▸ h.nodup)
  refine (List.perm_ext_iff_of_nodup (hnodup h) (hnodup h')).mpr fun e => ?_
  rw [h.mem, h'.mem]
  simp only [hmem]

theorem exists_executeAll (job : Job) (source : Source) (hw : w.storage = .ready db)
    (order : List (Surroundings × Descriptor))
    (hindex : ∀ d ∈ order.map Prod.snd, ∀ d' ∈ order.map Prod.snd, d.index = d'.index → d = d') :
    ∃ new, executeAll job source order w = w.withDatabase (db.withRows (db.rows ++ new)) ∧
      Adds job source (order.map Prod.snd) db.rows new := by
  induction order generalizing w db with
  | nil =>
    refine ⟨[], ?_, adds_nil job source db.rows⟩
    rw [List.append_nil]
    exact (withDatabase_self hw).symm
  | cons next order ih =>
    obtain ⟨s, d⟩ := next
    obtain ⟨new, hnew, hadds⟩ := ih (w := (execute job source d s w).2)
      (by rw [world_of_execute hw]; rfl) fun d₁ h₁ d₂ h₂ =>
        hindex d₁ (List.mem_cons_of_mem _ h₁) d₂ (List.mem_cons_of_mem _ h₂)
    refine ⟨_, ?_, hadds.cons s.now fun d' hd' =>
      hindex d List.mem_cons_self d' (List.mem_cons_of_mem _ hd')⟩
    rw [executeAll, hnew, world_of_execute hw, ← List.append_assoc]
    rfl

end Run

/-! ## Appending is confluent -/

/-- Appending stores the first entry of each id that is not taken, keeps what is stored and counts
what is new, unless a position does not fit the store. So the batches of a job, executed in any
order and any number of times, add the same rows as each one executed once in order. -/
theorem RowStore.append_confluent {w : World} {db : Database} (hw : w.storage = .ready db) :
    (∀ (s : Surroundings) (table : String) (es : Batch), append table es s w =
      if es.all fun e => fitsInteger e.position then
        (.ok (Rows.fresh db.rows (Batch.firsts es)).length, w.withDatabase (db.withRows
          (db.rows ++ (Rows.fresh db.rows (Batch.firsts es)).map (Row.ofEntry s.now table))))
      else (.error (.fault .integerTooLarge), w)) ∧
    ∀ {job : Job} {columns : List (String × ColumnType)} {most : Nat} {size total : Int}
      {ds : List Descriptor}, descriptors 0 size total = .ok ds →
      ∀ {order once : List (Surroundings × Descriptor)}, once.map Prod.snd = ds →
        (∀ d, d ∈ order.map Prod.snd ↔ d ∈ ds) →
          ∃ new new', Run.executeAll job (.synthetic job.id columns most) order w =
              w.withDatabase (db.withRows (db.rows ++ new)) ∧
            Run.executeAll job (.synthetic job.id columns most) once w =
              w.withDatabase (db.withRows (db.rows ++ new')) ∧
            (∀ r ∈ new ++ new', r.table = job.table) ∧
            (new.map Row.entry).Perm (new'.map Row.entry) := by
  refine ⟨fun s table es => run_append hw table es, ?_⟩
  intro job columns most size total ds hds order once honce horder
  have hsize : 0 < size := by
    by_contra hle
    rw [descriptors, if_pos (by omega)] at hds
    cases hds
  obtain rfl := Except.ok.inj ((descriptors_eq hsize 0).symm.trans hds)
  have hindex : ∀ d ∈ batchesFrom size total (max 0 0), ∀ d' ∈ batchesFrom size total (max 0 0),
      d.index = d'.index → d = d' := fun d hd d' hd' => eq_of_index_eq hsize hd hd'
  obtain ⟨new, hnew, hadds⟩ := Run.exists_executeAll job (.synthetic job.id columns most) hw order
    fun d hd d' hd' => hindex d ((horder d).mp hd) d' ((horder d').mp hd')
  obtain ⟨new', hnew', hadds'⟩ := Run.exists_executeAll job (.synthetic job.id columns most) hw once
    fun d hd d' hd' => hindex d (honce ▸ hd) d' (honce ▸ hd')
  refine ⟨new, new', hnew, hnew', fun r hr => ?_, hadds.perm hadds' fun d => ?_⟩
  · exact (List.mem_append.mp hr).elim (hadds.table r) (hadds'.table r)
  · rw [horder, honce]

/-- Two batches of which the second comes first, and comes again. -/
theorem RowStore.perm_of_repeated :
    let first : Descriptor := ⟨0, 2, 0⟩
    let second : Descriptor := ⟨2, 2, 1⟩
    let source := Source.synthetic "job_1" [("c", .number)] 10
    let w := sampleWorld sampleJob [] (.entries [])
    descriptors 0 2 4 = .ok [first, second] ∧
      ∃ new new',
        Run.executeAll sampleJob source [(still, second), (still, first), (still, second)] w =
          w.withDatabase (sampleDatabase sampleJob new) ∧
        Run.executeAll sampleJob source [(still, first), (still, second)] w =
          w.withDatabase (sampleDatabase sampleJob new') ∧
        (∀ r ∈ new ++ new', r.table = "t") ∧ (new.map Row.entry).Perm (new'.map Row.entry) := by
  intro first second source w
  have hds : descriptors 0 2 4 = .ok [first, second] := rfl
  have hw : w.storage = .ready (sampleDatabase sampleJob []) := rfl
  have honce : [(still, first), (still, second)].map Prod.snd = [first, second] := rfl
  refine ⟨hds, @(append_confluent hw).2 sampleJob _ _ _ _ _ hds _ _ honce fun d => ?_⟩
  simp only [List.map_cons, List.map_nil, List.mem_cons, List.not_mem_nil, or_false]
  tauto

/-- A position that does not fit the store : the entry is new, and it is not stored. -/
theorem RowStore.append_of_large_position :
    let e : Entry := ⟨"row_1", ⟨[], .compact⟩, 2 ^ 63⟩
    let w := sampleWorld sampleJob [] (.entries [])
    Rows.fresh [] (Batch.firsts [e]) = [e] ∧
      append "t" [e] still w = (.error (.fault .integerTooLarge), w) := by
  intro e w
  refine ⟨rfl, ?_⟩
  have hw : w.storage = .ready (sampleDatabase sampleJob []) := rfl
  rw [run_append hw]
  rfl

end Tabula
