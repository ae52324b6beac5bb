import Tabula.Proofs.Confluence
import Tabula.Proofs.Integrity
import Tabula.Proofs.JsonTexts

/-!
# Batches carry the rows that were given

A row is a mapping of texts to cells (`Value.IsRow`). A value is encoded exactly if it is one
(`Batch.encodeRow_eq_ok_iff`), and then its text is read back as the row (`Json.read_of_write`). A
batch is refused exactly if some value is no row, and the failure names the first of them
(`Batch.encode_eq_error_iff`); otherwise each row has its entry in its place
(`Batch.exists_entry_of_encodeFrom`).

The ids of a batch are distinct, in both forms (`Batch.jobRowId_injective`,
`Batch.looseRowId_injective`), so an entry whose id is not taken is what the store answers for this
id once the batch is appended (`RowStore.get_append`). `Batch.rows_readBack` puts this together : the
rows that are stored for a batch hold the rows it was made of.
-/

namespace Tabula

open Store

/-- What a cell may be : nothing, a text, an integer or a finite float. -/
def Value.IsCell : Value → Prop
  | .null | .text _ | .int _ => True
  | .float x => x.isFinite = true
  | _ => False

theorem Value.isCell_iff {v : Value} : v.IsCell ↔ v.classify ≠ none := by
  cases v <;> simp [IsCell, classify]

/-- A mapping of texts to cells. -/
def Value.IsRow (v : Value) : Prop := ∃ cells : Cells, v = object cells ∧ ∀ e ∈ cells, e.2.IsCell

theorem Value.isRow_iff {v : Value} :
    v.IsRow ↔ ∃ cells : Cells, v = object cells ∧ Source.AllStorable cells := by
  simp only [IsRow, Source.AllStorable, isCell_iff]

/-- No key comes twice, and no integer has more digits than are read. -/
def Value.IsLegible (v : Value) : Prop :=
  ∀ cells : Cells, v = object cells → (cells.map Prod.fst).Nodup ∧ ∀ e ∈ cells, e.2.IsShort

theorem Value.object_injective : Function.Injective object := fun _ _ h =>
  List.map_injective_iff.mpr (fun _ _ he => Prod.ext (Value.text.inj (Prod.mk.inj he).1)
    (Prod.mk.inj he).2) (Value.dict.inj h)

theorem Value.isLegible_object {cells : Cells} :
    (object cells).IsLegible ↔ (cells.map Prod.fst).Nodup ∧ ∀ e ∈ cells, e.2.IsShort := by
  refine ⟨fun h => h cells rfl, fun h cells' heq => ?_⟩
  rwa [← object_injective heq]

/-- The payload has a text, which is read as the value. -/
def Payload.ReadsAs (p : Payload) (v : Value) : Prop := ∃ t, p.text? = .ok t ∧ Json.read t = .ok v

namespace Batch

variable {batch start : Int} {idOf : Nat → String} {v : Value}

/-! ## One row -/

theorem encodeRow_eq_ok_iff {row : Int} {p : Payload} : encodeRow batch row v = .ok p ↔
    ∃ cells : Cells, v = .object cells ∧ Source.AllStorable cells ∧ p = ⟨cells, .compact⟩ := by
  constructor
  · intro h
    rw [encodeRow] at h
    split at h
    · rename_i cells hcells
      cases v with
      | dict es =>
        exact ⟨cells, congrArg Value.dict (cells_of_checkCells hcells), allStorable_of_checkCells hcells,
          (Except.ok.inj h).symm⟩
      | _ => cases hcells
    · cases h
  · rintro ⟨cells, rfl, hall, rfl⟩
    rw [encodeRow, Value.object, cellsOf, checkCells_ok hall]

theorem exists_encodeRow (h : v.IsRow) (batch row : Int) : ∃ p, encodeRow batch row v = .ok p := by
  obtain ⟨cells, hv, hall⟩ := Value.isRow_iff.mp h
  exact ⟨_, encodeRow_eq_ok_iff.mpr ⟨cells, hv, hall, rfl⟩⟩

/-- What is no row is refused with its place. -/
theorem exists_badRow (h : ¬ v.IsRow) (batch row : Int) :
    ∃ why, encodeRow batch row v = .error (.badRow batch row why) := by
  rcases hv : cellsOf v with why | cells
  · exact ⟨why, by rw [encodeRow, hv]⟩
  · have hp : encodeRow batch row v = .ok ⟨cells, .compact⟩ := by rw [encodeRow, hv]
    obtain ⟨cells', hv', hall, -⟩ := encodeRow_eq_ok_iff.mp hp
    exact absurd (Value.isRow_iff.mpr ⟨cells', hv', hall⟩) h

/-- The payload of a legible row is read as the row. -/
theorem readsAs_of_encodeRow {row : Int} {p : Payload} (hp : encodeRow batch row v = .ok p)
    (hlegible : v.IsLegible) : p.ReadsAs v ∧ p.toValue = v := by
  obtain ⟨cells, rfl, hall, rfl⟩ := encodeRow_eq_ok_iff.mp hp
  obtain ⟨hkeys, hshort⟩ := hlegible cells rfl
  obtain ⟨t, ht⟩ := Json.exists_write_object .compact hall
  exact ⟨⟨t, ht, Json.read_of_write hall hshort hkeys ht⟩, rfl⟩

/-! ## All rows of a batch -/

theorem exists_encodeFrom_rows (idOf : Nat → String) (batch start : Int) {vs : List Value} (row : Nat)
    (h : ∀ v ∈ vs, v.IsRow) : ∃ es, encodeFrom idOf batch start row vs = .ok es := by
  refine exists_encodeFrom idOf batch start row fun v hv => ?_
  obtain ⟨cells, rfl, hall⟩ := Value.isRow_iff.mp (h v hv)
  exact ⟨cells, checkCells_ok hall⟩

/-- The first row that is none is the one that the failure names. -/
theorem encodeFrom_of_bad (idOf : Nat → String) (batch start : Int) :
    ∀ (vs : List Value) {i : Nat} {v : Value} {why : BadRow} (row : Nat), vs[i]? = some v →
      (∀ k < i, ∀ u, vs[k]? = some u → u.IsRow) →
      encodeRow batch (row + i : Nat) v = .error (.badRow batch (row + i : Nat) why) →
      encodeFrom idOf batch start row vs = .error (.badRow batch (row + i : Nat) why)
  | [], _, _, _, _, hv, _, _ => by cases hv
  | u :: vs, 0, v, why, row, hv, _, hbad => by
    obtain rfl := Option.some.inj hv
    rw [Nat.add_zero] at hbad ⊢
    rw [encodeFrom, hbad]
  | u :: vs, i + 1, v, why, row, hv, hbefore, hbad => by
    obtain ⟨p, hp⟩ := exists_encodeRow (hbefore 0 (Nat.succ_pos i) u rfl) batch row
    have hplace : row + (i + 1) = row + 1 + i := by omega
    rw [hplace] at hbad ⊢
    have ih := encodeFrom_of_bad idOf batch start vs (row + 1) (by simpa using hv)
      (fun k hk u hu => hbefore (k + 1) (Nat.succ_lt_succ hk) u (by simpa using hu)) hbad
    rw [encodeFrom, hp]
    simp only [ih]

/-- Each row of a batch has its entry in its place. -/
theorem exists_entry_of_encodeFrom :
    ∀ {vs : List Value} {row i : Nat} {es : Batch} {v : Value},
      encodeFrom idOf batch start row vs = .ok es → vs[i]? = some v →
        ∃ e, es[i]? = some e ∧ e.id = idOf (row + i) ∧ e.position = start + (row + i : Nat) ∧
          encodeRow batch (row + i : Nat) v = .ok e.payload
  | [], _, _, _, _, _, hv => by cases hv
  | u :: vs, row, i, es, v, h, hv => by
    rw [encodeFrom] at h
    rcases hp : encodeRow batch row u with _ | p
    · simp [hp] at h
    · rcases hrest : encodeFrom idOf batch start (row + 1) vs with _ | rest
      · simp [hp, hrest] at h
      · simp only [hp, hrest, Except.ok.injEq] at h
        subst h
        rcases i with _ | i
        · obtain rfl := Option.some.inj hv
          exact ⟨_, rfl, rfl, rfl, hp⟩
        · obtain ⟨e, he, hid, hposition, hpayload⟩ := exists_entry_of_encodeFrom hrest (i := i)
            (by simpa using hv)
          rw [show row + 1 + i = row + (i + 1) by omega] at hid hposition hpayload
          exact ⟨e, by simpa using he, hid, hposition, hpayload⟩

theorem length_of_encode {vs : List Value} {es : Batch} (h : encode idOf batch start vs = .ok es) :
    es.length = vs.length := by
  simpa using congrArg List.length (key_of_encode h)

/-- A batch is refused with what the first row that is none is refused with. -/
theorem encode_eq_error_iff {rows : List Value} {f : Failure} :
    encode idOf batch start rows = .error f ↔
      ∃ (i : Nat) (v : Value) (why : BadRow), rows[i]? = some v ∧ ¬ v.IsRow ∧
        (∀ k < i, ∀ u, rows[k]? = some u → u.IsRow) ∧
        encodeRow batch i v = .error (.badRow batch i why) ∧ f = .badRow batch i why := by
  classical
  have hrefused : ∀ {i : Nat} {v : Value} {why : BadRow}, rows[i]? = some v →
      (∀ k < i, ∀ u, rows[k]? = some u → u.IsRow) →
      encodeRow batch i v = .error (.badRow batch i why) →
      encode idOf batch start rows = .error (.badRow batch i why) := by
    intro i v why hv hbefore hwhy
    rw [← Nat.zero_add i] at hwhy ⊢
    exact encodeFrom_of_bad idOf batch start rows 0 hv hbefore hwhy
  constructor
  · intro h
    -- some row is none, and the first of them is what the failure is about
    have hexists : ∃ (i : Nat) (v : Value), rows[i]? = some v ∧ ¬ v.IsRow := by
      by_contra hnone
      obtain ⟨es, hes⟩ := exists_encodeFrom_rows idOf batch start 0 fun v hv => by
        obtain ⟨i, hi⟩ := List.mem_iff_getElem?.mp hv
        by_contra hbad
        exact hnone ⟨i, v, hi, hbad⟩
      cases hes.symm.trans h
    obtain ⟨v, hv, hbad⟩ := Nat.find_spec hexists
    have hbefore : ∀ k < Nat.find hexists, ∀ u, rows[k]? = some u → u.IsRow := fun k hk u hu => by
      by_contra hnot
      exact Nat.find_min hexists hk ⟨u, hu, hnot⟩
    obtain ⟨why, hwhy⟩ := exists_badRow hbad batch (Nat.find hexists)
    exact ⟨_, v, why, hv, hbad, hbefore, hwhy,
      Except.error.inj (h.symm.trans (hrefused hv hbefore hwhy))⟩
  · rintro ⟨i, v, why, hv, -, hbefore, hwhy, rfl⟩
    exact hrefused hv hbefore hwhy

/-! ## The ids of a batch -/

theorem jobRowId_injective (job : String) (batch : Int) : Function.Injective (jobRowId job batch) :=
  fun _ _ h => (jobRowId_inj.mp h).2.2

/-- Whatever their endings, no two loose rows of a batch have one id. -/
theorem looseRowId_injective (stamp batch : Int) (endings : Nat → String) :
    Function.Injective fun row => looseRowId stamp batch row (endings row) := by
  intro row row' h
  have h := congrArg String.toList h
  simp only [looseRowId, String.toList_append, List.append_assoc] at h
  iterate 5 replace h := List.append_cancel_left h
  -- read backwards, the place is what follows the last underscore
  have hback := congrArg List.reverse h
  simp only [List.reverse_append, List.append_assoc] at hback
  obtain ⟨-, hplace⟩ := eq_of_append_cons_eq (List.mem_reverse.not.mpr (underscore_notMem_repr row))
    (List.mem_reverse.not.mpr (underscore_notMem_repr row')) hback
  exact Nat.repr_inj.mp (String.toList_injective (List.reverse_injective hplace))

theorem nodup_of_encode (hid : Function.Injective idOf) {vs : List Value} {es : Batch}
    (h : encode idOf batch start vs = .ok es) : (es.map Entry.id).Nodup := by
  have hids : es.map Entry.id = (List.range vs.length).map idOf := by
    have hkeys := congrArg (List.map Prod.fst) (key_of_encode h)
    rw [List.map_map, List.map_map] at hkeys
    exact hkeys
  rw [hids]
  exact List.nodup_range.map hid

theorem firsts_eq_self : ∀ {es : Batch}, (es.map Entry.id).Nodup → firsts es = es
  | [], _ => rfl
  | e :: es, h => by
    rw [List.map_cons, List.nodup_cons] at h
    rw [firsts, firsts_eq_self h.2, List.filter_eq_self.mpr]
    intro later hlater
    rw [bne_iff_ne]
    rintro hid
    exact h.1 (hid ▸ List.mem_map_of_mem hlater)

end Batch

/-! ## Stored rows -/

namespace RowStore

open Tabula.Action

variable {s : Surroundings} {w : World} {db : Database}

/-- An entry with an id that is not taken is found under its id once its batch is appended. -/
theorem find_append_fresh {es : Batch} (hnodup : (es.map Entry.id).Nodup) (now : Moment)
    (table : String) {e : Entry} (he : e ∈ es) (hnew : db.rows.has e.id = false) :
    find e.id (db.withRows (db.rows ++ (Rows.fresh db.rows es).map (Row.ofEntry now table))) =
      .ok (Row.ofEntry now table e) := by
  have hnone : db.rows.find? e.id = none := by
    rw [Rows.find?, List.find?_eq_none]
    intro r hr hid
    rw [Rows.has_iff.mpr ⟨r, hr, beq_iff_eq.mp hid⟩] at hnew
    cases hnew
  have hmem : Row.ofEntry now table e ∈ (Rows.fresh db.rows es).map (Row.ofEntry now table) :=
    List.mem_map_of_mem (List.mem_filter.mpr ⟨he, by rw [hnew]; rfl⟩)
  have hrows : (((Rows.fresh db.rows es).map (Row.ofEntry now table)).map Row.id).Nodup := by
    rw [List.map_map]
    exact (List.filter_sublist.map Entry.id).nodup hnodup
  have hfound := find?_eq_some_of_nodup hrows hmem
  rw [Rows.find?] at hnone
  simp only [find, Database.withRows, Rows.find?, List.find?_append, hnone, Option.none_or]
  rw [show (Row.ofEntry now table e).id = e.id from rfl] at hfound
  rw [hfound]

/-- Rows that were there are found as before. -/
theorem exists_find_append (db : Database) (new : Rows) {id : String} (h : db.rows.has id = true) :
    ∃ r, find id db = .ok r ∧ find id (db.withRows (db.rows ++ new)) = .ok r := by
  obtain ⟨r, hfound⟩ : ∃ r, List.find? (fun r => r.id == id) db.rows = some r := by
    rw [← Option.isSome_iff_exists, List.find?_isSome]
    exact (List.any_eq_true.mp h)
  exact ⟨r, by simp only [find, Rows.find?, hfound],
    by simp only [find, Database.withRows, Rows.find?, List.find?_append, hfound, Option.some_or]⟩

/-- A batch whose positions the store can hold is appended. Its new rows are answered as they were
entered, and rows that were there as before. -/
theorem get_append (hw : w.storage = .ready db) {es : Batch} (hnodup : (es.map Entry.id).Nodup)
    (table : String) (hfits : ∀ e ∈ es, fitsInteger e.position = true) :
    ∃ n w', append table es s w = (.ok n, w') ∧
      (∀ e ∈ es, db.rows.has e.id = false →
        get e.id s w' = (.ok (Row.ofEntry s.now table e), w')) ∧
      ∀ id, db.rows.has id = true →
        ∃ r, get id s w = (.ok r, w) ∧ get id s w' = (.ok r, w') := by
  refine ⟨_, _, (run_append hw table es).trans (if_pos (List.all_eq_true.mpr hfits)), ?_, ?_⟩
  · intro e he hnew
    rw [Batch.firsts_eq_self hnodup]
    refine run_rowStore_ok ((run_query (storage_withDatabase _ _) _).trans ?_)
    rw [find_append_fresh hnodup s.now table he hnew]
  · intro id htaken
    obtain ⟨r, hbefore, hafter⟩ := exists_find_append db
      ((Rows.fresh db.rows (Batch.firsts es)).map (Row.ofEntry s.now table)) htaken
    exact ⟨r, run_rowStore_ok ((run_query hw _).trans (by rw [hbefore])),
      run_rowStore_ok ((run_query (storage_withDatabase _ _) _).trans (by rw [hafter]))⟩

end RowStore

namespace Batch

/-- Rows come back as they were given. A row is encoded, and its text, in either layout, is read as
the row; anything else is refused with its place. A batch is refused exactly if one of its values is
no row, for the first of these; otherwise its entries are those of the rows in their places. Once it
is appended, the rows under ids that were not taken carry what was given, and those that were there
stay. -/
theorem rows_readBack :
    (∀ v : Value, v.IsRow →
      (∀ batch row, ∃ p, encodeRow batch row v = .ok p ∧ (v.IsLegible → p.ReadsAs v)) ∧
      ∃ t, Json.write .spaced v = .ok t ∧ (v.IsLegible → Json.read t = .ok v)) ∧
    (∀ v : Value, ¬ v.IsRow →
      ∀ batch row, ∃ why, encodeRow batch row v = .error (.badRow batch row why)) ∧
    (∀ job batch, Function.Injective (jobRowId job batch)) ∧
    (∀ stamp batch (endings : Nat → String),
      Function.Injective fun row => looseRowId stamp batch row (endings row)) ∧
    ∀ (idOf : Nat → String) (batch start : Int) (rows : List Value),
      (∀ f, encode idOf batch start rows = .error f ↔
        ∃ (i : Nat) (v : Value) (why : BadRow), rows[i]? = some v ∧ ¬ v.IsRow ∧
          (∀ k < i, ∀ u, rows[k]? = some u → u.IsRow) ∧
          encodeRow batch i v = .error (.badRow batch i why) ∧ f = .badRow batch i why) ∧
      ∀ es, encode idOf batch start rows = .ok es →
        es.length = rows.length ∧
        (∀ (i : Nat) v, rows[i]? = some v → ∃ e, es[i]? = some e ∧ e.id = idOf i ∧
          e.position = start + i ∧ encodeRow batch i v = .ok e.payload) ∧
        (Function.Injective idOf → ∀ (table : String) (s : Surroundings) (w : World) (db : Database),
          w.storage = .ready db → (∀ e ∈ es, fitsInteger e.position = true) →
          ∃ n w', RowStore.append table es s w = (.ok n, w') ∧
            (∀ (i : Nat) v, rows[i]? = some v → v.IsLegible → db.rows.has (idOf i) = false →
              ∃ r, RowStore.get (idOf i) s w' = (.ok r, w') ∧ r.table = table ∧
                r.position = start + i ∧ r.payload.ReadsAs v ∧ r.payload.toValue = v) ∧
            ∀ id, db.rows.has id = true →
              ∃ r, RowStore.get id s w = (.ok r, w) ∧ RowStore.get id s w' = (.ok r, w')) := by
  refine ⟨fun v hrow => ⟨fun batch row => ?_, ?_⟩, fun v hbad => exists_badRow hbad,
    jobRowId_injective, looseRowId_injective,
    fun idOf batch start rows => ⟨fun f => encode_eq_error_iff, fun es hes => ?_⟩⟩
  · obtain ⟨p, hp⟩ := exists_encodeRow hrow batch row
    exact ⟨p, hp, fun hlegible => (readsAs_of_encodeRow hp hlegible).1⟩
  · obtain ⟨cells, rfl, hall⟩ := Value.isRow_iff.mp hrow
    obtain ⟨t, ht⟩ := Json.exists_write_object .spaced hall
    refine ⟨t, ht, fun hlegible => ?_⟩
    obtain ⟨hkeys, hshort⟩ := hlegible cells rfl
    exact Json.read_of_write hall hshort hkeys ht
  · have hentry : ∀ (i : Nat) v, rows[i]? = some v → ∃ e, es[i]? = some e ∧ e.id = idOf i ∧
        e.position = start + i ∧ encodeRow batch i v = .ok e.payload := by
      intro i v hv
      have h := exists_entry_of_encodeFrom hes hv
      rwa [Nat.zero_add] at h
    refine ⟨length_of_encode hes, hentry, fun hid table s w db hw hfits => ?_⟩
    obtain ⟨n, w', happend, hget, hstays⟩ :=
      RowStore.get_append hw (nodup_of_encode hid hes) table hfits
    refine ⟨n, w', happend, fun i v hv hlegible hnew => ?_, hstays⟩
    obtain ⟨e, he, hidOf, hposition, hpayload⟩ := hentry i v hv
    obtain ⟨hreads, hvalue⟩ := readsAs_of_encodeRow hpayload hlegible
    rw [← hidOf] at hnew ⊢
    exact ⟨_, hget e (List.mem_of_getElem? he) hnew, rfl, hposition, hreads, hvalue⟩

/-- One cell of each kind, the number being the float of a tenth. -/
def mixedCells : Cells :=
  [("name", .text "\"café\"\n"), ("count", .int (-12)),
    ("share", .float (.signed false ⟨0x3fb999999999999a, by decide⟩)), ("none", .null)]

/-- A row of mixed cells comes back, and behind it a truth value would be refused. -/
theorem rows_readBack_mixed :
    let v := Value.object mixedCells
    let w := sampleWorld sampleJob [] (.entries [])
    (∃ p, encodeRow 0 0 v = .ok p ∧ p.ReadsAs v) ∧
      (∃ t, Json.write .spaced v = .ok t ∧ Json.read t = .ok v) ∧
      (∃ why, encodeRow 0 1 (.bool true) = .error (.badRow 0 1 why)) ∧
      (∃ why, encode (jobRowId "job_1" 0) 0 5 [v, .bool true] = .error (.badRow 0 1 why)) ∧
      ∃ es n w' r, encode (jobRowId "job_1" 0) 0 5 [v] = .ok es ∧
        RowStore.append "t" es still w = (.ok n, w') ∧
        RowStore.get (jobRowId "job_1" 0 0) still w' = (.ok r, w') ∧ r.position = 5 ∧
        r.payload.ReadsAs v ∧ r.payload.toValue = v := by
  intro v w
  have hrow : v.IsRow := ⟨mixedCells, rfl, by simp [mixedCells, Value.IsCell]; rfl⟩
  have hlegible : v.IsLegible := by
    refine Value.isLegible_object.mpr ⟨by decide, ?_⟩
    have hdigits : (Nat.toDigits 10 12).length ≤ Text.integerDigitLimit := by decide
    simp [mixedCells, Value.IsShort, hdigits]
  have hbool : ¬ (Value.bool true).IsRow := by
    rintro ⟨cells, h, -⟩
    cases h
  obtain ⟨hencodes, hrefuses, hjob, -, hbatch⟩ := rows_readBack
  obtain ⟨hcompact, t, ht, hread⟩ := hencodes v hrow
  obtain ⟨p, hp, hpayload⟩ := hcompact 0 0
  obtain ⟨why, hwhy⟩ := hrefuses _ hbool 0 1
  refine ⟨⟨p, hp, hpayload hlegible⟩, ⟨t, ht, hread hlegible⟩, ⟨why, hwhy⟩, ⟨why, ?_⟩, ?_⟩
  · refine ((hbatch _ 0 5 [v, .bool true]).1 _).mpr
      ⟨1, _, why, rfl, hbool, fun k hk u hu => ?_, hwhy, rfl⟩
    obtain rfl : k = 0 := Nat.lt_one_iff.mp hk
    exact Option.some.inj hu ▸ hrow
  · obtain ⟨-, -, hstored⟩ := (hbatch (jobRowId "job_1" 0) 0 5 [v]).2 _ rfl
    obtain ⟨n, w', happend, hget, -⟩ := hstored (hjob "job_1" 0) "t" still w _ rfl (by decide)
    obtain ⟨r, hr, -, hposition, hreads, hvalue⟩ := hget 0 v rfl hlegible rfl
    exact ⟨_, n, w', r, rfl, happend, hr, hposition, hreads, hvalue⟩

end Batch

end Tabula
