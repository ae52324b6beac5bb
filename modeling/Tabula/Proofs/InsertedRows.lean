import Tabula.Proofs.Additions

/-!
# What is stored of an insertion

In a world that came about in one process the ids of inserted rows are new. So an insertion of rows
that coerce stores all of them, as they are, behind the last row, however they are cut into chunks
(`insertRows_appends`). Each chunk is a transaction of its own, though. Where one fails the rows of
the chunks before it stay, so a call that fails leaves the table as it was only if it is the first
(`insertRows_stops`).
-/

namespace Tabula

open Store Tabula.Action Rows

/-- The world has some rows of a table behind those that it had, which hold some cells in their
order. -/
structure World.Gains (w w' : World) (db : Database) (table : String) (cells : List Cells)
    (new : Rows) : Prop where
  storage : w'.storage = .ready (db.withRows (db.rows ++ new))
  stamped : Stamped w.lastStamp w'.lastStamp table (db.rows.nextPosition table) cells new
  unused : ∀ r ∈ new, db.rows.has r.id = false

variable {w w' : World} {db : Database} {table : String} {cells : List Cells} {new : Rows}

/-- What is offered to a world that came about is stored. -/
theorem Reached.gains (h : Reached (fun op _ => op.IsPunctual) w) (hw : w.storage = .ready db)
    (hw' : w'.storage = .ready (db.withRows (db.rows.join new)))
    (hnew : Stamped w.lastStamp w'.lastStamp table (db.rows.nextPosition table) cells new) :
    World.Gains w w' db table cells new ∧ db.rows.novel new = new := by
  obtain ⟨_, hready, hdated⟩ := h.isDated
  obtain rfl := Storage.ready.inj (hready.symm.trans hw)
  have hall := hdated.join_eq hnew
  rw [join, hall] at hw'
  refine ⟨⟨hw', hnew, fun r hr => ?_⟩, hall⟩
  simpa using List.filter_eq_self.mp hall r hr

theorem Database.withRows_append_eq_iff : db.withRows (db.rows ++ new) = db ↔ new = [] := by
  constructor
  · intro hsame
    exact List.append_right_eq_self.mp (congrArg Database.rows hsame)
  · rintro rfl
    rw [List.append_nil]
    rfl

/-- Rows were added exactly if some were given. -/
theorem World.Gains.storage_eq_iff (h : World.Gains w w' db table cells new)
    (hw : w.storage = .ready db) : w'.storage = w.storage ↔ cells = [] := by
  rw [h.storage, hw, Storage.ready.injEq, Database.withRows_append_eq_iff,
    ← List.length_eq_zero_iff, h.stamped.length_eq, List.length_eq_zero_iff]

namespace Workspace

/-! ## A table to insert into -/

/-- In a new table rows can be inserted : it has a text column, and its rows are the first ones. -/
theorem exists_newTable : ∃ w db t c, Reached (fun op _ => op.IsPunctual) w ∧
    w.storage = .ready db ∧ Catalog.ownedTable "u" t.id db = .ok t ∧
      (Catalog.typesOf t.id db).lookup c = some .text ∧
        0 ≤ db.rows.nextPosition t.id ∧ db.rows.nextPosition t.id ≤ sampleRows := by
  obtain ⟨w₁, b, s, _, w, db, t, hw₁, hrun, h, hw, hnew⟩ :=
    @exists_isNew_of_run (fun op _ => op.IsPunctual) (fun _ _ _ => trivial) fun _ _ _ _ => trivial
  obtain ⟨hsome, htexts⟩ := hnew.columns
  have hpositions : ∀ r ∈ db.rows, 0 ≤ r.position ∧ r.position < sampleRows := by
    intro r hr
    have hcreates := createsTable (s := s) hw₁ "u" b.id (.text "A")
    rw [hrun] at hcreates
    rcases hcreates with hw' | ⟨hw', -, -, -, hcount, hstamped⟩
    · exact absurd (congrArg Database.columns (Storage.ready.inj (hw.symm.trans hw'))) hsome
    · rw [Storage.ready.inj (hw.symm.trans hw')] at hr
      have hmem := List.mem_map_of_mem (f := Row.position) (List.mem_filter.mp hr).1
      rw [hstamped.positions, hcount] at hmem
      obtain ⟨i, hi, hposition⟩ := List.mem_map.mp hmem
      rw [List.mem_range] at hi
      omega
  -- all columns are text columns, and there is one
  obtain ⟨⟨c, type⟩, rest, htypes⟩ : ∃ first rest, Catalog.typesOf t.id db = first :: rest := by
    obtain ⟨c, hc⟩ := List.exists_mem_of_ne_nil _ hsome
    exact List.exists_cons_of_ne_nil (List.ne_nil_of_mem
      (Catalog.mem_typesOf.mpr ⟨c, hc, (htexts c hc).1, rfl, rfl⟩))
  have htype : type = .text := by
    have hmem : (c, type) ∈ Catalog.typesOf t.id db := htypes ▸ List.mem_cons_self
    obtain ⟨column, hcolumn, -, -, rfl⟩ := Catalog.mem_typesOf.mp hmem
    exact (htexts column hcolumn).2.1
  refine ⟨w, db, t, c, h, hw, hnew.owned, ?_, ?_⟩
  · rw [htypes, htype, List.lookup_cons_self]
  · rcases nextPosition_cases t.id db.rows with h | ⟨r, hr, -, h⟩
    · rw [h]
      decide
    · have := hpositions r hr
      omega

/-- Texts coerce to texts. -/
theorem coercesTo_text {types : List (String × ColumnType)} {c : String}
    (hc : types.lookup c = some .text) (x : String) :
    CoercesTo types (.dict [(.text c, .text x)]) [(c, .text x)] :=
  ⟨_, rfl, .cons ⟨rfl, _, hc, rfl⟩ .nil⟩

/-! ## Insertions in one process -/

variable {settings : Settings} {actor : String} {t : Table} {vs : List Value} {given : Value}
  {rows : List Cells}

/-- Where no chunk fails all rows are stored. -/
theorem Prepares.exists_gains {c : Conditions} {s : Surroundings}
    (hprepares : Prepares actor table given db rows)
    (h : Reached (fun op _ => op.IsPunctual) w) (hw : w.storage = .ready db)
    (hsize : 1 ≤ settings.insertBatch)
    (hall : ∀ k, ¬ c.Fails settings.insertBatch.toNat rows.length
      (db.rows.nextPosition table) k) :
    ∃ new w', c.insertRows settings actor table given s w = (.ok rows.length, w') ∧
      World.Gains w w' db table rows new := by
  obtain ⟨new, w', hrun, hw', hnew⟩ := Conditions.run_insertChunks_of_all (s := s) hw table
    (Int.pos_iff_toNat_pos.mp hsize) hprepares.allStorable hall
  obtain ⟨hgains, hnovel⟩ := h.gains hw hw' hnew
  refine ⟨new, w', ?_, hgains⟩
  rw [Conditions.run_insertRows_of_pos hw hsize hprepares, hrun, hnovel, hnew.length_eq]

/-- What is refused changes nothing. Otherwise an insertion stores all rows unless a chunk fails; then
it fails as the first of these, and the rows of the chunks before this one are stored. They are none
only if it is the first chunk of all. -/
theorem insertRows_stops (h : Reached (fun op _ => op.IsPunctual) w) (hw : w.storage = .ready db)
    (hsize : 1 ≤ settings.insertBatch) (actor table : String) (given : Value) (s : Surroundings) :
    insertRows settings actor table given s w =
        (Conditions.steady s).insertRows settings actor table given s w ∧
    ∀ c : Conditions,
      ((¬ ∃ rows, Prepares actor table given db rows) →
        ∃ why, c.insertRows settings actor table given s w = (.error why, w)) ∧
      ∀ rows, Prepares actor table given db rows →
        ((∀ k, ¬ c.Fails settings.insertBatch.toNat rows.length (db.rows.nextPosition table) k) →
          ∃ new w', c.insertRows settings actor table given s w = (.ok rows.length, w') ∧
            World.Gains w w' db table rows new) ∧
        ∀ k, c.StopsAt settings.insertBatch.toNat rows.length (db.rows.nextPosition table) k →
          ∃ new w', c.insertRows settings actor table given s w = (.error (c.failure k), w') ∧
            World.Gains w w' db table (rows.take (k * settings.insertBatch.toNat)) new ∧
              (w'.storage = w.storage ↔ k = 0) := by
  have hpos := Int.pos_iff_toNat_pos.mp hsize
  refine ⟨(Conditions.run_insertRows_steady settings actor table given s w).symm, fun c =>
    ⟨Conditions.run_insertRows_of_not hw, fun rows hprepares => ⟨fun hall => ?_, fun k hstops => ?_⟩⟩⟩
  · exact hprepares.exists_gains h hw hsize hall
  · obtain ⟨new, w', hrun, hw', hnew⟩ := Conditions.run_insertChunks_of_stopsAt (s := s) hw table hpos
      hprepares.allStorable hstops
    obtain ⟨hgains, -⟩ := h.gains hw hw' hnew
    refine ⟨new, w', ?_, hgains, (hgains.storage_eq_iff hw).trans ?_⟩
    · rw [Conditions.run_insertRows_of_pos hw hsize hprepares, hrun]
    · have hne : rows ≠ [] := List.ne_nil_of_length_pos (Nat.zero_lt_of_lt hstops.1.1)
      rw [List.take_eq_nil_iff, or_iff_left hne, Nat.mul_eq_zero, or_iff_left hpos.ne']

/-- The second of two rows, in chunks of one, cannot be stored : the first one stays. -/
theorem insertRows_stops_newTable : ∃ w db t c s new w',
    Reached (fun op _ => op.IsPunctual) w ∧ w.storage = .ready db ∧
      Catalog.ownedTable "u" t.id db = .ok t ∧
      Conditions.insertRows ⟨fun _ => s, fun k => if k = 1 then some "disk full" else none⟩
        ⟨.null, 1⟩ "u" t.id (.list [.dict [(.text c, .text "x")], .dict [(.text c, .text "y")]]) s w =
          (.error (.rowStore .append "disk full"), w') ∧
      World.Gains w w' db t.id [[(c, .text "x")]] new ∧ w'.storage ≠ w.storage := by
  obtain ⟨w, db, t, c, h, hw, howned, hc, hlow, hhigh⟩ := exists_newTable
  obtain ⟨s, -⟩ := exists_isFresh w
  have hsize : 1 ≤ (⟨.null, 1⟩ : Settings).insertBatch := le_refl 1
  obtain ⟨-, hstops⟩ := insertRows_stops h hw hsize "u" t.id
    (.list [.dict [(.text c, .text "x")], .dict [(.text c, .text "y")]]) s
  obtain ⟨-, hprepared⟩ := hstops
    ⟨fun _ => s, fun k => if k = 1 then some "disk full" else none⟩
  obtain ⟨-, hfirst⟩ := hprepared [[(c, .text "x")], [(c, .text "y")]] ⟨⟨t, howned⟩, _, .inl rfl,
    .cons (coercesTo_text hc "x") (.cons (coercesTo_text hc "y") .nil)⟩
  obtain ⟨new, w', hrun, hgains, hsame⟩ := hfirst 1 <| by
    refine ⟨⟨Nat.lt_succ_self 1, .inl rfl⟩, fun j hj => ?_⟩
    obtain rfl : j = 0 := by omega
    rintro ⟨-, hfails | ⟨i, -, -, hi, hfit⟩⟩
    · cases hfails
    · have hi : i < 2 := hi
      rw [fitsInteger_iff.mpr (by rw [sampleRows] at hhigh; omega)] at hfit
      cases hfit
  exact ⟨w, db, t, c, s, new, w', h, hw, howned, hrun, hgains,
    fun h => absurd (hsame.mp h) (by decide)⟩

/-- A table whose last row is next to the last position that there is. -/
def lastSample : Database :=
  (textSample "5").withRows [⟨"r", "t", 2 ^ 63 - 2, ⟨[("c", .text "5")], .compact⟩, ⟨0⟩, ⟨0⟩⟩]

/-- One more row has a position, two have not : the call to insert them fails, and the first one is
stored. -/
theorem insertRows_of_last_position : ∃ new w',
    insertRows ⟨.null, 1⟩ "u" "t"
      (.list [.dict [(.text "c", .text "x")], .dict [(.text "c", .text "y")]]) textSurroundings
      ⟨.ready lastSample, .entries [], 0, 0, 0, []⟩ = (.error (.fault .integerTooLarge), w') ∧
      w'.storage = .ready (lastSample.withRows (lastSample.rows ++ new)) ∧
      new.map Row.payload = [⟨[("c", .text "x")], .compact⟩] ∧
      w'.storage ≠ .ready lastSample := by
  have hprepares : Prepares "u" "t"
      (.list [.dict [(.text "c", .text "x")], .dict [(.text "c", .text "y")]]) lastSample
      [[("c", .text "x")], [("c", .text "y")]] :=
    ⟨⟨_, rfl⟩, _, .inl rfl, .cons (coercesTo_text (by decide +kernel) "x")
      (.cons (coercesTo_text (by decide +kernel) "y") .nil)⟩
  have hstops : (Conditions.steady textSurroundings).StopsAt 1 2
      (lastSample.rows.nextPosition "t") 1 := by
    refine ⟨⟨by decide, .inr ⟨1, by decide⟩⟩, fun j hj => ?_⟩
    obtain rfl : j = 0 := by omega
    rintro ⟨-, hfails | ⟨i, -, hi, -, hfit⟩⟩
    · cases hfails
    · obtain rfl : i = 0 := by omega
      exact absurd hfit (by decide)
  obtain ⟨new, w', hrun, hw', hnew⟩ := Conditions.run_insertChunks_of_stopsAt
    (s := textSurroundings) (w := ⟨.ready lastSample, .entries [], 0, 0, 0, []⟩) rfl "t"
    Nat.one_pos hprepares.allStorable hstops
  have hnovel : lastSample.rows.novel new = new := by
    refine novel_eq_self fun r hr => ?_
    obtain ⟨stamp, batch, row, ending, -, -, hid⟩ := hnew.ids r hr
    rw [Bool.eq_false_iff, hid]
    intro hhas
    obtain ⟨old, hold, heq⟩ := has_iff.mp hhas
    obtain rfl := List.mem_singleton.mp hold
    have hlist := congrArg (fun s : String => s.toList.drop 1) heq
    simp [Batch.looseRowId, String.toList_append] at hlist
  rw [join, hnovel] at hw'
  refine ⟨new, w', ?_, hw', hnew.payloads, ?_⟩
  · rw [← Conditions.run_insertRows_steady, Conditions.run_insertRows_of_pos rfl le_rfl hprepares]
    exact hrun
  · rw [hw', ne_eq, Storage.ready.injEq, Database.withRows_append_eq_iff,
      ← List.length_eq_zero_iff, hnew.length_eq]
    decide

end Workspace

end Tabula
