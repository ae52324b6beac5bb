import Tabula.Proofs.Integrity

/-!
# Types of cells

Every value that is written is coerced to the type of its column first, and cells stay of their
types as long as no value outlives the type that it was coerced to (`isTyped_iff_of_steps`). There
are two ways for it to do so, both in a call that changes a column (`Operation.Strands`) : a
number column is made a text column, which no cell follows; or the cells of a text column become
numbers, and then the record of the column is refused.
-/

namespace Tabula

open Store Database

/-- Every cell holds a value that belongs under its column. -/
def Database.IsTyped (db : Database) : Prop :=
  ∀ r ∈ db.rows, ∀ c ∈ db.columns, c.table = r.table →
    ∀ v, r.payload.cells.get? c.id = some v → c.type.Admits v

namespace Database

variable {db db' : Database} {c c' : Column} {now : Moment}

theorem isTyped_empty : Database.empty.IsTyped := fun _ h => absurd h List.not_mem_nil

/-- Cells that conform to the columns of a table hold values that belong there. -/
theorem IsKeyed.admits_of_conform (h : db.IsKeyed) {table : String} {cells : Cells}
    (hcells : cells.Conform (Catalog.typesOf table db)) (hc : c ∈ db.columns) {v : Value}
    (hv : cells.get? c.id = some v) : c.type.Admits v := by
  obtain ⟨type, hmem, hadmits⟩ := hcells c.id v hv
  obtain ⟨d, hd, _, hid, rfl⟩ := Catalog.mem_typesOf.mp hmem
  rwa [h.column_eq hc hd hid.symm]

/-- No row has a cell under a column that is new. -/
theorem IsLinked.get?_of_new (h : db.IsLinked) {r : Row} (hr : r ∈ db.rows)
    (hnew : ∀ old ∈ db.columns, old.id ≠ c.id) : r.payload.cells.get? c.id = none := by
  rw [Cells.get?_eq_none]
  intro hkey
  obtain ⟨old, hold, hid, _⟩ := h.key r hr _ hkey
  exact hnew old hold hid

/-- The cells of a row that is written are of the type of their column, if one is new, or else the
old ones as they were or as the store gives them back. -/
theorem IsTyped.write (h : db.IsTyped) (hkeyed : db.IsKeyed) {old : Row} {column : String}
    {type : ColumnType} {payload : Payload} (now : Moment) (hold : old ∈ db.rows)
    (hcolumn : (column, type) ∈ Catalog.typesOf old.table db)
    (hcells : ∀ key v, payload.cells.get? key = some v → key = column ∧ type.Admits v ∨
      ∃ before, old.payload.cells.get? key = some before ∧ (v = before ∨ v = before.stored)) :
    (db.withRows (Rows.write now old.id payload db.rows)).IsTyped := by
  intro r hr c hc htable v hv
  obtain ⟨r₀, hr₀, _, ht, rfl | ⟨hid, hpayload⟩⟩ := Rows.mem_write hr
  · exact h r hr₀ c hc htable v hv
  · obtain rfl := hkeyed.row_eq hr₀ hold hid
    rw [hpayload] at hv
    rcases hcells c.id v hv with ⟨hkey, hadmits⟩ | ⟨before, hbefore, hv⟩
    · obtain ⟨d, hd, _, hid, rfl⟩ := Catalog.mem_typesOf.mp hcolumn
      rwa [hkeyed.column_eq hc hd (hkey.trans hid.symm)]
    -- Other cells may be written anew, which values of a type outlast.
    · have hadmits := h r₀ hr₀ c hc (htable.trans ht) before hbefore
      rcases hv with rfl | rfl
      · exact hadmits
      · rwa [hadmits.stored]

theorem IsTyped.change (h : db.IsTyped) (hlinked : db.IsLinked) (hkeyed : db.IsKeyed)
    (hchange : db.Change db') : db'.IsTyped := by
  have hkeyed' := hkeyed.change hchange
  cases hchange with
  | base | job | views => exact h
  | @table t columns rows _ hcolumns _ hnew hrows =>
    intro r hr c hc htable v hv
    rcases hrows.mem_iff hr with hold | ⟨ht, hconform⟩
    · rcases List.mem_append.mp hc with hc | hc
      · exact h r hold c hc htable v hv
      · rw [hlinked.get?_of_new hold (hnew c hc)] at hv
        cases hv
    · obtain ⟨type, hmem, hadmits⟩ := hconform c.id v hv
      obtain ⟨d, hd, heq⟩ := List.mem_map.mp hmem
      obtain ⟨hid, rfl⟩ := Prod.mk.inj heq
      rwa [hkeyed'.column_eq hc (List.mem_append_right _ hd) hid.symm]
  | @column c' _ _ hnew =>
    intro r hr c hc htable v hv
    rcases List.mem_append.mp hc with hc | hc
    · exact h r hr c hc htable v hv
    · obtain rfl := List.mem_singleton.mp hc
      rw [hlinked.get?_of_new hr hnew] at hv
      cases hv
  | ingested _ hingested =>
    rw [hingested.eq] at hkeyed' ⊢
    intro r hr c hc htable v hv
    rcases hingested.rows.mem_iff hr with hold | ⟨_, hconform⟩
    · exact h r hold c hc htable v hv
    · exact hkeyed.admits_of_conform hconform hc hv
  | cell now hold hcolumn hcells => exact h.write hkeyed now hold hcolumn hcells
  | rowErased id => exact fun r hr => h r (List.mem_filter.mp hr).1
  | tableDropped id =>
    exact fun r hr c hc => h r (List.mem_filter.mp hr).1 c (List.mem_filter.mp hc).1

theorem IsTyped.changes (h : db.IsTyped) (hlinked : db.IsLinked) (hkeyed : db.IsKeyed)
    (hchanges : Changes db db') : db'.IsTyped :=
  (keeps_of_changes hchanges h hlinked hkeyed fun hlinked hkeyed htyped hchange =>
    htyped.change hlinked hkeyed hchange).1

theorem IsTyped.withoutColumn (h : db.IsTyped) (hkeyed : db.IsKeyed) (hc : c ∈ db.columns) :
    (db.withoutColumn now c).IsTyped := by
  intro r' hr' d hd htable v hv
  obtain ⟨hd, hne⟩ := List.mem_filter.mp hd
  obtain ⟨r, hr, _, ht, _, hkept⟩ := mem_removeKey (hkeyed.plain c hc) hr'
  rw [hkept d.id (.inl (by simpa using hne))] at hv
  exact h r hr d hd (htable.trans ht) v hv

/-! ## A column that is changed -/

/-- Rows of which only the cells of one column may have changed. -/
def OnlyUnder (c : Column) (rows rows' : Rows) : Prop :=
  ∀ r' ∈ rows', ∃ r ∈ rows, r'.table = r.table ∧ ∀ other, other ≠ c.id ∨ r.table ≠ c.table →
    r'.payload.cells.get? other = r.payload.cells.get? other

theorem onlyUnder_refl (c : Column) (rows : Rows) : OnlyUnder c rows rows :=
  fun r hr => ⟨r, hr, rfl, fun _ _ => rfl⟩

theorem onlyUnder_of_rowsRetyped {rows rows' : Rows}
    (h : Workspace.RowsRetyped c.table c.id rows rows') : OnlyUnder c rows rows' := by
  intro r' hr'
  obtain ⟨r, hr, hrow⟩ := h.exists_old hr'
  refine ⟨r, hr, ?_⟩
  split at hrow
  · rename_i ht
    exact ⟨hrow.table, fun other hother => hrow.others other (hother.resolve_right fun h => h ht)⟩
  · subst hrow
    exact ⟨rfl, fun _ _ => rfl⟩

/-- Only the cells of the column matter. -/
theorem IsTyped.withColumn_iff (h : db.IsTyped) (hc : c ∈ db.columns)
    (hid : c'.id = c.id) (htable : c'.table = c.table) {rows' : Rows}
    (hrows : OnlyUnder c db.rows rows') :
    ((db.withRows rows').withColumn c').IsTyped ↔
      ∀ r ∈ rows', r.table = c.table → ∀ v, r.payload.cells.get? c.id = some v →
        c'.type.Admits v := by
  constructor
  · intro htyped r hr ht v hv
    refine htyped r hr c' (List.mem_map.mpr ⟨c, hc, if_pos (beq_iff_eq.mpr hid.symm)⟩) ?_ v ?_
    · rw [htable, ht]
    · rwa [hid]
  · intro hcells r' hr' d' hd' ht v hv
    obtain ⟨d, hd, rfl⟩ := List.mem_map.mp hd'
    split at ht <;> rename_i hdid
    · rw [if_pos hdid, hid] at hv
      rw [if_pos hdid]
      exact hcells r' hr' (ht.symm.trans htable) v hv
    · rw [if_neg hdid] at hv ⊢
      have hne : d.id ≠ c.id := fun h => hdid (beq_iff_eq.mpr (h.trans hid.symm))
      obtain ⟨r, hr, hrt, hkept⟩ := hrows r' hr'
      rw [hkept d.id (.inl hne)] at hv
      exact h r hr d hd (ht.trans hrt) v hv

/-- A record that is written as it is changes nothing. -/
theorem IsKeyed.withColumn_self (h : db.IsKeyed) (hc : c ∈ db.columns) : db.withColumn c = db := by
  have hmap : (db.columns.map fun d => if d.id == c.id then c else d) = db.columns := by
    refine (List.map_congr_left fun d hd => ?_).trans (List.map_id' db.columns)
    split
    · rename_i hid
      exact h.column_eq hc hd (beq_iff_eq.mp hid).symm
    · rfl
  rw [withColumn, hmap]

end Database

namespace ColumnType

variable {v old : Value}

/-- What belongs under columns of either type is nothing. -/
theorem admits_text_iff_of_number (h : number.Admits v) : text.Admits v ↔ v = .null := by
  cases v with
  | null => exact ⟨fun _ => rfl, fun _ => trivial⟩
  | int | float => exact ⟨fun h => h.elim, nofun⟩
  | _ => exact h.elim

/-- A cell of a text column that becomes a number belongs there no more, unless it is empty. -/
theorem admits_text_iff_of_coerce (hold : text.Admits old) (h : number.coerce old = .ok v) :
    text.Admits v ↔ ∀ s, old = .text s → s = "" := by
  cases old with
  | null =>
    obtain rfl := Except.ok.inj h
    exact ⟨fun _ s hs => (nomatch hs), fun _ => trivial⟩
  | text s =>
    rw [admits_text_iff_of_number (admits_of_coerce h)]
    rcases coerce_number_text_iff.mp h with ⟨hs, rfl⟩ | ⟨hs, x, -, rfl⟩
    · exact ⟨fun _ s' hs' => Value.text.inj hs' ▸ hs, fun _ => rfl⟩
    · refine ⟨fun hnull => ?_, fun hall => absurd (hall s rfl) hs⟩
      rw [storedNumber] at hnull
      split at hnull <;> cases hnull
  | _ => exact hold.elim

end ColumnType

/-! ## Calls that leave values behind -/

namespace Workspace

/-- A call that is to change a column leaves values under another type than theirs : it makes a
number column with some value a text column; or it makes the cells of a text column numbers, one
of which was a text that is not empty, and then the record is refused. -/
def Strands (name type order : Value) (c : Column) (rows : Rows) : Prop :=
  (c.type = .number ∧ (∃ c', Catalog.editedColumn name type order c = .ok c' ∧ c'.type = .text) ∧
    ∃ r ∈ rows, r.table = c.table ∧ ∃ v, r.payload.cells.get? c.id = some v ∧ v ≠ .null) ∨
  (Converts type c ∧ (∃ why, Catalog.editedColumn name type order c = .error why) ∧
    (∀ r ∈ rows, r.table = c.table → HasNumber c.id r) ∧
    ∃ r ∈ rows, r.table = c.table ∧ ∃ s, r.payload.cells.get? c.id = some (.text s) ∧ s ≠ "")

end Workspace

/-- The operation leaves a value under another type than its own. -/
def Operation.Strands (db : Database) : Operation → Prop
  | updateColumn actor id name type order => ∃ c, Catalog.ownColumn actor id db = .ok c ∧
      Workspace.Strands name type order c db.rows
  | _ => False

theorem Operation.not_strands_of_keeps {op : Operation} {db : Database} (h : ¬ op.AltersColumn) :
    ¬ op.Strands db := by
  cases op with
  | updateColumn => exact absurd trivial h
  | _ => exact id

namespace Workspace

variable {now : Moment} {actor id : String} {name type order : Value} {db db' : Database}
  {c c' : Column} {r : Except Failure Column} {rows rows' : Rows}

theorem strands_iff_of_edited (h : Catalog.editedColumn name type order c = .ok c')
    (hkeeps : ¬ Converts type c) : Strands name type order c rows ↔
      c.type = .number ∧ c'.type = .text ∧
        ∃ r ∈ rows, r.table = c.table ∧ ∃ v, r.payload.cells.get? c.id = some v ∧ v ≠ .null := by
  constructor
  · rintro (⟨hnumber, ⟨d, hd, htext⟩, hheld⟩ | ⟨hconverts, _⟩)
    · obtain rfl := Except.ok.inj (h.symm.trans hd)
      exact ⟨hnumber, htext, hheld⟩
    · exact absurd hconverts hkeeps
  · exact fun ⟨hnumber, htext, hheld⟩ => .inl ⟨hnumber, ⟨c', h, htext⟩, hheld⟩

theorem strands_iff_of_converts (hconverts : Converts type c) : Strands name type order c rows ↔
    (∃ why, Catalog.editedColumn name type order c = .error why) ∧
      (∀ r ∈ rows, r.table = c.table → HasNumber c.id r) ∧
      ∃ r ∈ rows, r.table = c.table ∧ ∃ s, r.payload.cells.get? c.id = some (.text s) ∧ s ≠ "" := by
  refine ⟨fun h => ?_, fun h => .inr ⟨hconverts, h⟩⟩
  rcases h with ⟨hnumber, _⟩ | ⟨_, h⟩
  · rw [hconverts.1] at hnumber
    cases hnumber
  · exact h

/-- A cell that was converted. -/
theorem RowsRetyped.exists_coerce (h : RowsRetyped c.table c.id rows rows') {r' : Row}
    (hr' : r' ∈ rows') (ht : r'.table = c.table) {v : Value}
    (hv : r'.payload.cells.get? c.id = some v) :
    ∃ r ∈ rows, r.table = c.table ∧ ∃ old, r.payload.cells.get? c.id = some old ∧
      ColumnType.coerce .number old = .ok v := by
  obtain ⟨r, hr, hrow⟩ := h.exists_old hr'
  split at hrow
  · rename_i hrt
    have hkey := Cells.exists_get?.mp ⟨v, hv⟩
    rw [hrow.keys] at hkey
    obtain ⟨old, hold⟩ := Cells.exists_get?.mpr hkey
    obtain ⟨v', hv', hcell⟩ := hrow.cell old hold
    obtain rfl := Option.some.inj (hv.symm.trans hcell)
    exact ⟨r, hr, hrt, old, hold, hv'⟩
  · rename_i hne
    exact absurd (hrow ▸ ht) hne

/-- Once the cells are converted the column may remain a text column only if all are empty. -/
theorem RowsRetyped.admits_text_iff (h : RowsRetyped c.table c.id rows rows')
    (htexts : ∀ r ∈ rows, r.table = c.table → ∀ v, r.payload.cells.get? c.id = some v →
      ColumnType.text.Admits v) :
    (∀ r ∈ rows', r.table = c.table → ∀ v, r.payload.cells.get? c.id = some v →
        ColumnType.text.Admits v) ↔
      ¬ ∃ r ∈ rows, r.table = c.table ∧
        ∃ s, r.payload.cells.get? c.id = some (.text s) ∧ s ≠ "" := by
  constructor
  · rintro hall ⟨r, hr, ht, s, hs, hne⟩
    obtain ⟨r', hr', hrow⟩ := h.exists_new hr
    rw [if_pos ht] at hrow
    obtain ⟨v, hv, hcell⟩ := hrow.cell _ hs
    have hadmits := hall r' hr' (hrow.table.trans ht) v hcell
    exact hne ((ColumnType.admits_text_iff_of_coerce (htexts r hr ht _ hs) hv).mp hadmits s rfl)
  · intro hnone r' hr' ht v hv
    obtain ⟨r, hr, hrt, old, hold, hcoerce⟩ := h.exists_coerce hr' ht hv
    refine (ColumnType.admits_text_iff_of_coerce (htexts r hr hrt _ hold) hcoerce).mpr ?_
    rintro s rfl
    by_contra hne
    exact hnone ⟨r, hr, hrt, s, hold, hne⟩

theorem isTyped_edited_iff (htyped : db.IsTyped) (hc : c ∈ db.columns) (hkeeps : ¬ Converts type c)
    (h : Catalog.editedColumn name type order c = .ok c') :
    (db.withColumn c').IsTyped ↔ ¬ Strands name type order c db.rows := by
  obtain ⟨hid, htable, _⟩ := Catalog.fields_of_editedColumn h
  rw [strands_iff_of_edited h hkeeps]
  refine (htyped.withColumn_iff hc hid htable (onlyUnder_refl c db.rows)).trans ?_
  rcases types_of_editedColumn hkeeps h with hsame | ⟨hnumber, htext⟩
  · rw [hsame]
    refine iff_of_true (fun r hr ht => htyped r hr c hc ht.symm) ?_
    rintro ⟨hnumber, htext, _⟩
    rw [hnumber] at htext
    cases htext
  · have hvalues : ∀ r ∈ db.rows, r.table = c.table → ∀ v, r.payload.cells.get? c.id = some v →
        (c'.type.Admits v ↔ v = .null) := fun r hr ht v hv => by
      rw [htext]
      exact ColumnType.admits_text_iff_of_number (hnumber ▸ htyped r hr c hc ht.symm v hv)
    constructor
    · rintro hall ⟨_, _, r, hr, ht, v, hv, hne⟩
      exact hne ((hvalues r hr ht v hv).mp (hall r hr ht v hv))
    · intro hnone r hr ht v hv
      refine (hvalues r hr ht v hv).mpr ?_
      by_contra hne
      exact hnone ⟨hnumber, htext, r, hr, ht, v, hv, hne⟩

/-- What is no type converts nothing, and no record is written with it. -/
theorem not_strands_of_unread {why : Failure} (hnull : type.isNull = false)
    (h : ColumnType.parse type = .error why) : ¬ Strands name type order c rows := by
  rintro (⟨_, ⟨c', hedit, _⟩, _⟩ | ⟨hconverts, _⟩)
  · obtain ⟨_, _, _, ⟨_, hnull'⟩ | hparse⟩ := Catalog.fields_of_editedColumn hedit
    · exact Bool.false_ne_true (hnull.symm.trans hnull')
    · rw [h] at hparse
      cases hparse
  · rw [hconverts.2] at h
    cases h

theorem not_strands_of_rejected {why : Failure} (hkeeps : ¬ Converts type c)
    (h : Catalog.editedColumn name type order c = .error why) :
    ¬ Strands name type order c rows := by
  rintro (⟨_, ⟨c', hedit, _⟩, _⟩ | ⟨hconverts, _⟩)
  · rw [h] at hedit
    cases hedit
  · exact hkeeps hconverts

/-- Cells that are converted under a record that stays. -/
theorem isTyped_retypedRows_iff (htyped : db.IsTyped) (hkeyed : db.IsKeyed) (hc : c ∈ db.columns)
    (htext : c.type = .text)
    (hretyped : RowsRetyped c.table c.id db.rows (retypedRows now c.table c.id db.rows)) :
    (db.withRows (retypedRows now c.table c.id db.rows)).IsTyped ↔
      ¬ ∃ r ∈ db.rows, r.table = c.table ∧
        ∃ s, r.payload.cells.get? c.id = some (.text s) ∧ s ≠ "" := by
  -- To keep a record is to write it as it was, so this is a change of the column like the others.
  have hself := (hkeyed.renew (renews_retypedRows now c.table c.id)).withColumn_self hc
  rw [← hself, htyped.withColumn_iff hc rfl rfl (onlyUnder_of_rowsRetyped hretyped), htext]
  exact hretyped.admits_text_iff fun r hr ht => htext ▸ htyped r hr c hc ht.symm

/-- Every cell still belongs under its column unless the call leaves values behind. -/
theorem Updates.isTyped_iff (h : Updates now actor id name type order db r db')
    (htyped : db.IsTyped) (hkeyed : db.IsKeyed) :
    db'.IsTyped ↔ ¬ (Operation.updateColumn actor id name type order).Strands db := by
  have hstrands : ∀ {c : Column}, Catalog.ownColumn actor id db = .ok c →
      ((Operation.updateColumn actor id name type order).Strands db ↔
        Strands name type order c db.rows) := fun hown =>
    ⟨fun ⟨_, hown', h⟩ => Except.ok.inj (hown'.symm.trans hown) ▸ h, fun h => ⟨_, hown, h⟩⟩
  cases h with
  | absent h =>
    refine iff_of_true htyped fun ⟨c, hown, _⟩ => ?_
    rw [h] at hown
    cases hown
  | unread hown hnull h =>
    rw [hstrands hown]
    exact iff_of_true htyped (not_strands_of_unread hnull h)
  | rejected hown hkeeps h =>
    rw [hstrands hown]
    exact iff_of_true htyped (not_strands_of_rejected hkeeps h)
  | edited hown hkeeps h =>
    rw [hstrands hown]
    exact isTyped_edited_iff htyped (Catalog.mem_of_ownColumn hown).1 hkeeps h
  | stuck hown hconverts h =>
    obtain ⟨_, rfl⟩ := Catalog.mem_of_ownColumn hown
    rw [hstrands hown, strands_iff_of_converts hconverts]
    refine iff_of_true htyped fun ⟨_, hnumbers, _⟩ => ?_
    rw [retypeFailure_byPosition_iff.mpr hnumbers] at h
    cases h
  | halfDone hown hconverts hrows h =>
    obtain ⟨hc, rfl⟩ := Catalog.mem_of_ownColumn hown
    have hnumbers := retypeFailure_byPosition_iff.mp hrows
    rw [hstrands hown, strands_iff_of_converts hconverts,
      isTyped_retypedRows_iff htyped hkeyed hc hconverts.1 (rowsRetyped_retypedRows now hnumbers)]
    exact not_congr ⟨fun hheld => ⟨⟨_, h⟩, hnumbers, hheld⟩, fun h => h.2.2⟩
  | retyped hown hconverts hrows h =>
    obtain ⟨hc, rfl⟩ := Catalog.mem_of_ownColumn hown
    obtain ⟨hid, htable, _⟩ := Catalog.fields_of_editedColumn h
    have hretyped := rowsRetyped_retypedRows now (retypeFailure_byPosition_iff.mp hrows)
    rw [hstrands hown, strands_iff_of_converts hconverts]
    refine iff_of_true ?_ fun ⟨⟨why, herror⟩, _⟩ => by rw [h] at herror; cases herror
    refine (htyped.withColumn_iff hc hid htable (onlyUnder_of_rowsRetyped hretyped)).mpr ?_
    intro r' hr' ht v hv
    obtain ⟨_, _, _, _, _, hcoerce⟩ := hretyped.exists_coerce hr' ht hv
    rw [type_of_converts hconverts h]
    exact ColumnType.admits_of_coerce hcoerce

end Workspace

/-- A step keeps every cell under its type unless it leaves values behind. -/
theorem isTyped_iff_of_steps {now : Moment} {op : Operation} {db db' : Database}
    (h : op.Steps now db db') (htyped : db.IsTyped) (hlinked : db.IsLinked) (hkeyed : db.IsKeyed) :
    db'.IsTyped ↔ ¬ op.Strands db := by
  cases h with
  | changes hkeeps h =>
    exact iff_of_true (htyped.changes hlinked hkeyed h) (Operation.not_strands_of_keeps hkeeps)
  | missed => exact iff_of_true htyped id
  | deleted hown =>
    exact iff_of_true (htyped.withoutColumn hkeyed (Catalog.mem_of_ownColumn hown).1) id
  | updated h => exact h.isTyped_iff htyped hkeyed

theorem isTyped_of_reached {w : World} (h : Reached (fun op db => ¬ op.Strands db) w) :
    ∃ db, w.storage = .ready db ∧ db.IsTyped ∧ db.IsLinked ∧ db.IsKeyed :=
  h.induct_linked isTyped_empty
    (fun hlinked hkeyed htyped hchange => htyped.change hlinked hkeyed hchange)
    (fun _ hkeyed htyped _ hown => htyped.withoutColumn hkeyed
      (Catalog.mem_of_ownColumn hown).1)
    fun _ hkeyed htyped hkeeps hupdates => (hupdates.isTyped_iff htyped hkeyed).mpr hkeeps

/-! ## A number under a text column -/

/-- The call that makes the column of a number a text column. -/
def toText (id : String) : Operation := .updateColumn "u" id .null (.text "TEXT") .null

/-- A number column comes about without a column being altered. -/
theorem exists_numberColumn {allowed : Operation → Database → Prop}
    (hallowed : ∀ op db, ¬ op.AltersColumn → allowed op db) :
    ∃ w db c t, Reached allowed w ∧ w.storage = .ready db ∧ c ∈ db.columns ∧ c.type = .number ∧
      c.order = 0 ∧ Catalog.ownedTable "u" c.table db = .ok t ∧
      ∃ r ∈ db.rows, r.table = c.table ∧ Source.AllStorable r.payload.cells := by
  obtain ⟨w, db, t, h, hw, hnew⟩ := exists_isNew hallowed
  obtain ⟨s, hs⟩ := exists_isFresh w
  have hname : Catalog.columnNameOf (.text "A") = .ok "A" := by
    have hblank : Text.isBlankText "A" = false := by decide +kernel
    have htrim : Text.trim "A" = "A" := by decide +kernel
    simp [Catalog.columnNameOf, Value.plainText, hblank, htrim]
  obtain ⟨_, w', c, hrun, hw', htable, htype, horder, _⟩ := Workspace.exists_addColumn
    (s := s) hw hnew.owned (by decide : (Value.text "A").truthy = true) hname
    (ColumnType.parse_label .number) (by rfl : (Value.int 0).isNull = false) (by rfl) (by rfl)
  obtain ⟨r, hr⟩ := List.exists_mem_of_ne_nil _ hnew.rows.1
  exact ⟨w', _, c, t, h.run hw hs (.addColumn "u" t.id (.text "A") (.text ColumnType.number.label)
      (.int 0)) trivial (hallowed _ _ id) rfl hrun, hw',
    List.mem_append_right _ (List.mem_singleton_self c), htype, horder, htable ▸ hnew.owned, r, hr,
    (hnew.rows.2 r hr).1.trans htable.symm, (hnew.rows.2 r hr).2⟩

/-- A call that leaves a number behind can come about with no column altered before. -/
theorem exists_strands {allowed : Operation → Database → Prop}
    (hallowed : ∀ op db, ¬ op.AltersColumn → allowed op db) :
    ∃ w db id, Reached allowed w ∧ w.storage = .ready db ∧
      (toText id).Strands db := by
  obtain ⟨w, db, c, t, h, hw, hc, htype, horder, hown, r, hr, hrt, hstorable⟩ :=
    exists_numberColumn hallowed
  obtain ⟨db', hdb', _, hkeyed⟩ := isLinked_of_reached h
  obtain rfl := Storage.ready.inj (hdb'.symm.trans hw)
  have hcell : Workspace.coerceCell (Catalog.typesOf r.table db') (.text c.id) (.int 5) =
      .ok (c.id, .int 5) := by
    rw [Workspace.coerceCell, hkeyed.lookup_typesOf.mpr ⟨c, hc, hrt.symm, rfl, htype⟩]
    rfl
  obtain ⟨s, hs⟩ := exists_isFresh w
  obtain ⟨_, w', kept, hrun, hw', x, hx, hfive⟩ := Workspace.exists_updateCell (s := s) hw
    (hkeyed.findRow_eq hr) (hrt ▸ hown) hcell hstorable
  have hedit : Catalog.editedColumn .null (.text "TEXT") .null c =
      .ok { c with type := .text } := by
    have hparse : ColumnType.parse (.text "TEXT") = .ok .text := ColumnType.parse_label .text
    have hfits : Ledger.storable c.order = .ok c.order := by
      rw [horder]
      rfl
    simp [Catalog.editedColumn_eq, Value.isNull, hparse, hfits, bind, Except.bind, pure,
      Except.pure]
  have hown' : Catalog.ownColumn "u" c.id (db'.withRows (Rows.write s.now r.id kept db'.rows)) =
      .ok c := hkeyed.ownColumn_eq hc hown
  refine ⟨w', _, c.id, h.run hw hs (.updateCell "u" r.id (.text c.id) (.int 5)) trivial
    (hallowed _ _ id) rfl hrun, hw', c, hown', .inl ⟨htype, ⟨_, hedit, rfl⟩, ?_⟩⟩
  refine ⟨_, List.mem_map_of_mem hr, ?_⟩
  simp only [beq_self_eq_true, if_true]
  refine ⟨hrt, x, hx, ?_⟩
  rintro rfl
  rcases hfive with hfive | hfive <;> cases hfive

/-- Types of cells. As long as no call leaves values behind, every cell holds a value that belongs
under its column, whatever comes about; and a call that does leaves some cell that does not. -/
theorem isTyped_iff_of_reached {w : World} (h : Reached (fun op db => ¬ op.Strands db) w) :
    ∃ db, w.storage = .ready db ∧ db.IsTyped ∧
      ∀ (settings : Workspace.Settings) (s : Surroundings) (op : Operation), s.IsFresh w →
        op.IsSound → ∃ db', (op.perform settings s w).2.storage = .ready db' ∧
          (db'.IsTyped ↔ ¬ op.Strands db) := by
  obtain ⟨db, hw, htyped, hlinked, hkeyed⟩ := isTyped_of_reached h
  refine ⟨db, hw, htyped, fun settings s op hfresh hsound => ?_⟩
  obtain ⟨db', hdb', hsteps⟩ := Operation.steps_perform settings hw hfresh hsound
  exact ⟨db', hdb', isTyped_iff_of_steps hsteps htyped hlinked hkeyed⟩

/-- A number belongs under its column until this is made a text column. -/
theorem isTyped_iff_of_toText : ∃ w db id s db', Reached (fun op db => ¬ op.Strands db) w ∧
    w.storage = .ready db ∧ db.IsTyped ∧ (toText id).Strands db ∧
      ((toText id).perform ⟨.null, 1⟩ s w).2.storage = .ready db' ∧ ¬ db'.IsTyped := by
  obtain ⟨w, db, id, h, hw, hstrands⟩ := @exists_strands (fun op db => ¬ op.Strands db)
    fun _ _ => Operation.not_strands_of_keeps
  obtain ⟨s, hs⟩ := exists_isFresh w
  obtain ⟨db₀, hw₀, htyped, hstep⟩ := isTyped_iff_of_reached h
  obtain rfl := Storage.ready.inj (hw₀.symm.trans hw)
  obtain ⟨db', hdb', hiff⟩ := hstep ⟨.null, 1⟩ s (toText id) hs trivial
  exact ⟨w, db₀, id, s, db', h, hw, htyped, hstrands, hdb', fun h => hiff.mp h hstrands⟩

/-- So a value may be found under a column of another type. -/
theorem exists_not_isTyped : ∃ w db, Reached (fun _ _ => True) w ∧ w.storage = .ready db ∧
    ¬ db.IsTyped := by
  obtain ⟨w, db, id, h, hw, hstrands⟩ := @exists_strands (fun op db => ¬ op.Strands db)
    fun _ _ => Operation.not_strands_of_keeps
  obtain ⟨s, hs⟩ := exists_isFresh w
  have hsound : (toText id).IsSound := trivial
  obtain ⟨db', hdb', hsteps⟩ := Operation.steps_perform ⟨.null, 1⟩ hw hs hsound
  obtain ⟨db₀, hw₀, htyped, hlinked, hkeyed⟩ := isTyped_of_reached h
  obtain rfl := Storage.ready.inj (hw₀.symm.trans hw)
  refine ⟨_, db', (h.mono fun _ _ _ => trivial).perform hw ⟨.null, 1⟩ hs hsound trivial, hdb', ?_⟩
  exact fun htyped' => (isTyped_iff_of_steps hsteps htyped hlinked hkeyed).mp htyped' hstrands

end Tabula
