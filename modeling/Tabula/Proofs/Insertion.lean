import Tabula.Proofs.LooseIds
import Tabula.Proofs.OwnTables
import Tabula.Workspace.Conditions

/-!
# Insertions

Rows are inserted in chunks, each with a stamp of its own. The rows that an insertion offers to the
store are one list (`Rows.Stamped`) : they hold the cells that were given in their order, their
positions follow each other over the ends of chunks, and their ids are distinct, since in one chunk
the places differ and in different chunks the stamps do. The store leaves out those whose ids are
taken (`Rows.join`).

`Conditions.goesOn_of_not_fails` goes along the chunks that are stored, by induction on their
number; from there an insertion is done (`run_insertChunks_of_all`), or the next chunk fails and
leaves nothing (`run_insertChunks_of_stopsAt`).
-/

namespace Tabula

open Store Tabula.Action

namespace Batch

/-- The payloads of a batch are the rows that are given, in their order. -/
theorem payloads_of_encodeFrom {idOf : Nat → String} {batch start : Int} :
    ∀ {rows : List Cells} {row : Nat} {es : Batch},
      encodeFrom idOf batch start row (rows.map Value.object) = .ok es →
        es.map Entry.payload = rows.map fun cells => ⟨cells, .compact⟩
  | [], row, es, h => by
    obtain rfl := Except.ok.inj h
    rfl
  | cells :: rows, row, es, h => by
    rw [List.map_cons, encodeFrom] at h
    rcases hcells : encodeRow batch row (.object cells) with _ | payload
    · simp [hcells] at h
    · rcases hrest : encodeFrom idOf batch start (row + 1) (rows.map Value.object) with _ | rest
      · simp [hcells, hrest] at h
      · simp only [hcells, hrest, Except.ok.injEq] at h
        subst h
        obtain ⟨cells', heq, _, rfl⟩ := encodeRow_eq_ok_iff.mp hcells
        obtain rfl := Value.object_injective heq
        rw [List.map_cons, List.map_cons, payloads_of_encodeFrom hrest]

end Batch

/-! ## Rows that are offered -/

namespace Store.Rows

/-- Those of some rows whose ids are not taken. -/
def novel (rows new : Rows) : Rows := new.filter fun r => !rows.has r.id

/-- The rows with others behind them, as far as their ids are not taken. -/
def join (rows new : Rows) : Rows := rows ++ rows.novel new

/-- Rows of a table in consecutive positions, which hold some cells, under distinct loose ids with
stamps after one and up to another. -/
structure Stamped (after upTo : Int) (table : String) (start : Int) (rows : List Cells)
    (new : Rows) : Prop where
  le : after ≤ upTo
  tables : ∀ r ∈ new, r.table = table
  payloads : new.map Row.payload = rows.map fun cells => ⟨cells, .compact⟩
  positions : new.map Row.position = (List.range rows.length).map fun i => start + (i : Nat)
  nodup : (new.map Row.id).Nodup
  ids : ∀ r ∈ new, ∃ stamp batch row ending, after < stamp ∧ stamp ≤ upTo ∧
    r.id = Batch.looseRowId stamp batch row ending

variable {after middle upTo start : Int} {table : String} {cells cells' : List Cells}
  {rows new new' : Rows}

theorem stamped_nil (h : after ≤ upTo) (table : String) (start : Int) :
    Stamped after upTo table start [] [] :=
  ⟨h, List.forall_mem_nil _, rfl, rfl, List.nodup_nil, List.forall_mem_nil _⟩

theorem Stamped.looseIds (h : Stamped after upTo table start cells new) :
    Batch.LooseIds after upTo (new.map Row.id) :=
  ⟨h.le, h.nodup, fun _ hid => by
    obtain ⟨r, hr, rfl⟩ := List.mem_map.mp hid
    exact h.ids r hr⟩

theorem Stamped.length_eq (h : Stamped after upTo table start cells new) :
    new.length = cells.length := by
  simpa using congrArg List.length h.payloads

theorem Stamped.mono {after' upTo' : Int} (h : Stamped after upTo table start cells new)
    (hafter : after' ≤ after) (hupTo : upTo ≤ upTo') :
    Stamped after' upTo' table start cells new :=
  { h with
    le := hafter.trans (h.le.trans hupTo)
    ids := fun r hr => by
      obtain ⟨stamp, batch, row, ending, hlt, hle, hid⟩ := h.ids r hr
      exact ⟨stamp, batch, row, ending, lt_of_le_of_lt hafter hlt, hle.trans hupTo, hid⟩ }

/-- Stamps of the later rows are not among those of the earlier ones. -/
theorem Stamped.append (h : Stamped after middle table start cells new)
    (h' : Stamped middle upTo table (start + cells.length) cells' new') :
    Stamped after upTo table start (cells ++ cells') (new ++ new') where
  le := h.le.trans h'.le
  tables := List.forall_mem_append.mpr ⟨h.tables, h'.tables⟩
  payloads := by rw [List.map_append, List.map_append, h.payloads, h'.payloads]
  positions := by
    rw [List.map_append, h.positions, h'.positions, List.length_append, List.range_add,
      List.map_append, List.map_map]
    refine congrArg _ (List.map_congr_left fun i _ => ?_)
    rw [Function.comp_apply]
    omega
  nodup := by
    rw [List.map_append]
    exact (h.looseIds.append h'.looseIds).nodup
  ids := List.forall_mem_append.mpr
    ⟨(h.mono le_rfl h'.le).ids, (h'.mono h.le le_rfl).ids⟩

theorem join_nil (rows : Rows) : rows.join [] = rows := List.append_nil rows

/-- Rows that are offered one after the other are offered together. -/
theorem novel_append (h : ((new ++ new').map Row.id).Nodup) :
    rows.novel (new ++ new') = rows.novel new ++ (rows.join new).novel new' := by
  rw [novel, novel, novel, List.filter_append]
  refine congrArg _ (List.filter_congr fun r' hr' => ?_)
  have hnot : has (rows.novel new) r'.id = false := by
    rw [Bool.eq_false_iff]
    intro hhas
    obtain ⟨r, hr, hid⟩ := has_iff.mp hhas
    rw [List.map_append, List.nodup_append] at h
    exact h.2.2 _ (List.mem_map_of_mem (List.mem_filter.mp hr).1) _ (List.mem_map_of_mem hr') hid
  rw [join, has_append, hnot, Bool.or_false]

theorem join_join (h : ((new ++ new').map Row.id).Nodup) :
    (rows.join new).join new' = rows.join (new ++ new') := by
  rw [join, join, join, novel_append h, List.append_assoc, join]

/-- Where no id is taken, all are stored. -/
theorem novel_eq_self (h : ∀ r ∈ new, rows.has r.id = false) : rows.novel new = new :=
  List.filter_eq_self.mpr fun r hr => by rw [h r hr]; rfl

theorem foldl_max_mem : ∀ (ps : List Int) (p : Int), ps.foldl max p ∈ p :: ps
  | [], p => List.mem_singleton_self p
  | q :: ps, p => by
    have ih := foldl_max_mem ps (max p q)
    rcases List.mem_cons.mp ih with h | h
    · rw [List.foldl_cons, h]
      rcases max_choice p q with h | h <;> simp [h]
    · exact List.mem_cons_of_mem _ (List.mem_cons_of_mem _ h)

theorem le_foldl_max : ∀ (ps : List Int) (p : Int), ∀ q ∈ p :: ps, q ≤ ps.foldl max p
  | [], p, q, h => (List.mem_singleton.mp h).le
  | q' :: ps, p, q, h => by
    have ih := le_foldl_max ps (max p q')
    rcases List.mem_cons.mp h with rfl | h
    · exact (le_max_left q q').trans (ih _ List.mem_cons_self)
    · rcases List.mem_cons.mp h with rfl | h
      · exact (le_max_right p q).trans (ih _ List.mem_cons_self)
      · exact ih q (List.mem_cons_of_mem _ h)

/-- The next position is behind every row of the table. -/
theorem lt_nextPosition {r : Row} (hr : r ∈ rows) (ht : r.table = table) :
    r.position < rows.nextPosition table := by
  have hmem : r.position ∈ (rows.ofTable table).map Row.position :=
    List.mem_map_of_mem (List.mem_filter.mpr ⟨hr, beq_iff_eq.mpr ht⟩)
  rw [nextPosition]
  rcases hps : (rows.ofTable table).map Row.position with _ | ⟨p, ps⟩
  · rw [hps] at hmem
    cases hmem
  · rw [hps] at hmem
    exact Int.lt_add_one_of_le (le_foldl_max ps p _ hmem)

/-- It is the first one, or comes right behind a row of the table. -/
theorem nextPosition_cases (table : String) (rows : Rows) : rows.nextPosition table = 0 ∨
    ∃ r ∈ rows, r.table = table ∧ rows.nextPosition table = r.position + 1 := by
  rw [nextPosition]
  rcases hps : (rows.ofTable table).map Row.position with _ | ⟨p, ps⟩
  · exact .inl rfl
  · have hmem := foldl_max_mem ps p
    rw [← hps] at hmem
    obtain ⟨r, hr, hposition⟩ := List.mem_map.mp hmem
    obtain ⟨hr, ht⟩ := List.mem_filter.mp hr
    exact .inr ⟨r, hr, beq_iff_eq.mp ht, by rw [hposition]⟩

theorem novel_map_ofEntry (now : Moment) (table : String) (es : Batch) :
    rows.novel (es.map (Row.ofEntry now table)) =
      (fresh rows es).map (Row.ofEntry now table) := by
  rw [novel, fresh, List.filter_map]
  rfl

end Store.Rows

open Rows

namespace Workspace

variable {s : Surroundings} {w w' : World} {batch start : Int} {rows : List Cells} {es : Batch}

/-- A loose batch has its rows in their order, with a stamp of its own. -/
theorem stamped_of_looseBatch
    (h : looseBatch batch start (rows.map .object) s w = (.ok es, w')) (now : Moment)
    (table : String) :
    Stamped w.lastStamp w'.lastStamp table start rows (es.map (Row.ofEntry now table)) := by
  have hids := looseIds_of_looseBatch h
  obtain ⟨stamp, w₁, _, h⟩ := ok_of_run_bind h
  obtain ⟨endings, w₂, _, h⟩ := ok_of_run_bind h
  obtain ⟨hencode, rfl⟩ := Prod.mk.inj h
  have hpositions := congrArg (List.map Prod.snd) (Batch.key_of_encode hencode)
  rw [List.length_map, List.map_map, List.map_map] at hpositions
  refine ⟨hids.le, ?_, ?_, ?_, ?_, ?_⟩
  · intro r hr
    obtain ⟨e, _, rfl⟩ := List.mem_map.mp hr
    rfl
  · rw [List.map_map]
    exact Batch.payloads_of_encodeFrom hencode
  · rw [List.map_map]
    exact hpositions
  · rw [List.map_map]
    exact hids.nodup
  · intro r hr
    obtain ⟨e, he, rfl⟩ := List.mem_map.mp hr
    exact hids.stamps e.id (List.mem_map_of_mem he)

end Workspace

/-! ## Pieces of a list -/

/-- A list in pieces of some size. -/
def pieces {α : Type} (size : Nat) (xs : List α) : List (List α) := chunksFrom size xs.length xs

section Pieces

variable {α : Type} {size : Nat}

/-- There is fuel enough if it is not less than what is left. -/
theorem chunksFrom_congr (hsize : 0 < size) {fuel fuel' : Nat} {xs : List α}
    (h : xs.length ≤ fuel) (h' : xs.length ≤ fuel') :
    chunksFrom size fuel xs = chunksFrom size fuel' xs := by
  induction fuel generalizing fuel' xs with
  | zero =>
    obtain rfl := List.eq_nil_of_length_eq_zero (Nat.le_zero.mp h)
    cases fuel' <;> rfl
  | succ fuel ih =>
    cases xs with
    | nil => cases fuel' <;> rfl
    | cons x xs =>
      cases fuel' with
      | zero => cases h'
      | succ fuel' =>
        have hrest : ((x :: xs).drop size).length ≤ xs.length := by
          rw [List.length_drop, List.length_cons]
          omega
        rw [chunksFrom, chunksFrom, ih (hrest.trans (Nat.le_of_succ_le_succ h))
          (hrest.trans (Nat.le_of_succ_le_succ h'))]
        all_goals exact List.cons_ne_nil x xs

theorem pieces_nil : pieces size ([] : List α) = [] := rfl

theorem pieces_eq_cons (hsize : 0 < size) {xs : List α} (h : xs ≠ []) :
    pieces size xs = xs.take size :: pieces size (xs.drop size) := by
  obtain ⟨x, xs, rfl⟩ := List.exists_cons_of_ne_nil h
  have hrest : ((x :: xs).drop size).length ≤ xs.length := by
    rw [List.length_drop, List.length_cons]
    omega
  rw [pieces, List.length_cons, chunksFrom, chunksFrom_congr hsize hrest le_rfl, pieces]
  exact h

theorem chunks?_eq_some {size : Int} (hsize : 1 ≤ size) (xs : List α) :
    chunks? size xs = some (pieces size.toNat xs) := by
  rw [chunks?, if_neg (by omega), if_neg (by omega), pieces]

end Pieces

/-! ## Chunks under conditions -/

namespace Conditions

variable {c : Conditions} {s : Surroundings} {w : World} {db : Database} {size length : Nat}
  {position : Int} {rows : List Cells}

/-- A chunk is there and fails : the store says so, or it cannot hold a position of the chunk. -/
def Fails (c : Conditions) (size length : Nat) (position : Int) (k : Nat) : Prop :=
  k * size < length ∧ ((c.detail k).isSome ∨
    ∃ i, k * size ≤ i ∧ i < (k + 1) * size ∧ i < length ∧ fitsInteger (position + (i : Nat)) = false)

/-- It is the first one that fails. -/
def StopsAt (c : Conditions) (size length : Nat) (position : Int) (k : Nat) : Prop :=
  c.Fails size length position k ∧ ∀ j < k, ¬ c.Fails size length position j

/-- What the chunk fails with. -/
def failure (c : Conditions) (k : Nat) : Failure :=
  match c.detail k with
  | some detail => .rowStore .append detail
  | none => .fault .integerTooLarge

/-- A chunk that does not fail is appended. -/
theorem exists_appendChunk (hw : w.storage = .ready db) (table : String) (position : Int)
    {k : Int} (hstorable : ∀ cells ∈ rows, Source.AllStorable cells) (hdetail : c.detail k = none)
    (hfits : ∀ i < rows.length, fitsInteger (position + (i : Nat)) = true) :
    ∃ new w', c.appendChunk table position k rows s w = (.ok (db.rows.novel new).length, w') ∧
      w'.storage = .ready (db.withRows (db.rows.join new)) ∧
      Stamped w.lastStamp w'.lastStamp table position rows new := by
  obtain ⟨es, w₁, hes⟩ :=
    Workspace.exists_looseBatch hstorable k position (c.surroundings k) w
  have hstamped := Workspace.stamped_of_looseBatch hes (c.surroundings k).now table
  have hw₁ : w₁.storage = .ready db :=
    ((Workspace.isQuiet_looseBatch _ _ _).storage_eq hes).trans hw
  have hall : (es.all fun e => fitsInteger e.position) = true :=
    (Workspace.fits_looseBatch_iff hes).mpr fun i hi => hfits i (by rwa [List.length_map] at hi)
  have hnodup : (es.map Entry.id).Nodup := by
    have := hstamped.nodup
    rwa [List.map_map] at this
  have hrun : c.appendChunk table position k rows s w =
      (.ok (db.rows.novel (es.map (Row.ofEntry (c.surroundings k).now table))).length,
        w₁.withDatabase (db.withRows (db.rows.join
          (es.map (Row.ofEntry (c.surroundings k).now table))))) := by
    rw [appendChunk, within, run_bind_ok hes, hdetail]
    dsimp only
    rw [RowStore.run_append hw₁, if_pos hall, Batch.firsts_eq_self hnodup, join, novel_map_ofEntry,
      List.length_map]
  exact ⟨_, _, hrun, rfl, hstamped⟩

/-- A chunk that fails leaves nothing but its stamp. -/
theorem exists_appendChunk_of_fails (hw : w.storage = .ready db) (table : String) (position : Int)
    {k : Nat} (hstorable : ∀ cells ∈ rows, Source.AllStorable cells)
    (hfails : (c.detail k).isSome ∨
      ∃ i < rows.length, fitsInteger (position + (i : Nat)) = false) :
    ∃ w', c.appendChunk table position k rows s w = (.error (c.failure k), w') ∧
      w'.storage = .ready db ∧ w.lastStamp ≤ w'.lastStamp := by
  obtain ⟨es, w₁, hes⟩ :=
    Workspace.exists_looseBatch hstorable k position (c.surroundings k) w
  have hw₁ : w₁.storage = .ready db :=
    ((Workspace.isQuiet_looseBatch _ _ _).storage_eq hes).trans hw
  refine ⟨w₁, ?_, hw₁, (Workspace.ages_looseBatch _ _ _).le_of_run hes⟩
  rw [appendChunk, within, run_bind_ok hes, failure]
  rcases hdetail : c.detail k with _ | detail
  · obtain ⟨i, hi, hfit⟩ := hfails.resolve_left (by simp [hdetail])
    have hnot : ¬ (es.all fun e => fitsInteger e.position) = true := fun hall =>
      Bool.false_ne_true (hfit.symm.trans
        ((Workspace.fits_looseBatch_iff hes).mp hall i (by rwa [List.length_map])))
    dsimp only
    rw [RowStore.run_append hw₁, if_neg hnot]
  · rfl

/-- What is answered after a number. -/
theorem run_add (n : Nat) (x : Action Nat) :
    (do return n + (← x) : Action Nat) s w = ((x s w).1.map (n + ·), (x s w).2) := by
  rw [run_bind]
  rcases x s w with ⟨why | m, w'⟩ <;> rfl

/-- The first chunks, so many of them, are appended, and the insertion goes on behind them. -/
def GoesOn (c : Conditions) (table : String) (size : Nat) (position : Int) (rows : List Cells)
    (s : Surroundings) (w : World) (db : Database) (k : Nat) : Prop :=
  ∃ new w₁, w₁.storage = .ready (db.withRows (db.rows.join new)) ∧
    Stamped w.lastStamp w₁.lastStamp table position (rows.take (k * size)) new ∧
    c.insertChunks table position 0 (pieces size rows) s w =
      (do return (db.rows.novel new).length + (← c.insertChunks table
        (position + (rows.take (k * size)).length) k (pieces size (rows.drop (k * size)))) :
          Action Nat) s w₁

theorem goesOn_zero (hw : w.storage = .ready db) (table : String) :
    c.GoesOn table size position rows s w db 0 := by
  refine ⟨[], w, ?_, ?_, ?_⟩
  · rw [join_nil]
    exact hw
  · rw [Nat.zero_mul]
    exact stamped_nil le_rfl table position
  · rw [run_add, Nat.zero_mul, List.drop_zero, List.take_zero, List.length_nil, Nat.cast_zero,
      Int.add_zero]
    rcases c.insertChunks table position 0 (pieces size rows) s w with ⟨why | n, w'⟩
    · rfl
    · simp [novel, Except.map]

/-- Whether a chunk that is there fails, said of its own rows. -/
theorem fails_iff_of_lt {k : Nat} (hthere : k * size < rows.length) :
    c.Fails size rows.length position k ↔ (c.detail k).isSome ∨
      ∃ i < ((rows.drop (k * size)).take size).length,
        fitsInteger (position + (rows.take (k * size)).length + (i : Nat)) = false := by
  rw [Fails, List.length_take, List.length_drop, List.length_take_of_le hthere.le, Nat.succ_mul]
  refine (and_iff_right hthere).trans (or_congr_right ⟨?_, ?_⟩)
  · rintro ⟨i, hfrom, hto, hlt, hfit⟩
    refine ⟨i - k * size, by omega, ?_⟩
    rwa [Int.add_assoc, ← Nat.cast_add, Nat.add_sub_cancel' hfrom]
  · rintro ⟨i, hi, hfit⟩
    refine ⟨k * size + i, Nat.le_add_right _ _, by omega, by omega, ?_⟩
    rwa [Nat.cast_add, ← Int.add_assoc]

theorem allStorable_chunk (hstorable : ∀ cells ∈ rows, Source.AllStorable cells) (start : Nat) :
    ∀ cells ∈ (rows.drop start).take size, Source.AllStorable cells :=
  fun cells hcells => hstorable cells (List.mem_of_mem_drop (List.mem_of_mem_take hcells))

/-- One chunk more that does not fail, if there is one. -/
theorem GoesOn.succ {table : String} {k : Nat} (h : c.GoesOn table size position rows s w db k)
    (hsize : 0 < size) (hstorable : ∀ cells ∈ rows, Source.AllStorable cells)
    (hnot : ¬ c.Fails size rows.length position k) :
    c.GoesOn table size position rows s w db (k + 1) := by
  obtain ⟨new, w₁, hw₁, hstamped, hrun⟩ := h
  have hnext : rows.take ((k + 1) * size) =
      rows.take (k * size) ++ (rows.drop (k * size)).take size := by
    rw [Nat.succ_mul, List.take_add]
  have hrest : rows.drop ((k + 1) * size) = (rows.drop (k * size)).drop size := by
    rw [Nat.succ_mul, List.drop_drop]
  rcases Nat.lt_or_ge (k * size) rows.length with hthere | hend
  · have hmore : rows.drop (k * size) ≠ [] :=
      List.ne_nil_of_length_pos (List.length_drop ▸ Nat.sub_pos_of_lt hthere)
    rw [fails_iff_of_lt hthere, not_or] at hnot
    obtain ⟨new', w₂, happend, hw₂, hstamped'⟩ := exists_appendChunk (c := c) (s := s) (k := k)
      hw₁ table (position + (rows.take (k * size)).length) (allStorable_chunk hstorable _)
      (Option.not_isSome_iff_eq_none.mp hnot.1) fun i hi =>
        (Bool.not_eq_false _).mp fun hfit => hnot.2 ⟨i, hi, hfit⟩
    have htogether := hstamped.append hstamped'
    rw [rows_withRows] at happend hw₂
    rw [join_join htogether.nodup] at hw₂
    refine ⟨new ++ new', w₂, hw₂, hnext ▸ htogether, ?_⟩
    rw [hrun, pieces_eq_cons hsize hmore, ← hrest, run_add,
      insertChunks, run_bind_ok happend, run_add, run_add, hnext, List.length_append,
      novel_append htogether.nodup, List.length_append]
    push_cast
    rw [← Int.add_assoc]
    generalize c.insertChunks table _ _ _ s w₂ = rest
    rcases rest with ⟨why | n, w'⟩
    · rfl
    · simp [Except.map, Nat.add_assoc]
  · have hdone : rows.drop (k * size) = [] := List.drop_of_length_le hend
    rw [hdone] at hrun hnext
    refine ⟨new, w₁, hw₁, ?_, ?_⟩
    · rw [hnext, List.take_nil, List.append_nil]
      exact hstamped
    · rw [hnext, hrest, hdone, List.take_nil, List.append_nil, List.drop_nil]
      exact hrun

theorem goesOn_of_not_fails (hw : w.storage = .ready db) (table : String) (hsize : 0 < size)
    (hstorable : ∀ cells ∈ rows, Source.AllStorable cells) :
    ∀ k, (∀ j < k, ¬ c.Fails size rows.length position j) →
      c.GoesOn table size position rows s w db k
  | 0, _ => goesOn_zero hw table
  | k + 1, hbefore =>
    (goesOn_of_not_fails hw table hsize hstorable k fun j hj => hbefore j (Nat.lt_succ_of_lt hj)).succ
      hsize hstorable (hbefore k (Nat.lt_succ_self k))

/-- Where no chunk fails all rows are offered to the store. -/
theorem run_insertChunks_of_all (hw : w.storage = .ready db) (table : String) (hsize : 0 < size)
    (hstorable : ∀ cells ∈ rows, Source.AllStorable cells)
    (hall : ∀ k, ¬ c.Fails size rows.length position k) :
    ∃ new w', c.insertChunks table position 0 (pieces size rows) s w =
        (.ok (db.rows.novel new).length, w') ∧
      w'.storage = .ready (db.withRows (db.rows.join new)) ∧
      Stamped w.lastStamp w'.lastStamp table position rows new := by
  obtain ⟨new, w', hw', hstamped, hrun⟩ :=
    goesOn_of_not_fails (s := s) hw table hsize hstorable rows.length fun j _ => hall j
  have hend : rows.length ≤ rows.length * size := Nat.le_mul_of_pos_right _ hsize
  rw [List.take_of_length_le hend] at hstamped
  rw [List.drop_of_length_le hend, pieces_nil, run_add] at hrun
  exact ⟨new, w', hrun, hw', hstamped⟩

/-- The first chunk that fails ends the insertion, and those before it are offered to the store. -/
theorem run_insertChunks_of_stopsAt (hw : w.storage = .ready db) (table : String) (hsize : 0 < size)
    (hstorable : ∀ cells ∈ rows, Source.AllStorable cells) {k : Nat}
    (hstops : c.StopsAt size rows.length position k) :
    ∃ new w', c.insertChunks table position 0 (pieces size rows) s w = (.error (c.failure k), w') ∧
      w'.storage = .ready (db.withRows (db.rows.join new)) ∧
      Stamped w.lastStamp w'.lastStamp table position (rows.take (k * size)) new := by
  obtain ⟨hfails, hbefore⟩ := hstops
  obtain ⟨new, w₁, hw₁, hstamped, hrun⟩ :=
    goesOn_of_not_fails (s := s) hw table hsize hstorable k hbefore
  have hmore : rows.drop (k * size) ≠ [] :=
    List.ne_nil_of_length_pos (List.length_drop ▸ Nat.sub_pos_of_lt hfails.1)
  obtain ⟨w', happend, hw', hle⟩ := exists_appendChunk_of_fails (c := c) (s := s) (k := k)
    hw₁ table (position + (rows.take (k * size)).length) (allStorable_chunk hstorable _)
    ((fails_iff_of_lt hfails.1).mp hfails)
  refine ⟨new, w', ?_, hw', hstamped.mono le_rfl hle⟩
  rw [hrun, pieces_eq_cons hsize hmore, run_add, insertChunks, run_bind_error happend]
  rfl

end Conditions

/-! ## Rows that are given -/

namespace Workspace

variable {types : List (String × ColumnType)}

/-- A mapping of columns to values, each of which coerces to the type of its column. -/
def CoercesTo (types : List (String × ColumnType)) (v : Value) (cells : Cells) : Prop :=
  ∃ es, v = .dict es ∧ List.Forall₂ (fun e cell => e.1 = .text cell.1 ∧
    ∃ type, types.lookup cell.1 = some type ∧ type.coerce e.2 = .ok cell.2) es cells

theorem coerceCell_eq_ok_iff {column value : Value} {cell : String × Value} :
    coerceCell types column value = .ok cell ↔ column = .text cell.1 ∧
      ∃ type, types.lookup cell.1 = some type ∧ type.coerce value = .ok cell.2 := by
  constructor
  · intro h
    cases column with
    | text id =>
      rw [coerceCell] at h
      split at h
      · rename_i type htype
        obtain ⟨v, hv, h⟩ := ok_of_bind h
        obtain rfl := Except.ok.inj h
        exact ⟨rfl, type, htype, hv⟩
      · cases h
    | _ => cases h
  · rintro ⟨rfl, type, htype, hv⟩
    rw [coerceCell, htype]
    dsimp only
    rw [hv]
    rfl

theorem coerceCells_eq_ok_iff : ∀ {es : List (Value × Value)} {cells : Cells},
    coerceCells types es = .ok cells ↔ List.Forall₂ (fun e cell => e.1 = .text cell.1 ∧
      ∃ type, types.lookup cell.1 = some type ∧ type.coerce e.2 = .ok cell.2) es cells
  | [], cells => by
    rw [coerceCells, Except.ok.injEq, List.forall₂_nil_left_iff, eq_comm]
  | (column, value) :: es, cells => by
    constructor
    · intro h
      obtain ⟨cell, hcell, h⟩ := ok_of_bind h
      obtain ⟨rest, hrest, h⟩ := ok_of_bind h
      obtain rfl := Except.ok.inj h
      exact .cons (coerceCell_eq_ok_iff.mp hcell) (coerceCells_eq_ok_iff.mp hrest)
    · intro h
      cases h with
      | cons hcell hrest =>
        rw [coerceCells, coerceCell_eq_ok_iff.mpr hcell, coerceCells_eq_ok_iff.mpr hrest]
        rfl

theorem prepareRows_eq_ok_iff : ∀ {vs : List Value} {i : Nat} {rows : List Cells},
    prepareRows types i vs = .ok rows ↔ List.Forall₂ (CoercesTo types) vs rows
  | [], i, rows => by
    rw [prepareRows, Except.ok.injEq, List.forall₂_nil_left_iff, eq_comm]
  | v :: vs, i, rows => by
    constructor
    · intro h
      cases v with
      | dict es =>
        obtain ⟨cells, hcells, h⟩ := ok_of_bind h
        obtain ⟨rest, hrest, h⟩ := ok_of_bind h
        obtain rfl := Except.ok.inj h
        exact .cons ⟨es, rfl, coerceCells_eq_ok_iff.mp hcells⟩ (prepareRows_eq_ok_iff.mp hrest)
      | _ => cases h
    · intro h
      cases h with
      | cons hcells hrest =>
        obtain ⟨es, rfl, hcells⟩ := hcells
        rw [prepareRows, coerceCells_eq_ok_iff.mpr hcells, prepareRows_eq_ok_iff.mpr hrest]
        rfl

/-- The actor may insert what is given into the table, and these are the cells of the rows. -/
structure Prepares (actor table : String) (given : Value) (db : Database) (rows : List Cells) :
    Prop where
  owned : ∃ t, Catalog.ownedTable actor table db = .ok t
  coerced : ∃ vs, (given = .list vs ∨ given = .tuple vs) ∧
    List.Forall₂ (CoercesTo (Catalog.typesOf table db)) vs rows

variable {actor table : String} {given : Value} {db : Database} {rows : List Cells}

theorem CoercesTo.allStorable {v : Value} {cells : Cells} (h : CoercesTo types v cells) :
    Source.AllStorable cells := by
  obtain ⟨es, -, hes⟩ := h
  intro e he
  obtain ⟨type, -, hadmits⟩ := admits_of_coerceCells (coerceCells_eq_ok_iff.mpr hes) e he
  exact hadmits.classify_ne_none

theorem Prepares.allStorable (h : Prepares actor table given db rows) :
    ∀ cells ∈ rows, Source.AllStorable cells := by
  obtain ⟨vs, -, hrows⟩ := h.coerced
  clear h
  induction hrows with
  | nil => exact List.forall_mem_nil _
  | cons hcells _ ih => exact List.forall_mem_cons.mpr ⟨hcells.allStorable, ih⟩

end Workspace

namespace Conditions

open Workspace

variable {c : Conditions} {s : Surroundings} {w : World} {db : Database} {settings : Settings}
  {actor table : String} {given : Value} {rows : List Cells}

/-- What may be inserted is cut into chunks, which come behind the last row. -/
theorem run_insertRows (settings : Settings) (hw : w.storage = .ready db)
    (h : Prepares actor table given db rows) :
    c.insertRows settings actor table given s w =
      (match chunks? settings.insertBatch rows with
        | some chunks => c.insertChunks table (db.rows.nextPosition table) 0 chunks
        | none => throw (.fault (.badValue "range() arg 3 must not be zero")) : Action Nat) s w := by
  obtain ⟨t, ht⟩ := h.owned
  obtain ⟨vs, hgiven, hrows⟩ := h.coerced
  have hprepared := prepareRows_eq_ok_iff (i := 0).mpr hrows
  have htypes : Catalog.columnTypes table s w = (.ok (Catalog.typesOf table db), w) :=
    run_query hw _
  have hlast : RowStore.nextPosition table s w = (.ok (db.rows.nextPosition table), w) :=
    run_rowStore_ok (run_query hw _)
  refine (run_query_bind hw ht _).trans ?_
  -- A list and a tuple of rows are the same to insert.
  rcases hgiven with rfl | rfl
  all_goals
    refine (run_bind_ok (run_pure vs) _).trans ((run_bind_ok htypes _).trans ?_)
    exact (run_lift_bind hprepared _).trans (run_bind_ok hlast _)

theorem run_insertRows_of_pos (hw : w.storage = .ready db) (hsize : 1 ≤ settings.insertBatch)
    (h : Prepares actor table given db rows) :
    c.insertRows settings actor table given s w =
      c.insertChunks table (db.rows.nextPosition table) 0
        (pieces settings.insertBatch.toNat rows) s w := by
  rw [run_insertRows settings hw h, chunks?_eq_some hsize]

/-- Anything else is refused before the store is asked to change anything. -/
theorem run_insertRows_of_not (hw : w.storage = .ready db)
    (h : ¬ ∃ rows, Prepares actor table given db rows) :
    ∃ why, c.insertRows settings actor table given s w = (.error why, w) := by
  rcases ht : Catalog.ownedTable actor table db with why | t
  · exact ⟨why, run_bind_error ((run_query hw _).trans (by rw [ht])) _⟩
  have hrefused : ∀ vs, given = .list vs ∨ given = .tuple vs →
      ∃ why, prepareRows (Catalog.typesOf table db) 0 vs = .error why := by
    intro vs hgiven
    rcases hprepared : prepareRows (Catalog.typesOf table db) 0 vs with why | rows
    · exact ⟨why, rfl⟩
    · exact absurd ⟨rows, ⟨t, ht⟩, vs, hgiven, prepareRows_eq_ok_iff.mp hprepared⟩ h
  have hstops : ∀ vs, given = .list vs ∨ given = .tuple vs → ∀ k : List Cells → Action Nat,
      ∃ why, (do
        let types ← Catalog.columnTypes table
        let prepared ← liftM (prepareRows types 0 vs)
        k prepared : Action Nat) s w = (.error why, w) := by
    intro vs hgiven k
    obtain ⟨why, hwhy⟩ := hrefused vs hgiven
    have htypes : Catalog.columnTypes table s w = (.ok (Catalog.typesOf table db), w) :=
      run_query hw _
    have hprepared : (liftM (prepareRows (Catalog.typesOf table db) 0 vs) : Action (List Cells)) s w =
        (.error why, w) := by rw [run_liftM, hwhy]
    exact ⟨why, (run_bind_ok htypes _).trans (run_bind_error hprepared k)⟩
  cases given with
  | list vs =>
    obtain ⟨why, hwhy⟩ := hstops vs (.inl rfl) _
    exact ⟨why, (run_query_bind hw ht _).trans ((run_bind_ok (run_pure vs) _).trans hwhy)⟩
  | tuple vs =>
    obtain ⟨why, hwhy⟩ := hstops vs (.inr rfl) _
    exact ⟨why, (run_query_bind hw ht _).trans ((run_bind_ok (run_pure vs) _).trans hwhy)⟩
  | _ => exact ⟨_, (run_query_bind hw ht _).trans (run_bind_error (run_throw _) _)⟩

/-! ## Steady conditions -/

theorem run_bind_congr {α β : Type} {x : Action α} {f g : α → Action β}
    (h : ∀ a w', f a s w' = g a s w') : (x >>= f) s w = (x >>= g) s w := by
  rw [run_bind, run_bind]
  rcases x s w with ⟨why | a, w'⟩
  · rfl
  · exact h a w'

theorem run_insertChunks_steady (table : String) (s : Surroundings) :
    ∀ (chunks : List (List Cells)) (position chunk : Int) (w : World),
      (steady s).insertChunks table position chunk chunks s w =
        Workspace.insertChunks table position chunk chunks s w
  | [], _, _, _ => rfl
  | rows :: chunks, position, chunk, w => by
    have happend : (steady s).appendChunk table position chunk rows s w =
        (Workspace.looseBatch chunk position (rows.map .object) >>= RowStore.append table) s w := rfl
    rw [insertChunks, Workspace.insertChunks, run_bind, happend, run_bind, run_bind]
    rcases Workspace.looseBatch chunk position (rows.map .object) s w with ⟨why | es, w₁⟩
    · rfl
    dsimp only
    rw [run_bind]
    rcases RowStore.append table es s w₁ with ⟨why | n, w₂⟩
    · rfl
    dsimp only
    rw [run_bind, run_bind, run_insertChunks_steady table s chunks]

/-- Where nothing changes between the chunks and the store does not fail, these are the insertions
themselves. -/
theorem run_insertRows_steady (settings : Settings) (actor table : String) (given : Value)
    (s : Surroundings) (w : World) :
    (steady s).insertRows settings actor table given s w =
      Workspace.insertRows settings actor table given s w := by
  refine run_bind_congr fun t w₁ => ?_
  cases given
  all_goals
    refine run_bind_congr fun vs w₂ => run_bind_congr fun types w₃ => ?_
    refine run_bind_congr fun prepared w₄ => run_bind_congr fun position w₅ => ?_
    rcases chunks? settings.insertBatch prepared with _ | chunks
    · rfl
    · exact run_insertChunks_steady table s chunks position 0 w₅

end Conditions

end Tabula
