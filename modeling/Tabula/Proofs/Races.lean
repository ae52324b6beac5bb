import Mathlib.Data.List.DropRight
import Tabula.Proofs.Integrity
import Tabula.Proofs.StoredValues
import Tabula.Turns

/-!
# Two requests to one row

What a request leaves of a payload depends on the payload that it read, which may be an old one
(`Request.apply`). Until one of two requests makes its change, both see the row as it was
(`run_start`); from then on the other one goes on alone (`exists_run_rest`). So of two requests for
different columns the one that ends last has written over the other one exactly if it had read
before (`Overwrites`), and `keepsBoth_iff` says when both effects are there in the end.

Turns that nobody interferes with are the operations of the row store (`turns_update`,
`turns_remove`).
-/

namespace Tabula

open Store

namespace RowStore

variable {db : Database} {row row' : Row} {seen p q : Payload} {r : Request}

/-! ## What a request does to a payload -/

namespace Request

/-- The column whose cells a request changes. -/
def column : Request → String
  | update _ column _ => column
  | remove _ column => column

/-- A request to change the row, of which nothing is refused. -/
def Concerns (row : Row) : Request → Prop
  | update id _ value => id = row.id ∧ ∃ t, Json.write .spaced value = .ok t
  | remove table column => table = row.table ∧ IsPlain column

/-- The effect of a request is there in a payload. -/
def Shows (p : Payload) : Request → Prop
  | update _ column value => p.cells.get? column = some value.stored
  | remove _ column => p.cells.get? column = none

/-- A request that finds a cell equal to what it sets, and so writes none. -/
def IsIdle (p : Payload) : Request → Prop
  | update _ column value => isUnchanged column value p = true
  | remove .. => False

/-- What becomes of a payload by a request that has seen another one. -/
def apply (seen p : Payload) : Request → Payload
  | update _ column value =>
    if isUnchanged column value seen then p
    else
      match Payload.edited (Cells.set column value seen.cells) with
      | .ok new => new
      | .error _ => p
  | remove _ column => if hasKey p column then Store.removeKey p column else p

theorem turns_pos (r : Request) : 0 < r.turns := by cases r <;> simp [turns]

theorem turns_le (r : Request) : r.turns ≤ 2 := by cases r <;> simp [turns]

/-- Whether a request concerns a row lies in its id and its table. -/
theorem concerns_congr (hid : row'.id = row.id) (htable : row'.table = row.table) :
    r.Concerns row' ↔ r.Concerns row := by
  cases r with
  | update id column value => rw [Concerns, Concerns, hid]
  | remove table column => rw [Concerns, Concerns, htable]

theorem shows_congr (h : p.cells.get? r.column = q.cells.get? r.column) : r.Shows p ↔ r.Shows q := by
  cases r with
  | update id column value => exact Eq.congr_left h
  | remove table column => exact Eq.congr_left h

theorem isIdle_congr (h : p.cells.get? r.column = q.cells.get? r.column) :
    r.IsIdle p ↔ r.IsIdle q := by
  cases r with
  | update id column value =>
    change (p.cells.get? column).any _ = true ↔ (q.cells.get? column).any _ = true
    rw [show p.cells.get? column = q.cells.get? column from h]
  | remove table column => rfl

theorem isKept_apply (h : r.Concerns row) (hseen : seen.IsKept) (hp : p.IsKept) :
    (r.apply seen p).IsKept := by
  cases r with
  | update id column value =>
    obtain ⟨new, hnew, hkept, _⟩ := hseen.edited column h.2
    rw [apply]
    split
    · exact hp
    · rw [hnew]
      exact hkept
  | remove table column =>
    rw [apply]
    split
    · exact hp.removeKey column
    · exact hp

/-- A request has its effect, unless it writes nothing. -/
theorem shows_apply (h : r.Concerns row) (hseen : seen.IsKept) (hidle : ¬ r.IsIdle seen) :
    r.Shows (r.apply seen p) := by
  cases r with
  | update id column value =>
    obtain ⟨new, hnew, _, hself, _⟩ := hseen.edited column h.2
    rw [apply, if_neg (show ¬ isUnchanged column value seen = true from hidle), hnew]
    exact hself
  | remove table column =>
    rw [apply]
    split
    · exact get?_removeKey_self h.2 p
    · rename_i hkey
      exact get?_of_hasKey_false h.2 (Bool.eq_false_iff.mpr hkey)

theorem apply_of_isIdle (hidle : r.IsIdle seen) : r.apply seen p = p := by
  cases r with
  | update id column value => exact if_pos hidle
  | remove table column => exact hidle.elim

/-- A request that writes a payload leaves the cells of other columns as it has seen them. -/
theorem get?_apply_update {id column : String} {value : Value} (hseen : seen.IsKept)
    (h : (update id column value).Concerns row) (hidle : ¬ (update id column value).IsIdle seen)
    {other : String} (hother : other ≠ column) :
    ((update id column value).apply seen p).cells.get? other = seen.cells.get? other := by
  obtain ⟨new, hnew, _, _, hothers⟩ := hseen.edited column h.2
  rw [apply, if_neg (show ¬ isUnchanged column value seen = true from hidle), hnew]
  exact hothers other hother

/-- A request that has seen the payload as it is changes no other column. -/
theorem get?_apply_of_ne (h : r.Concerns row) (hp : p.IsKept) {other : String}
    (hother : other ≠ r.column) : (r.apply p p).cells.get? other = p.cells.get? other := by
  by_cases hidle : r.IsIdle p
  · rw [apply_of_isIdle hidle]
  cases r with
  | update id column value => exact get?_apply_update hp h hidle hother
  | remove table column =>
    rw [apply]
    split
    · exact get?_removeKey_of_ne h.2 hother p
    · rfl

/-- A request without interference has its effect, unless the cell is equal to what it is to be
without being the same. -/
theorem shows_apply_iff (h : r.Concerns row) (hseen : seen.IsKept)
    (hcolumn : seen.cells.get? r.column = p.cells.get? r.column) :
    r.Shows (r.apply seen p) ↔ (r.IsIdle seen → r.Shows seen) := by
  by_cases hidle : r.IsIdle seen
  · rw [apply_of_isIdle hidle, shows_congr hcolumn]
    exact ⟨fun hshows _ => hshows, fun hshows => hshows hidle⟩
  · exact iff_of_true (shows_apply h hseen hidle) fun h => absurd h hidle

/-! ### Two requests for different columns -/

section Two

variable {x y : Request}

/-- A request that has seen the effect of the other one keeps it. -/
theorem shows_both_iff (hx : x.Concerns row) (hy : y.Concerns row) (hp : p.IsKept)
    (hne : x.column ≠ y.column) :
    (y.Shows (x.apply (y.apply p p) (y.apply p p)) ∧ x.Shows (x.apply (y.apply p p) (y.apply p p))) ↔
      (y.IsIdle p → y.Shows p) ∧ (x.IsIdle p → x.Shows p) := by
  have hleft := isKept_apply hy hp hp
  have hcolumn : (y.apply p p).cells.get? x.column = p.cells.get? x.column :=
    get?_apply_of_ne hy hp hne
  refine and_congr ?_ ?_
  · rw [shows_congr (get?_apply_of_ne hx hleft hne.symm), shows_apply_iff hy hp rfl]
  · rw [shows_apply_iff hx hleft rfl, isIdle_congr hcolumn, shows_congr hcolumn]

/-- A request that has seen the payload as it was before the other one takes its effect back,
unless this was there already or nothing is written. -/
theorem shows_both_of_overwriting (hx : x.Concerns row) (hy : y.Concerns row) (hp : p.IsKept)
    (hne : x.column ≠ y.column) (hturns : x.turns = 2) :
    (y.Shows (x.apply p (y.apply p p)) ∧ x.Shows (x.apply p (y.apply p p))) ↔
      ((y.IsIdle p → y.Shows p) ∧ (y.Shows p ∨ x.IsIdle p)) ∧ (x.IsIdle p → x.Shows p) := by
  have hcolumn : p.cells.get? x.column = (y.apply p p).cells.get? x.column :=
    (get?_apply_of_ne hy hp hne).symm
  refine and_congr ?_ (shows_apply_iff hx hp hcolumn)
  by_cases hidle : x.IsIdle p
  · rw [apply_of_isIdle hidle, shows_apply_iff hy hp rfl, and_iff_left (.inr hidle)]
  · cases x with
    | update id column value =>
      rw [shows_congr (get?_apply_update hp hx hidle hne.symm)]
      exact ⟨fun h => ⟨fun _ => h, .inl h⟩, fun h => h.2.resolve_right hidle⟩
    | remove table column => cases hturns

end Two

end Request

/-! ## Turns of one request -/

section Turns

theorem find?_map {f : Row → Row} (hf : ∀ r, (f r).id = r.id) (rows : Rows) (id : String) :
    Rows.find? (rows.map f) id = (rows.find? id).map f := by
  rw [Rows.find?, Rows.find?, List.find?_map]
  congr 2
  funext r
  simp [hf]

/-- A request that has read the row, or needs not to. -/
def Request.opened (row : Row) : Request → Stage
  | .update _ column value => .read row column value
  | .remove table column => .asked (.remove table column)

theorem turn_asked {id column : String} {value : Value} (hfind : db.rows.find? id = some row)
    (now : Moment) : turn now (.asked (.update id column value)) db = (.read row column value, db) := by
  rw [turn, find, hfind]

theorem find?_modify {f : Row → Row} (hf : ∀ r, (f r).id = r.id) {rows : Rows} {id : String}
    (hfind : rows.find? id = some row) : Rows.find? (rows.modify id f) id = some (f row) := by
  have hid : row.id = id := by simpa using List.find?_some hfind
  have hkeep : ∀ r : Row, (if r.id == id then f r else r).id = r.id := by
    intro r
    split
    · exact hf r
    · rfl
  rw [Rows.modify, find?_map hkeep, hfind, Option.map_some, if_pos (beq_iff_eq.mpr hid)]

theorem exists_find?_writtenBack {rows : Rows} (hfind : rows.find? row.id = some row')
    (now : Moment) (column : String) (value : Value) (new : Payload) :
    ∃ row'', (writtenBack now row column value new rows).find? row.id = some row'' ∧
      row''.table = row'.table ∧
      row''.payload = if isUnchanged column value row.payload then row'.payload else new := by
  rw [writtenBack]
  split
  · exact ⟨_, find?_modify (f := fun r => { r with updatedAt := now }) (fun _ => rfl) hfind, rfl, rfl⟩
  · exact ⟨_, find?_modify (f := fun r => { r with payload := new, updatedAt := now })
      (fun _ => rfl) hfind, rfl, rfl⟩

theorem exists_find?_removeKey {rows : Rows} {id : String}
    (hfind : rows.find? id = some row') (now : Moment) (column : String) :
    ∃ row'', (Rows.removeKey now row'.table column rows).find? id = some row'' ∧
      row''.table = row'.table ∧
      row''.payload =
        if hasKey row'.payload column then Store.removeKey row'.payload column else row'.payload := by
  refine ⟨_, (find?_map ?_ rows id).trans (by rw [hfind, Option.map_some]), ?_, ?_⟩
  · intro r
    split <;> rfl
  · split <;> rfl
  · rw [beq_self_eq_true, Bool.true_and]
    split <;> rfl

/-- The last turn of a request gives an answer and changes the payload of the row. -/
theorem exists_turn_opened (h : r.Concerns row) (hseen : row.payload.IsKept)
    (hfind : db.rows.find? row.id = some row') (htable : row'.table = row.table) (now : Moment) :
    ∃ answer db' row'', turn now (r.opened row) db = (.answered (.ok answer), db') ∧
      db'.rows.find? row.id = some row'' ∧ row''.table = row.table ∧
      row''.payload = r.apply row.payload row'.payload := by
  cases r with
  | update id column value =>
    obtain ⟨new, hnew, _⟩ := hseen.edited column h.2
    obtain ⟨row'', hfind', htable', hpayload⟩ :=
      exists_find?_writtenBack hfind now column value new
    refine ⟨_, { db with rows := writtenBack now row column value new db.rows }, row'',
      by rw [Request.opened, turn, edited, hnew], hfind', htable'.trans htable, ?_⟩
    rw [hpayload, Request.apply, hnew]
  | remove table column =>
    obtain ⟨rfl, _⟩ := h
    rw [← htable]
    obtain ⟨row'', hfind', htable', hpayload⟩ := exists_find?_removeKey hfind now column
    exact ⟨_, _, row'', rfl, hfind', htable', hpayload⟩

variable {s : Surroundings} {w : World} {id table column : String} {value : Value}

theorem find?_of_find (h : find id db = .ok row) : db.rows.find? id = some row := by
  rw [find] at h
  split at h
  · rename_i hfind
    rw [hfind, Except.ok.inj h]
  · cases h

theorem kept_of_edited {old new kept : Payload} (h : edited column value old = .ok (new, kept)) :
    kept = if isUnchanged column value old then old else new := by
  rw [edited] at h
  split at h
  · obtain ⟨rfl, rfl⟩ := Prod.mk.inj (Except.ok.inj h)
    rfl
  · cases h

/-- An equal payload that is written back changes nothing but the time. -/
theorem writtenBack_eq (hnodup : (db.rows.map Row.id).Nodup) (hfind : db.rows.find? id = some row)
    (now : Moment) (new : Payload) :
    writtenBack now row column value new db.rows =
      Rows.write now id (if isUnchanged column value row.payload then row.payload else new) db.rows := by
  have hid : row.id = id := by simpa using List.find?_some hfind
  rw [writtenBack, hid]
  split
  · refine List.map_congr_left fun r hr => ?_
    by_cases hr' : r.id = id
    · have heq : r = row := List.inj_on_of_nodup_map hnodup hr (List.mem_of_find?_eq_some hfind)
        (hr'.trans hid.symm)
      rw [heq]
    · rw [if_neg (by simpa using hr'), if_neg (by simpa using hr')]
  · rfl

/-- Both turns of an update without interference are the operation of the row store. -/
theorem turns_update (hw : w.storage = .ready db) (hnodup : (db.rows.map Row.id).Nodup) :
    let begun := turn s.now (.asked (.update id column value)) db
    let ended := turn s.now begun.1 begun.2
    ended.1 = .answered ((updateCell id column value s w).1.map Answer.row) ∧
      (updateCell id column value s w).2 = w.withDatabase ended.2 := by
  dsimp only
  rw [turn]
  rcases hfind : find id db with e | row
  · rw [updateCell, Action.run_bind_ok Action.run_now,
      Action.run_rowStore_error (Action.run_transaction_error hw (by rw [hfind]; rfl))]
    exact ⟨rfl, (withDatabase_self hw).symm⟩
  rw [turn]
  rcases hedited : edited column value row.payload with e | ⟨new, kept⟩
  · rw [updateCell, Action.run_bind_ok Action.run_now,
      Action.run_rowStore_error (Action.run_transaction_error (e := e) hw
        (by simp only [hfind, hedited, Except.bind, bind]))]
    exact ⟨rfl, (withDatabase_self hw).symm⟩
  · have hrun : updateCell id column value s w =
        (.ok { row with payload := new, updatedAt := s.now },
          w.withDatabase { db with rows := Rows.write s.now id kept db.rows }) := by
      rw [updateCell, Action.run_bind_ok Action.run_now]
      exact Action.run_rowStore_ok (Action.run_transaction_ok hw (by
        simp only [hfind, hedited, Except.bind, bind]
        rfl))
    rw [hrun]
    refine ⟨rfl, congrArg (fun rows => w.withDatabase { db with rows := rows }) ?_⟩
    rw [writtenBack_eq hnodup (find?_of_find hfind), kept_of_edited hedited]

theorem turns_remove (hw : w.storage = .ready db) :
    let ended := turn s.now (.asked (.remove table column)) db
    ended.1 = .answered ((removeKey table column s w).1.map Answer.count) ∧
      (removeKey table column s w).2 = w.withDatabase ended.2 := by
  dsimp only
  rw [removeKey, Action.run_bind_ok Action.run_now,
    Action.run_rowStore_ok (Action.run_transaction_ok hw rfl)]
  exact ⟨rfl, rfl⟩

end Turns

/-! ## Races -/

namespace Race

variable {requests : Runner → Request} {race : Race} {t : Runner}

theorem run_append (now : Runner → Moment) (σ τ : List Runner) (race : Race) :
    run now (σ ++ τ) race = run now τ (run now σ race) := List.foldl_append

theorem run_cons (now : Runner → Moment) (t : Runner) (σ : List Runner) (race : Race) :
    run now (t :: σ) race = run now σ (race.take now t) := rfl

theorem take_eq {now : Runner → Moment} {stage : Stage} {db' : Database}
    (h : turn (now t) (race.stage t) race.db = (stage, db')) :
    race.take now t = ⟨fun u => if u = t then stage else race.stage u, db'⟩ := by
  rw [take, h]

/-- The stage of a request that has had some turns, but not all of them. -/
def stageOf (row : Row) (r : Request) (turns : Nat) : Stage :=
  if turns = 0 then .asked r else r.opened row

theorem stageOf_last (r : Request) : stageOf row r (r.turns - 1) = r.opened row := by
  cases r <;> rfl

/-- As long as neither request has had its last turn, nothing is changed. -/
theorem run_start (now : Runner → Moment) (hfind : db.rows.find? row.id = some row)
    (hrequests : ∀ t, (requests t).Concerns row) (σ : List Runner) :
    (∀ t, σ.count t < (requests t).turns) →
      run now σ (start requests db) = ⟨fun t => stageOf row (requests t) (σ.count t), db⟩ := by
  induction σ using List.reverseRecOn with
  | nil => exact fun _ => rfl
  | append_singleton σ t ih =>
    intro hcount
    have hbefore : ∀ u, σ.count u < (requests u).turns := fun u =>
      lt_of_le_of_lt (by rw [List.count_append]; exact Nat.le_add_right _ _) (hcount u)
    have hself := hcount t
    rw [List.count_append, List.count_singleton_self] at hself
    rcases hr : requests t with ⟨id, column, value⟩ | ⟨table, column⟩
    · rw [hr, Request.turns] at hself
      have hzero : σ.count t = 0 := by omega
      have hid : id = row.id := by
        have := hrequests t
        rw [hr] at this
        exact this.1
      have hasked : stageOf row (requests t) (σ.count t) = .asked (.update id column value) := by
        rw [hzero, hr]
        rfl
      have hread : turn (now t) (stageOf row (requests t) (σ.count t)) db =
          (.read row column value, db) := by
        rw [hasked]
        exact turn_asked (hid ▸ hfind) (now t)
      rw [run_append, ih hbefore, run_cons, take_eq hread]
      refine congrArg (fun stage => (⟨stage, db⟩ : Race)) (funext fun u => ?_)
      by_cases hu : u = t
      · subst hu
        rw [if_pos rfl, List.count_append, List.count_singleton_self, stageOf,
          if_neg (Nat.succ_ne_zero _), hr, Request.opened]
      · rw [if_neg hu, List.count_append, List.count_singleton, if_neg (by simpa using Ne.symm hu),
          Nat.add_zero]
    · rw [hr, Request.turns] at hself
      omega

/-- What a request leaves that goes on alone : its answer, and the payload that it makes of the one
that it finds. -/
structure Ends (row : Row) (t : Runner) (p : Payload) (race race' : Race) : Prop where
  answered : ∃ answer, race'.stage t = .answered (.ok answer)
  others : ∀ u, u ≠ t → race'.stage u = race.stage u
  row : ∃ row', race'.db.rows.find? row.id = some row' ∧ row'.table = row.table ∧ row'.payload = p

/-- The last turn of a request that has read the row, or needs not to. -/
theorem ends_take (now : Runner → Moment) (race : Race) (h : r.Concerns row)
    (hseen : row.payload.IsKept)
    (hstage : race.stage t = r.opened row) (hfind : race.db.rows.find? row.id = some row')
    (htable : row'.table = row.table) :
    Ends row t (r.apply row.payload row'.payload) race (race.take now t) := by
  obtain ⟨answer, db', row'', hturn, hrow⟩ := exists_turn_opened h hseen hfind htable (now t)
  rw [take_eq (hstage ▸ hturn)]
  exact ⟨⟨answer, if_pos rfl⟩, fun u hu => if_neg hu, row'', hrow⟩

/-- A request that has had no turn changes the payload as it finds it. -/
theorem ends_run (now : Runner → Moment) (h : r.Concerns row) (hseen : row.payload.IsKept)
    (hstage : race.stage t = .asked r) (hfind : race.db.rows.find? row.id = some row) :
    Ends row t (r.apply row.payload row.payload) race
      (race.run now (List.replicate r.turns t)) := by
  cases r with
  | update id column value =>
    have hread : race.take now t =
        ⟨fun u => if u = t then .read row column value else race.stage u, race.db⟩ :=
      take_eq (by rw [hstage]; exact turn_asked (h.1 ▸ hfind) (now t))
    have hend := ends_take now (race.take now t) h hseen
      (by rw [hread]; exact if_pos rfl) (by rw [hread]; exact hfind) rfl
    refine ⟨hend.answered, fun u hu => (hend.others u hu).trans ?_, hend.row⟩
    rw [hread]
    exact if_neg hu
  | remove table column => exact ends_take now race h hseen hstage hfind rfl

/-- What is left of a request changes the payload that is there : as that one was read, or as the
row was when the request had its first turn. -/
theorem ends_rest {k n : Nat} (now : Runner → Moment) (h : r.Concerns row) (hseen : row.payload.IsKept)
    (hstage : race.stage t = stageOf row r k) (hfind : race.db.rows.find? row.id = some row')
    (htable : row'.table = row.table) (hkept : row'.payload.IsKept) (hturns : k + (n + 1) = r.turns) :
    Ends row t (r.apply (if k = 0 then row'.payload else row.payload) row'.payload) race
      (race.run now (List.replicate (n + 1) t)) := by
  have hid : row'.id = row.id := by simpa using List.find?_some hfind
  by_cases hzero : k = 0
  · subst hzero
    have hend := ends_run now ((Request.concerns_congr hid htable).mpr h) hkept hstage
      (hid ▸ hfind)
    rw [if_pos rfl, show n + 1 = r.turns by omega]
    exact ⟨hend.answered, hend.others, by rw [← hid, ← htable]; exact hend.row⟩
  · have hle := r.turns_le
    obtain rfl : n = 0 := by omega
    rw [stageOf, if_neg hzero] at hstage
    rw [if_neg hzero]
    exact ends_take now race h hseen hstage hfind htable

/-! ## Schedules -/

/-- The turns after the last one of `t`. -/
def turnsAfter (t : Runner) (σ : List Runner) : List Runner := σ.rtakeWhile (· ≠ t)

/-- The one reads the row before the last turn of the other, and writes it afterwards. -/
def Overwrites (x t : Runner) (σ : List Runner) : Prop :=
  x ∈ turnsAfter t σ ∧ (turnsAfter t σ).count x < σ.count x

instance (x t : Runner) (σ : List Runner) : Decidable (Overwrites x t σ) := instDecidableAnd

theorem other_ne (t : Runner) : t.other ≠ t := by cases t <;> decide

theorem other_other (t : Runner) : t.other.other = t := by cases t <;> rfl

theorem eq_other {t u : Runner} (h : u ≠ t) : u = t.other := by
  cases t <;> cases u <;> first | rfl | exact absurd rfl h

theorem turnsAfter_append {σ₁ σ₂ : List Runner} (h : t ∉ σ₂) :
    turnsAfter t (σ₁ ++ t :: σ₂) = σ₂ := by
  induction σ₂ using List.reverseRecOn with
  | nil => exact List.rtakeWhile_concat_neg _ _ _ (by simp)
  | append_singleton σ₂ u ih =>
    rw [List.mem_append, not_or, List.mem_singleton] at h
    have hassoc : σ₁ ++ t :: (σ₂ ++ [u]) = (σ₁ ++ t :: σ₂) ++ [u] := by simp
    rw [turnsAfter, hassoc, List.rtakeWhile_concat_pos _ _ _ (by simpa using Ne.symm h.2)]
    exact congrArg (· ++ [u]) (ih h.1)

/-- One of two has its last turn first; then the other one is alone. -/
theorem exists_split {σ : List Runner} (h : ∀ t, t ∈ σ) :
    ∃ t σ₁ n, σ = σ₁ ++ t :: List.replicate (n + 1) t.other := by
  induction σ using List.reverseRecOn with
  | nil => exact absurd (h .first) (by simp)
  | append_singleton σ x ih =>
    by_cases hx : x ∈ σ
    · obtain ⟨t, σ₁, n, rfl⟩ := ih fun t => by
        by_cases ht : t = x
        · exact ht ▸ hx
        · exact (List.mem_append.mp (h t)).resolve_right (by simpa using ht)
      by_cases ht : x = t
      · subst ht
        refine ⟨x.other, σ₁ ++ x :: List.replicate n x.other, 0, ?_⟩
        rw [other_other, List.replicate_succ']
        simp
      · refine ⟨t, σ₁, n + 1, ?_⟩
        rw [eq_other ht, List.replicate_succ' (n := n + 1)]
        simp
    · -- the last turn is the only one of `x`
      have hother : x.other ∈ σ :=
        (List.mem_append.mp (h x.other)).resolve_right (by simpa using other_ne x)
      have hall : σ = List.replicate σ.length x.other :=
        List.eq_replicate_of_mem fun u hu => eq_other fun hux => hx (hux ▸ hu)
      obtain ⟨n, hn⟩ := Nat.exists_eq_succ_of_ne_zero (List.length_pos_of_mem hother).ne'
      refine ⟨x.other, List.replicate n x.other, 0, ?_⟩
      rw [hall, hn, List.replicate_succ', other_other]
      simp

/-- If one goes on alone after the last turn of the other, it overwrites the other one exactly if
it had a turn before. -/
theorem overwrites_iff {σ₁ : List Runner} {n : Nat} :
    Overwrites t.other t (σ₁ ++ t :: List.replicate (n + 1) t.other) ↔ σ₁.count t.other ≠ 0 := by
  have hne := other_ne t
  have hafter : t ∉ List.replicate (n + 1) t.other := fun h => hne (List.eq_of_mem_replicate h).symm
  rw [Overwrites, turnsAfter_append hafter, List.count_append, List.count_cons_of_ne hne.symm,
    List.count_replicate_self, and_iff_right (List.mem_replicate.mpr ⟨Nat.succ_ne_zero n, rfl⟩)]
  omega

theorem not_overwrites_last {σ₁ : List Runner} {n : Nat} :
    ¬ Overwrites t t.other (σ₁ ++ t :: List.replicate (n + 1) t.other) := by
  have hsplit : σ₁ ++ t :: List.replicate (n + 1) t.other =
      (σ₁ ++ t :: List.replicate n t.other) ++ t.other :: [] := by
    rw [List.replicate_succ']
    simp
  rw [Overwrites, hsplit, turnsAfter_append (List.not_mem_nil)]
  exact fun h => List.not_mem_nil h.1

/-- Whichever request ends last has made its payload of the one that the other left, having seen
this one or, if it overwrites the other, the one before. -/
theorem exists_run {σ : List Runner} (now : Runner → Moment) (hfind : db.rows.find? row.id = some row)
    (hkept : row.payload.IsKept) (hrequests : ∀ t, (requests t).Concerns row)
    (hσ : IsSchedule requests σ) :
    ∃ t, ¬ Overwrites t t.other σ ∧
      (Overwrites t.other t σ → (requests t.other).turns = 2) ∧
      (∀ u, ∃ answer, (run now σ (start requests db)).stage u = .answered (.ok answer)) ∧
      ∃ row', (run now σ (start requests db)).db.rows.find? row.id = some row' ∧
        row'.payload = (requests t.other).apply
          (if Overwrites t.other t σ then row.payload
            else (requests t).apply row.payload row.payload)
          ((requests t).apply row.payload row.payload) := by
  have hmem : ∀ t, t ∈ σ := fun t => List.count_pos_iff.mp (hσ t ▸ (requests t).turns_pos)
  obtain ⟨t, σ₁, n, rfl⟩ := exists_split hmem
  have hne := other_ne t
  have hcount : σ₁.count t + 1 = (requests t).turns := by
    rw [← hσ t, List.count_append, List.count_cons_self, List.count_replicate,
      if_neg (by simpa using hne)]
  have hcount' : σ₁.count t.other + (n + 1) = (requests t.other).turns := by
    rw [← hσ t.other, List.count_append, List.count_cons_of_ne hne.symm, List.count_replicate_self]
  have hstart := run_start now hfind hrequests σ₁ fun u => by
    by_cases hu : u = t
    · subst hu
      omega
    · rw [eq_other hu]
      omega
  -- the last turn of the one
  have hfirst := ends_take now ⟨fun u => stageOf row (requests u) (σ₁.count u), db⟩ (hrequests t) hkept
    (by rw [← stageOf_last, ← hcount, Nat.add_sub_cancel]) hfind rfl
  obtain ⟨row₁, hfind₁, htable₁, hpayload₁⟩ := hfirst.row
  have hkept₁ : row₁.payload.IsKept :=
    hpayload₁ ▸ Request.isKept_apply (hrequests t) hkept hkept
  -- what is left for the other one
  have hsecond := ends_rest now (hrequests t.other) hkept (hfirst.others t.other hne) hfind₁
    htable₁ hkept₁ hcount'
  obtain ⟨row₂, hfind₂, _, hpayload₂⟩ := hsecond.row
  rw [run_append, run_cons, hstart]
  refine ⟨t, not_overwrites_last, fun hover => ?_, fun u => ?_, row₂, hfind₂, ?_⟩
  · have hle := (requests t.other).turns_le
    have := overwrites_iff.mp hover
    omega
  · by_cases hu : u = t.other
    · exact hu ▸ hsecond.answered
    · have hut : u = t := by rw [← other_other t]; exact eq_other hu
      obtain ⟨answer, hanswer⟩ := hfirst.answered
      exact ⟨answer, (hsecond.others u hu).trans (hut ▸ hanswer)⟩
  · rw [hpayload₂, ← hpayload₁]
    by_cases hzero : σ₁.count t.other = 0
    · rw [if_pos hzero, if_neg fun hover => overwrites_iff.mp hover hzero]
    · rw [if_neg hzero, if_pos (overwrites_iff.mpr hzero)]

/-- Both effects are there in the end exactly if each request has one on the row as it was, and
neither is overwritten : a request that reads the row before the last turn of the other and writes
it afterwards takes the effect of the other back, unless this was there already or it writes
nothing itself. -/
theorem keepsBoth_iff {σ : List Runner} (now : Runner → Moment) (hfind : db.rows.find? row.id = some row)
    (hkept : row.payload.IsKept) (hrequests : ∀ t, (requests t).Concerns row)
    (hcolumns : (requests .first).column ≠ (requests .second).column)
    (hσ : IsSchedule requests σ) :
    (∀ t, ∃ answer, (run now σ (start requests db)).stage t = .answered (.ok answer)) ∧
      ∃ row', (run now σ (start requests db)).db.rows.find? row.id = some row' ∧
        ((∀ t, (requests t).Shows row'.payload) ↔
          ∀ t, ((requests t).IsIdle row.payload → (requests t).Shows row.payload) ∧
            (Overwrites t.other t σ →
              (requests t).Shows row.payload ∨ (requests t.other).IsIdle row.payload)) := by
  obtain ⟨t, hlast, hturns, hanswers, row', hfind', hpayload⟩ :=
    exists_run now hfind hkept hrequests hσ
  refine ⟨hanswers, row', hfind', ?_⟩
  have hne : (requests t.other).column ≠ (requests t).column := by
    cases t with
    | first => exact hcolumns.symm
    | second => exact hcolumns
  have hboth : ∀ {P : Runner → Prop}, (∀ u, P u) ↔ P t ∧ P t.other := fun {P} =>
    ⟨fun h => ⟨h t, h t.other⟩, fun h u => by
      by_cases hu : u = t
      · exact hu ▸ h.1
      · exact eq_other hu ▸ h.2⟩
  rw [hboth, hboth, other_other, and_iff_left (fun h => absurd h hlast), hpayload]
  by_cases hover : Overwrites t.other t σ
  · rw [if_pos hover, Request.shows_both_of_overwriting (hrequests t.other) (hrequests t) hkept hne
      (hturns hover), forall_prop_of_true hover]
  · rw [if_neg hover, Request.shows_both_iff (hrequests t.other) (hrequests t) hkept hne,
      and_iff_left (fun h => absurd h hover)]

/-! Two edits of one row that has a cell under each of two columns. -/

/-- A row with two cells. -/
def pairRow : Row := ⟨"r", "t", 0, ⟨[("a", .int 0), ("b", .int 1)], .compact⟩, ⟨0⟩, ⟨0⟩⟩

/-- The database that has just this row. -/
def pairDatabase : Database := { Database.empty with rows := [pairRow] }

/-- Edits of the two cells. -/
def pairEdits (a b : Value) : Runner → Request
  | .first => .update "r" "a" a
  | .second => .update "r" "b" b

theorem isKept_pairRow : pairRow.payload.IsKept :=
  Payload.isKept_of_allStorable (by simp [Source.AllStorable, pairRow, Value.classify])

theorem concerns_pairEdits (m n : Int) (t : Runner) :
    (pairEdits (.int m) (.int n) t).Concerns pairRow := by
  cases t <;> exact ⟨rfl, _, rfl⟩

theorem isSchedule_pairEdits {a b : Value} {σ : List Runner} (h : ∀ t, σ.count t = 2) :
    IsSchedule (pairEdits a b) σ := fun t => by
  rw [h]
  cases t <;> rfl

/-- One after the other, two edits are both kept. -/
theorem keepsBoth_in_turn :
    ∃ row', (run (fun _ => ⟨1⟩) [.first, .first, .second, .second]
        (start (pairEdits (.int 2) (.int 3)) pairDatabase)).db.rows.find? "r" = some row' ∧
      ∀ t, (pairEdits (.int 2) (.int 3) t).Shows row'.payload := by
  have hfound : pairDatabase.rows.find? pairRow.id = some pairRow := rfl
  have hσ : IsSchedule (pairEdits (.int 2) (.int 3)) [.first, .first, .second, .second] :=
    isSchedule_pairEdits fun t => by cases t <;> rfl
  obtain ⟨_, row', hfind, hboth⟩ := keepsBoth_iff (fun _ => ⟨1⟩) hfound isKept_pairRow
    (concerns_pairEdits 2 3) (by decide) hσ
  refine ⟨row', hfind, hboth.mpr fun t => ⟨fun hidle => ?_, fun hover => ?_⟩⟩
  · cases t <;> exact absurd hidle Bool.false_ne_true
  · cases t <;> exact absurd hover (by decide)

/-- If both read the row before one of them writes it, the edit that was written first is lost.
And even in turn, a cell with an integer is not set to the float that is equal to it. -/
theorem not_keepsBoth_of_reads :
    ((∀ t, (pairEdits (.int 2) (.int 3) t).Concerns pairRow) ∧
      IsSchedule (pairEdits (.int 2) (.int 3)) [.first, .second, .first, .second] ∧
      ∃ row', (run (fun _ => ⟨1⟩) [.first, .second, .first, .second]
          (start (pairEdits (.int 2) (.int 3)) pairDatabase)).db.rows.find? "r" = some row' ∧
        ¬ (pairEdits (.int 2) (.int 3) .first).Shows row'.payload) ∧
    ∃ row', (run (fun _ => ⟨1⟩) [.first, .first, .second, .second]
        (start (pairEdits (.float .zero) (.int 3)) pairDatabase)).db.rows.find? "r" =
          some row' ∧
      ¬ (pairEdits (.float .zero) (.int 3) .first).Shows row'.payload := by
  refine ⟨⟨concerns_pairEdits 2 3, isSchedule_pairEdits fun t => by cases t <;> rfl, _, rfl, ?_⟩,
    ⟨_, rfl, ?_⟩⟩
  · intro hshows
    cases hshows
  · intro hshows
    cases hshows

end Race

end RowStore

end Tabula
