import Tabula.Proofs.Appending
import Tabula.Proofs.OwnTables
import Tabula.Proofs.RowBatches
import Tabula.Proofs.Stamps

/-!
# No two rows get one id

The id of a job's row tells the job, the batch and the place (`jobRowId_inj`). A row without a job
has a loose id : the stamp can be read off it, and in a batch the places differ. So the loose ids that
are given out between two stamps are distinct (`LooseIds`), and those given out later are others
(`LooseIds.append`), whatever the clock reads and whatever the random endings are.

`Turn` is what is done in a process between two states of the world. The ids that a turn gives out
have stamps behind the latest one (`Turn.looseIds`), so all those of a process are distinct
(`Turn.looseIds_given`).
-/

namespace Tabula

open Store Tabula.Action

namespace Batch

/-- The stamp of a loose id can be read off it. -/
theorem eq_of_looseRowId {stamp stamp' batch batch' : Int} {row row' : Nat} {ending ending' : String}
    (h : looseRowId stamp batch row ending = looseRowId stamp' batch' row' ending') :
    stamp = stamp' := by
  have h := congrArg String.toList h
  simp only [looseRowId, String.toList_append, List.append_assoc] at h
  replace h := congrArg (List.takeWhile (· ≠ '_')) (List.append_cancel_left h)
  have htake : ∀ (n : Int) (rest : List Char),
      ((integerText n).toList ++ ("_".toList ++ rest)).takeWhile (· ≠ '_') =
        (integerText n).toList := fun n =>
    takeWhile_append_cons (underscore_notMem_integerText n)
  rw [htake, htake] at h
  exact Int.repr_inj.mp (String.toList_injective h)

/-- Where a loose id has its stamp, the id of a job's row has the letters that ids of jobs begin
with. -/
theorem looseRowId_ne_jobRowId (stamp batch batch' : Int) (row row' : Nat) (ending token : String) :
    looseRowId stamp batch row ending ≠ jobRowId ("job_" ++ token) batch' row' := by
  intro h
  refine not_isPrefix_looseRowId stamp batch row ending ?_
  rw [h, jobRowId]
  simp only [String.toList_append, Text.fold, List.map_append, List.append_assoc]
  exact ⟨"ob_".toList ++ _, rfl⟩

/-- Distinct loose ids with stamps after one and up to another. -/
structure LooseIds (after upTo : Int) (ids : List String) : Prop where
  le : after ≤ upTo
  nodup : ids.Nodup
  stamps : ∀ id ∈ ids, ∃ stamp batch row ending, after < stamp ∧ stamp ≤ upTo ∧
    id = looseRowId stamp batch row ending

variable {after middle upTo : Int} {ids ids' : List String}

theorem looseIds_nil (h : after ≤ upTo) : LooseIds after upTo [] :=
  ⟨h, List.nodup_nil, List.forall_mem_nil _⟩

/-- Later stamps make other ids. -/
theorem LooseIds.append (h : LooseIds after middle ids) (h' : LooseIds middle upTo ids') :
    LooseIds after upTo (ids ++ ids') where
  le := h.le.trans h'.le
  nodup := by
    refine List.nodup_append.mpr ⟨h.nodup, h'.nodup, ?_⟩
    rintro id hid id' hid' rfl
    obtain ⟨stamp, _, _, _, -, hle, hstamp⟩ := h.stamps id hid
    obtain ⟨stamp', _, _, _, hlt, -, hstamp'⟩ := h'.stamps id hid'
    have := eq_of_looseRowId (hstamp.symm.trans hstamp')
    omega
  stamps := by
    refine List.forall_mem_append.mpr ⟨fun id hid => ?_, fun id hid => ?_⟩
    · obtain ⟨stamp, batch, row, ending, hlt, hle, hstamp⟩ := h.stamps id hid
      exact ⟨stamp, batch, row, ending, hlt, hle.trans h'.le, hstamp⟩
    · obtain ⟨stamp, batch, row, ending, hlt, hle, hstamp⟩ := h'.stamps id hid
      exact ⟨stamp, batch, row, ending, h.le.trans_lt hlt, hle, hstamp⟩

end Batch

open Batch

variable {s : Surroundings} {w w' : World}

/-- A loose batch has a stamp of its own. -/
theorem Workspace.looseIds_of_looseBatch {batch start : Int} {rows : List Value} {es : Batch}
    (h : looseBatch batch start rows s w = (.ok es, w')) :
    LooseIds w.lastStamp w'.lastStamp (es.map Entry.id) := by
  have hle := (ages_looseBatch batch start rows).le_of_run h
  obtain ⟨stamp, w₁, hstamp, h⟩ := ok_of_run_bind h
  obtain ⟨endings, w₂, hendings, h⟩ := ok_of_run_bind h
  obtain ⟨hencode, rfl⟩ := Prod.mk.inj h
  have hlater : w.lastStamp < stamp ∧ stamp ≤ w₂.lastStamp := by
    have hle := (ages_endings _).le_of_run hendings
    simp only [Action.stamp, Prod.mk.injEq, Except.ok.injEq] at hstamp
    obtain ⟨rfl, rfl⟩ := hstamp
    refine ⟨?_, hle⟩
    split <;> omega
  refine ⟨hle, nodup_of_encode (looseRowId_injective stamp batch _) hencode, fun id hid => ?_⟩
  obtain ⟨e, he, rfl⟩ := List.mem_map.mp hid
  obtain ⟨row, hid⟩ := exists_id_of_mem_encode hencode he
  exact ⟨stamp, batch, row, _, hlater.1, hlater.2, hid⟩

/-! ## All ids that are given out -/

/-- What is done in a process : rows without a job are encoded, or there is something else, which does
not turn the stamps back. Everything has its own surroundings, and may fail. -/
inductive Turn where
  | encode (s : Surroundings) (batch start : Int) (rows : List Value)
  | other (s : Surroundings) (x : Action Unit) (hx : Ages x)

namespace Turn

/-- The loose ids that are given out. -/
def ids : Turn → World → List String
  | encode s batch start rows, w =>
    match (Workspace.looseBatch batch start rows s w).1 with
    | .ok es => es.map Entry.id
    | .error _ => []
  | other _ _ _, _ => []

/-- The world behind the turn. -/
def after : Turn → World → World
  | encode s batch start rows, w => (Workspace.looseBatch batch start rows s w).2
  | other s x _, w => (x s w).2

/-- Rows whose cells may be stored get an id each. -/
theorem length_ids {rows : List Cells} (h : ∀ cells ∈ rows, Source.AllStorable cells)
    (s : Surroundings) (batch start : Int) (w : World) :
    ((encode s batch start (rows.map .object)).ids w).length = rows.length := by
  obtain ⟨es, w', hes⟩ := Workspace.exists_looseBatch h batch start s w
  have hlength := congrArg List.length (Workspace.positions_of_looseBatch hes)
  simpa [ids, hes] using hlength

/-- Whatever is done, the ids that are given out have new stamps. -/
theorem looseIds (t : Turn) (w : World) :
    LooseIds w.lastStamp (t.after w).lastStamp (t.ids w) := by
  cases t with
  | encode s batch start rows =>
    rw [ids, after]
    rcases hrun : Workspace.looseBatch batch start rows s w with ⟨why | es, w'⟩
    · exact looseIds_nil ((Workspace.ages_looseBatch batch start rows).le_of_run hrun)
    · exact Workspace.looseIds_of_looseBatch hrun
  | other s x hx => exact looseIds_nil (hx s w)

/-- The loose ids that are given out turn after turn. -/
def given : List Turn → World → List String
  | [], _ => []
  | t :: ts, w => t.ids w ++ given ts (t.after w)

theorem looseIds_given : ∀ (ts : List Turn) (w : World),
    ∃ upTo, LooseIds w.lastStamp upTo (given ts w)
  | [], w => ⟨w.lastStamp, looseIds_nil le_rfl⟩
  | t :: ts, w => by
    obtain ⟨upTo, hrest⟩ := looseIds_given ts (t.after w)
    exact ⟨upTo, (t.looseIds w).append hrest⟩

end Turn

/-- No two rows of any jobs have one id. Rows without a job get an id each, no two of them in a process
the same, whatever the clock reads and whatever the random endings are, and none that a row of a job
has whose own id begins as such ids do. -/
theorem rowIds_distinct :
    (∀ (job job' : String) (batch batch' : Int) (row row' : Nat),
      jobRowId job batch row = jobRowId job' batch' row' ↔ job = job' ∧ batch = batch' ∧ row = row') ∧
    (∀ (ts : List Turn) (w : World), (Turn.given ts w).Nodup ∧
      ∀ (token : String) (batch : Int) (row : Nat),
        jobRowId ("job_" ++ token) batch row ∉ Turn.given ts w) ∧
    ∀ (rows : List Cells), (∀ cells ∈ rows, Source.AllStorable cells) →
      ∀ (s : Surroundings) (batch start : Int) (w : World),
        ((Turn.encode s batch start (rows.map .object)).ids w).length = rows.length := by
  refine ⟨fun _ _ _ _ _ _ => jobRowId_inj, fun ts w => ?_, fun _ h => Turn.length_ids h⟩
  obtain ⟨upTo, h⟩ := Turn.looseIds_given ts w
  refine ⟨h.nodup, fun token batch row hid => ?_⟩
  obtain ⟨stamp, batch', row', ending, -, -, hid⟩ := h.stamps _ hid
  exact looseRowId_ne_jobRowId stamp batch' batch row' row ending token hid.symm

/-- Two batches while the clock stands still, with the same endings. -/
example :
    let s : Surroundings := ⟨⟨0⟩, .zero, fun _ => "", fun _ => 0⟩
    Turn.given [.encode s 0 0 [.object [], .object []], .encode s 0 2 [.object []]]
        ⟨.bare, .entries [], 0, 0, 0, []⟩ =
      [looseRowId 1 0 0 "aaaaaa", looseRowId 1 0 1 "aaaaaa", looseRowId 2 0 0 "aaaaaa"] := by
  decide +kernel

end Tabula
