import Tabula.Proofs.Integrity
import Tabula.Proofs.Lifecycle
import Tabula.Proofs.WeakOrder

/-!
# Jobs in line

The jobs of a table that have work to do wait in line, the newest first (`Ledger.pairwise_waiting`).
A job that is changed keeps its place, as neither its id nor its table nor the moment when it was
made changes (`Job.Stands`). So once the first in line has ended the others are left
(`Ledger.waiting_put_of_first`), and while it has work to do it stays the first
(`Ledger.findActive_put`). Counting rows keeps a job processing (`Ledger.counts_of_advance`).
-/

namespace Tabula

namespace Job

/-- A later state of a job in its place among the others. -/
structure Stands (j j' : Job) : Prop where
  id : j'.id = j.id
  table : j'.table = j.table
  createdAt : j'.createdAt = j.createdAt

theorem Stands.refl (j : Job) : j.Stands j := ⟨rfl, rfl, rfl⟩

theorem Stands.trans {j j' j'' : Job} (h : j.Stands j') (h' : j'.Stands j'') : j.Stands j'' :=
  ⟨h'.id.trans h.id, h'.table.trans h.table, h'.createdAt.trans h.createdAt⟩

theorem Changes.stands {now : Moment} {j j' : Job} (h : j.Changes now j') : j.Stands j' := by
  cases h <;> exact ⟨rfl, rfl, rfl⟩

end Job

namespace Ledger

variable {ledger : Ledger} {table : Option String} {id : String} {j j' : Job}

theorem isOf_congr (h : j.Stands j') : isOf table j' = isOf table j := by
  rcases table with _ | t
  · rfl
  · simp only [isOf, h.table]

theorem newerOrSame_congr {k k' : Job} (hj : j.Stands j') (hk : k.Stands k') :
    newerOrSame j' k' = newerOrSame j k := by
  simp only [newerOrSame, hj.id, hj.createdAt, hk.id, hk.createdAt]

theorem newerOrSame_iff {a b : Job} : newerOrSame a b = true ↔
    b.createdAt.micros < a.createdAt.micros ∨
      a.createdAt.micros = b.createdAt.micros ∧ b.id ≤ a.id := by
  have hmoment : a.createdAt = b.createdAt ↔ a.createdAt.micros = b.createdAt.micros :=
    ⟨congrArg Moment.micros, fun h => congrArg Moment.mk h⟩
  rw [newerOrSame, Bool.or_eq_true, Bool.and_eq_true, decide_eq_true_iff, beq_iff_eq, hmoment,
    Bool.not_eq_true', decide_eq_false_iff_not, String.not_lt]

theorem newerOrSame_trans (a b c : Job) (h : newerOrSame a b = true)
    (h' : newerOrSame b c = true) : newerOrSame a c = true := by
  rw [newerOrSame_iff] at *
  rcases h with h | ⟨h, hid⟩ <;> rcases h' with h' | ⟨h', hid'⟩
  · exact .inl (h'.trans h)
  · exact .inl (h' ▸ h)
  · exact .inl (h ▸ h')
  · exact .inr ⟨h.trans h', String.le_trans hid' hid⟩

theorem newerOrSame_total (a b : Job) : (newerOrSame a b || newerOrSame b a) = true := by
  rw [Bool.or_eq_true, newerOrSame_iff, newerOrSame_iff]
  rcases lt_trichotomy a.createdAt.micros b.createdAt.micros with h | h | h
  · exact .inr (.inl h)
  · rcases String.le_total a.id b.id with hid | hid
    · exact .inr (.inr ⟨h.symm, hid⟩)
    · exact .inl (.inr ⟨h, hid⟩)
  · exact .inl (.inl h)

theorem put_put (h : j.id = j'.id) (ledger : Ledger) : (ledger.put j).put j' = ledger.put j' := by
  rw [put, put, put, List.map_map]
  refine List.map_congr_left fun k _ => ?_
  by_cases hk : k.id = j'.id <;> simp [h, hk]

/-- There is one job with an id. -/
theorem eq_of_find? (hnodup : (ledger.map Job.id).Nodup) (hj : ledger.find? id = some j) {k : Job}
    (hk : k ∈ ledger) (hid : k.id = id) : k = j :=
  List.inj_on_of_nodup_map hnodup hk (mem_of_find? hj) (hid.trans (id_of_find? hj).symm)

theorem put_self (hnodup : (ledger.map Job.id).Nodup) (hj : ledger.find? id = some j) :
    ledger.put j = ledger := by
  rw [put]
  refine (List.map_congr_left fun k hk => ?_).trans (List.map_id ledger)
  split
  · rename_i hid
    exact (eq_of_find? hnodup hj hk ((beq_iff_eq.mp hid).trans (id_of_find? hj))).symm
  · rfl

/-- Jobs that are changed in their places stay in line. -/
theorem newestFirst_put (hnodup : (ledger.map Job.id).Nodup) (hj : ledger.find? id = some j)
    (h : j.Stands j') (table : Option String) :
    (ledger.put j').newestFirst table =
      (ledger.newestFirst table).map fun k => if k.id == j'.id then j' else k := by
  have hstands : ∀ k ∈ ledger, k.Stands (if k.id == j'.id then j' else k) := by
    intro k hk
    split
    · rename_i hid
      obtain rfl := eq_of_find? hnodup hj hk
        ((beq_iff_eq.mp hid).trans (h.id.trans (id_of_find? hj)))
      exact h
    · exact .refl k
  have hfilter : (ledger.put j').filter (isOf table) =
      (ledger.filter (isOf table)).map fun k => if k.id == j'.id then j' else k := by
    rw [put, List.filter_map]
    exact congrArg _ (List.filter_congr fun k hk => isOf_congr (hstands k hk))
  rw [newestFirst, newestFirst, hfilter]
  refine (List.map_mergeSort fun a ha b hb => ?_).symm
  exact (newerOrSame_congr (hstands a (List.mem_filter.mp ha).1)
    (hstands b (List.mem_filter.mp hb).1)).symm

/-- The jobs of a table that have work to do, newest first. -/
def waiting (table : Option String) (ledger : Ledger) : List Job :=
  (ledger.newestFirst table).filter Job.isActive

theorem findActive_eq (ledger : Ledger) (table : Option String) :
    findActive ledger table = (ledger.waiting table).head? := by
  rw [findActive, waiting, List.head?_filter]

theorem mem_waiting : j ∈ ledger.waiting table ↔ j ∈ ledger ∧ isOf table j = true ∧
    j.isActive = true := by
  rw [waiting, List.mem_filter, newestFirst, List.mem_mergeSort, List.mem_filter, and_assoc]

theorem nodup_waiting (hnodup : (ledger.map Job.id).Nodup) (table : Option String) :
    ((ledger.waiting table).map Job.id).Nodup := by
  refine List.Nodup.sublist (List.filter_sublist.map Job.id) ?_
  rw [newestFirst, ((List.mergeSort_perm _ _).map Job.id).nodup_iff]
  exact hnodup.sublist (List.filter_sublist.map Job.id)

/-- Jobs wait in the order in which they were made, the newest first. -/
theorem pairwise_waiting (ledger : Ledger) (table : Option String) :
    (ledger.waiting table).Pairwise fun a b => newerOrSame a b = true :=
  (List.pairwise_mergeSort newerOrSame_trans newerOrSame_total _).sublist List.filter_sublist

theorem length_waiting_le (ledger : Ledger) (table : Option String) :
    (ledger.waiting table).length ≤ ledger.length := by
  refine (List.length_filter_le _ _).trans ?_
  rw [newestFirst, List.length_mergeSort]
  exact List.length_filter_le _ _

theorem find?_of_mem (hnodup : (ledger.map Job.id).Nodup) (hj : j ∈ ledger) :
    ledger.find? j.id = some j :=
  find?_eq_some_of_nodup hnodup hj

/-- A job in line that has ended leaves it, and the others stay. -/
theorem waiting_put_of_ended (hnodup : (ledger.map Job.id).Nodup) (hj : ledger.find? id = some j)
    (h : j.Stands j') (hended : j'.isActive = false) (table : Option String) :
    (ledger.put j').waiting table = (ledger.waiting table).filter fun k => k.id != j'.id := by
  have hactive : ∀ k : Job, (if k.id == j'.id then j' else k).isActive =
      ((k.id != j'.id) && k.isActive) := by
    intro k
    by_cases hk : k.id = j'.id <;> simp [hk, hended]
  rw [waiting, newestFirst_put hnodup hj h, List.filter_map, waiting, List.filter_filter]
  refine (List.map_congr_left fun k hk => ?_).trans
    ((List.map_id _).trans (List.filter_congr fun k _ => hactive k))
  rw [List.mem_filter, Function.comp_apply, hactive, Bool.and_eq_true, bne_iff_ne] at hk
  rw [if_neg (by simpa using hk.2.1)]
  rfl

/-- Once the first in line has ended, the others are left. -/
theorem waiting_put_of_first (hnodup : (ledger.map Job.id).Nodup) {rest : List Job}
    (hline : ledger.waiting table = j :: rest) (h : j.Stands j') (hended : j'.isActive = false) :
    (ledger.put j').waiting table = rest := by
  have hmem : j ∈ ledger := (mem_waiting.mp (hline ▸ List.mem_cons_self)).1
  have hrest := nodup_waiting hnodup table
  rw [hline, List.map_cons, List.nodup_cons] at hrest
  rw [waiting_put_of_ended hnodup (find?_of_mem hnodup hmem) h hended, hline, List.filter_cons,
    if_neg (by simp [h.id])]
  refine List.filter_eq_self.mpr fun k hk => bne_iff_ne.mpr fun hid => hrest.1 ?_
  exact List.mem_map.mpr ⟨k, hk, hid.trans h.id⟩

/-- While the first in line is at work, it stays the first. -/
theorem findActive_put (hnodup : (ledger.map Job.id).Nodup) {rest : List Job}
    (hline : ledger.waiting table = j :: rest) (h : j.Stands j') (hactive : j'.isActive = true) :
    (ledger.put j').findActive table = some j' := by
  have hj := mem_waiting.mp (hline ▸ List.mem_cons_self : j ∈ ledger.waiting table)
  have hfind := find?_of_mem hnodup hj.1
  have hsame : ∀ k ∈ ledger.newestFirst table,
      (if k.id == j'.id then j' else k).isActive = k.isActive := by
    intro k hk
    split
    · rename_i hid
      rw [newestFirst, List.mem_mergeSort, List.mem_filter] at hk
      obtain rfl := eq_of_find? hnodup hfind hk.1 ((beq_iff_eq.mp hid).trans h.id)
      rw [hactive, hj.2.2]
    · rfl
  have hwaiting : (ledger.put j').waiting table =
      (ledger.waiting table).map fun k => if k.id == j'.id then j' else k := by
    rw [waiting, newestFirst_put hnodup hfind h, List.filter_map]
    exact congrArg _ (List.filter_congr hsame)
  rw [findActive_eq, hwaiting, hline, List.map_cons, List.head?_cons, if_pos (by simp [h.id])]

theorem stands_of_markProcessing {now : Moment} {resumeFrom : Option Int} {base : Int}
    {ledger' : Ledger}
    (h : markProcessing now id resumeFrom (some base) ledger = .ok (j', ledger')) :
    ∃ j, ledger.find? id = some j ∧ j.Stands j' ∧ ledger' = ledger.put j' := by
  obtain ⟨j, hj, rfl, hrestarted⟩ := restarted_of_markProcessing h
  refine ⟨j, hj, ?_, rfl⟩
  have hfound := find?_put_self (hrestarted.continues.id.trans (id_of_find? hj)) hj
  -- What is found then is the job that is returned, and a change of the one before.
  generalize hput : ledger.put j' = ledger' at h hfound
  cases outcome_of_markProcessing h with
  | made hnone => exact absurd (hnone.symm.trans hj) (by simp)
  | changed hj₁ hchanges =>
    obtain rfl := Option.some.inj (hj₁.symm.trans hj)
    have hfound' := find?_put_self (hchanges.stands.id.trans (id_of_find? hj)) hj
    obtain rfl := Option.some.inj (hfound.symm.trans hfound')
    exact hchanges.stands

/-! ## A job that is counted -/

/-- A processing job goes on processing, and no other job is touched. -/
def Counts (id : String) (ledger ledger' : Ledger) : Prop :=
  ∀ j, ledger.find? id = some j → j.status = .processing →
    ∃ j', ledger'.find? id = some j' ∧ j'.status = .processing ∧ j.Stands j' ∧
      ∀ k : Job, k.id = id → ledger'.put k = ledger.put k

theorem Counts.refl (id : String) (ledger : Ledger) : Counts id ledger ledger :=
  fun j hj hs => ⟨j, hj, hs, .refl j, fun _ _ => rfl⟩

theorem Counts.trans {ledger₁ ledger₂ ledger₃ : Ledger} (h : Counts id ledger₁ ledger₂)
    (h' : Counts id ledger₂ ledger₃) : Counts id ledger₁ ledger₃ := by
  intro j hj hs
  obtain ⟨j₂, hj₂, hs₂, hstands₂, hput₂⟩ := h j hj hs
  obtain ⟨j₃, hj₃, hs₃, hstands₃, hput₃⟩ := h' j₂ hj₂ hs₂
  exact ⟨j₃, hj₃, hs₃, hstands₂.trans hstands₃, fun k hk => (hput₃ k hk).trans (hput₂ k hk)⟩

theorem counts_of_advance {now : Moment} {delta : Int} {x : Binary64} {ledger' : Ledger}
    (h : advance now id delta ledger = .ok (x, ledger')) : Counts id ledger ledger' := by
  rw [advance] at h
  split at h
  · cases h
  · obtain ⟨_, _, h⟩ := ok_of_bind h
    obtain ⟨j, hj, h⟩ := ok_of_bind h
    split at h
    · cases h
    · rename_i hs
      obtain ⟨y, _, h⟩ := ok_of_bind h
      obtain ⟨_, rfl⟩ := Prod.mk.inj (Except.ok.inj h)
      intro k hk _
      obtain rfl := Option.some.inj (hk.symm.trans (find?_of_get hj))
      let counted : Job := { k with
        processed := Store.sum k.processed delta, progress := k.progress.max y, updatedAt := now }
      have hid : counted.id = id := by
        rw [← id_of_find? hk]
      exact ⟨counted, find?_put_self hid hk, not_not.mp hs, ⟨rfl, rfl, rfl⟩,
        fun other hother => put_put (hid.trans hother.symm) ledger⟩

end Ledger

end Tabula
