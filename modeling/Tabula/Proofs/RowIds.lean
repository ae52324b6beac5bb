import Std.Data.String.ToInt
import Tabula.Proofs.Wildcards
import Tabula.Store.Rows

/-!
# The ids of a job's rows

An id made by `Batch.jobRowId` tells the job, the batch and the place it was made for
(`jobRowId_inj`) : digits have no underscore, so the last two underscores of the id are the
ones that were put there. No id of a row without a job begins like one of a job that was given its
own id (`not_isPrefix_looseRowId`). `Rows.ofJob` are the rows of a job.

The store finds them by a pattern instead. `likeText_jobPattern` says that the pattern of a
job matches the ids made for it, if it is not too long and the job's id has no zero character,
which the store takes for the end of a text.
-/

namespace Tabula

open Batch

/-! ## Ids tell what they were made for -/

theorem underscore_notMem_repr (n : Nat) : '_' ∉ n.repr.toList := fun h =>
  absurd (isDigit_of_mem_repr h) (by decide)

theorem underscore_notMem_integerText (n : Int) : '_' ∉ (integerText n).toList := fun h =>
  absurd (eq_or_isDigit_of_mem_integerText h) (by decide)

/-- Two lists that have one separator last were put together from the same parts. -/
theorem eq_of_append_cons_eq {α : Type} {c : α} {a a' b b' : List α} (hb : c ∉ b) (hb' : c ∉ b')
    (h : a ++ c :: b = a' ++ c :: b') : a = a' ∧ b = b' := by
  rcases List.append_eq_append_iff.mp h with ⟨as, rfl, hc⟩ | ⟨as, rfl, hc⟩
  · rcases as with _ | ⟨x, as⟩
    · simpa using hc
    · simp only [List.cons_append, List.cons.injEq] at hc
      exact absurd (by simp [hc.2]) hb
  · rcases as with _ | ⟨x, as⟩
    · simpa using hc.symm
    · simp only [List.cons_append, List.cons.injEq] at hc
      exact absurd (by simp [hc.2]) hb'

/-- What stands before the first separator. -/
theorem takeWhile_append_cons {α : Type} [DecidableEq α] {c : α} {a : List α} (ha : c ∉ a)
    (b : List α) : (a ++ c :: b).takeWhile (· ≠ c) = a := by
  rw [List.takeWhile_append_of_pos fun x hx => ?_]
  · simp
  · simpa using fun heq : x = c => ha (heq ▸ hx)

/-- The text that the ids of a job's rows begin with. -/
def idPrefix (job : String) : List Char := "row_".toList ++ job.toList ++ ['_']

theorem toList_jobRowId (job : String) (batch : Int) (row : Nat) :
    (jobRowId job batch row).toList =
      idPrefix job ++ ((integerText batch).toList ++ '_' :: row.repr.toList) := by
  simp [jobRowId, idPrefix]

/-- No two rows of any jobs have one id. -/
theorem jobRowId_inj {job job' : String} {batch batch' : Int} {row row' : Nat} :
    jobRowId job batch row = jobRowId job' batch' row' ↔
      job = job' ∧ batch = batch' ∧ row = row' := by
  refine ⟨fun h => ?_, fun ⟨h, h', h''⟩ => by rw [h, h', h'']⟩
  have h := congrArg String.toList h
  rw [toList_jobRowId, toList_jobRowId, ← List.append_assoc, ← List.append_assoc] at h
  obtain ⟨h, hrow⟩ := eq_of_append_cons_eq (underscore_notMem_repr _)
    (underscore_notMem_repr _) h
  simp only [idPrefix, List.append_assoc, List.singleton_append] at h
  rw [← List.append_assoc, ← List.append_assoc] at h
  obtain ⟨hjob, hbatch⟩ := eq_of_append_cons_eq (underscore_notMem_integerText _)
    (underscore_notMem_integerText _) h
  refine ⟨String.toList_injective (List.append_cancel_left hjob), ?_, ?_⟩
  · exact Int.repr_inj.mp (String.toList_injective hbatch)
  · exact Nat.repr_inj.mp (String.toList_injective hrow)

theorem foldChar_of_isDigit {c : Char} (h : c.isDigit = true) : Text.foldChar c = c := by
  have h9 : c.toNat ≤ 57 := (Char.isDigit_iff_toNat.mp h).2
  rw [Text.foldChar_eq_asciiLowerChar (by omega)]
  exact Text.asciiLowerChar_eq_self (by omega)

/-- Loose ids do not begin like those of jobs : where the latter have the letters that ids of jobs
begin with, a loose id has its stamp. -/
theorem not_isPrefix_looseRowId (stamp batch : Int) (row : Nat) (ending : String) :
    ¬ "row_j".toList <+: Text.fold (looseRowId stamp batch row ending).toList := by
  intro h
  simp only [looseRowId, String.toList_append, Text.fold, List.map_append, List.append_assoc] at h
  replace h := (List.prefix_append_right_inj "row_".toList).mp h
  rcases htext : (integerText stamp).toList with _ | ⟨c, rest⟩
  · rw [htext] at h
    exact absurd (List.cons_prefix_cons.mp h).1 (by decide)
  · rw [htext] at h
    have hj : 'j' = Text.foldChar c := (List.cons_prefix_cons.mp h).1
    rcases eq_or_isDigit_of_mem_integerText (htext ▸ List.mem_cons_self) with rfl | hc
    · exact absurd hj (by decide)
    · rw [foldChar_of_isDigit hc] at hj
      exact absurd (hj ▸ hc) (by decide)

/-! ## The rows of a job -/

/-- Whether an id was made for a row of the job. -/
def IsRowIdOf (job id : String) : Prop := ∃ batch row, id = jobRowId job batch row

namespace Store.Rows

open Classical in
/-- The rows that a job wrote, in the order in which they were appended. -/
noncomputable def ofJob (job : String) (rows : Rows) : Rows :=
  rows.filter fun r => IsRowIdOf job r.id

theorem mem_ofJob {job : String} {rows : Rows} {r : Row} :
    r ∈ ofJob job rows ↔ r ∈ rows ∧ IsRowIdOf job r.id := by
  simp [ofJob]

theorem ofJob_append (job : String) (rows rows' : Rows) :
    ofJob job (rows ++ rows') = ofJob job rows ++ ofJob job rows' := by
  simp [ofJob]

theorem ofJob_eq_self {job : String} {rows : Rows} (h : ∀ r ∈ rows, IsRowIdOf job r.id) :
    ofJob job rows = rows := by
  simpa [ofJob] using h

end Store.Rows

/-! ## The pattern of a job -/

theorem toNat_ne_zero_of_isDigit {c : Char} (h : c.isDigit = true) : c.toNat ≠ 0 :=
  ((by decide : 0 < '0'.toNat).trans_le (Char.isDigit_iff_toNat.mp h).1).ne'

theorem hasNoZero_repr (n : Nat) : HasNoZero n.repr := fun _ hc =>
  toNat_ne_zero_of_isDigit (isDigit_of_mem_repr hc)

theorem hasNoZero_integerText (n : Int) : HasNoZero (integerText n) := by
  intro c hc
  rcases eq_or_isDigit_of_mem_integerText hc with rfl | h
  · decide
  · exact toNat_ne_zero_of_isDigit h

theorem hasNoZero_jobRowId {job : String} (h : HasNoZero job) (batch : Int) (row : Nat) :
    HasNoZero (jobRowId job batch row) := by
  have hr : HasNoZero "row_" := by simp [HasNoZero]
  have hu : HasNoZero "_" := by simp [HasNoZero]
  exact ((((hr.append h).append hu).append (hasNoZero_integerText batch)).append hu).append
    (hasNoZero_repr row)

theorem toList_idPrefix (job : String) : ("row_" ++ job ++ "_").toList = idPrefix job := by
  simp [idPrefix]

theorem hasNoZero_jobPattern {job : String} (h : HasNoZero job) :
    HasNoZero (Store.Rows.jobPattern job) :=
  Store.hasNoZero_beginsPattern ((HasNoZero.append (by decide) h).append (by decide))

/-- The pattern of a job matches what begins like the ids of its rows. -/
theorem like_jobPattern_iff {job : String} {cs : List Char} :
    Text.like (Store.Rows.jobPattern job).toList cs = true ↔
      Text.fold (idPrefix job) <+: Text.fold cs := by
  rw [Store.Rows.jobPattern, Text.like_iff_likes, Text.likes_beginsPattern, toList_idPrefix]

/-- The pattern of a job matches the ids of its rows, unless it is too long. -/
theorem likeText_jobPattern {job : String} (h0 : HasNoZero job) (batch : Int) (row : Nat) :
    Store.likeText (Store.Rows.jobPattern job) (some (jobRowId job batch row)) =
      if Store.patternLimit < (Store.Rows.jobPattern job).utf8ByteSize then .error .longPattern
      else .ok true := by
  have hid : Text.like (Store.Rows.jobPattern job).toList (jobRowId job batch row).toList := by
    rw [like_jobPattern_iff, toList_jobRowId, Text.fold, Text.fold, List.map_append]
    exact List.prefix_append _ _
  simp only [Store.likeText]
  rw [Store.upToZero_eq (hasNoZero_jobPattern h0), Option.any_some,
    Store.upToZero_eq (hasNoZero_jobRowId h0 batch row), hid]

end Tabula
