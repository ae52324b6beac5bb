import Tabula.Proofs.Attempts
import Tabula.Proofs.CheckpointFiles
import Tabula.Proofs.NestedValues

/-!
# Damaged checkpoints

The file of a job may hold anything. A load finds a count in it exactly if the file is the text of an
object that names the job and has the count, whatever else stands in the object
(`Checkpoint.HoldsCount`, `Checkpoint.rows_ofBytes_iff`), and any other file counts as absent. The
exception is a file whose brackets are nested deeper than texts are read, at which the load fails. The
text of a value is such a file exactly if the value itself is nested so deep
(`Json.isTooDeep_write`).
-/

namespace Tabula

open Store

/-! ## What a file holds -/

namespace Checkpoint

variable {today : Date} {job : String} {folder : Folder} {bytes : List UInt8} {n : Int}

/-- The bytes are the text of an object that names the job and has the count. -/
structure HoldsCount (job : String) (bytes : List UInt8) (n : Int) : Prop where
  nonneg : 0 ≤ n
  exists_object : ∃ cs members, Text.utf8Decode bytes = .ok cs ∧
    Json.readChars cs = .ok (.dict members) ∧ Value.lookup "jobId" members = some (.text job) ∧
    Value.lookup "rowsProcessed" members = some (.int n)

theorem exists_lookup_of_get {v w : Value} {key : String} (h : v.get key = w) (hne : w ≠ .null) :
    ∃ members, v = .dict members ∧ Value.lookup key members = some w := by
  rw [Value.get] at h
  rcases hv : v.get? key with _ | w'
  · rw [hv] at h
    exact absurd h.symm hne
  · rw [hv, Option.getD_some] at h
    subst h
    cases v with
    | dict members => exact ⟨members, rfl, hv⟩
    | _ => cases hv

/-- The count is found whatever stands beside it, the timestamp included. -/
theorem rows_ofBytes_iff (today : Date) :
    (ofBytes today job bytes).map rows = some n ↔ HoldsCount job bytes n := by
  rw [ofBytes]
  constructor
  · intro h
    split at h
    · cases h
    · rename_i cs hcs
      split at h
      · cases h
      · rename_i v hv
        split at h
        · rename_i s m hjob hrows
          split at h
          · rename_i hsame
            obtain rfl : m = n := Option.some.inj h
            simp only [Bool.and_eq_true, beq_iff_eq, decide_eq_true_eq] at hsame
            obtain ⟨members, rfl, hname⟩ := exists_lookup_of_get hjob (by simp)
            obtain ⟨_, hmembers, hcount⟩ := exists_lookup_of_get hrows (by simp)
            obtain rfl := Value.dict.inj hmembers
            exact ⟨hsame.2, cs, members, hcs, hv, hsame.1 ▸ hname, hcount⟩
          · cases h
        · cases h
  · rintro ⟨hn, cs, members, hcs, hv, hjob, hrows⟩
    have hget : ∀ key, (Value.dict members).get key = (Value.lookup key members).getD .null :=
      fun _ => rfl
    simp only [hcs, hv, hget, hjob, hrows, Option.getD_some]
    simp [hn]

/-! ## What a load finds -/

/-- The file of the job has the count. -/
def Marked (job : String) (folder : Folder) (n : Int) : Prop :=
  ∃ bytes, folder.get? (fileName job) = some (.file bytes) ∧ isTooDeep bytes = false ∧
    HoldsCount job bytes n

/-- The file of the job is nested too deep to be read. -/
def Buried (job : String) (folder : Folder) : Prop :=
  ∃ bytes, folder.get? (fileName job) = some (.file bytes) ∧ isTooDeep bytes = true

theorem load_of_buried (hname : (fileName job).utf8ByteSize ≤ nameLimit) (h : Buried job folder)
    (today : Date) : load today job folder = .error (.fault .tooDeep) := by
  obtain ⟨bytes, hentry, hdeep⟩ := h
  rw [load, read_eq hname, hentry]
  simp only [hdeep, if_true]
  rfl

/-- A file that can be read is looked at, and anything else under the name is not. -/
theorem exists_load_of_not_buried (hname : (fileName job).utf8ByteSize ≤ nameLimit)
    (h : ¬ Buried job folder) (today : Date) :
    ∃ found, load today job folder = .ok found ∧ ∀ n, found = some n ↔ Marked job folder n := by
  rcases hentry : folder.get? (fileName job) with _ | bytes | _
  · refine ⟨none, by rw [load, read_eq hname, hentry]; rfl, fun n => ⟨nofun, ?_⟩⟩
    rintro ⟨bytes, hfile, -⟩
    rw [hentry] at hfile
    cases hfile
  · have hflat : isTooDeep bytes = false := Bool.eq_false_iff.mpr fun hdeep =>
      h ⟨bytes, hentry, hdeep⟩
    refine ⟨(ofBytes today job bytes).map rows, ?_, fun n => ?_⟩
    · rw [load, read_eq hname, hentry]
      simp only [hflat, Bool.false_eq_true, if_false]
      rfl
    · rw [rows_ofBytes_iff]
      refine ⟨fun hcount => ⟨bytes, hentry, hflat, hcount⟩, ?_⟩
      rintro ⟨bytes', hfile, -, hcount⟩
      rw [hentry] at hfile
      exact FileEntry.file.inj (Option.some.inj hfile) ▸ hcount
  · refine ⟨none, by rw [load, read_eq hname, hentry]; rfl, fun n => ⟨nofun, ?_⟩⟩
    rintro ⟨bytes, hfile, -⟩
    rw [hentry] at hfile
    cases hfile

theorem not_marked_of_buried (h : Buried job folder) (n : Int) : ¬ Marked job folder n := by
  rintro ⟨bytes, hentry, hflat, -⟩
  obtain ⟨bytes', hentry', hdeep⟩ := h
  rw [hentry] at hentry'
  rw [← FileEntry.file.inj (Option.some.inj hentry'), hflat] at hdeep
  cases hdeep

/-- A folder with one file, that of the small job. -/
def sampleFolder (text : String) : Folder := .entries [("job_1.json", .file (Text.utf8Encode text))]

end Checkpoint

end Tabula
