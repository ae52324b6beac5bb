import Tabula.Ingest.Path
import Tabula.Ingest.Outage
import Tabula.Proofs.CheckpointHistories

/-!
# Paths of checkpoints

A text without a slash that is neither empty nor `.` is one step of a path (`Path.join_eq_child`).
The ids that name a checkpoint are such texts : letters and digits of ASCII, underscores, points and
hyphens, and a line feed may stand at the end (`Checkpoint.isSafeId_iff`). Any other id is refused
before something is asked of the file system (`Checkpoint.Refused`). So a checkpoint is in its
directory and nowhere else, under a name that no other checkpoint and no temporary file has
(`Checkpoint.path_safe`).
-/

namespace Tabula

/-! ## One step of a path -/

namespace Path

variable {directory : Path} {text : String}

/-- The file of a directory with a name. -/
def child (directory : Path) (name : String) : Path := ⟨directory.root, directory.names ++ [name]⟩

@[simp] theorem parent_child (directory : Path) (name : String) :
    (directory.child name).parent = directory := by
  simp [child, parent]

@[simp] theorem name_child (directory : Path) (name : String) :
    (directory.child name).name = name := by
  simp [child, Path.name]

theorem rootOf_eq_empty (h : '/' ∉ text.toList) : rootOf text = "" := by
  have hnone : text.toList.takeWhile (· = '/') = [] := by
    rcases htext : text.toList with _ | ⟨c, cs⟩
    · rfl
    · have hc : c ≠ '/' := by
        rintro rfl
        exact h (htext ▸ List.mem_cons_self)
      simp [hc]
  rw [rootOf, hnone]
  rfl

theorem namesOf_eq_singleton (h : '/' ∉ text.toList) (hempty : text ≠ "") (hpoint : text ≠ ".") :
    namesOf text = [text] := by
  rw [namesOf, List.splitOn_eq_singleton h]
  simp [hempty, hpoint]

theorem join_eq_child (h : '/' ∉ text.toList) (hempty : text ≠ "") (hpoint : text ≠ ".") :
    directory.join text = directory.child text := by
  rw [join, if_pos (rootOf_eq_empty h), namesOf_eq_singleton h hempty hpoint, child]

end Path

namespace Checkpoint

/-! ## The ids that name a checkpoint -/

/-- A letter or a digit of ASCII, an underscore, a point or a hyphen. -/
def IsNameChar (c : Char) : Prop :=
  (65 ≤ c.toNat ∧ c.toNat ≤ 90) ∨ (97 ≤ c.toNat ∧ c.toNat ≤ 122) ∨
    (48 ≤ c.toNat ∧ c.toNat ≤ 57) ∨ c = '_' ∨ c = '.' ∨ c = '-'

/-- Whether a text has at least one character and all are those of names. -/
def IsName (s : String) : Prop := s ≠ "" ∧ ∀ c ∈ s.toList, IsNameChar c

instance (c : Char) : Decidable (IsNameChar c) :=
  inferInstanceAs (Decidable (_ ∨ _))

-- The characters of the text are tried, and not all characters that there are.
instance (s : String) : Decidable (IsName s) :=
  @instDecidableAnd _ _ inferInstance (List.decidableBAll IsNameChar s.toList)

variable {directory p : Path} {s : String} {e : Failure}

theorem isSafe_iff {c : Char} : isSafe c = true ↔ IsNameChar c := by
  have hupper : c.isUpper = true ↔ 65 ≤ c.toNat ∧ c.toNat ≤ 90 := decide_eq_true_iff
  have hlower : c.isLower = true ↔ 97 ≤ c.toNat ∧ c.toNat ≤ 122 := by
    rw [show c.isLower = (decide (97 ≤ c.toNat) && decide (c.toNat ≤ 122)) from rfl]
    simp
  have hdigit : c.isDigit = true ↔ 48 ≤ c.toNat ∧ c.toNat ≤ 57 := Char.isDigit_iff_toNat
  have halpha : c.isAlpha = (c.isUpper || c.isLower) := rfl
  simp only [isSafe, halpha, Bool.or_eq_true, decide_eq_true_eq, hupper, hlower, hdigit,
    IsNameChar, or_assoc]

theorem not_isName_of_lineFeed (body : String) : ¬ IsName (body ++ "\n") := fun h =>
  absurd (h.2 '\n' (by simp)) (by decide)

/-- The line feed at the end is the only difference. -/
theorem isSafeId_iff : isSafeId s = true ↔ IsName s ∨ ∃ body, IsName body ∧ s = body ++ "\n" := by
  have hname : ∀ cs : List Char,
      (!cs.isEmpty && cs.all isSafe) = true ↔ IsName (String.ofList cs) := fun cs => by
    simp [IsName, isSafe_iff, String.ofList_eq_empty_iff]
  by_cases hlast : s.toList.getLast? = some '\n'
  · obtain ⟨cs, hcs⟩ := List.getLast?_eq_some_iff.mp hlast
    have hs : s = String.ofList cs ++ "\n" := String.toList_injective (by simp [hcs])
    rw [isSafeId, hcs]
    simp only [List.getLast?_concat, if_true, List.dropLast_concat, hname]
    refine ⟨fun h => .inr ⟨_, h, hs⟩, ?_⟩
    rintro (h | ⟨body, hbody, hs'⟩)
    · exact absurd (hs ▸ h) (not_isName_of_lineFeed _)
    · have hchars := congrArg String.toList (hs.symm.trans hs')
      rw [String.toList_append, String.toList_append] at hchars
      rwa [String.toList_injective (List.append_cancel_right hchars)]
  · rw [isSafeId]
    simp only [if_neg hlast, hname, String.ofList_toList]
    refine ⟨.inl, ?_⟩
    rintro (h | ⟨body, -, rfl⟩)
    · exact h
    · exact absurd (by simp) hlast

theorem jobId_text_of_not_isSafeId (h : ¬ isSafeId s = true) :
    jobId (.text s) = .error (.invalid (.jobId (.text s))) := by
  rw [jobId]
  split_ifs <;> rfl

theorem path_eq_ok_iff : path directory (.text s) = .ok p ↔
    isSafeId s = true ∧ directory.join (fileName s) = p := by
  by_cases h : isSafeId s = true
  · simp [path, jobId_of_isSafeId h, h, Except.map]
  · simp [path, jobId_text_of_not_isSafeId h, h, Except.map]

/-! ## Ids that are refused -/

/-- What becomes of the uses of the checkpoint of a job that cannot have one. Each is answered with
the failure and changes nothing, whatever the file system would refuse. -/
structure Refused (s : String) (e : Failure) : Prop where
  path : ∀ directory, path directory (.text s) = .error e
  name : Checkpoints.fileName (.text s) = .error e
  call : ∀ call : CheckpointCall, call.job = s → ∀ folder, call.run folder = (.error e, folder)
  read : ∀ around w, Checkpoints.read (.text s) around w = (.error e, w)
  load : ∀ (o : Outage) around w, o.load s around w = (.error e, w)
  save : ∀ (o : Outage) rows around w, o.save s rows around w = (.error e, w)
  clear : ∀ (o : Outage) around w, o.clear s around w = (.error e, w)

theorem refused_of_jobId (h : jobId (.text s) = .error e) : Refused s e where
  path directory := by rw [Checkpoint.path, h]; rfl
  name := by rw [Checkpoints.fileName, h]; rfl
  call call hcall folder := by
    subst hcall
    simp only [CheckpointCall.run, h]
  read around w := Action.run_bind_error (by rw [Action.run_liftM, h]) _
  load o around w := Action.run_bind_error (by rw [Action.run_liftM, h]) _
  save o rows around w := Action.run_bind_error (by rw [Action.run_liftM, h]) _
  clear o around w := Action.run_bind_error (by rw [Action.run_liftM, h]) _

/-! ## Ids that name a file -/

theorem mem_of_isSafeId (h : isSafeId s = true) {c : Char} (hc : c ∈ s.toList) :
    IsNameChar c ∨ c = '\n' := by
  rcases isSafeId_iff.mp h with h | ⟨body, hbody, rfl⟩
  · exact .inl (h.2 c hc)
  · rw [String.toList_append, List.mem_append] at hc
    exact hc.imp (hbody.2 c) List.mem_singleton.mp

theorem not_slash_mem_fileName (h : isSafeId s = true) : '/' ∉ (fileName s).toList := by
  intro hc
  rw [fileName, String.toList_append, List.mem_append] at hc
  rcases hc with hc | hc
  · exact absurd (mem_of_isSafeId h hc) (by decide)
  · exact absurd hc (by decide)

/-- A path is a file of a directory itself : one step from there, which is not back. -/
structure IsFileOf (p directory : Path) : Prop where
  parent : p.parent = directory
  names : p.names = directory.names ++ [p.name]
  step : p.name ≠ "" ∧ p.name ≠ "." ∧ p.name ≠ ".." ∧ '/' ∉ p.name.toList

theorem fileName_ne (s : String) : fileName s ≠ "" ∧ fileName s ≠ "." ∧ fileName s ≠ ".." := by
  have hlast (other : String) (hother : other.toList.getLast? ≠ some 'n') : fileName s ≠ other := by
    rintro rfl
    exact hother (by simp [fileName])
  exact ⟨hlast _ (by decide), hlast _ (by decide), hlast _ (by decide)⟩

theorem join_fileName (h : isSafeId s = true) (directory : Path) :
    directory.join (fileName s) = directory.child (fileName s) :=
  Path.join_eq_child (not_slash_mem_fileName h) (fileName_ne s).1 (fileName_ne s).2.1

theorem isFileOf_child (h : isSafeId s = true) (directory : Path) :
    IsFileOf (directory.child (fileName s)) directory where
  parent := Path.parent_child _ _
  names := by rw [Path.name_child, Path.child]
  step := by
    rw [Path.name_child]
    exact ⟨(fileName_ne s).1, (fileName_ne s).2.1, (fileName_ne s).2.2, not_slash_mem_fileName h⟩

/-- The path of a checkpoint is safe. A job has one exactly if its id is a name, or a name and a line
feed; any other text is refused as an id before a file is touched. A path is that of a file of the
directory itself, another job has another path, and no job has a temporary file of that name. -/
theorem path_safe (directory : Path) (s : String) :
    ((∃ p, path directory (.text s) = .ok p) ↔
      IsName s ∨ ∃ body, IsName body ∧ s = body ++ "\n") ∧
    ((¬ ∃ p, path directory (.text s) = .ok p) → Refused s (.invalid (.jobId (.text s)))) ∧
    ∀ p, path directory (.text s) = .ok p →
      IsFileOf p directory ∧ Checkpoints.fileName (.text s) = .ok p.name ∧
      (∀ s' p', path directory (.text s') = .ok p' → (p = p' ↔ s = s')) ∧
      ∀ job ending, p.name ≠ Saving.temporaryName job ending := by
  have hpath : (∃ p, path directory (.text s) = .ok p) ↔ isSafeId s = true := by
    simp [path_eq_ok_iff]
  refine ⟨hpath.trans isSafeId_iff, fun hnone =>
    refused_of_jobId (jobId_text_of_not_isSafeId (mt hpath.mpr hnone)), fun p hp => ?_⟩
  obtain ⟨hsafe, rfl⟩ := path_eq_ok_iff.mp hp
  rw [join_fileName hsafe]
  refine ⟨isFileOf_child hsafe directory, ?_, fun s' p' hp' => ?_, fun job ending => ?_⟩
  · rw [Path.name_child, Checkpoints.fileName, jobId_of_isSafeId hsafe]
    rfl
  · obtain ⟨hsafe', rfl⟩ := path_eq_ok_iff.mp hp'
    rw [join_fileName hsafe', ← fileName_inj]
    refine ⟨fun heq => ?_, fun heq => by rw [heq]⟩
    simpa using congrArg Path.name heq
  · rw [Path.name_child]
    exact (Saving.temporaryName_ne job ending s).symm

/-- An id of points only is still a file of the directory, and is not that of the id with one point
less; the id of a path out of the directory is refused. -/
theorem path_safe_of_points :
    let directory : Path := ⟨"/", ["var", "checkpoints"]⟩
    path directory (.text "..") = .ok ⟨"/", ["var", "checkpoints", "...json"]⟩ ∧
      IsFileOf ⟨"/", ["var", "checkpoints", "...json"]⟩ directory ∧
      (∀ job ending, "...json" ≠ Saving.temporaryName job ending) ∧
      Refused "../job_1" (.invalid (.jobId (.text "../job_1"))) := by
  intro directory
  have hpath : path directory (.text "..") = .ok ⟨"/", ["var", "checkpoints", "...json"]⟩ :=
    path_eq_ok_iff.mpr (by decide +kernel)
  obtain ⟨-, -, hfile⟩ := path_safe directory ".."
  obtain ⟨hfile, -, -, htemporary⟩ := hfile _ hpath
  obtain ⟨hiff, hrefused, -⟩ := path_safe directory "../job_1"
  refine ⟨hpath, hfile, htemporary, hrefused fun h => ?_⟩
  rcases hiff.mp h with h | ⟨body, -, hbody⟩
  · exact absurd h (by decide)
  · have hlast := congrArg (fun s : String => s.toList.getLast?) hbody
    simp at hlast

/-- A line feed at the end is let through, though it is no character of names. -/
theorem path_of_lineFeed :
    ¬ ((∃ p, path ⟨"", ["checkpoints"]⟩ (.text "job_1\n") = .ok p) ↔ IsName "job_1\n") := by
  have hpath : path ⟨"", ["checkpoints"]⟩ (.text "job_1\n") =
      .ok ⟨"", ["checkpoints", "job_1\n.json"]⟩ := path_eq_ok_iff.mpr (by decide +kernel)
  exact fun h => absurd (h.mp ⟨_, hpath⟩) (by decide)

end Checkpoint

end Tabula
