import Tabula.Ingest.Saving
import Tabula.Proofs.CheckpointFiles

/-!
# Histories of checkpoints

A save in steps either goes well, and then it is `Checkpoint.save`, or fails and leaves the folder as
it was, the temporary file included (`Saving.save_of_permits`, `Saving.save_of_not_permits`). So a
call can only go in the ways of `CheckpointCall.Step`, in each of which all entries but that of its
job stay as they were. Over a history a job has the count of its last save, unless a removal came
behind it (`CheckpointCall.load_after`).
-/

namespace Tabula

/-! ## Entries under a temporary name -/

namespace Folder

variable {name other : String} {es : List (String × FileEntry)}

theorem lookup_cons (e : String × FileEntry) :
    lookup (e :: es) name = if e.1 = name then some e.2 else lookup es name := by
  by_cases h : e.1 = name
  · simp [lookup, h]
  · simp [lookup, h]

theorem remove_put (h : lookup es name = none) (entry : FileEntry) :
    remove name (put name entry es) = es := by
  induction es with
  | nil => simp [put, remove]
  | cons e es ih =>
    rw [lookup_cons] at h
    split at h
    · cases h
    · rename_i hne
      have ih : (put name entry es).filter (fun e => e.1 != name) = es := ih h
      simp [put, remove, hne, ih]

theorem put_put (name : String) (entry entry' : FileEntry) :
    put name entry' (put name entry es) = put name entry' es := by
  induction es with
  | nil => simp [put]
  | cons e es ih =>
    by_cases h : e.1 = name <;> simp [put, h, ih]

/-- What is put under a free name and moved from there is put in the other place. -/
theorem rename_put (h : lookup es name = none) (entry : FileEntry) :
    rename name other (put name entry es) = put other entry es := by
  rw [rename, lookup_put, if_pos rfl, remove_put h]

end Folder

theorem Checkpoint.save_eq_ok {now : Moment} {job : String} {rows : Int}
    {es : List (String × FileEntry)} (hnames : job.utf8ByteSize + temporaryExtra ≤ nameLimit)
    (hplace : Folder.lookup es (fileName job) ≠ some .directory) :
    Checkpoint.save now job rows (.entries es) = .ok (.entries (Folder.put (fileName job)
      (.file (Text.utf8Encode (fileText now job rows))) es)) := by
  rw [Checkpoint.save, if_neg (not_lt.mpr hnames)]
  split
  · exact absurd ‹_› hplace
  · rfl

namespace Saving

open Checkpoint

variable {c : Saving} {job : String} {rows : Int} {es : List (String × FileEntry)}

/-! ## What becomes of a save -/

/-- No step of the save is refused, its count can be written, some temporary name is free, the names
are not too long, and no directory is in the place of the file. -/
structure Permits (c : Saving) (job : String) (rows : Int) (es : List (String × FileEntry)) :
    Prop where
  folder : c.noFolder = none
  file : c.noFile = none
  write : c.noWrite = none
  replace : c.noReplace = none
  count : isShort rows = true
  names : job.utf8ByteSize + temporaryExtra ≤ nameLimit
  free : ∃ e ∈ c.endings, Folder.lookup es (temporaryName job e) = none
  place : Folder.lookup es (fileName job) ≠ some .directory

theorem permit_eq_ok_iff {α : Type} {refusal : Option Failure} {step : Except Failure α} {a : α} :
    permit refusal step = .ok a ↔ refusal = none ∧ step = .ok a := by
  cases refusal <;> simp [permit]

theorem prepare_eq_ok_iff {text : String} : c.prepare job rows = .ok text ↔
    c.noFolder = none ∧ isShort rows = true ∧ fileText c.now job rows = text := by
  rw [prepare, permit_eq_ok_iff]
  split <;> simp [*]

theorem create_eq_ok {temporary : String} (h : c.create job es = .ok temporary) :
    c.noFile = none ∧ job.utf8ByteSize + temporaryExtra ≤ nameLimit ∧
      ∃ e ∈ c.endings, temporaryName job e = temporary ∧ Folder.lookup es temporary = none := by
  rw [create] at h
  split at h
  · cases h
  · rename_i hnames
    obtain ⟨hfile, h⟩ := permit_eq_ok_iff.mp h
    split at h
    · rename_i e hfind
      obtain rfl := Except.ok.inj h
      exact ⟨hfile, not_lt.mp hnames, e, List.mem_of_find?_eq_some hfind, rfl,
        by simpa using List.find?_some hfind⟩
    · cases h

theorem exists_create (hfile : c.noFile = none)
    (hnames : job.utf8ByteSize + temporaryExtra ≤ nameLimit)
    (hfree : ∃ e ∈ c.endings, Folder.lookup es (temporaryName job e) = none) :
    ∃ e, c.create job es = .ok (temporaryName job e) ∧
      Folder.lookup es (temporaryName job e) = none := by
  have hsome : (c.endings.find? fun e =>
      (Folder.lookup es (temporaryName job e)).isNone).isSome = true :=
    List.find?_isSome.mpr (hfree.imp fun e he => ⟨he.1, by simpa using he.2⟩)
  obtain ⟨e, he⟩ := Option.isSome_iff_exists.mp hsome
  refine ⟨e, ?_, by simpa using List.find?_some he⟩
  rw [create, if_neg (not_lt.mpr hnames), he, hfile]
  rfl

theorem write_eq_ok_iff {temporary text : String} {es' : List (String × FileEntry)} :
    c.write temporary text es = .ok es' ↔
      c.noWrite = none ∧ Folder.put temporary (.file (Text.utf8Encode text)) es = es' := by
  rw [write, permit_eq_ok_iff, Except.ok.injEq]

theorem replace_eq_ok {temporary : String} {es' : List (String × FileEntry)}
    (h : c.replace temporary job es = .ok es') :
    c.noReplace = none ∧ Folder.lookup es (fileName job) ≠ some .directory := by
  obtain ⟨hreplace, h⟩ := permit_eq_ok_iff.mp h
  split at h
  · cases h
  · exact ⟨hreplace, ‹_›⟩

/-- The last character of a temporary name is not that of a checkpoint. -/
theorem temporaryName_ne (job : String) (e : Ending) (other : String) :
    temporaryName job e ≠ fileName other := by
  intro h
  have hlast := congrArg (fun s : String => s.toList.reverse.head?) h
  simp [temporaryName, fileName] at hlast

/-- A save of which no step is refused is a save at once. -/
theorem save_eq {folder : Folder} (hfolder : c.noFolder = none) (hfile : c.noFile = none)
    (hwrite : c.noWrite = none) (hreplace : c.noReplace = none) (hcount : isShort rows = true)
    (hfree : ∀ es, folder = .entries es →
      ∃ e ∈ c.endings, Folder.lookup es (temporaryName job e) = none) :
    c.save job rows folder = match Checkpoint.save c.now job rows folder with
      | .ok folder' => (.ok (), folder')
      | .error e => (.error e, folder) := by
  cases folder with
  | blocked => rfl
  | entries es =>
    have hprepare : c.prepare job rows = .ok (fileText c.now job rows) :=
      prepare_eq_ok_iff.mpr ⟨hfolder, hcount, rfl⟩
    by_cases hnames : nameLimit < job.utf8ByteSize + temporaryExtra
    · simp [save, Checkpoint.save, hprepare, create, hnames, bind, Except.bind]
    obtain ⟨e, hcreate, hfree⟩ := exists_create hfile (not_lt.mp hnames) (hfree es rfl)
    have hlookup : ∀ entry, Folder.lookup (Folder.put (temporaryName job e) entry es)
        (fileName job) = Folder.lookup es (fileName job) := fun entry => by
      rw [Folder.lookup_put, if_neg (temporaryName_ne job e job).symm]
    by_cases hplace : Folder.lookup es (fileName job) = some .directory
    · simp [save, Checkpoint.save, hprepare, hcreate, hnames, hlookup, hplace, write, hwrite, replace,
        hreplace, permit, Folder.put_put, Folder.remove_put hfree, bind, Except.bind, pure, Except.pure]
    · rw [Checkpoint.save_eq_ok (not_lt.mp hnames) hplace]
      have hrenamed : c.replace (temporaryName job e) job (Folder.put (temporaryName job e)
          (.file (Text.utf8Encode (fileText c.now job rows))) es) = .ok (Folder.put (fileName job)
            (.file (Text.utf8Encode (fileText c.now job rows))) es) := by
        rw [replace, hreplace, permit, hlookup]
        split
        · exact absurd ‹_› hplace
        · rw [Folder.rename_put hfree]
      simp [save, hprepare, hcreate, write, hwrite, permit, Folder.put_put, hrenamed, bind,
        Except.bind, pure, Except.pure]

theorem save_of_permits (h : c.Permits job rows es) :
    c.save job rows (.entries es) = (.ok (), .entries (Folder.put (fileName job)
      (.file (Text.utf8Encode (fileText c.now job rows))) es)) := by
  have hfree : ∀ es', Folder.entries es = .entries es' →
      ∃ e ∈ c.endings, Folder.lookup es' (temporaryName job e) = none := fun _ heq =>
    Folder.entries.inj heq ▸ h.free
  rw [save_eq h.folder h.file h.write h.replace h.count hfree,
    Checkpoint.save_eq_ok h.names h.place]

/-- Every step that is done is undone when a later one fails. -/
theorem save_of_not_permits (h : ¬ c.Permits job rows es) :
    ∃ e, c.save job rows (.entries es) = (.error e, .entries es) := by
  rcases hprepare : c.prepare job rows with e | text
  · exact ⟨e, by simp [save, hprepare, bind, Except.bind]⟩
  rcases hcreate : c.create job es with e | temporary
  · exact ⟨e, by simp [save, hprepare, hcreate, bind, Except.bind]⟩
  obtain ⟨hfolder, hcount, rfl⟩ := prepare_eq_ok_iff.mp hprepare
  obtain ⟨hfile, hnames, ending, hmem, rfl, hfree⟩ := create_eq_ok hcreate
  rcases hdone : c.write (temporaryName job ending) (fileText c.now job rows)
      (Folder.put (temporaryName job ending) (.file []) es) >>=
        c.replace (temporaryName job ending) job with e | es'
  · refine ⟨e, ?_⟩
    simp [save, hprepare, hcreate, bind, Except.bind, pure, Except.pure] at hdone ⊢
    simp [hdone, Folder.remove_put hfree]
  · -- Nothing was refused, so the save is permitted.
    exfalso
    rcases hwrite : c.write (temporaryName job ending) (fileText c.now job rows)
        (Folder.put (temporaryName job ending) (.file []) es) with e | written
    · rw [hwrite] at hdone
      cases hdone
    rw [hwrite] at hdone
    obtain ⟨hnoWrite, rfl⟩ := write_eq_ok_iff.mp hwrite
    obtain ⟨hnoReplace, hplace⟩ := replace_eq_ok (show c.replace _ job _ = .ok es' from hdone)
    rw [Folder.put_put, Folder.lookup_put, if_neg (temporaryName_ne job ending job).symm] at hplace
    exact h ⟨hfolder, hfile, hnoWrite, hnoReplace, hcount, hnames, ⟨ending, hmem, hfree⟩, hplace⟩

end Saving

namespace Checkpoint

variable {job : String} {folder folder' : Folder}

theorem jobId_text_eq_ok_iff {job' : String} :
    jobId (.text job) = .ok job' ↔ isSafeId job = true ∧ job = job' := by
  constructor
  · intro h
    simp only [jobId] at h
    split_ifs at h with _ hsafe
    exact ⟨hsafe, Except.ok.inj h⟩
  · rintro ⟨hsafe, rfl⟩
    exact jobId_of_isSafeId hsafe

theorem fileName_inj {job' : String} : fileName job = fileName job' ↔ job = job' := by
  refine ⟨fun h => ?_, fun h => by rw [h]⟩
  have hchars := congrArg String.toList h
  rw [fileName, fileName, String.toList_append, String.toList_append] at hchars
  exact String.toList_injective (List.append_cancel_right hchars)

/-- What is loaded depends on the entry of the job only. -/
theorem load_eq_of_get? (hname : (fileName job).utf8ByteSize ≤ nameLimit)
    (h : folder.get? (fileName job) = folder'.get? (fileName job)) (today : Date) :
    load today job folder = load today job folder' := by
  rw [load, load, read_eq hname, read_eq hname, h]

end Checkpoint

/-! ## The ways of a call -/

namespace CheckpointCall

open Checkpoint Saving

variable {call : CheckpointCall} {folder folder' : Folder} {answer : Except Failure (Option Int)}

/-- How a call goes, what it answers and the folder it leaves. -/
inductive Step : CheckpointCall → Folder → Except Failure (Option Int) → Folder → Prop
  /-- The id is none, or the file system or the folder is in the way. -/
  | failed {call : CheckpointCall} {folder : Folder} (e : Failure) :
      Step call folder (.error e) folder
  | loaded {today : Date} {job : String} {folder : Folder} (hsafe : isSafeId job = true) :
      Step (.load today job) folder (Checkpoint.load today job folder) folder
  | saved {c : Saving} {job : String} {rows : Nat} {es : List (String × FileEntry)}
      (hsafe : isSafeId job = true) (h : c.Permits job rows es) :
      Step (.save c job rows) (.entries es) (.ok none) (.entries (Folder.put (fileName job)
        (.file (Text.utf8Encode (fileText c.now job rows))) es))
  | cleared {job : String} {folder folder' : Folder} (hsafe : isSafeId job = true)
      (h : Checkpoint.clear job folder = .ok folder') :
      Step (.clear none job) folder (.ok none) folder'

theorem step_run (call : CheckpointCall) (folder : Folder) :
    Step call folder (call.run folder).1 (call.run folder).2 := by
  by_cases hsafe : isSafeId call.job = true
  · have hid := jobId_of_isSafeId hsafe
    cases call with
    | save c job rows =>
      simp only [run, hid]
      cases folder with
      | blocked => exact .failed _
      | entries es =>
        by_cases h : c.Permits job rows es
        · rw [save_of_permits h]
          exact .saved hsafe h
        · obtain ⟨e, he⟩ := save_of_not_permits h
          rw [he]
          exact .failed e
    | load today job =>
      simp only [run, hid]
      exact .loaded hsafe
    | clear noRemoval job =>
      simp only [run, hid]
      rcases hclear : permit noRemoval (Checkpoint.clear job folder) with e | folder'
      · exact .failed e
      · obtain ⟨rfl, hclear⟩ := permit_eq_ok_iff.mp hclear
        exact .cleared hsafe hclear
  · rcases hid : jobId (.text call.job) with e | job
    · simp only [run, hid]
      exact .failed e
    · exact absurd (jobId_text_eq_ok_iff.mp hid).1 hsafe

namespace Step

/-- Only the entry of the job is another one. -/
theorem get?_of_ne (h : Step call folder answer folder') {name : String}
    (hne : name ≠ fileName call.job) : folder'.get? name = folder.get? name := by
  cases h with
  | failed | loaded => rfl
  | saved hsafe h =>
    rw [Folder.get?, Folder.get?, Folder.lookup_put]
    exact if_neg hne
  | cleared hsafe h =>
    obtain ⟨-, es, rfl, -, rfl⟩ := clear_eq_ok_iff.mp h
    exact Folder.lookup_filter_of_ne hne es

/-- A call that fails leaves everything as it was. -/
theorem eq_of_error {e : Failure} (h : Step call folder (.error e) folder') : folder' = folder := by
  generalize hanswer : (Except.error e : Except Failure (Option Int)) = answer at h
  cases h with
  | failed | loaded => rfl
  | saved | cleared => cases hanswer

end Step

/-- What a call that goes well leaves as the count of its job : that of a save, none behind a
removal, and what it was if the call only looks. -/
def leaves : CheckpointCall → Option (Option Int)
  | save _ _ rows => some (some rows)
  | load _ _ => none
  | clear _ _ => some none

/-- What a call leaves as the count of its job, nothing of its own if it fails. -/
def mark (call : CheckpointCall) (folder : Folder) : Option (Option Int) :=
  match (call.run folder).1 with
  | .ok _ => call.leaves
  | .error _ => none

/-- The count that the last save of a job in a history has left, none if a removal came behind it.
The others of the calls leave nothing. -/
def lastMark (job : String) : List CheckpointCall → Folder → Option (Option Int)
  | [], _ => none
  | call :: calls, folder =>
    (lastMark job calls (call.run folder).2).or (if call.job = job then call.mark folder else none)

theorem load_run_self (hname : (fileName call.job).utf8ByteSize ≤ nameLimit) (today : Date) :
    Checkpoint.load today call.job (call.run folder).2 =
      (call.mark folder).elim (Checkpoint.load today call.job folder) .ok := by
  have hstep := step_run call folder
  rw [mark]
  generalize (call.run folder).1 = answer, (call.run folder).2 = folder' at hstep
  cases hstep with
  | failed => rfl
  | @loaded day job folder hsafe =>
    rcases Checkpoint.load day job folder <;> rfl
  | @saved c job rows es hsafe h =>
    have hcount : rows.repr.toList.length ≤ Text.integerDigitLimit := by
      rw [Nat.toList_repr]
      exact of_decide_eq_true h.count
    exact @load_put job rows hname hcount today c.now es
  | cleared hsafe h => exact load_of_clear h today

theorem load_run_of_ne {job : String} (hne : job ≠ call.job)
    (hname : (fileName job).utf8ByteSize ≤ nameLimit) (today : Date) :
    Checkpoint.load today job (call.run folder).2 = Checkpoint.load today job folder :=
  load_eq_of_get? hname ((step_run call folder).get?_of_ne (mt fileName_inj.mp hne)) today

/-- A job has the count of its last mark, or the one it had at the beginning. -/
theorem load_after {job : String} (hname : (fileName job).utf8ByteSize ≤ nameLimit) (today : Date)
    (calls : List CheckpointCall) (folder : Folder) :
    Checkpoint.load today job (after calls folder) =
      (lastMark job calls folder).elim (Checkpoint.load today job folder) .ok := by
  induction calls generalizing folder with
  | nil => rfl
  | cons call calls ih =>
    rw [after, List.foldl_cons, ← after, ih, lastMark]
    rcases lastMark job calls (call.run folder).2 with _ | n
    · by_cases hjob : call.job = job
      · subst hjob
        rw [if_pos rfl, Option.none_or, Option.elim_none, load_run_self hname]
      · rw [if_neg hjob, Option.none_or, Option.elim_none, Option.elim_none,
          load_run_of_ne (Ne.symm hjob) hname]
    · rfl

/-! ## When a call goes well -/

theorem run_save_ok_iff {c : Saving} {job : String} {rows : Nat} :
    (∃ a, ((save c job rows).run folder).1 = .ok a) ↔
      isSafeId job = true ∧ ∃ es, folder = .entries es ∧ c.Permits job rows es := by
  constructor
  · rintro ⟨a, ha⟩
    have hstep := step_run (save c job rows) folder
    rw [ha] at hstep
    generalize ((save c job rows).run folder).2 = folder' at hstep
    cases hstep with
    | saved hsafe h => exact ⟨hsafe, _, rfl, h⟩
  · rintro ⟨hsafe, es, rfl, h⟩
    refine ⟨none, ?_⟩
    have hid : jobId (.text (save c job rows).job) = .ok job := jobId_of_isSafeId hsafe
    simp only [run, hid, save_of_permits h]
    rfl

theorem run_clear_ok_iff {noRemoval : Option Failure} {job : String} :
    (∃ a, ((clear noRemoval job).run folder).1 = .ok a) ↔
      isSafeId job = true ∧ noRemoval = none ∧ (fileName job).utf8ByteSize ≤ nameLimit ∧
        ∃ es, folder = .entries es ∧ Folder.lookup es (fileName job) ≠ some .directory := by
  constructor
  · rintro ⟨a, ha⟩
    have hstep := step_run (clear noRemoval job) folder
    rw [ha] at hstep
    generalize ((clear noRemoval job).run folder).2 = folder' at hstep
    cases hstep with
    | cleared hsafe h =>
      obtain ⟨hname, es, hfolder, hplace, -⟩ := clear_eq_ok_iff.mp h
      exact ⟨hsafe, rfl, hname, es, hfolder, hplace⟩
  · rintro ⟨hsafe, rfl, hname, es, hfolder, hplace⟩
    refine ⟨none, ?_⟩
    have hid : jobId (.text (clear none job).job) = .ok job := jobId_of_isSafeId hsafe
    simp only [run, hid, permit, clear_eq_ok_iff.mpr ⟨hname, es, hfolder, hplace, rfl⟩]

/-- The save of the store is the one in steps of which none is refused. -/
theorem run_save_eq {s : Surroundings} {w : World} {c : Saving} {job : String} {rows : Nat}
    (hnow : c.now = s.now) (hfolder : c.noFolder = none) (hfile : c.noFile = none)
    (hwrite : c.noWrite = none) (hreplace : c.noReplace = none) (hcount : isShort rows = true)
    (hfree : ∀ es, w.folder = .entries es →
      ∃ e ∈ c.endings, Folder.lookup es (temporaryName job e) = none) :
    Checkpoints.save (.text job) (.int rows) s w =
      (((save c job rows).run w.folder).1.map fun _ => (),
        w.withFolder ((save c job rows).run w.folder).2) := by
  have hself : w.withFolder w.folder = w := rfl
  by_cases hsafe : isSafeId job = true
  · have hid : jobId (.text (save c job rows).job) = .ok job := jobId_of_isSafeId hsafe
    rw [Checkpoints.run_save hsafe, ← hnow]
    simp only [run, hid, save_eq hfolder hfile hwrite hreplace hcount hfree]
    rcases Checkpoint.save c.now job rows w.folder with e | folder
    · rw [hself]
      rfl
    · rfl
  · rcases hid : jobId (.text job) with e | job'
    · have hid' : jobId (.text (save c job rows).job) = .error e := hid
      simp only [run, hid', hself, Checkpoints.save]
      exact Action.run_bind_error (by rw [Action.run_liftM, hid]) _
    · exact absurd (jobId_text_eq_ok_iff.mp hid).1 hsafe

/-! ## A map from jobs to counts -/

/-- What a call leaves alone. -/
structure Keeps (call : CheckpointCall) (folder : Folder) : Prop where
  /-- Every entry that is not named for the job of the call. -/
  entries : ∀ name, name ≠ fileName call.job → (call.run folder).2.get? name = folder.get? name
  /-- So nothing of its own is left under a temporary name. -/
  temporary : ∀ ending, (call.run folder).2.get? (temporaryName call.job ending) =
    folder.get? (temporaryName call.job ending)
  /-- The counts of other jobs. -/
  counts : ∀ today job, job ≠ call.job → (fileName job).utf8ByteSize ≤ nameLimit →
    Checkpoint.load today job (call.run folder).2 = Checkpoint.load today job folder
  /-- Everything, if it fails. -/
  failure : ∀ e, (call.run folder).1 = .error e → (call.run folder).2 = folder

theorem keeps (call : CheckpointCall) (folder : Folder) : call.Keeps folder where
  entries _ hne := (step_run call folder).get?_of_ne hne
  temporary ending := (step_run call folder).get?_of_ne (temporaryName_ne call.job ending call.job)
  counts today _ hne hname := load_run_of_ne hne hname today
  failure _ h := (h ▸ step_run call folder).eq_of_error

/-- The checkpoints of a folder are a map from jobs to counts. After every history of calls,
whichever steps the file system refuses, a job has the count of its last save that went well, none
if a removal went well behind it, and what it had at the beginning if there was neither. A call
leaves everything else alone, and everything if it fails. A save goes well exactly if it is
permitted, and a removal if it is not refused and no directory is in the place of the file. -/
theorem checkpoints_map (calls : List CheckpointCall) (folder : Folder) :
    (∀ today job, (fileName job).utf8ByteSize ≤ nameLimit →
      Checkpoint.load today job (after calls folder) =
        (lastMark job calls folder).elim (Checkpoint.load today job folder) .ok) ∧
    (∀ call : CheckpointCall, call.Keeps folder) ∧
    (∀ today job, isSafeId job = true →
      (load today job).run folder = (Checkpoint.load today job folder, folder)) ∧
    (∀ c job rows, (∃ a, ((save c job rows).run folder).1 = .ok a) ↔
      isSafeId job = true ∧ ∃ es, folder = .entries es ∧ c.Permits job rows es) ∧
    ∀ noRemoval job, (∃ a, ((clear noRemoval job).run folder).1 = .ok a) ↔
      isSafeId job = true ∧ noRemoval = none ∧ (fileName job).utf8ByteSize ≤ nameLimit ∧
        ∃ es, folder = .entries es ∧ Folder.lookup es (fileName job) ≠ some .directory := by
  refine ⟨fun today job hname => load_after hname today calls folder, (keeps · folder),
    fun today job hsafe => ?_, fun _ _ _ => run_save_ok_iff, fun _ _ => run_clear_ok_iff⟩
  have hid : jobId (.text (load today job).job) = .ok job := jobId_of_isSafeId hsafe
  simp only [run, hid]

/-- A save that meets nothing in its way, at the beginning of time. -/
def plainSaving : Saving := ⟨⟨0⟩, [⟨"aaaaaaaa", rfl⟩, ⟨"aaaaaaab", rfl⟩], none, none, none, none⟩

/-- Two jobs whose files and temporary names look alike, a stray file under the first temporary name,
and a save that is refused at its last step. -/
theorem checkpoints_map_of_lookalikes :
    let today : Date := ⟨1970, 1, 1⟩
    let stray := Folder.entries [(".job_1.aaaaaaaa.tmp", .file [0])]
    let refused := { plainSaving with noReplace := some (.fault (.isADirectory "job_1.json")) }
    let calls := [.save plainSaving "job_1" 5, .save plainSaving ".job_1" 3,
      .save refused "job_1" 9, .clear none ".job_1"]
    Checkpoint.load today "job_1" (after calls stray) = .ok (some 5) ∧
      Checkpoint.load today ".job_1" (after calls stray) = .ok none ∧
      ((save plainSaving "job_1" 5).run stray).2.get? ".job_1.aaaaaaaa.tmp" = some (.file [0]) := by
  intro today stray refused calls
  obtain ⟨hload, hkeeps, -⟩ := checkpoints_map calls stray
  have hfirst : lastMark "job_1" calls stray = some (some 5) := by decide +kernel
  have hsecond : lastMark ".job_1" calls stray = some none := by decide +kernel
  refine ⟨?_, ?_, ?_⟩
  · rw [hload today "job_1" (by decide), hfirst, Option.elim_some]
  · rw [hload today ".job_1" (by decide), hsecond, Option.elim_some]
  · rw [(hkeeps (save plainSaving "job_1" 5)).entries _ (by decide)]
    rfl

end CheckpointCall

end Tabula
