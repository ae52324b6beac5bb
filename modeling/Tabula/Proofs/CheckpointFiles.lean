import Tabula.Ingest.Run
import Tabula.Proofs.Actions
import Tabula.Proofs.NestedTexts
import Tabula.Proofs.RowIds

/-!
# Checkpoint files

A checkpoint that was written is read back with its count (`ofBytes_fileText`), so a save
fixes what the next load gives, and after a clear there is nothing to load. `Checkpoint.Writable`
is a folder in which that goes well : a folder with a file or nothing under the job's name,
which is safe and not too long. There saving and clearing never fail
(`run_save_of_writable`, `run_clear_of_writable`); anywhere else a save that fails changes
nothing (`run_save`).
-/

namespace Tabula

namespace Folder

/-- What was put is found, everything else as before. -/
theorem lookup_put (name other : String) (entry : FileEntry) :
    ∀ es : List (String × FileEntry), lookup (put name entry es) other =
      if other = name then some entry else lookup es other
  | [] => by
    by_cases h : other = name
    · simp [put, lookup, h]
    · have hne : (name == other) = false := by simpa using Ne.symm h
      simp [put, lookup, h, hne]
  | e :: es => by
    have ih := lookup_put name other entry es
    simp only [lookup] at ih ⊢
    by_cases he : e.1 = name
    · by_cases h : other = name
      · simp [put, he, h]
      · have hne : (name == other) = false := by simpa using Ne.symm h
        simp [put, he, h, hne]
    · by_cases ho : e.1 = other
      · have h : ¬ other = name := by rwa [← ho]
        simp [put, ho, h]
      · have hne : (e.1 == other) = false := by simpa using ho
        simp only [put, beq_iff_eq, he, if_false, List.find?_cons, hne]
        exact ih

theorem lookup_filter_self (name : String) (es : List (String × FileEntry)) :
    lookup (es.filter fun e => e.1 != name) name = none := by
  simp only [lookup, Option.map_eq_none_iff, List.find?_eq_none, List.mem_filter]
  rintro e ⟨_, he⟩
  simpa using he

theorem lookup_filter_of_ne {name other : String} (h : other ≠ name)
    (es : List (String × FileEntry)) :
    lookup (es.filter fun e => e.1 != name) other = lookup es other := by
  rw [lookup, lookup, List.find?_filter]
  refine congrArg (Option.map Prod.snd) (congrArg (List.find? · es) (funext fun e => ?_))
  by_cases he : e.1 = other <;> simp [he, h]

end Folder

namespace Checkpoint

open Json

/-! ## What a file holds -/

/-- A member, and the next one. -/
theorem readMembers_cons {fuel : Nat} {acc : List (Value × Value)} {name : String} {c : Char}
    {v : Value} {rest more : List Char} (hc : isBlank c = false)
    (hv : readValue fuel (c :: rest) = .ok (v, ',' :: ' ' :: '"' :: more)) :
    readMembers (fuel + 1) acc ('"' :: (textChars name ++ ':' :: ' ' :: c :: rest)) =
      readMembers fuel ((.text name, v) :: acc) ('"' :: more) := by
  rw [readMembers, readName_textChars name hc]
  simp only [hv, skipBlanks_cons (show isBlank ',' = false by decide), skipBlanks_space,
    skipBlanks_cons (show isBlank '"' = false by decide)]

/-- The last member. -/
theorem readMembers_last {fuel : Nat} {acc : List (Value × Value)} {name : String} {c : Char}
    {v : Value} {rest : List Char} (hc : isBlank c = false)
    (hv : readValue fuel (c :: rest) = .ok (v, ['\x7d'])) :
    readMembers (fuel + 1) acc ('"' :: (textChars name ++ ':' :: ' ' :: c :: rest)) =
      .ok (Value.ofEntries ((.text name, v) :: acc).reverse, []) := by
  rw [readMembers, readName_textChars name hc]
  simp only [hv, skipBlanks_cons (show isBlank '\x7d' = false by decide)]

theorem toList_fileText (now : Moment) (job : String) (rows : Nat) :
    (fileText now job rows).toList =
      '\x7b' :: '"' :: (textChars "jobId" ++ ':' :: ' ' :: '"' :: (textChars job ++ ',' :: ' ' ::
        '"' :: (textChars "rowsProcessed" ++ ':' :: ' ' :: (rows.repr.toList ++ ',' :: ' ' ::
          '"' :: (textChars "timestamp" ++ ':' :: ' ' :: '"' ::
            (textChars now.offsetText ++ ['\x7d'])))))) := by
  have h₁ : textChars "jobId" = "jobId\"".toList := by simp [textChars, escapeChar]
  have h₂ : textChars "rowsProcessed" = "rowsProcessed\"".toList := by
    simp [textChars, escapeChar]
  have h₃ : textChars "timestamp" = "timestamp\"".toList := by
    simp [textChars, escapeChar]
  have hrows : integerText rows = rows.repr := by
    rw [integerText, Int.toString_eq_repr, Int.repr_eq_if, if_pos (Int.natCast_nonneg rows)]
    rfl
  rw [h₁, h₂, h₃]
  simp [fileText, toList_writeText, hrows]

theorem length_repr_le {rows : Nat} (hrows : rows < 2 ^ 63) :
    rows.repr.toList.length ≤ Text.integerDigitLimit := by
  rw [Nat.toList_repr]
  refine le_trans ((Nat.length_toDigits_le_iff (k := 19) (by decide) (by decide)).mpr ?_)
    (by decide)
  omega

section FileText

variable {rows : Nat} (hrows : rows.repr.toList.length ≤ Text.integerDigitLimit)

include hrows

theorem readValue_rows (fuel : Nat) {d : Char} {ds : List Char} (hd : rows.repr.toList = d :: ds)
    (more : List Char) :
    readValue (fuel + 1) (d :: (ds ++ ',' :: ' ' :: '"' :: more)) =
      .ok (.int rows, ',' :: ' ' :: '"' :: more) := by
  rw [← List.cons_append, ← hd]
  exact readValue_repr hrows ⟨by decide, by decide, by decide⟩ fuel (' ' :: '"' :: more)

theorem readValue_fileText (now : Moment) (job : String) (fuel : Nat) :
    readValue (fuel + 5) (fileText now job rows).toList = .ok (Value.ofEntries
      [(.text "jobId", .text job), (.text "rowsProcessed", .int rows),
        (.text "timestamp", .text now.offsetText)], []) := by
  obtain ⟨d, ds, hd, hdd⟩ := exists_cons_repr rows
  have hquote : isBlank '"' = false := by decide
  rw [toList_fileText, readValue_object]
  simp only [hd, List.cons_append]
  rw [readMembers_cons hquote (readValue_textChars job (fuel + 2) _),
    readMembers_cons (isBlank_of_isDigit hdd) (readValue_rows hrows (fuel + 1) hd _),
    readMembers_last hquote (readValue_textChars now.offsetText fuel _)]
  rfl

omit hrows in
/-- Reading a checkpoint has fuel for its three members. -/
theorem exists_fuel_fileText (now : Moment) (job : String) (rows : Nat) :
    ∃ n, 2 * (fileText now job rows).toList.length + 1 = n + 5 := by
  refine Nat.exists_eq_add_of_le' ?_
  rw [toList_fileText]
  simp only [List.length_cons, List.length_append]
  omega

/-- A checkpoint has one level. -/
theorem isTooDeep_fileText (now : Moment) (job : String) :
    Json.isTooDeep (fileText now job rows).toList = false := by
  obtain ⟨d, ds, hd, hdd⟩ := exists_cons_repr rows
  obtain ⟨n, hn⟩ := exists_fuel_fileText now job rows
  have hquote : isBlank '"' = false := by decide
  have hflat : ∀ fuel rest, valueExceeds 979 fuel ('"' :: rest) = false :=
    valueExceeds_of_ne (by decide) (by decide) 979
  have hdigit : ∀ fuel rest, valueExceeds 979 fuel (d :: rest) = false :=
    valueExceeds_of_ne (ne_of_isDigit hdd (by decide)) (ne_of_isDigit hdd (by decide)) 979
  rw [Json.isTooDeep, hn, toList_fileText, skipBlanks_cons (by decide),
    show levelLimit = 979 + 1 from rfl, valueExceeds_object]
  simp only [hd, List.cons_append]
  rw [membersExceed_cons hquote (hflat _ _) (readValue_textChars job (n + 2) _),
    membersExceed_cons (isBlank_of_isDigit hdd) (hdigit _ _) (readValue_rows hrows (n + 1) hd _),
    membersExceed_last hquote (hflat _ _) (readValue_textChars now.offsetText n _)]

/-- The file of a job is read as the checkpoint that was written. -/
theorem ofBytes_fileText (today : Date) (now : Moment) (job : String) :
    ∃ t, ofBytes today job (Text.utf8Encode (fileText now job rows)) = some ⟨job, rows, t⟩ := by
  have hdoc : readChars (fileText now job rows).toList = .ok (Value.ofEntries
      [(.text "jobId", .text job), (.text "rowsProcessed", .int rows),
        (.text "timestamp", .text now.offsetText)]) := by
    obtain ⟨n, hn⟩ := exists_fuel_fileText now job rows
    obtain ⟨cs, hcs⟩ : ∃ cs, (fileText now job rows).toList = '\x7b' :: cs := by
      rw [toList_fileText]
      exact ⟨_, rfl⟩
    have hbom : ¬ (fileText now job rows).toList.head? = some '\ufeff' := by
      simp [hcs]
    have hskip : skipBlanks (fileText now job rows).toList = (fileText now job rows).toList := by
      rw [hcs]
      exact skipBlanks_cons (by decide) cs
    rw [readChars, if_neg hbom, readDocument, hskip, hn, readValue_fileText hrows now job n]
    rfl
  rw [ofBytes, Text.utf8Decode_utf8Encode]
  simp only [hdoc]
  have hjob : (Value.ofEntries [(.text "jobId", .text job), (.text "rowsProcessed", .int rows),
      (.text "timestamp", .text now.offsetText)]) =
      .dict [(.text "jobId", .text job), (.text "rowsProcessed", .int rows),
        (.text "timestamp", .text now.offsetText)] := by
    simp [Value.ofEntries, Value.put, Value.same, Value.sameAtom]
  simp only [hjob, Value.get, Value.get?, Value.lookup]
  simp [Value.isText]

end FileText

theorem nonneg_of_ofBytes {today : Date} {job : String} {bytes : List UInt8} {c : Checkpoint}
    (h : ofBytes today job bytes = some c) : 0 ≤ c.rows := by
  unfold ofBytes at h
  split at h
  · cases h
  · split at h
    · cases h
    · split at h
      · split at h
        · rename_i hn
          obtain rfl := Option.some.inj h
          simp only [Bool.and_eq_true, decide_eq_true_eq] at hn
          exact hn.2
        · cases h
      · cases h

/-- A count that is read is not negative. -/
theorem nonneg_of_load {today : Date} {job : String} {folder : Folder} {n : Int}
    (h : load today job folder = .ok (some n)) : 0 ≤ n := by
  unfold load read at h
  split at h
  · cases h
  · split at h
    · cases h
    · split at h
      · rename_i bytes _
        split at h
        · cases h
        · rcases hc : ofBytes today job bytes with _ | c
          · simp [hc, Except.map] at h
          · simp only [hc, Except.map, Option.map_some, Except.ok.injEq, Option.some.injEq] at h
            rw [← h]
            exact nonneg_of_ofBytes hc
      · simp [Except.map] at h

/-! ## A folder that can be written -/

/-- A folder in which the checkpoint of a job can be read, written and removed. -/
structure Writable (job : String) (folder : Folder) : Prop where
  safe : isSafeId job = true
  short : job.utf8ByteSize + temporaryExtra ≤ nameLimit
  exists_entries : ∃ es, folder = .entries es ∧ Folder.lookup es (fileName job) ≠ some .directory

variable {job : String} {folder : Folder} {s : Surroundings} {w : World}

theorem toNat_ne_zero_of_isSafe {c : Char} (h : isSafe c = true) : c.toNat ≠ 0 := by
  intro h0
  have hc : c = Char.ofNat 0 := by rw [← Char.ofNat_toNat c, h0]
  rw [hc] at h
  exact absurd h (by decide)

theorem hasNoZero_of_isSafeId (h : isSafeId job = true) : HasNoZero job := by
  intro c hc
  simp only [isSafeId, Bool.and_eq_true, List.all_eq_true] at h
  obtain ⟨_, hall⟩ := h
  split at hall
  · rename_i hlast
    obtain ⟨cs, hcs⟩ := List.getLast?_eq_some_iff.mp hlast
    rw [hcs, List.dropLast_concat] at hall
    rw [hcs, List.mem_append, List.mem_singleton] at hc
    rcases hc with hc | rfl
    · exact toNat_ne_zero_of_isSafe (hall c hc)
    · decide
  · exact toNat_ne_zero_of_isSafe (hall c hc)

theorem jobId_of_isSafeId (h : isSafeId job = true) : jobId (.text job) = .ok job := by
  have hne : job ≠ "" := by
    rintro rfl
    exact absurd h (by decide)
  rw [jobId]
  simp [Value.truthy, hne, h]

theorem utf8ByteSize_fileName (job : String) :
    (fileName job).utf8ByteSize = job.utf8ByteSize + 5 := by
  rw [fileName, String.utf8ByteSize_append]
  rfl

/-- Only the entry under the name of the job is looked at. -/
theorem read_eq (hname : (fileName job).utf8ByteSize ≤ nameLimit) (today : Date) (folder : Folder) :
    read today job folder = match folder.get? (fileName job) with
      | some (.file bytes) =>
        if isTooDeep bytes then .error (.fault .tooDeep) else .ok (ofBytes today job bytes)
      | _ => .ok none := by
  cases folder with
  | entries es =>
    have hshort : ¬ nameLimit < (fileName job).utf8ByteSize := not_lt.mpr hname
    rcases h : Folder.lookup es (fileName job) with _ | _ | _ <;>
      simp [read, hshort, Folder.get?, h]
  | blocked => rfl

/-- A checkpoint that is put under its name is the one that is loaded. -/
theorem load_put {rows : Nat} (hname : (fileName job).utf8ByteSize ≤ nameLimit)
    (hrows : rows.repr.toList.length ≤ Text.integerDigitLimit) (today : Date) (now : Moment)
    (es : List (String × FileEntry)) :
    load today job (.entries (Folder.put (fileName job)
      (.file (Text.utf8Encode (fileText now job rows))) es)) = .ok (some rows) := by
  obtain ⟨t, ht⟩ := ofBytes_fileText hrows today now job
  have hflat : Checkpoint.isTooDeep (Text.utf8Encode (fileText now job rows)) = false := by
    rw [Checkpoint.isTooDeep, Text.utf8Decode_utf8Encode]
    exact isTooDeep_fileText hrows now job
  rw [load, read, if_neg (not_lt.mpr hname), Folder.lookup_put, if_pos rfl]
  simp only [hflat, ht]
  rfl

/-- A save that goes well fixes what is loaded from then on. -/
theorem load_of_save {now : Moment} {rows : Int} {folder' : Folder} (h0 : 0 ≤ rows)
    (hrows : rows < 2 ^ 63) (h : save now job rows folder = .ok folder') (today : Date) :
    load today job folder' = .ok (some rows) := by
  obtain ⟨n, rfl⟩ := Int.eq_ofNat_of_zero_le h0
  unfold save at h
  split at h
  · cases h
  · rename_i es
    split at h
    · cases h
    · rename_i hshort
      split at h
      · cases h
      · obtain rfl := Except.ok.inj h
        have hname : (fileName job).utf8ByteSize ≤ nameLimit := by
          rw [utf8ByteSize_fileName]
          simp only [temporaryExtra] at hshort
          omega
        exact load_put hname (length_repr_le (by omega)) today now es

theorem clear_eq_ok_iff {folder' : Folder} : clear job folder = .ok folder' ↔
    (fileName job).utf8ByteSize ≤ nameLimit ∧ ∃ es, folder = .entries es ∧
      Folder.lookup es (fileName job) ≠ some .directory ∧
      folder' = .entries (es.filter fun e => e.1 != fileName job) := by
  cases folder with
  | blocked => simp [clear]
  | entries es =>
    rw [clear]
    split
    · rename_i hlong
      simp [hlong]
    · rename_i hname
      split
      · rename_i hdir
        simp [hdir]
      · rename_i hdir
        have hplace : Folder.lookup es (fileName job) ≠ some .directory := hdir
        simp [not_lt.mp hname, hplace, @eq_comm _ folder']

theorem load_of_clear {folder' : Folder} (h : clear job folder = .ok folder') (today : Date) :
    load today job folder' = .ok none := by
  obtain ⟨hname, es, -, -, rfl⟩ := clear_eq_ok_iff.mp h
  rw [load, read, if_neg (not_lt.mpr hname), Folder.lookup_filter_self]
  rfl

theorem Writable.save (h : Writable job folder) (now : Moment) (rows : Int) :
    ∃ folder', Checkpoint.save now job rows folder = .ok folder' ∧ Writable job folder' := by
  obtain ⟨hsafe, hshort, es, rfl, hes⟩ := h
  refine ⟨.entries (Folder.put (fileName job)
    (.file (Text.utf8Encode (fileText now job rows))) es), ?_, hsafe, hshort, _, rfl, ?_⟩
  · rw [Checkpoint.save, if_neg (by omega)]
    split
    · rename_i hdir
      exact absurd hdir hes
    · rfl
  · rw [Folder.lookup_put, if_pos rfl]
    simp

theorem Writable.clear (h : Writable job folder) :
    ∃ folder', Checkpoint.clear job folder = .ok folder' ∧ Writable job folder' := by
  obtain ⟨hsafe, hshort, es, rfl, hes⟩ := h
  refine ⟨.entries (es.filter fun e => e.1 != fileName job), ?_, hsafe, hshort, _, rfl, ?_⟩
  · refine clear_eq_ok_iff.mpr ⟨?_, es, rfl, hes, rfl⟩
    rw [utf8ByteSize_fileName]
    simp only [temporaryExtra] at hshort
    omega
  · rw [Folder.lookup_filter_self]
    simp

end Checkpoint

/-! ## The operations as actions -/

namespace Checkpoints

variable {job : String} {s : Surroundings} {w : World}

theorem run_jobId (h : Checkpoint.isSafeId job = true) :
    (liftM (Checkpoint.jobId (.text job)) : Action String) s w = (.ok job, w) := by
  rw [Action.run_liftM, Checkpoint.jobId_of_isSafeId h]

/-- The count that is on disk for a job. -/
theorem run_load (h : Checkpoint.isSafeId job = true) :
    load (.text job) s w = (Checkpoint.load s.today job w.folder, w) := by
  have hread : read (.text job) s w = (Checkpoint.read s.today job w.folder, w) := by
    unfold read
    rw [Action.run_bind_ok (run_jobId h), Action.run_bind_ok Action.run_today,
      Action.run_askFolder]
  unfold load
  rw [Action.run_bind, hread, Checkpoint.load]
  rcases Checkpoint.read s.today job w.folder with _ | _ <;> rfl

/-- A save changes the folder, or nothing. -/
theorem run_save (h : Checkpoint.isSafeId job = true) (rows : Int) :
    save (.text job) (.int rows) s w = match Checkpoint.save s.now job rows w.folder with
      | .ok folder => (.ok (), w.withFolder folder)
      | .error e => (.error e, w) := by
  unfold save
  rw [Action.run_bind_ok (run_jobId h), Action.run_bind_ok Action.run_now, Action.run_changeFolder]
  rcases w.folder with es | _ <;> rfl

/-- Whatever a save does, only the folder is another one. -/
theorem exists_folder_of_save (job rows : Value) :
    ∃ folder, (save job rows s w).2 = w.withFolder folder := by
  unfold save
  rcases hjob : Checkpoint.jobId job with e | name
  · rw [Action.run_bind_error (Action.run_liftM _)]
    exact ⟨w.folder, rfl⟩
  rw [Action.run_bind_ok (Action.run_liftM _), Action.run_bind_ok Action.run_now,
    Action.run_changeFolder]
  split
  · exact ⟨_, rfl⟩
  · exact ⟨w.folder, rfl⟩

theorem run_save_of_writable (h : Checkpoint.Writable job w.folder) {rows : Int} (h0 : 0 ≤ rows)
    (hrows : rows < 2 ^ 63) :
    ∃ folder, save (.text job) (.int rows) s w = (.ok (), w.withFolder folder) ∧
      Checkpoint.Writable job folder ∧
      ∀ today, Checkpoint.load today job folder = .ok (some rows) := by
  obtain ⟨folder, hsave, hfolder⟩ := h.save s.now rows
  refine ⟨folder, ?_, hfolder, Checkpoint.load_of_save h0 hrows hsave⟩
  rw [run_save h.safe, hsave]

theorem run_clear_of_writable (h : Checkpoint.Writable job w.folder) :
    ∃ folder, clear (.text job) s w = (.ok (), w.withFolder folder) ∧
      Checkpoint.Writable job folder ∧ ∀ today, Checkpoint.load today job folder = .ok none := by
  obtain ⟨folder, hclear, hfolder⟩ := h.clear
  refine ⟨folder, ?_, hfolder, Checkpoint.load_of_clear hclear⟩
  unfold clear
  rw [Action.run_bind_ok (run_jobId h.safe), Action.run_changeFolder, hclear]

end Checkpoints

namespace Run

variable {job : String} {rows : Int} {s : Surroundings} {w : World} {folder : Folder}

theorem world_of_mark (h : (Checkpoints.save (.text job) (.int rows) s w).2 = w.withFolder folder) :
    (mark job rows s w).2 = w.withFolder folder := by
  unfold mark
  rw [Action.run_bind, Action.run_attempt, h]
  rcases (Checkpoints.save (.text job) (.int rows) s w).1 with e | _
  · rcases he : isFileFault e with _ | _
    · simp [he]
    · simp [he]
  · rfl

theorem exists_folder_of_mark (job : String) (rows : Int) (s : Surroundings) (w : World) :
    ∃ folder, (mark job rows s w).2 = w.withFolder folder := by
  obtain ⟨folder, hsave⟩ := @Checkpoints.exists_folder_of_save s w (.text job) (.int rows)
  exact ⟨folder, world_of_mark hsave⟩

theorem run_mark_of_writable (h : Checkpoint.Writable job w.folder) (h0 : 0 ≤ rows)
    (hrows : rows < 2 ^ 63) :
    ∃ folder, mark job rows s w = (.ok (), w.withFolder folder) ∧
      Checkpoint.Writable job folder ∧
      ∀ today, Checkpoint.load today job folder = .ok (some rows) := by
  obtain ⟨folder, hsave, hfolder, hload⟩ := Checkpoints.run_save_of_writable h h0 hrows (s := s)
  refine ⟨folder, ?_, hfolder, hload⟩
  unfold mark
  rw [Action.run_bind, Action.run_attempt, hsave]
  rfl

/-- Whatever becomes of a checkpoint that is to be written, the folder has the old one or
the new one. -/
theorem folder_of_mark (h : Checkpoint.isSafeId job = true) (h0 : 0 ≤ rows)
    (hrows : rows < 2 ^ 63) :
    (mark job rows s w).2.folder = w.folder ∨
      ∀ today, Checkpoint.load today job (mark job rows s w).2.folder = .ok (some rows) := by
  have hrun := @Checkpoints.run_save job s w h rows
  rcases hsave : Checkpoint.save s.now job rows w.folder with e | folder
  · rw [hsave] at hrun
    have hworld : (mark job rows s w).2 = w.withFolder w.folder :=
      world_of_mark (congrArg Prod.snd hrun)
    rw [hworld]
    exact Or.inl rfl
  · rw [hsave] at hrun
    have hworld : (mark job rows s w).2 = w.withFolder folder :=
      world_of_mark (congrArg Prod.snd hrun)
    rw [hworld]
    exact Or.inr (Checkpoint.load_of_save h0 hrows hsave)

end Run

/-- Whatever becomes of a checkpoint that is to be removed, it is gone or it is there. -/
theorem Checkpoints.folder_of_clear {job : String} (h : Checkpoint.isSafeId job = true)
    (s : Surroundings) (w : World) :
    ∃ folder, (clear (.text job) s w).2 = w.withFolder folder ∧
      (folder = w.folder ∨ ∀ today, Checkpoint.load today job folder = .ok none) := by
  unfold clear
  rw [Action.run_bind_ok (run_jobId h), Action.run_changeFolder]
  rcases hclear : Checkpoint.clear job w.folder with e | folder
  · exact ⟨w.folder, rfl, Or.inl rfl⟩
  · exact ⟨folder, rfl, Or.inr (Checkpoint.load_of_clear hclear)⟩

end Tabula
