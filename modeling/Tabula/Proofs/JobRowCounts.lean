import Tabula.Proofs.Additions
import Tabula.Proofs.Searching

/-!
# Counting the rows of a job

The store counts the rows of a job by a pattern, which matches what begins like their ids, the case
of the 26 letters aside (`like_jobPattern_iff`). Behind their kind the ids of jobs have small letters
and digits only (`Batch.IsJobId`), so of the ids that batches give their rows (`Batch.IsBatchId`) no
others begin like them (`Batch.isRowIdOf_of_isPrefix`) : the id of another job has its underscore at
another place or differs before, and a loose id has its stamp in the place of the kind.

So the count is right in any table whose rows have such ids, unless the store finds the pattern too
long (`Store.Rows.countJob_eq`). Whatever calls change the rows, the ids stay such ones
(`RowCall.hasBatchIds_after`), and `RowStore.countJob_after` is the count behind any calls.
-/

namespace Tabula

open Store Tabula.Action

/-! ## Ids of jobs -/

/-- A small letter or a digit. -/
def IsIdLetter (c : Char) : Prop := c.isLower = true ∨ c.isDigit = true

theorem IsIdLetter.toNat {c : Char} (h : IsIdLetter c) :
    (48 ≤ c.toNat ∧ c.toNat ≤ 57) ∨ (97 ≤ c.toNat ∧ c.toNat ≤ 122) := by
  rcases h with h | h
  · have hbetween : (decide (97 ≤ c.toNat) && decide (c.toNat ≤ 122)) = true := h
    exact .inr (by simpa using hbetween)
  · exact .inl (Char.isDigit_iff_toNat.mp h)

theorem IsIdLetter.ne {c d : Char} (h : IsIdLetter c)
    (hd : ¬((48 ≤ d.toNat ∧ d.toNat ≤ 57) ∨ (97 ≤ d.toNat ∧ d.toNat ≤ 122))) : c ≠ d := fun heq =>
  hd (heq ▸ h.toNat)

theorem IsIdLetter.utf8Size_eq_one {c : Char} (h : IsIdLetter c) : c.utf8Size = 1 := by
  have := h.toNat
  exact Char.utf8Size_eq_one_iff.mpr (show c.toNat ≤ 127 by omega)

theorem fold_of_idLetters {cs : List Char} (h : ∀ c ∈ cs, IsIdLetter c) :
    Text.fold cs = cs := by
  rw [Text.fold, List.map_congr_left fun c hc => ?_, List.map_id]
  have := (h c hc).toNat
  rw [Text.foldChar_eq_asciiLowerChar (by omega)]
  exact Text.asciiLowerChar_eq_self (by omega)

namespace Batch

/-- The ids that jobs get : the kind, then small letters and digits. -/
def IsJobId (job : String) : Prop :=
  ∃ token : String, job = "job" ++ "_" ++ token ∧ ∀ c ∈ token.toList, IsIdLetter c

variable {job id : String}

theorem isJobId_of_digits (token : String) (h : token.toList.all Char.isDigit = true) :
    IsJobId ("job" ++ "_" ++ token) :=
  ⟨token, rfl, fun c hc => .inr (List.all_eq_true.mp h c hc)⟩

theorem idPrefix_job (token : String) :
    idPrefix ("job" ++ "_" ++ token) = "row_job_".toList ++ (token.toList ++ ['_']) := by
  simp [idPrefix]

theorem IsJobId.hasNoZero (h : IsJobId job) : HasNoZero job := by
  obtain ⟨token, rfl, hletters⟩ := h
  refine HasNoZero.append (by simp [HasNoZero]) fun c hc => ?_
  have := (hletters c hc).toNat
  omega

theorem IsJobId.fold_idPrefix (h : IsJobId job) :
    Text.fold (idPrefix job) = idPrefix job := by
  obtain ⟨token, rfl, hletters⟩ := h
  have htoken : token.toList.map Text.foldChar = token.toList :=
    fold_of_idLetters hletters
  rw [idPrefix_job, Text.fold, List.map_append, List.map_append, htoken]
  rfl

/-- The pattern has nine bytes besides those of the id : what is around the id, and the backslashes. -/
theorem IsJobId.utf8ByteSize_jobPattern (h : IsJobId job) :
    (Rows.jobPattern job).utf8ByteSize = job.length + 9 := by
  obtain ⟨token, rfl, hletters⟩ := h
  have hescape : Text.escapeWildcards token.toList = token.toList :=
    Text.escapeWildcards_eq_self fun c hc => by simp [(hletters c hc).ne]
  have hsize : String.utf8Len token.toList = token.length := by
    rw [utf8Len_eq_length fun c hc => (hletters c hc).utf8Size_eq_one, String.length_toList]
  have hjob : ("job" ++ "_" ++ token).length = token.length + 4 := by
    rw [String.length_append, Nat.add_comm]
    rfl
  have hpattern : (Rows.jobPattern ("job" ++ "_" ++ token)).toList =
      "row\\_job\\_".toList ++ (token.toList ++ "\\_%".toList) := by
    rw [Rows.jobPattern, Text.beginsPattern, String.toList_ofList, toList_idPrefix, idPrefix_job,
      Text.escapeWildcards_append, Text.escapeWildcards_append, hescape, List.append_assoc, List.append_assoc]
    rfl
  rw [← String.ofList_toList (s := Rows.jobPattern _), String.utf8ByteSize_ofList, hpattern,
    String.utf8Len_append, String.utf8Len_append, hsize, hjob]
  exact Nat.add_left_comm _ _ _

/-! ## Ids that begin like those of a job's rows -/

/-- The ids that rows get : those of no job, and those of a job with such an id. -/
def IsBatchId (id : String) : Prop :=
  (∃ stamp batch row ending, id = looseRowId stamp batch row ending) ∨
    ∃ job, IsJobId job ∧ IsRowIdOf job id

/-- Two ids of jobs that begin alike up to an underscore are one. -/
theorem IsJobId.eq_of_isPrefix {job' : String} {rest : List Char} (h : IsJobId job)
    (h' : IsJobId job') (hbegins : idPrefix job <+: idPrefix job' ++ rest) : job = job' := by
  obtain ⟨token, rfl, hletters⟩ := h
  obtain ⟨token', rfl, hletters'⟩ := h'
  rw [idPrefix_job, idPrefix_job, List.append_assoc, List.prefix_append_right_inj] at hbegins
  obtain ⟨t, ht⟩ := hbegins
  have hnone : ∀ {token : String}, (∀ c ∈ token.toList, IsIdLetter c) → '_' ∉ token.toList :=
    fun hletters hmem => (hletters '_' hmem).ne (by decide) rfl
  have htakes := congrArg (List.takeWhile (· ≠ '_')) ht
  rw [List.append_assoc, List.append_assoc, List.singleton_append, List.singleton_append,
    takeWhile_append_cons (hnone hletters), takeWhile_append_cons (hnone hletters')] at htakes
  rw [String.toList_injective htakes]

/-- Of the ids of rows none begin like those of a job's rows but these, even if the case of the 26
letters does not count. -/
theorem isRowIdOf_of_isPrefix (hjob : IsJobId job) (hid : IsBatchId id)
    (hbegins : idPrefix job <+: Text.fold id.toList) : IsRowIdOf job id := by
  rcases hid with ⟨stamp, batch, row, ending, rfl⟩ | ⟨job', hjob', batch, row, rfl⟩
  · obtain ⟨token, rfl, -⟩ := hjob
    rw [idPrefix_job] at hbegins
    have hkind : "row_j".toList <+: "row_job_".toList ++ (token.toList ++ ['_']) :=
      ⟨"ob_".toList ++ _, rfl⟩
    exact absurd (hkind.trans hbegins) (not_isPrefix_looseRowId stamp batch row ending)
  · rw [toList_jobRowId, Text.fold, List.map_append, ← Text.fold,
      hjob'.fold_idPrefix] at hbegins
    exact ⟨batch, row, by rw [hjob.eq_of_isPrefix hjob' hbegins]⟩

theorem isRowIdOf_jobRowId {job' : String} {batch : Int} {row : Nat} :
    IsRowIdOf job (jobRowId job' batch row) ↔ job' = job :=
  ⟨fun ⟨_, _, h⟩ => (jobRowId_inj.mp h).1, fun h => h ▸ ⟨batch, row, rfl⟩⟩

theorem IsJobId.not_isRowIdOf_looseRowId (h : IsJobId job) (stamp batch : Int) (row : Nat)
    (ending : String) : ¬ IsRowIdOf job (looseRowId stamp batch row ending) := by
  rintro ⟨batch', row', hid⟩
  obtain ⟨token, rfl, -⟩ := h
  exact looseRowId_ne_jobRowId stamp batch batch' row row' ending token hid

end Batch

open Batch

/-! ## The count of a table -/

namespace Store.Rows

variable {rows rows' : Rows} {table job : String}

/-- The rows of the table have ids that batches give. -/
def HasBatchIds (rows : Rows) (table : String) : Prop :=
  ∀ r ∈ rows.ofTable table, IsBatchId r.id

open Classical in
/-- The store tells the rows of a job from all others. -/
theorem likeText_of_isBatchId {id : String} (hjob : IsJobId job) (hid : IsBatchId id)
    (hshort : job.length + 9 ≤ patternLimit) :
    likeText (jobPattern job) (some id) = .ok (decide (IsRowIdOf job id)) := by
  have hlimit : ¬ patternLimit < (jobPattern job).utf8ByteSize :=
    hjob.utf8ByteSize_jobPattern ▸ Nat.not_lt.mpr hshort
  by_cases hrow : IsRowIdOf job id
  · obtain ⟨batch, row, rfl⟩ := hrow
    rw [likeText_jobPattern hjob.hasNoZero, if_neg hlimit, decide_eq_true ⟨batch, row, rfl⟩]
  · rw [likeText, if_neg hlimit, Option.any_some, upToZero_eq (hasNoZero_jobPattern hjob.hasNoZero),
      decide_eq_false hrow]
    refine congrArg Except.ok (Bool.eq_false_iff.mpr fun hstarts => hrow ?_)
    -- The store reads the id up to a zero character only.
    have hread : (upToZero id).toList <+: id.toList := by
      rw [upToZero, String.toList_ofList]
      exact List.takeWhile_prefix _
    exact isRowIdOf_of_isPrefix hjob hid
      ((hjob.fold_idPrefix ▸ like_jobPattern_iff.mp hstarts).trans (hread.map Text.foldChar))

/-- The count is that of the rows of the job, or the pattern is too long, which the store finds out
at the first row. -/
theorem countJob_eq (hjob : IsJobId job) (h : rows.HasBatchIds table) :
    countJob table job rows =
      if job.length + 9 ≤ patternLimit ∨ rows.ofTable table = [] then
        .ok ((rows.ofTable table).ofJob job).length
      else .error .longPattern := by
  classical
  split
  · rename_i hor
    rw [countJob, select_eq (b := fun r => decide (IsRowIdOf job r.id)) fun r hr => ?_]
    · simp only [Except.map, ofJob]
    · exact likeText_of_isBatchId hjob (h r hr)
        (hor.resolve_right fun hnil => absurd (hnil ▸ hr) List.not_mem_nil)
  · rename_i hor
    obtain ⟨hlong, hsome⟩ := not_or.mp hor
    obtain ⟨r, rest, hrows⟩ := List.exists_cons_of_ne_nil hsome
    have hlimit : patternLimit < (jobPattern job).utf8ByteSize :=
      hjob.utf8ByteSize_jobPattern ▸ Nat.not_le.mp hlong
    rw [countJob, hrows, select, likeText, if_pos hlimit]
    rfl

open Classical in
theorem length_ofJob (job : String) (rows : Rows) :
    (rows.ofJob job).length = (rows.map Row.id).countP fun id => IsRowIdOf job id := by
  rw [ofJob, List.countP_map, List.countP_eq_length_filter]
  rfl

/-- Rows that go, or that are written anew, do not matter. -/
theorem HasBatchIds.thinned (h : rows.HasBatchIds table) (hthinned : rows.Thinned rows') :
    rows'.HasBatchIds table := by
  intro r hr
  obtain ⟨hr, htable⟩ := List.mem_filter.mp hr
  obtain ⟨old, hold, hplace⟩ := List.mem_map.mp (hthinned.subset (List.mem_map_of_mem hr))
  obtain ⟨hid, hplace⟩ := Prod.mk.inj hplace
  have hsame : old.table = r.table := (Prod.mk.inj hplace).1
  exact hid ▸ h old (List.mem_filter.mpr ⟨hold, hsame ▸ htable⟩)

/-- Entries that come into the table bring their ids. -/
theorem HasBatchIds.append {now : Moment} {into : String} {es : Batch} (h : rows.HasBatchIds table)
    (hes : into = table → ∀ e ∈ es, IsBatchId e.id) :
    HasBatchIds (rows ++ es.map (Row.ofEntry now into)) table := by
  intro r hr
  obtain ⟨hr, htable⟩ := List.mem_filter.mp hr
  rcases List.mem_append.mp hr with hr | hr
  · exact h r (List.mem_filter.mpr ⟨hr, htable⟩)
  · obtain ⟨e, he, rfl⟩ := List.mem_map.mp hr
    exact hes (beq_iff_eq.mp htable) e he

end Store.Rows

/-! ## What calls of the row store do to the ids -/

/-- A call that changes rows. Rows that are appended get the ids of a job, or loose ones if the id of
the job is empty. -/
inductive RowCall where
  | append (table job : String) (batch start : Int) (rows : List Value)
  | updateCell (id column : String) (value : Value)
  | delete (id : String)
  | deleteTable (table : String)
  | removeKey (table column : String)
  | removeKeyByRow (table column : String)

namespace RowCall

/-- The batch that is appended. -/
def batchOf (job : String) (batch start : Int) (rows : List Value) : Action Batch :=
  if job = "" then Workspace.looseBatch batch start rows
  else liftM (Batch.encode (jobRowId job batch) batch start rows)

def run : RowCall → Action Unit
  | append table job batch start rows => do
    let es ← batchOf job batch start rows
    let _ ← RowStore.append table es
  | updateCell id column value => do let _ ← RowStore.updateCell id column value
  | delete id => RowStore.delete id
  | deleteTable table => do let _ ← RowStore.deleteTable table
  | removeKey table column => do let _ ← RowStore.removeKey table column
  | removeKeyByRow table column => do let _ ← RowStore.removeKeyByRow table column

/-- The world behind some calls, in the surroundings of each. -/
def after (calls : List (Surroundings × RowCall)) (w : World) : World :=
  calls.foldl (fun w call => (call.2.run call.1 w).2) w

/-- Rows that come into the table come for no job, or for one with the id of a job. -/
def Names (table : String) : RowCall → Prop
  | append into job _ _ _ => into = table → job = "" ∨ IsJobId job
  | _ => True

variable {s : Surroundings} {w w' : World} {db : Database} {table : String}

theorem isBatchId_of_batchOf {job : String} {batch start : Int} {rows : List Value} {es : Batch}
    (h : batchOf job batch start rows s w = (.ok es, w')) (hjob : job = "" ∨ IsJobId job) :
    ∀ e ∈ es, IsBatchId e.id := by
  intro e he
  rw [batchOf] at h
  split at h
  · obtain ⟨stamp, w₁, _, h⟩ := ok_of_run_bind h
    obtain ⟨endings, w₂, _, h⟩ := ok_of_run_bind h
    obtain ⟨hencode, rfl⟩ := Prod.mk.inj h
    obtain ⟨row, hid⟩ := exists_id_of_mem_encode hencode he
    exact .inl ⟨stamp, batch, row, _, hid⟩
  · rename_i hne
    obtain ⟨hencode, rfl⟩ := Prod.mk.inj h
    obtain ⟨row, hid⟩ := exists_id_of_mem_encode hencode he
    exact .inr ⟨job, hjob.resolve_left hne, batch, row, hid⟩

theorem isQuiet_batchOf (job : String) (batch start : Int) (rows : List Value) :
    IsQuiet (batchOf job batch start rows) := by
  rw [batchOf]
  split
  · exact Workspace.isQuiet_looseBatch _ _ _
  · exact isQuiet_lift _

/-- A transaction that lets rows go, or writes them anew. -/
theorem hasBatchIds_transaction {α : Type} {action : RowAction}
    {f : Database → Except Failure (α × Database)} (hw : w.storage = .ready db)
    (h : db.rows.HasBatchIds table) (hf : ∀ a db', f db = .ok (a, db') → db.rows.Thinned db'.rows) :
    Leaves (fun db' => db'.rows.HasBatchIds table) (rowStore action (transaction f)) s w :=
  leaves_rowStore (leaves_transaction hw h fun a db' hok => h.thinned (hf a db' hok))

/-- The ids of the table's rows stay such that batches give. -/
theorem hasBatchIds_run (call : RowCall) (hw : w.storage = .ready db)
    (h : db.rows.HasBatchIds table) (hnames : call.Names table) :
    Leaves (fun db' => db'.rows.HasBatchIds table) call.run s w := by
  cases call with
  | append into job batch start rows =>
    refine (isQuiet_batchOf job batch start rows).leaves_bind hw h fun es w₁ hes hw₁ => ?_
    refine leaves_map (f := fun _ => ()) ?_
    rw [Leaves, RowStore.run_append hw₁]
    split
    · refine ⟨_, rfl, h.append fun hinto e he => isBatchId_of_batchOf hes (hnames hinto) e ?_⟩
      obtain ⟨front, back, heq, -⟩ := Batch.mem_firsts.mp (Rows.mem_fresh.mp he).1
      exact heq ▸ List.mem_append_right front List.mem_cons_self
    · exact ⟨db, hw₁, h⟩
  | updateCell id column value =>
    refine leaves_map (f := fun _ => ()) (isQuiet_now.leaves_bind hw h fun now w₁ _ hw₁ => ?_)
    refine hasBatchIds_transaction hw₁ h fun r db' hok => ?_
    obtain ⟨row, _, hok⟩ := ok_of_bind hok
    obtain ⟨p, _, hok⟩ := ok_of_bind hok
    obtain ⟨_, rfl⟩ := Prod.mk.inj (Except.ok.inj hok)
    exact Rows.thinned_write _ _ _
  | delete id =>
    refine hasBatchIds_transaction hw h fun _ db' hok => ?_
    obtain ⟨row, _, hok⟩ := ok_of_bind hok
    obtain ⟨_, rfl⟩ := Prod.mk.inj (Except.ok.inj hok)
    exact Rows.thinned_filter _
  | deleteTable other =>
    refine leaves_map (f := fun _ => ()) (hasBatchIds_transaction hw h fun _ db' hok => ?_)
    obtain ⟨_, rfl⟩ := Prod.mk.inj (Except.ok.inj hok)
    exact Rows.thinned_filter _
  | removeKey other column =>
    refine leaves_map (f := fun _ => ()) (isQuiet_now.leaves_bind hw h fun now w₁ _ hw₁ => ?_)
    refine hasBatchIds_transaction hw₁ h fun _ db' hok => ?_
    obtain ⟨_, rfl⟩ := Prod.mk.inj (Except.ok.inj hok)
    exact Rows.thinned_removeKey _ _ _
  | removeKeyByRow other column =>
    refine leaves_map (f := fun _ => ()) (isQuiet_now.leaves_bind hw h fun now w₁ _ hw₁ => ?_)
    refine hasBatchIds_transaction hw₁ h fun _ db' hok => ?_
    obtain ⟨_, rfl⟩ := Prod.mk.inj (Except.ok.inj hok)
    exact Rows.thinned_withoutCell _ _ _

/-- However many calls there are. -/
theorem hasBatchIds_after :
    ∀ (calls : List (Surroundings × RowCall)) {w : World} {db : Database},
      w.storage = .ready db → db.rows.HasBatchIds table → (∀ call ∈ calls, call.2.Names table) →
      ∃ db', (after calls w).storage = .ready db' ∧ db'.rows.HasBatchIds table
  | [], _, db, hw, h, _ => ⟨db, hw, h⟩
  | call :: calls, _, _, hw, h, hnames => by
    obtain ⟨hcall, hcalls⟩ := List.forall_mem_cons.mp hnames
    obtain ⟨db', hdb', h'⟩ := hasBatchIds_run (s := call.1) call.2 hw h hcall
    exact hasBatchIds_after calls hdb' h' hcalls

end RowCall

namespace RowStore

variable {s : Surroundings} {w : World} {db : Database} {table job : String}

theorem run_countJob (hw : w.storage = .ready db) (h : db.rows.HasBatchIds table)
    (hjob : IsJobId job) :
    countJob table job s w =
      (if job.length + 9 ≤ patternLimit ∨ db.rows.ofTable table = [] then
        .ok ((db.rows.ofTable table).ofJob job).length
      else .error (.rowStore .count Refusal.longPattern.message), w) := by
  rw [countJob, run_answered hw, Rows.countJob_eq hjob h]
  split <;> rfl

end RowStore

end Tabula
