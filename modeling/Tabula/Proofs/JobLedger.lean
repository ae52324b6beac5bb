import Mathlib.Algebra.Order.Ring.Int
import Mathlib.Tactic.Linarith
import Tabula.Ingest.Jobs
import Tabula.Proofs.Actions

/-!
# What the ledger does to a job

An operation of the ledger looks for one job and puts a changed one in its place.
`find?_put_self` and `find?_put_of_ne` say what is found then, and `exists_markProcessing`,
`advance_eq`, `complete_eq` and `fail_eq` what the changed job is. A count that the store can
hold makes a finite share (`Job.runningProgress_ok`), so counting rows fails only where the
status forbids it.

`Job.Continues` is what no operation changes : the id, the table, the total and a base
position once there is one. `Ledger.GoesOn` says so of one job in two ledgers.
-/

namespace Tabula

/-! ## Shares are finite -/

theorem roundHalfEven_le (num den : Nat) : roundHalfEven num den ≤ num / den + 1 := by
  simp only [roundHalfEven]
  split
  · omega
  · split
    · omega
    · split <;> omega

/-- The rank of a quotient below a power of two : the binade counts, and one more for
rounding. -/
theorem Magnitude.rankOfUnits_le {num den k : Nat} (hk : 53 ≤ k) (h : num / den < 2 ^ k) :
    rankOfUnits num den ≤ (k - 53) * binadeSize + 2 ^ 53 := by
  obtain ⟨q, hq⟩ : ∃ q, num / den = q := ⟨_, rfl⟩
  have hlog : q.log2 < k := by
    rw [hq] at h
    rcases Nat.eq_zero_or_pos q with rfl | hpos
    · simpa using (by omega : 0 < k)
    · exact (Nat.log2_lt hpos.ne').mpr h
  have hlow : q < 2 ^ (q.log2 - 52 + 53) := by
    have : q < 2 ^ (q.log2 + 1) := Nat.lt_log2_self
    exact this.trans_le (Nat.pow_le_pow_right (by decide) (by omega))
  have hdiv : num / (den <<< (q.log2 - 52)) < 2 ^ 53 := by
    rw [Nat.shiftLeft_eq, ← Nat.div_div_eq_div_mul, hq,
      Nat.div_lt_iff_lt_mul (Nat.two_pow_pos _), ← Nat.pow_add, Nat.add_comm]
    exact hlow
  have hround := roundHalfEven_le num (den <<< (q.log2 - 52))
  have hshift : (q.log2 - 52) * binadeSize ≤ (k - 53) * binadeSize :=
    Nat.mul_le_mul_right _ (by omega)
  simp only [rankOfUnits, hq]
  exact Nat.add_le_add hshift (hround.trans hdiv)

theorem mul_one_shiftLeft_lt {n k e : Nat} (h : n < 2 ^ k) : n * (1 <<< e) < 2 ^ (k + e) := by
  rw [Nat.one_shiftLeft, Nat.pow_add]
  exact Nat.mul_lt_mul_of_pos_right h (Nat.two_pow_pos e)

theorem Binary64.isFinite_ofRatio {n : Int} (h : n.natAbs < 2 ^ 64) (d : Nat) :
    (Binary64.ofRatio n d).isFinite = true := by
  have hnum : n.natAbs * Magnitude.unitsPerOne / d < 2 ^ (64 + 1074) := by
    refine (Nat.div_le_self _ _).trans_lt ?_
    rw [Magnitude.unitsPerOne]
    exact mul_one_shiftLeft_lt h
  have hrank := Magnitude.rankOfUnits_le (by decide) hnum
  have hlt : Magnitude.rankOfUnits (n.natAbs * Magnitude.unitsPerOne) d < infinityRank := by
    rw [binadeSize] at hrank
    rw [infinityRank, binadeSize]
    omega
  simp only [ofRatio, isFinite, Magnitude.ofRatio, Magnitude.ofUnits, Magnitude.isFinite]
  exact decide_eq_true ((Nat.min_le_left _ _).trans_lt hlt)

theorem fitsInteger_iff {n : Int} : Store.fitsInteger n = true ↔ -2 ^ 63 ≤ n ∧ n < 2 ^ 63 := by
  simp [Store.fitsInteger]

/-- A count that the store can hold has a share. -/
theorem Job.runningProgress_ok {n : Int} (h : Store.fitsInteger n = true) (total : Int) :
    ∃ x, Job.runningProgress n total = .ok x := by
  rw [Job.runningProgress]
  split
  · exact ⟨_, rfl⟩
  · rw [fitsInteger_iff] at h
    have hfin := Binary64.isFinite_ofRatio (n := n) (by omega) total.toNat
    simp only [hfin, if_true]
    exact ⟨_, rfl⟩

theorem Store.sum_of_fits {m n : Int} (h : Store.fitsInteger (m + n) = true) :
    Store.sum m n = m + n := by
  rw [Store.sum, if_pos h]

/-! ## One job of the ledger -/

/-- What stays as it is while a job goes on. -/
structure Job.Continues (j j' : Job) : Prop where
  id : j'.id = j.id
  table : j'.table = j.table
  total : j'.total = j.total
  base : j.basePosition ≠ none → j'.basePosition = j.basePosition

theorem Job.Continues.trans {j j' j'' : Job} (h : j.Continues j') (h' : j'.Continues j'') :
    j.Continues j'' where
  id := h'.id.trans h.id
  table := h'.table.trans h.table
  total := h'.total.trans h.total
  base := fun hne => (h'.base (by rwa [h.base hne])).trans (h.base hne)

namespace Ledger

variable {ledger : Ledger} {id : String} {j j' : Job} {now : Moment}

theorem id_of_find? (h : ledger.find? id = some j) : j.id = id := by
  simpa using List.find?_some h

theorem get_eq (h : ledger.find? id = some j) : ledger.get id = .ok j := by
  rw [get, h]

theorem find?_of_get (h : ledger.get id = .ok j) : ledger.find? id = some j := by
  rw [get] at h
  split at h
  · simp_all
  · simp at h

theorem find?_cons (k : Job) (ledger : Ledger) (id : String) :
    find? (k :: ledger) id = if k.id = id then some k else find? ledger id := by
  rw [find?, List.find?_cons]
  split <;> simp_all [find?]

theorem put_cons (k : Job) (ledger : Ledger) :
    put (k :: ledger) j' = (if k.id = j'.id then j' else k) :: put ledger j' := by
  simp [put]

theorem find?_put_of_ne {other : String} (ho : other ≠ j'.id) :
    ∀ ledger : Ledger, (ledger.put j').find? other = ledger.find? other
  | [] => rfl
  | k :: ledger => by
    rw [put_cons, find?_cons, find?_cons, find?_put_of_ne ho ledger]
    by_cases hk : k.id = j'.id
    · rw [if_pos hk, if_neg (Ne.symm ho), if_neg (by rw [hk]; exact Ne.symm ho)]
    · rw [if_neg hk]

/-- The job that was put is found in the place of the one with its id. -/
theorem find?_put_self (hid : j'.id = id) :
    ∀ {ledger : Ledger}, ledger.find? id = some j → (ledger.put j').find? id = some j'
  | [], h => by simp [find?] at h
  | k :: ledger, h => by
    rw [put_cons, find?_cons]
    by_cases hk : k.id = j'.id
    · rw [if_pos hk, if_pos hid]
    · rw [hid] at hk
      rw [find?_cons, if_neg hk] at h
      rw [hid, if_neg hk, if_neg hk, find?_put_self hid h]

/-- A ledger in which a job that was there goes on, with the base position it had. -/
def GoesOn (id : String) (ledger ledger' : Ledger) : Prop :=
  ∀ j, ledger.find? id = some j →
    ∃ j', ledger'.find? id = some j' ∧ j.Continues j' ∧ j'.basePosition = j.basePosition

theorem GoesOn.refl (id : String) (ledger : Ledger) : GoesOn id ledger ledger :=
  fun j hj => ⟨j, hj, ⟨rfl, rfl, rfl, fun _ => rfl⟩, rfl⟩

theorem GoesOn.trans {ledger₁ ledger₂ ledger₃ : Ledger} (h : GoesOn id ledger₁ ledger₂)
    (h' : GoesOn id ledger₂ ledger₃) : GoesOn id ledger₁ ledger₃ := by
  intro j hj
  obtain ⟨j₂, hj₂, hc₂, hb₂⟩ := h j hj
  obtain ⟨j₃, hj₃, hc₃, hb₃⟩ := h' j₂ hj₂
  exact ⟨j₃, hj₃, hc₂.trans hc₃, hb₃.trans hb₂⟩

theorem goesOn_put (hj : ledger.find? id = some j) (hid : j'.id = j.id)
    (htable : j'.table = j.table) (htotal : j'.total = j.total) (hbase : j'.basePosition = j.basePosition) :
    GoesOn id ledger (ledger.put j') := by
  intro k hk
  obtain rfl := Option.some.inj (hk.symm.trans hj)
  exact ⟨j', find?_put_self (hid.trans (id_of_find? hj)) hj, ⟨hid, htable, htotal, fun _ => hbase⟩,
    hbase⟩

/-! ## The operations -/

theorem storable_eq {n : Int} (h : Store.fitsInteger n = true) : storable n = .ok n := by
  rw [storable, if_pos h]

/-- What a job is once it is started again : the rows that are there are counted anew, and
the base position is kept, or fixed now. -/
structure Restarted (resumeFrom : Option Int) (base : Int) (j j' : Job) : Prop where
  active : j.isActive = true
  continues : j.Continues j'
  status : j'.status = .processing
  processed : j'.processed = (resumeFrom.map fun n => min (max 0 n) j.total).getD j.processed
  base : j'.basePosition = some (j.basePosition.getD (max 0 base))

theorem status_started (now : Moment) (h : j.isActive = true) :
    (started now j).status = .processing := by
  rw [started]
  split
  · rfl
  · rename_i hp
    revert h hp
    rw [Job.isActive]
    cases j.status <;> simp [JobStatus.isTerminal]

theorem resumed_ok {resumeFrom : Option Int} (h : resumed resumeFrom j = .ok j') :
    ∃ x, j' = { j with
      processed := (resumeFrom.map fun n => min (max 0 n) j.total).getD j.processed
      progress := x } := by
  rcases resumeFrom with _ | n
  · rw [resumed, Except.ok.injEq] at h
    exact ⟨j.progress, by rw [← h]; rfl⟩
  · obtain ⟨x, _, hx⟩ := ok_of_bind h
    exact ⟨_, (Except.ok.inj hx).symm⟩

/-- Starting a job and fixing its base position, before its rows are counted anew. -/
theorem restarted_based (now : Moment) (hactive : j.isActive = true) (base : Int) :
    Restarted none base j (based (some base) (started now j)) := by
  have hs := status_started now hactive
  have hk : j.Continues (started now j) ∧ (started now j).processed = j.processed ∧
      (started now j).basePosition = j.basePosition := by
    rw [started]
    split <;> exact ⟨⟨rfl, rfl, rfl, fun _ => rfl⟩, rfl, rfl⟩
  obtain ⟨⟨hid, htable, htotal, _⟩, hp, hb⟩ := hk
  rcases hj : j.basePosition with _ | p
  · rw [hj] at hb
    simp only [based, hb]
    exact ⟨hactive, ⟨hid, htable, htotal, fun hn => absurd hj hn⟩, hs, hp, by rw [hj]; rfl⟩
  · rw [hj] at hb
    simp only [based, hb]
    exact ⟨hactive, ⟨hid, htable, htotal, fun _ => by rw [hb, hj]⟩, hs, hp, by rw [hb, hj]; rfl⟩

theorem restarted_of_markProcessing {resumeFrom : Option Int} {base : Int} {ledger' : Ledger}
    (h : markProcessing now id resumeFrom (some base) ledger = .ok (j', ledger')) :
    ∃ j, ledger.find? id = some j ∧ ledger' = ledger.put j' ∧ Restarted resumeFrom base j j' := by
  rw [markProcessing] at h
  obtain ⟨j, hj, h⟩ := ok_of_bind h
  refine ⟨j, find?_of_get hj, ?_⟩
  split at h
  · cases h
  · rename_i hactive
    obtain ⟨k, hk, h⟩ := ok_of_bind h
    obtain ⟨_, _, h⟩ := ok_of_bind h
    obtain ⟨x, rfl⟩ := resumed_ok hk
    obtain ⟨rfl, rfl⟩ := Prod.mk.inj (Except.ok.inj h)
    obtain ⟨_, ⟨hid, htable, htotal, hkeep⟩, hs, hp, hb⟩ :=
      restarted_based now (by simpa using hactive) base
    exact ⟨rfl, by simpa using hactive, ⟨hid, htable, htotal, hkeep⟩, hs, by simp [htotal, hp], hb⟩

/-- An active job whose counts and positions the store can hold can be started. -/
theorem exists_markProcessing (h : ledger.find? id = some j) (hactive : j.isActive = true)
    {resumeFrom : Option Int} {base : Int}
    (hcount : ∀ n, resumeFrom = some n → Store.fitsInteger (min (max 0 n) j.total) = true)
    (hbase : Store.fitsInteger (j.basePosition.getD (max 0 base)) = true) :
    ∃ j', markProcessing now id resumeFrom (some base) ledger = .ok (j', ledger.put j') := by
  obtain ⟨_, ⟨_, _, htotal, _⟩, _, _, hb⟩ := restarted_based now hactive base
  obtain ⟨k, hk⟩ : ∃ k, resumed resumeFrom (based (some base) (started now j)) = .ok k := by
    rcases resumeFrom with _ | n
    · exact ⟨_, rfl⟩
    · obtain ⟨x, hx⟩ := Job.runningProgress_ok (hcount n rfl) j.total
      rw [← htotal] at hx
      simp only [resumed, hx]
      exact ⟨_, rfl⟩
  have hkb : k.basePosition = some (j.basePosition.getD (max 0 base)) := by
    obtain ⟨x, rfl⟩ := resumed_ok hk
    exact hb
  refine ⟨{ k with updatedAt := now }, ?_⟩
  rw [markProcessing, get_eq h]
  simp only [bind, Except.bind, hactive, Bool.not_true, Bool.false_eq_true, if_false, hk, hkb,
    Option.getD_some, storable_eq hbase]
  rfl

/-- Counting rows of a processing job : they are added up as long as the store can hold the
count. -/
theorem advance_eq {delta : Int} (h : ledger.find? id = some j) (hs : j.status = .processing)
    (h0 : 0 ≤ delta) (hdelta : Store.fitsInteger delta = true)
    (hsum : Store.fitsInteger (j.processed + delta) = true) :
    ∃ x, advance now id delta ledger = .ok (x, ledger.put
      { j with processed := j.processed + delta, progress := x, updatedAt := now }) := by
  obtain ⟨x, hx⟩ := Job.runningProgress_ok hsum j.total
  refine ⟨j.progress.max x, ?_⟩
  have hneg : ¬ delta < 0 := by omega
  rw [advance, get_eq h]
  simp only [bind, Except.bind, hneg, if_false, storable_eq hdelta, hs, ne_eq, not_true_eq_false,
    Store.sum_of_fits hsum, hx]
  rfl

/-- Completing a processing job. -/
theorem complete_eq (h : ledger.find? id = some j) (hs : j.status = .processing) :
    complete now id ledger =
      let done := { j with
        status := .completed, updatedAt := now, completedAt := some now, progress := Job.hundred }
      .ok (done, ledger.put done) := by
  rw [complete, ended, get_eq h]
  simp [bind, Except.bind, hs, pure, Except.pure]

/-- Failing a processing job. -/
theorem fail_eq (h : ledger.find? id = some j) (hs : j.status = .processing) (detail : String) :
    fail now id detail ledger =
      let ended := { j with
        status := .failed, updatedAt := now, completedAt := some now
        error := some (Text.shorten detailLimit detail) }
      .ok (ended, ledger.put ended) := by
  rw [fail, ended, get_eq h]
  simp [bind, Except.bind, hs, pure, Except.pure]

theorem goesOn_advance {delta : Int} {x : Binary64} {ledger' : Ledger}
    (h : advance now id delta ledger = .ok (x, ledger')) : GoesOn id ledger ledger' := by
  rw [advance] at h
  split at h
  · cases h
  · obtain ⟨_, _, h⟩ := ok_of_bind h
    obtain ⟨j, hj, h⟩ := ok_of_bind h
    split at h
    · cases h
    · obtain ⟨y, _, h⟩ := ok_of_bind h
      obtain ⟨rfl, rfl⟩ := Prod.mk.inj (Except.ok.inj h)
      exact goesOn_put (find?_of_get hj) rfl rfl rfl rfl

theorem eq_of_ended {target : JobStatus} (h : ended now id target ledger = .ok j') :
    ∃ j, ledger.find? id = some j ∧ j.status = .processing ∧
      j' = { j with status := target, updatedAt := now, completedAt := some now } := by
  rw [ended] at h
  obtain ⟨j, hj, h⟩ := ok_of_bind h
  split at h
  · cases h
  · rename_i hs
    exact ⟨j, find?_of_get hj, not_not.mp hs, (Except.ok.inj h).symm⟩

theorem goesOn_complete {done : Job} {ledger' : Ledger}
    (h : complete now id ledger = .ok (done, ledger')) : GoesOn id ledger ledger' := by
  rw [complete] at h
  obtain ⟨k, hk, h⟩ := ok_of_bind h
  obtain ⟨rfl, rfl⟩ := Prod.mk.inj (Except.ok.inj h)
  obtain ⟨j, hj, _, rfl⟩ := eq_of_ended hk
  exact goesOn_put hj rfl rfl rfl rfl

theorem goesOn_fail {detail : String} {failed : Job} {ledger' : Ledger}
    (h : fail now id detail ledger = .ok (failed, ledger')) : GoesOn id ledger ledger' := by
  rw [fail] at h
  obtain ⟨k, hk, h⟩ := ok_of_bind h
  obtain ⟨rfl, rfl⟩ := Prod.mk.inj (Except.ok.inj h)
  obtain ⟨j, hj, _, rfl⟩ := eq_of_ended hk
  exact goesOn_put hj rfl rfl rfl rfl

end Ledger

/-! ## The operations as actions -/

namespace Jobs

variable {s : Surroundings} {w : World} {db : Database} {id : String} {j : Job}

theorem run_change {α : Type} {f : Ledger → Except Failure (α × Ledger)}
    (hw : w.storage = .ready db) {a : α} {jobs : Ledger} (h : f db.jobs = .ok (a, jobs)) :
    change f s w = (.ok a, w.withDatabase (db.withJobs jobs)) := by
  refine Action.run_transaction_ok hw ?_
  rw [h]
  rfl

theorem run_change_error {α : Type} {f : Ledger → Except Failure (α × Ledger)}
    (hw : w.storage = .ready db) {e : Failure} (h : f db.jobs = .error e) :
    change f s w = (.error e, w) := by
  refine Action.run_transaction_error hw ?_
  rw [h]
  rfl

/-- Whatever a change of the ledger does, only the ledger is another one. -/
theorem goesOn_of_change {α : Type} (hw : w.storage = .ready db)
    {f : Ledger → Except Failure (α × Ledger)}
    (hf : ∀ a jobs, f db.jobs = .ok (a, jobs) → Ledger.GoesOn id db.jobs jobs) :
    ∃ jobs, (change f s w).2 = w.withDatabase (db.withJobs jobs) ∧
      Ledger.GoesOn id db.jobs jobs := by
  rcases hfj : f db.jobs with e | ⟨a, jobs⟩
  · refine ⟨db.jobs, ?_, Ledger.GoesOn.refl id db.jobs⟩
    rw [run_change_error hw hfj]
    exact (withDatabase_self hw).symm
  · exact ⟨jobs, by rw [run_change hw hfj], hf a jobs hfj⟩

theorem goesOn_of_advance (hw : w.storage = .ready db) (id : String) (delta : Int) :
    ∃ jobs, (advance id delta s w).2 = w.withDatabase (db.withJobs jobs) ∧
      Ledger.GoesOn id db.jobs jobs := by
  rw [advance, Action.run_bind_ok Action.run_now]
  exact goesOn_of_change hw fun _ _ h => Ledger.goesOn_advance h

theorem goesOn_of_complete (hw : w.storage = .ready db) (id : String) :
    ∃ jobs, (complete id s w).2 = w.withDatabase (db.withJobs jobs) ∧
      Ledger.GoesOn id db.jobs jobs := by
  rw [complete, Action.run_bind_ok Action.run_now]
  exact goesOn_of_change hw fun _ _ h => Ledger.goesOn_complete h

theorem goesOn_of_fail (hw : w.storage = .ready db) (id detail : String) :
    ∃ jobs, (fail id detail s w).2 = w.withDatabase (db.withJobs jobs) ∧
      Ledger.GoesOn id db.jobs jobs := by
  rw [fail, Action.run_bind_ok Action.run_now]
  exact goesOn_of_change hw fun _ _ h => Ledger.goesOn_fail h

theorem run_get (hw : w.storage = .ready db) : get id s w = (db.jobs.get id, w) :=
  Action.run_query hw _

end Jobs

end Tabula
