import Tabula.Proofs.Filtering
import Tabula.Proofs.FloatOrder
import Tabula.Proofs.Rounding

/-!
# Integers in filters

A filter on a number column compares floats : the ones nearest the value that is asked for and
nearest the cell, in memory and in the store. Rounding keeps the order of integers
(`Binary64.nearestKey_mono`), so a comparison goes wrong only for two integers that have one nearest
float, as `2 ^ 53 + 1` and `2 ^ 53` have. No other integer has the nearest float of one that is
smaller than `2 ^ 53` (`Binary64.nearestKey_inj`).
-/

namespace Tabula

open Query Store

/-! ## The float nearest an integer -/

namespace Magnitude

theorem rank_ofRatio_mono {a b : Nat} (h : a ≤ b) : (ofRatio a 1).rank ≤ (ofRatio b 1).rank :=
  inf_le_inf_right _ (rankOfUnits_mono Nat.one_pos (Nat.mul_le_mul_right _ h))

/-- An integer of 53 bits is a significand in some binade. -/
theorem exists_significand {k : Nat} (hpos : 0 < k) (h : k < 2 ^ 53) :
    ∃ sig t, k * unitsPerOne = sig * 2 ^ t ∧ binadeSize ≤ sig ∧ sig < 2 * binadeSize := by
  obtain ⟨l, hl⟩ : ∃ l, k.log2 = l := ⟨_, rfl⟩
  have hlog : l ≤ 52 := by
    have := (Nat.log2_lt hpos.ne').mpr h
    omega
  refine ⟨k * 2 ^ (52 - l), 1022 + l, ?_, ?_, ?_⟩
  · rw [Nat.mul_assoc, ← Nat.pow_add, show 52 - l + (1022 + l) = 1074 by omega, unitsPerOne,
      Nat.one_shiftLeft]
  · have hle : 2 ^ l ≤ k := hl ▸ Nat.log2_self_le hpos.ne'
    calc binadeSize = 2 ^ l * 2 ^ (52 - l) := by
          rw [← Nat.pow_add, Nat.add_sub_cancel' hlog, binadeSize_eq]
      _ ≤ k * 2 ^ (52 - l) := Nat.mul_le_mul_right _ hle
  · have hlt : k < 2 ^ (l + 1) := hl ▸ Nat.lt_log2_self
    calc k * 2 ^ (52 - l) < 2 ^ (l + 1) * 2 ^ (52 - l) :=
          Nat.mul_lt_mul_of_pos_right hlt (Nat.two_pow_pos _)
      _ = 2 * binadeSize := by
          rw [← Nat.pow_add, show l + 1 + (52 - l) = 52 + 1 by omega, Nat.pow_succ', binadeSize_eq]

/-- So is the first one of 54 bits, in the binade behind that of its half. -/
theorem exists_significand_of_le {k : Nat} (hpos : 0 < k) (h : k ≤ 2 ^ 53) :
    ∃ sig t, k * unitsPerOne = sig * 2 ^ t ∧ binadeSize ≤ sig ∧ sig < 2 * binadeSize := by
  rcases h.lt_or_eq with h | rfl
  · exact exists_significand hpos h
  · obtain ⟨sig, t, hunits, hsig⟩ := exists_significand (k := 2 ^ 52) (by decide) (by decide)
    refine ⟨sig, t + 1, ?_, hsig⟩
    have hnext : sig * 2 ^ (t + 1) = sig * 2 ^ t * 2 := by rw [Nat.pow_succ, Nat.mul_assoc]
    rw [hnext, ← hunits]
    omega

theorem rank_ofRatio {k : Nat} (h : k < 2 ^ 64) :
    (ofRatio k 1).rank = rankOfUnits (k * unitsPerOne) 1 := by
  have hfinite : (Binary64.ofRatio k 1).isFinite = true :=
    Binary64.isFinite_ofRatio (by rwa [Int.natAbs_natCast]) 1
  have hlt : min (rankOfUnits (k * unitsPerOne) 1) infinityRank < infinityRank :=
    of_decide_eq_true hfinite
  exact Nat.min_eq_left (by omega)

/-- A number whose units are a significand in a binade is a float. -/
theorem units_ofRatio_of_significand {k sig t : Nat} (hk : k < 2 ^ 64)
    (hunits : k * unitsPerOne = sig * 2 ^ t) (hlow : binadeSize ≤ sig)
    (hhigh : sig < 2 * binadeSize) : (ofRatio k 1).units = k * unitsPerOne := by
  rw [units, rank_ofRatio hk, hunits, rankOfUnits_significand hhigh (.inr hlow),
    unitsOfRank_binade hhigh.le (.inr hlow)]

/-- An integer of up to 53 bits is a float. -/
theorem units_ofRatio {k : Nat} (h : k ≤ 2 ^ 53) : (ofRatio k 1).units = k * unitsPerOne := by
  rcases Nat.eq_zero_or_pos k with rfl | hpos
  · decide +kernel
  obtain ⟨sig, t, hk, hlow, hhigh⟩ := exists_significand_of_le hpos h
  exact units_ofRatio_of_significand (by omega) hk hlow hhigh

end Magnitude

namespace Binary64

/-- The place in the order of the float nearest an integer. -/
def nearestKey (n : Int) : Int :=
  let size := Magnitude.ofRatio n.natAbs 1
  if n < 0 then -(size.rank : Int) else size.rank

theorem key_ofInt (n : Int) : (ofInt n).key = some (nearestKey n) := by
  rw [ofInt, ofRatio, nearestKey]
  by_cases h : n < 0
  · rw [if_pos h, decide_eq_true h]
    rfl
  · rw [if_neg h, decide_eq_false h]
    rfl

/-- Rounding keeps the order of integers. -/
theorem nearestKey_mono {n m : Int} (h : n ≤ m) : nearestKey n ≤ nearestKey m := by
  rw [nearestKey, nearestKey]
  split_ifs with hn hm hm
  · have := Magnitude.rank_ofRatio_mono (show m.natAbs ≤ n.natAbs by omega)
    omega
  · omega
  · omega
  · have := Magnitude.rank_ofRatio_mono (show n.natAbs ≤ m.natAbs by omega)
    omega

/-- Integers of up to 53 bits are told apart. -/
theorem natAbs_eq_of_rank {a b : Nat} (ha : a ≤ 2 ^ 53) (hb : b ≤ 2 ^ 53)
    (h : (Magnitude.ofRatio a 1).rank = (Magnitude.ofRatio b 1).rank) : a = b := by
  have hunits := congrArg Magnitude.unitsOfRank h
  exact Nat.eq_of_mul_eq_mul_right Magnitude.unitsPerOne_pos
    ((Magnitude.units_ofRatio ha).symm.trans (hunits.trans (Magnitude.units_ofRatio hb)))

theorem nearestKey_inj_of_le {n m : Int} (hn : n.natAbs ≤ 2 ^ 53) (hm : m.natAbs ≤ 2 ^ 53)
    (h : nearestKey n = nearestKey m) : n = m := by
  have hzero : (Magnitude.ofRatio 0 1).rank = 0 := by decide +kernel
  rw [nearestKey, nearestKey] at h
  split_ifs at h with hn' hm' hm'
  · have := natAbs_eq_of_rank hn hm (by omega)
    omega
  · have := natAbs_eq_of_rank hn (Nat.zero_le _) (by omega)
    omega
  · have := natAbs_eq_of_rank hm (Nat.zero_le _) (by omega)
    omega
  · have := natAbs_eq_of_rank hn hm (by omega)
    omega

/-- No other integer has the nearest float of one that is smaller than `2 ^ 53`. -/
theorem nearestKey_inj {n m : Int} (hm : m.natAbs < 2 ^ 53) (h : nearestKey n = nearestKey m) :
    n = m := by
  rcases Nat.lt_or_ge (2 ^ 53) n.natAbs with hlarge | hn
  · -- The bound lies between the two, and has another float than the smaller one.
    exfalso
    rcases Int.lt_or_lt_of_ne (show n ≠ 0 by omega) with hneg | hpos
    · have hbelow := nearestKey_mono (show n ≤ -2 ^ 53 by omega)
      have habove := nearestKey_mono (show -2 ^ 53 ≤ m by omega)
      have := nearestKey_inj_of_le (n := -2 ^ 53) (by decide) hm.le (by omega)
      omega
    · have hbelow := nearestKey_mono (show m ≤ 2 ^ 53 by omega)
      have habove := nearestKey_mono (show 2 ^ 53 ≤ n by omega)
      have := nearestKey_inj_of_le (n := 2 ^ 53) (by decide) hm.le (by omega)
      omega
  · exact nearestKey_inj_of_le hn hm.le h

end Binary64

/-! ## Comparing integers -/

namespace Query.Comparison

/-- The operator that asks for a comparison. -/
def operator : Comparison → Operator
  | equals => .equals
  | greaterThan => .greaterThan
  | lessThan => .lessThan

/-- The comparison of integers. -/
def holdsInt (c : Comparison) (n m : Int) : Bool :=
  match c with
  | equals => n == m
  | greaterThan => m < n
  | lessThan => n < m

theorem holdsNumber_ofInt (c : Comparison) (n m : Int) :
    c.holdsNumber (.ofInt n) (.ofInt m) =
      c.holdsInt (Binary64.nearestKey n) (Binary64.nearestKey m) := by
  cases c with
  | equals => exact Binary64.eq_eq_of_key (Binary64.key_ofInt n) (Binary64.key_ofInt m)
  | greaterThan => exact Binary64.lt_eq_of_key (Binary64.key_ofInt m) (Binary64.key_ofInt n)
  | lessThan => exact Binary64.lt_eq_of_key (Binary64.key_ofInt n) (Binary64.key_ofInt m)

/-- Comparing the nearest floats is comparing the integers unless two of them have one float. -/
theorem holdsNumber_ofInt_iff {n m : Int} :
    (∀ c : Comparison, c.holdsNumber (.ofInt n) (.ofInt m) = c.holdsInt n m) ↔
      ((Binary64.ofInt n).eq (.ofInt m) = true → n = m) := by
  constructor
  · intro h heq
    have hequals := h .equals
    rw [show holdsNumber .equals _ _ = _ from heq] at hequals
    exact eq_of_beq hequals.symm
  · intro h c
    rw [Binary64.eq_eq_of_key (Binary64.key_ofInt n) (Binary64.key_ofInt m), beq_iff_eq] at h
    have hless : n < m → Binary64.nearestKey n < Binary64.nearestKey m := fun hlt =>
      (Binary64.nearestKey_mono hlt.le).lt_of_ne fun heq => hlt.ne (h heq)
    have hgreater : m < n → Binary64.nearestKey m < Binary64.nearestKey n := fun hgt =>
      (Binary64.nearestKey_mono hgt.le).lt_of_ne fun heq => hgt.ne' (h heq.symm)
    have hsame : n = m → Binary64.nearestKey n = Binary64.nearestKey m := fun heq => by rw [heq]
    rw [holdsNumber_ofInt, Bool.eq_iff_iff]
    cases c <;> simp only [holdsInt, beq_iff_eq, decide_eq_true_eq] <;> omega

end Query.Comparison

/-! ## A filter of one comparison -/

theorem natAbs_lt_of_fitsInteger {n : Int} (h : fitsInteger n = true) : n.natAbs < 2 ^ 64 := by
  rw [fitsInteger_iff] at h
  omega

theorem Value.number_int {n : Int} (h : fitsInteger n = true) :
    (Value.int n).number = .ok (some (.ofInt n)) := by
  rw [number, integerNumber, Binary64.ofInt?_eq (natAbs_lt_of_fitsInteger h), Option.elim_some]

section Single

variable {types : ColumnTypes} {column : String} {m : Int} {c : Comparison} {logic : Logic}

theorem compile_comparison (htype : typeOf types column = .ok .number)
    (hm : fitsInteger m = true) (c : Comparison) (logic : Logic) :
    Filter.compile types ⟨[⟨column, c.operator, .int m⟩], logic⟩ =
      .ok ⟨[⟨column, .number c (.ofInt m)⟩], logic⟩ := by
  have hcondition : Condition.compile types ⟨column, c.operator, .int m⟩ =
      .ok ⟨column, .number c (.ofInt m)⟩ := by
    cases c <;> simp only [Condition.compile, htype, Comparison.operator, comparisonTest,
      Value.number_int hm] <;> rfl
  rw [Filter.compile, List.mapM_cons, hcondition, List.mapM_nil]
  rfl

theorem accepts_comparison {cells : Cells} {n : Int} (hn : fitsInteger n = true)
    (hcell : cells.get column = .int n) :
    Selection.accepts ⟨[⟨column, .number c (.ofInt m)⟩], logic⟩ cells =
      .ok (c.holdsNumber (.ofInt n) (.ofInt m)) := by
  refine accepts_single ?_
  rw [ColumnTest.accepts, hcell, Test.accepts, Value.number_int hn]
  rfl

end Single

/-- Whether the store keeps a row in a comparison of a number column. -/
def Query.Comparison.keeps (c : Comparison) (column : String) (operand : Binary64) (r : Row) :
    Bool :=
  (StoreValue.ofValue (r.payload.cells.get column)).asFloat.any (c.holdsNumber · operand)

theorem keeps_int {c : Comparison} {column : String} {n m : Int} {r : Row}
    (hn : fitsInteger n = true) (hcell : r.payload.cells.get column = .int n) :
    c.keeps column (.ofInt m) r = c.holdsNumber (.ofInt n) (.ofInt m) := by
  rw [Comparison.keeps, hcell, StoreValue.ofValue, if_pos hn]
  rfl

namespace RowStore

variable {s : Surroundings} {w : World} {db : Database} {table column : String}
  {types : ColumnTypes} {order : List OrderKey}

/-- A scan and a count of the rows of a table that compare with a float. -/
theorem scan_count_comparison (hdb : w.storage = .ready db) (hplain : IsPlain column)
    (horder : ∀ k ∈ order, IsPlain k.column) (c : Comparison) (operand : Binary64) (logic : Logic) :
    (∃ found, scan table ⟨⟨[⟨column, .number c operand⟩], logic⟩, order⟩ none 0 s w =
        (.ok found, w) ∧
      found.Perm ((db.rows.ofTable table).filter (c.keeps column operand))) ∧
    count table ⟨[⟨column, .number c operand⟩], logic⟩ s w =
      (.ok ((db.rows.ofTable table).filter (c.keeps column operand)).length, w) := by
  exact scan_count_of_holds hdb horder fun r _ => holds_single (holds_number hplain c operand)

/-- A filter on a number column that compares with an integer. In memory and in the store it keeps a
row whose cell is an integer just if the floats nearest the two compare so. This is the comparison
of the integers exactly if these are equal or have no nearest float in common, as when one of them
is smaller than `2 ^ 53`. -/
theorem filter_integer_iff (hdb : w.storage = .ready db) (hplain : IsPlain column)
    (htype : typeOf types column = .ok .number) (horder : ∀ k ∈ order, IsPlain k.column) {m : Int}
    (hm : fitsInteger m = true) :
    (∀ (c : Comparison) (logic : Logic), ∃ selection keep,
      Filter.compile types ⟨[⟨column, c.operator, .int m⟩], logic⟩ = .ok selection ∧
      (∃ found, scan table ⟨selection, order⟩ none 0 s w = (.ok found, w) ∧
        found.Perm ((db.rows.ofTable table).filter keep)) ∧
      count table selection s w = (.ok ((db.rows.ofTable table).filter keep).length, w) ∧
      ∀ (r : Row) (n : Int), fitsInteger n = true → r.payload.cells.get column = .int n →
        keep r = c.holdsNumber (.ofInt n) (.ofInt m) ∧
        selection.accepts r.payload.cells = .ok (c.holdsNumber (.ofInt n) (.ofInt m))) ∧
    ∀ n : Int,
      ((∀ c : Comparison, c.holdsNumber (.ofInt n) (.ofInt m) = c.holdsInt n m) ↔
        ((Binary64.ofInt n).eq (.ofInt m) = true → n = m)) ∧
      (n.natAbs < 2 ^ 53 ∨ m.natAbs < 2 ^ 53 →
        ∀ c : Comparison, c.holdsNumber (.ofInt n) (.ofInt m) = c.holdsInt n m) := by
  refine ⟨fun c logic => ?_, fun n => ⟨Comparison.holdsNumber_ofInt_iff, fun hsmall => ?_⟩⟩
  · obtain ⟨hscan, hcount⟩ := @scan_count_comparison s w db table column order hdb hplain horder c
      (.ofInt m) logic
    refine ⟨_, _, compile_comparison htype hm c logic, hscan, hcount, fun r n hn hcell => ?_⟩
    exact ⟨keeps_int hn hcell, accepts_comparison hn hcell⟩
  · refine Comparison.holdsNumber_ofInt_iff.mpr fun heq => ?_
    rw [Binary64.eq_eq_of_key (Binary64.key_ofInt n) (Binary64.key_ofInt m), beq_iff_eq] at heq
    rcases hsmall with hn | hm
    · exact (Binary64.nearestKey_inj hn heq.symm).symm
    · exact Binary64.nearestKey_inj hm heq

/-- The integers around a given one. -/
theorem filter_integer_of_neighbours :
    let rows := [Row.ofCells "r1" 0 [("n", .int 4)], Row.ofCells "r2" 1 [("n", .int 5)],
      Row.ofCells "r3" 2 [("n", .int 9223372036854775807)]]
    let types : ColumnTypes := some [("n", .number)]
    ∃ selection found, Filter.compile types ⟨[⟨"n", .greaterThan, .int 4⟩], .and⟩ = .ok selection ∧
      scan "t" ⟨selection, []⟩ none 0 .blank (World.ofRows rows) = (.ok found, World.ofRows rows) ∧
      found.Perm (rows.drop 1) := by
  intro rows types
  obtain ⟨hall, hexact⟩ := @filter_integer_iff .blank (.ofRows rows) _ "t" "n" types [] rfl
    (by decide) rfl (by simp) 4 (by decide)
  obtain ⟨selection, keep, hcompile, ⟨found, hfound, hperm⟩, -, hkeep⟩ := hall .greaterThan .and
  have hgreater : ∀ id position (n : Int), fitsInteger n = true →
      keep (Row.ofCells id position [("n", .int n)]) = decide (4 < n) := fun id position n hn =>
    (hkeep _ n hn rfl).1.trans ((hexact n).2 (.inr (by decide)) .greaterThan)
  refine ⟨selection, found, hcompile, hfound, ?_⟩
  have hkept : ((Database.ofRows rows).rows.ofTable "t").filter keep = rows.drop 1 := by
    show [_, _, _].filter keep = _
    rw [List.filter_cons, List.filter_cons, List.filter_cons, hgreater _ _ 4 (by decide),
      hgreater _ _ 5 (by decide), hgreater _ _ 9223372036854775807 (by decide)]
    rfl
  exact hkept ▸ hperm

/-- A cell that is greater by one than what is asked for, and taken for equal. -/
theorem filter_integer_of_large :
    let r := Row.ofCells "r1" 0 [("n", .int (2 ^ 53 + 1))]
    ∃ selection, Filter.compile (some [("n", .number)]) ⟨[⟨"n", .equals, .int (2 ^ 53)⟩], .and⟩ =
        .ok selection ∧
      selection.accepts r.payload.cells = .ok true ∧
      ∀ s, scan "t" ⟨selection, []⟩ none 0 s (World.ofRows [r]) = (.ok [r], World.ofRows [r]) ∧
        count "t" selection s (World.ofRows [r]) = (.ok 1, World.ofRows [r]) := by
  intro r
  have hequal : Comparison.equals.holdsNumber (.ofInt (2 ^ 53 + 1)) (.ofInt (2 ^ 53)) = true := by
    decide +kernel
  refine ⟨_, compile_comparison rfl (by decide) .equals .and, ?_, fun s => ?_⟩
  · rw [accepts_comparison (n := 2 ^ 53 + 1) (by decide) rfl, hequal]
  · obtain ⟨⟨found, hscan, hperm⟩, hcount⟩ := @scan_count_comparison s (.ofRows [r]) _ "t" "n" []
      rfl (by decide) (by simp) .equals (.ofInt (2 ^ 53)) .and
    have hkept : ((Database.ofRows [r]).rows.ofTable "t").filter
        (Comparison.equals.keeps "n" (.ofInt (2 ^ 53))) = [r] := by
      show [r].filter _ = [r]
      rw [List.filter_cons, keeps_int (n := 2 ^ 53 + 1) (by decide) rfl, hequal]
      rfl
    rw [hkept] at hperm hcount
    rw [List.perm_singleton.mp hperm] at hscan
    exact ⟨hscan, hcount⟩

end RowStore

end Tabula
