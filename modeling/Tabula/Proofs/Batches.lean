import Mathlib.Algebra.BigOperators.Group.List.Basic
import Mathlib.Algebra.Order.Ring.Int
import Mathlib.Tactic.Linarith
import Mathlib.Tactic.Positivity
import Mathlib.Tactic.Ring
import Tabula.Ingest.Descriptor

/-!
# The batches of a range

`batchesFrom size total offset` is the list of batches that cover the rows from `offset` up
to `total`, and `batchAt` the batch that begins at one offset. `batchesFrom_of_lt` takes the
first batch off the list, so proofs about all batches go by `batches_induction` : nothing
remains from `total` on, and one batch further there is less.

`mem_batchesFrom` says which batches there are, `nodup_batchesFrom` that none comes twice,
`eq_batchesFrom_of_append` what remains after some of them, and `flatMap_offsets` that they
have each row of the range once, in order.
-/

namespace Tabula

variable {size total offset : Int} {d : Descriptor} {ds ds' : List Descriptor}

/-- The batch that begins at an offset. -/
def batchAt (size total offset : Int) : Descriptor :=
  ⟨offset, min size (total - offset), offset.fdiv size⟩

/-- The batches that cover the rows from an offset up to `total`. -/
def batchesFrom (size total offset : Int) : List Descriptor :=
  descriptorsFrom size total (total - offset).toNat offset

theorem descriptorsFrom_of_le (h : total ≤ offset) :
    ∀ fuel : Nat, descriptorsFrom size total fuel offset = []
  | 0 => rfl
  | fuel + 1 => by
    have hn : ¬ offset < total := by omega
    simp [descriptorsFrom, hn]

/-- Fuel for the rows that remain is fuel enough. -/
theorem descriptorsFrom_eq_of_le (hs : 0 < size) :
    ∀ (m n : Nat) (offset : Int), (total - offset).toNat ≤ m → (total - offset).toNat ≤ n →
      descriptorsFrom size total m offset = descriptorsFrom size total n offset
  | 0, n, offset, hm, _ => by
    rw [descriptorsFrom_of_le (by omega), descriptorsFrom_of_le (by omega)]
  | m + 1, 0, offset, _, hn => by
    rw [descriptorsFrom_of_le (by omega), descriptorsFrom_of_le (by omega)]
  | m + 1, n + 1, offset, hm, hn => by
    unfold descriptorsFrom
    by_cases h : offset < total
    · have := descriptorsFrom_eq_of_le hs m n (offset + min size (total - offset))
        (by omega) (by omega)
      simp [h, this]
    · simp [h]

theorem batchesFrom_of_le (h : total ≤ offset) : batchesFrom size total offset = [] :=
  descriptorsFrom_of_le h _

theorem batchesFrom_of_lt (hs : 0 < size) (h : offset < total) :
    batchesFrom size total offset =
      batchAt size total offset :: batchesFrom size total (offset + size) := by
  obtain ⟨n, hn⟩ : ∃ n, (total - offset).toNat = n + 1 := ⟨(total - offset).toNat - 1, by omega⟩
  rw [batchesFrom, hn, descriptorsFrom, if_pos h]
  refine congrArg (batchAt size total offset :: ·) ?_
  by_cases hfull : offset + size ≤ total
  · rw [show offset + min size (total - offset) = offset + size by omega]
    exact descriptorsFrom_eq_of_le hs _ _ _ (by omega) (by omega)
  · rw [batchesFrom_of_le (by omega), descriptorsFrom_of_le (by omega)]

theorem descriptors_eq (hs : 0 < size) (processed : Int) :
    descriptors processed size total = .ok (batchesFrom size total (max 0 processed)) := by
  rw [descriptors, if_neg (by omega)]
  rfl

/-- A claim about the batches from any offset on : it holds where none remain, and where it
holds one batch further. -/
theorem batches_induction {motive : Int → Prop} (total : Int) (hs : 0 < size)
    (done : ∀ offset, total ≤ offset → motive offset)
    (step : ∀ offset, offset < total → motive (offset + size) → motive offset) (offset : Int) :
    motive offset := by
  induction hn : (total - offset).toNat using Nat.strong_induction_on generalizing offset with
  | _ n ih =>
    by_cases h : offset < total
    · exact step offset h (ih (total - (offset + size)).toNat (by omega) _ rfl)
    · exact done offset (by omega)

/-! ## Which batches there are -/

/-- The batches begin at an offset, one size after the other. -/
theorem mem_batchesFrom (hs : 0 < size) :
    d ∈ batchesFrom size total offset ↔
      ∃ k : Nat, offset + k * size < total ∧ d = batchAt size total (offset + k * size) := by
  induction offset using batches_induction total hs with
  | done offset h =>
    rw [batchesFrom_of_le h]
    refine ⟨fun hd => by simp at hd, fun ⟨k, hk, _⟩ => ?_⟩
    have : 0 ≤ (k : Int) * size := by positivity
    omega
  | step offset h ih =>
    rw [batchesFrom_of_lt hs h, List.mem_cons, ih]
    constructor
    · rintro (rfl | ⟨k, hk, rfl⟩)
      · exact ⟨0, by simpa using h, by simp⟩
      · have e : offset + size + k * size = offset + (k + 1 : Nat) * size := by push_cast; ring
        exact ⟨k + 1, by rwa [← e], by rw [e]⟩
    · rintro ⟨_ | k, hk, rfl⟩
      · exact Or.inl (by simp)
      · have e : offset + (k + 1 : Nat) * size = offset + size + k * size := by push_cast; ring
        exact Or.inr ⟨k, by rwa [← e], by rw [e]⟩

/-- A batch lies in its range and has rows. -/
theorem bounds_of_mem (hs : 0 < size) (hd : d ∈ batchesFrom size total offset) :
    offset ≤ d.offset ∧ 0 < d.size ∧ d.offset + d.size ≤ total := by
  obtain ⟨k, hk, rfl⟩ := (mem_batchesFrom hs).mp hd
  have : 0 ≤ (k : Int) * size := by positivity
  simp only [batchAt]
  omega

theorem eq_batchAt_of_mem (hs : 0 < size) (hd : d ∈ batchesFrom size total offset) :
    d = batchAt size total d.offset := by
  obtain ⟨k, _, rfl⟩ := (mem_batchesFrom hs).mp hd
  rfl

/-- The batches from a multiple of the size on are those of the whole range that begin there
or later. -/
theorem mem_batchesFrom_of_dvd (hs : 0 < size) (h0 : 0 ≤ offset) (h : size ∣ offset) :
    d ∈ batchesFrom size total offset ↔ d ∈ batchesFrom size total 0 ∧ offset ≤ d.offset := by
  obtain ⟨q, rfl⟩ := h
  have hq : 0 ≤ q := by
    by_contra hneg
    have := mul_neg_of_pos_of_neg hs (not_le.mp hneg)
    omega
  obtain ⟨n, rfl⟩ := Int.eq_ofNat_of_zero_le hq
  simp only [mem_batchesFrom hs, zero_add]
  constructor
  · rintro ⟨k, hk, rfl⟩
    have e : size * (n : Int) + k * size = (n + k : Nat) * size := by push_cast; ring
    have : 0 ≤ (k : Int) * size := by positivity
    exact ⟨⟨n + k, by rwa [← e], by rw [e]⟩, by simp only [batchAt]; omega⟩
  · rintro ⟨⟨k, hk, rfl⟩, hle⟩
    have hle' : (n : Int) * size ≤ k * size := by
      rw [mul_comm]
      exact hle
    have hnk : n ≤ k := by
      have := le_of_mul_le_mul_right hle' hs
      omega
    obtain ⟨j, rfl⟩ := Nat.exists_eq_add_of_le hnk
    have e : ((n + j : Nat) : Int) * size = size * (n : Int) + j * size := by push_cast; ring
    exact ⟨j, by rwa [← e], by rw [e]⟩

theorem batchAt_index (hs : 0 < size) (k : Nat) :
    (batchAt size total (offset + k * size)).index = offset / size + k := by
  simp only [batchAt]
  rw [Int.fdiv_eq_ediv_of_nonneg _ hs.le, Int.add_mul_ediv_right _ _ hs.ne']

/-- Two batches of a range with one index are one. -/
theorem eq_of_index_eq (hs : 0 < size) {a b : Descriptor}
    (ha : a ∈ batchesFrom size total offset) (hb : b ∈ batchesFrom size total offset)
    (h : a.index = b.index) : a = b := by
  obtain ⟨j, _, rfl⟩ := (mem_batchesFrom hs).mp ha
  obtain ⟨k, _, rfl⟩ := (mem_batchesFrom hs).mp hb
  rw [batchAt_index hs, batchAt_index hs] at h
  rw [show (j : Int) = k by omega]

/-- No batch comes twice. -/
theorem nodup_batchesFrom (hs : 0 < size) : (batchesFrom size total offset).Nodup := by
  induction offset using batches_induction total hs with
  | done offset h => simp [batchesFrom_of_le h]
  | step offset h ih =>
    rw [batchesFrom_of_lt hs h, List.nodup_cons]
    refine ⟨fun hm => ?_, ih⟩
    have := (bounds_of_mem hs hm).1
    simp only [batchAt] at this
    omega

theorem nodup_index_batchesFrom (hs : 0 < size) :
    ((batchesFrom size total offset).map Descriptor.index).Nodup :=
  (nodup_batchesFrom hs).map_on fun _ ha _ hb h => eq_of_index_eq hs ha hb h

/-- Each batch ends before the next one begins. -/
theorem ascending_batchesFrom (hs : 0 < size) :
    (batchesFrom size total offset).Pairwise fun a b => a.offset + a.size ≤ b.offset := by
  induction offset using batches_induction total hs with
  | done offset h => simp [batchesFrom_of_le h]
  | step offset h ih =>
    rw [batchesFrom_of_lt hs h, List.pairwise_cons]
    refine ⟨fun d hd => ?_, ih⟩
    have := (bounds_of_mem hs hd).1
    simp only [batchAt]
    omega

/-- The batches are in the order of their offsets. -/
theorem sorted_batchesFrom (hs : 0 < size) :
    (batchesFrom size total offset).Pairwise fun a b => a.offset ≤ b.offset := by
  refine (ascending_batchesFrom hs).imp_of_mem fun {a b} ha _ hends => ?_
  have := (bounds_of_mem hs ha).2
  omega

theorem exists_last (hs : 0 < size) (h : offset < total) :
    ∃ d ∈ batchesFrom size total offset, d.offset + d.size = total := by
  revert h
  induction offset using batches_induction total hs with
  | done offset hle =>
    intro h
    omega
  | step offset h ih =>
    intro _
    rw [batchesFrom_of_lt hs h]
    by_cases hfull : offset + size < total
    · obtain ⟨d, hd, hlast⟩ := ih hfull
      exact ⟨d, List.mem_cons_of_mem _ hd, hlast⟩
    · refine ⟨_, List.mem_cons_self, ?_⟩
      simp only [batchAt]
      omega

/-- The first batches of a range. -/
theorem mem_take_batchesFrom (hs : 0 < size) :
    ∀ {k : Nat} {offset : Int}, d ∈ (batchesFrom size total offset).take k ↔
      ∃ i : Nat, i < k ∧ offset + i * size < total ∧ d = batchAt size total (offset + i * size)
  | 0, offset => by simp
  | k + 1, offset => by
    by_cases h : offset < total
    · rw [batchesFrom_of_lt hs h, List.take_succ_cons, List.mem_cons, mem_take_batchesFrom hs]
      constructor
      · rintro (rfl | ⟨i, hi, hlt, rfl⟩)
        · exact ⟨0, by omega, by simpa using h, by simp⟩
        · have e : offset + size + i * size = offset + (i + 1 : Nat) * size := by push_cast; ring
          exact ⟨i + 1, by omega, by rwa [← e], by rw [e]⟩
      · rintro ⟨_ | i, hi, hlt, rfl⟩
        · exact Or.inl (by simp)
        · have e : offset + (i + 1 : Nat) * size = offset + size + i * size := by push_cast; ring
          exact Or.inr ⟨i, by omega, by rwa [← e], by rw [e]⟩
    · rw [batchesFrom_of_le (by omega), List.take_nil]
      refine ⟨fun hd => absurd hd List.not_mem_nil, fun ⟨i, _, hlt, _⟩ => ?_⟩
      have : 0 ≤ (i : Int) * size := by positivity
      omega

/-! ## How many rows they have -/

/-- The number of rows of some batches. -/
def rowsIn (ds : List Descriptor) : Int := (ds.map Descriptor.size).sum

@[simp] theorem rowsIn_nil : rowsIn [] = 0 := rfl

@[simp] theorem rowsIn_cons : rowsIn (d :: ds) = d.size + rowsIn ds := by
  simp [rowsIn]

@[simp] theorem rowsIn_append : rowsIn (ds ++ ds') = rowsIn ds + rowsIn ds' := by
  simp [rowsIn]

theorem rowsIn_perm (h : ds.Perm ds') : rowsIn ds = rowsIn ds' :=
  (h.map Descriptor.size).sum_eq

theorem rowsIn_batchesFrom (hs : 0 < size) :
    rowsIn (batchesFrom size total offset) = max 0 (total - offset) := by
  induction offset using batches_induction total hs with
  | done offset h =>
    rw [batchesFrom_of_le h, rowsIn_nil]
    omega
  | step offset h ih =>
    rw [batchesFrom_of_lt hs h, rowsIn_cons, ih]
    simp only [batchAt]
    omega

theorem rowsIn_take_batchesFrom (hs : 0 < size) :
    ∀ (k : Nat) {offset : Int}, offset ≤ total →
      rowsIn ((batchesFrom size total offset).take k) = min (k * size) (total - offset)
  | 0, offset, h => by
    simp only [List.take_zero, rowsIn_nil, Nat.cast_zero, zero_mul]
    omega
  | k + 1, offset, h => by
    have hk : 0 ≤ (k : Int) * size := by positivity
    have e : ((k + 1 : Nat) : Int) * size = k * size + size := by push_cast; ring
    rcases h.lt_or_eq with hlt | rfl
    · rw [batchesFrom_of_lt hs hlt, List.take_succ_cons, rowsIn_cons, e]
      by_cases hfull : offset + size ≤ total
      · rw [rowsIn_take_batchesFrom hs k hfull]
        simp only [batchAt]
        omega
      · rw [batchesFrom_of_le (by omega), List.take_nil, rowsIn_nil]
        simp only [batchAt]
        omega
    · rw [batchesFrom_of_le (le_refl _), List.take_nil, rowsIn_nil, e]
      omega

/-- The first batch of a range, and the others, which begin where it ends. -/
theorem cons_eq_batchesFrom (hs : 0 < size) (h : batchesFrom size total offset = d :: ds) :
    offset < total ∧ d = batchAt size total offset ∧
      batchesFrom size total (offset + d.size) = ds := by
  have hlt : offset < total := by
    by_contra hn
    rw [batchesFrom_of_le (by omega)] at h
    cases h
  rw [batchesFrom_of_lt hs hlt] at h
  obtain ⟨rfl, rfl⟩ := List.cons.inj h
  refine ⟨hlt, rfl, ?_⟩
  by_cases hfull : offset + size ≤ total
  · congr 1
    simp only [batchAt]
    omega
  · rw [batchesFrom_of_le, batchesFrom_of_le (by omega)]
    simp only [batchAt]
    omega

/-- What remains after some batches are the batches from the rows these have. -/
theorem eq_batchesFrom_of_append (hs : 0 < size) :
    ∀ {ds : List Descriptor} {offset : Int}, batchesFrom size total offset = ds ++ ds' →
      ds' = batchesFrom size total (offset + rowsIn ds)
  | [], offset, h => by simpa using h.symm
  | d :: ds, offset, h => by
    obtain ⟨-, -, hrest⟩ := cons_eq_batchesFrom hs (h.trans List.cons_append)
    rw [rowsIn_cons, ← add_assoc]
    exact eq_batchesFrom_of_append hs hrest

/-! ## Where batches end -/

/-- An offset at which a batch of the whole range may end. -/
structure IsEdge (size total n : Int) : Prop where
  nonneg : 0 ≤ n
  le : n ≤ total
  aligned : n = total ∨ size ∣ n

/-- A batch that begins at an edge ends at one. -/
theorem IsEdge.next (hs : 0 < size) (h : IsEdge size total offset) (hlt : offset < total) :
    IsEdge size total (offset + (batchAt size total offset).size) := by
  have h0 := h.nonneg
  have hdvd : size ∣ offset := h.aligned.resolve_left (by omega)
  have hend : (batchAt size total offset).size = min size (total - offset) := rfl
  refine ⟨by omega, by omega, ?_⟩
  by_cases hfull : offset + size ≤ total
  · rw [hend, min_eq_left (by omega)]
    exact Or.inr (dvd_add hdvd (dvd_refl size))
  · exact Or.inl (by omega)

/-- The first batches from an edge on end at an edge. -/
theorem isEdge_of_append (hs : 0 < size) :
    ∀ {ds : List Descriptor} {offset : Int}, IsEdge size total offset →
      batchesFrom size total offset = ds ++ ds' → IsEdge size total (offset + rowsIn ds)
  | [], offset, h, _ => by simpa using h
  | d :: ds, offset, h, heq => by
    obtain ⟨hlt, rfl, hrest⟩ := cons_eq_batchesFrom hs (heq.trans List.cons_append)
    rw [rowsIn_cons, ← add_assoc]
    exact isEdge_of_append hs (h.next hs hlt) hrest

/-- The first batches are those of the range that ends where they end. -/
theorem eq_batchesFrom_of_prefix (hs : 0 < size) :
    ∀ {ds : List Descriptor} {offset : Int}, batchesFrom size total offset = ds ++ ds' →
      ds = batchesFrom size (offset + rowsIn ds) offset
  | [], offset, _ => by simp [batchesFrom_of_le]
  | d :: ds, offset, h => by
    obtain ⟨hlt, rfl, hrest⟩ := cons_eq_batchesFrom hs (h.trans List.cons_append)
    rw [rowsIn_cons, ← add_assoc]
    by_cases hfull : offset + size ≤ total
    · have e : offset + (batchAt size total offset).size = offset + size := by
        simp only [batchAt]
        omega
      rw [e] at hrest ⊢
      have ih := eq_batchesFrom_of_prefix hs hrest
      have hrows : 0 ≤ rowsIn ds := by
        rw [ih, rowsIn_batchesFrom hs]
        exact le_max_left 0 _
      rw [batchesFrom_of_lt hs (by omega), ← ih]
      refine congrArg (· :: ds) ?_
      simp only [batchAt, Descriptor.mk.injEq, true_and, and_true]
      omega
    · -- the last batch ends where the range does
      have e : offset + (batchAt size total offset).size = total := by
        simp only [batchAt]
        omega
      rw [e, batchesFrom_of_le (le_refl _), eq_comm, List.append_eq_nil_iff] at hrest
      obtain ⟨rfl, rfl⟩ := hrest
      rw [e, rowsIn_nil, add_zero, h, List.append_nil]

/-- The batches up to an edge are those of the whole range that begin before it. -/
theorem mem_batchesFrom_edge (hs : 0 < size) {n : Int} (hn : IsEdge size total n) :
    d ∈ batchesFrom size n 0 ↔ d ∈ batchesFrom size total 0 ∧ d.offset < n := by
  obtain ⟨h0, hle, rfl | ⟨q, rfl⟩⟩ := hn
  · refine ⟨fun h => ⟨h, ?_⟩, And.left⟩
    have := bounds_of_mem hs h
    omega
  simp only [mem_batchesFrom hs, Int.zero_add]
  have hcut : ∀ k : Nat, (k : Int) * size < size * q →
      batchAt size (size * q) (k * size) = batchAt size total (k * size) := by
    intro k hk
    have hkq : (k : Int) + 1 ≤ q := by
      rw [mul_comm size q] at hk
      have := lt_of_mul_lt_mul_right hk hs.le
      omega
    have := mul_le_mul_of_nonneg_right hkq hs.le
    rw [add_mul, one_mul, mul_comm q] at this
    simp only [batchAt, Descriptor.mk.injEq, true_and, and_true]
    omega
  constructor
  · rintro ⟨k, hk, rfl⟩
    exact ⟨⟨k, by omega, hcut k hk⟩, hk⟩
  · rintro ⟨⟨k, hk, rfl⟩, hlt⟩
    exact ⟨k, hlt, (hcut k hlt).symm⟩

/-! ## Which rows they have -/

/-- The offsets of the rows of a batch. -/
def Descriptor.offsets (d : Descriptor) : List Int :=
  (List.range d.size.toNat).map fun r => d.offset + (r : Nat)

/-- The batches of a range have each of its rows once, in order. -/
theorem flatMap_offsets (hs : 0 < size) :
    (batchesFrom size total offset).flatMap Descriptor.offsets =
      (List.range (total - offset).toNat).map fun r => offset + (r : Nat) := by
  induction offset using batches_induction total hs with
  | done offset h =>
    rw [batchesFrom_of_le h, show (total - offset).toNat = 0 by omega]
    rfl
  | step offset h ih =>
    rw [batchesFrom_of_lt hs h, List.flatMap_cons, ih]
    obtain ⟨m, n, hm, hn, hmn⟩ : ∃ m n : Nat, (min size (total - offset)).toNat = m ∧
        (total - (offset + size)).toNat = n ∧ (total - offset).toNat = m + n :=
      ⟨_, _, rfl, rfl, by omega⟩
    rw [hmn, hn, List.range_add, List.map_append, List.map_map]
    refine congrArg₂ (· ++ ·) (by simp only [Descriptor.offsets, batchAt, hm]) ?_
    refine List.map_congr_left fun r hr => ?_
    rw [List.mem_range] at hr
    simp only [Function.comp_apply]
    omega

/-- Where the batches begin at multiples of the size, a row's offset tells its batch and its
place there. -/
theorem index_of_row (hs : 0 < size) (h : size ∣ offset)
    (hd : d ∈ batchesFrom size total offset) {r : Nat} (hr : r < d.size) :
    (d.offset + r) / size = d.index ∧ (d.offset + r) % size = r := by
  obtain ⟨k, _, rfl⟩ := (mem_batchesFrom hs).mp hd
  obtain ⟨q, rfl⟩ := h
  simp only [batchAt] at hr ⊢
  have hr' : (r : Int) < size := by omega
  have e : size * q + k * size = size * (q + k) := by ring
  rw [e, Int.fdiv_eq_ediv_of_nonneg _ hs.le, Int.mul_ediv_cancel_left _ hs.ne', add_comm,
    Int.add_mul_ediv_left _ _ hs.ne', Int.add_mul_emod_self_left,
    Int.ediv_eq_zero_of_lt (by omega) hr', Int.emod_eq_of_lt (by omega) hr']
  exact ⟨by ring, rfl⟩

end Tabula
