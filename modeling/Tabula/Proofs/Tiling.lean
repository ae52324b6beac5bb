import Mathlib.Data.List.Chain
import Tabula.Proofs.Batches

/-!
# Batches tile their range

The batches of a range are a tiling of it (`Tiles`) : they lie one behind the other, are of the size
at most, and have every row of the range and no other. Their indices go up by one, so no two rows of
a range have one index and one place in their batch.

Where a range begins at a multiple of the size, its batches are the last ones of the whole range
(`exists_front`). `descriptors_tile` says all this of the batches that cover what is left, wherever
that begins.
-/

namespace Tabula

variable {size total offset : Int} {d : Descriptor}

/-- Batches that cover the rows from one offset up to another. -/
structure Tiles (size start stop : Int) (ds : List Descriptor) : Prop where
  sizes : ∀ d ∈ ds, 0 < d.size ∧ d.size ≤ size
  ascending : ds.Pairwise fun a b => a.offset + a.size ≤ b.offset
  offsets : ∀ i, (∃ d ∈ ds, d.offset ≤ i ∧ i < d.offset + d.size) ↔ start ≤ i ∧ i < stop
  indices : ds.IsChain fun a b => b.index = a.index + 1
  places : (ds.flatMap fun d => (List.range d.size.toNat).map fun row => (d.index, row)).Nodup

/-- A row that is in no batch behind the first one is in the first one. -/
theorem exists_mem_batchesFrom_iff (hs : 0 < size) (i : Int) :
    (∃ d ∈ batchesFrom size total offset, d.offset ≤ i ∧ i < d.offset + d.size) ↔
      offset ≤ i ∧ i < total := by
  induction offset using batches_induction total hs with
  | done offset h =>
    rw [batchesFrom_of_le h]
    simp only [List.not_mem_nil, false_and, exists_false, false_iff]
    omega
  | step offset h ih =>
    rw [batchesFrom_of_lt hs h, List.exists_mem_cons_iff, ih]
    simp only [batchAt]
    omega

theorem isChain_index_batchesFrom (hs : 0 < size) :
    (batchesFrom size total offset).IsChain fun a b => b.index = a.index + 1 := by
  induction offset using batches_induction total hs with
  | done offset h => simp [batchesFrom_of_le h]
  | step offset h ih =>
    rw [batchesFrom_of_lt hs h, List.isChain_cons]
    refine ⟨fun d hd => ?_, ih⟩
    by_cases hnext : offset + size < total
    · rw [batchesFrom_of_lt hs hnext] at hd
      obtain rfl := Option.some.inj hd
      have hindex := @batchAt_index size total offset hs 1
      rw [Nat.cast_one, one_mul] at hindex
      rw [hindex, batchAt, Int.fdiv_eq_ediv_of_nonneg _ hs.le]
    · rw [batchesFrom_of_le (by omega)] at hd
      cases hd

/-- An index and a place in a batch name one row. -/
theorem nodup_places_batchesFrom (hs : 0 < size) :
    ((batchesFrom size total offset).flatMap fun d =>
      (List.range d.size.toNat).map fun row => (d.index, row)).Nodup := by
  refine List.nodup_flatMap.mpr ⟨fun d _ => ?_, ?_⟩
  · exact List.nodup_range.map fun row row' h => (Prod.mk.inj h).2
  · refine (List.pairwise_map.mp (nodup_index_batchesFrom hs)).imp fun hne => ?_
    intro place hplace hplace'
    obtain ⟨_, _, rfl⟩ := List.mem_map.mp hplace
    obtain ⟨_, _, heq⟩ := List.mem_map.mp hplace'
    exact hne (Prod.mk.inj heq).1.symm

theorem tiles_batchesFrom (hs : 0 < size) :
    Tiles size offset total (batchesFrom size total offset) where
  sizes d hd := by
    refine ⟨(bounds_of_mem hs hd).2.1, ?_⟩
    rw [eq_batchAt_of_mem hs hd]
    exact min_le_left _ _
  ascending := ascending_batchesFrom hs
  offsets := exists_mem_batchesFrom_iff hs
  indices := isChain_index_batchesFrom hs
  places := nodup_places_batchesFrom hs

/-- In front of the batches from some sizes further on are batches that end there. -/
theorem exists_front (hs : 0 < size) : ∀ (k : Nat) (offset : Int), ∃ front,
    batchesFrom size total offset = front ++ batchesFrom size total (offset + k * size) ∧
      ∀ d ∈ front, d.offset + d.size ≤ offset + k * size
  | 0, offset => ⟨[], by simp, List.forall_mem_nil _⟩
  | k + 1, offset => by
    have hk : 0 ≤ (k : Int) * size := by positivity
    have e : offset + ((k + 1 : Nat) : Int) * size = offset + size + k * size := by push_cast; ring
    rw [e]
    by_cases h : offset < total
    · obtain ⟨front, heq, hends⟩ := exists_front hs k (offset + size)
      refine ⟨batchAt size total offset :: front, ?_, List.forall_mem_cons.mpr ⟨?_, hends⟩⟩
      · rw [batchesFrom_of_lt hs h, heq, List.cons_append]
      · simp only [batchAt]
        omega
    · exact ⟨[], by rw [batchesFrom_of_le (by omega), batchesFrom_of_le (by omega)]; rfl,
        List.forall_mem_nil _⟩

/-- The batches that cover what is left, from any number of processed rows on, tile it. If that number
is a multiple of the size, they are those of the whole range from there on. -/
theorem descriptors_tile (hs : 1 ≤ size) (processed total : Int) :
    ∃ ds, descriptors processed size total = .ok ds ∧ Tiles size (max 0 processed) total ds ∧
      (size ∣ processed → ∃ front, descriptors 0 size total = .ok (front ++ ds) ∧
        ∀ d ∈ front, d.offset + d.size ≤ max 0 processed) := by
  have hs' : 0 < size := hs
  refine ⟨_, descriptors_eq hs' processed, tiles_batchesFrom hs', fun hdvd => ?_⟩
  rw [descriptors_eq hs', max_self]
  obtain ⟨k, hk⟩ : ∃ k : Nat, max 0 processed = 0 + k * size := by
    obtain ⟨q, rfl⟩ := hdvd
    rcases le_total 0 q with hq | hq
    · obtain ⟨n, rfl⟩ := Int.eq_ofNat_of_zero_le hq
      exact ⟨n, by rw [max_eq_right (by positivity), zero_add, mul_comm]⟩
    · exact ⟨0, by simp [max_eq_left (mul_nonpos_of_nonneg_of_nonpos hs'.le hq)]⟩
  rw [hk]
  obtain ⟨front, heq, hends⟩ := @exists_front size total hs' k 0
  exact ⟨front, by rw [heq], hends⟩

/-- Two batches of four rows are processed of fourteen rows. -/
theorem descriptors_tile_of_eight : (1 : Int) ≤ 4 ∧ (4 : Int) ∣ 8 ∧
    Tiles 4 8 14 [⟨8, 4, 2⟩, ⟨12, 2, 3⟩] ∧
    ∃ front, descriptors 0 4 14 = .ok (front ++ [⟨8, 4, 2⟩, ⟨12, 2, 3⟩]) ∧
      ∀ d ∈ front, d.offset + d.size ≤ 8 := by
  obtain ⟨ds, hds, htiles, hfront⟩ := @descriptors_tile 4 (by decide) 8 14
  have hlist : descriptors 8 4 14 = .ok [⟨8, 4, 2⟩, ⟨12, 2, 3⟩] := rfl
  obtain rfl := Except.ok.inj (hds.symm.trans hlist)
  exact ⟨by decide, by decide, htiles, hfront (by decide)⟩

end Tabula
