import Tabula.Number.Binary64

/-!
# The order of floats

Floats are ordered by their keys, and the value that is not a number has none. `Binary64.le`
is the order with equality. It is reflexive on numbers and transitive, `Binary64.max` is
above both of its sides and `Binary64.min` below both.
-/

namespace Tabula.Binary64

variable {x y z : Binary64}

theorem exists_key (h : x ≠ nan) : ∃ a, x.key = some a := by
  rcases x with _ | ⟨_ | _, m⟩
  · exact absurd rfl h
  · exact ⟨_, rfl⟩
  · exact ⟨_, rfl⟩

theorem exists_key_of_isFinite (h : x.isFinite = true) : ∃ a, x.key = some a :=
  exists_key fun hnan => by
    rw [hnan] at h
    cases h

theorem ne_nan_of_key {a : Int} (h : x.key = some a) : x ≠ nan := by
  rintro rfl
  simp [key] at h

theorem lt_eq_of_key {a b : Int} (hx : x.key = some a) (hy : y.key = some b) :
    x.lt y = decide (a < b) := by
  simp only [lt, hx, hy]

theorem eq_eq_of_key {a b : Int} (hx : x.key = some a) (hy : y.key = some b) :
    x.eq y = (a == b) := by
  simp only [eq, hx, hy]

/-- Numeric order or equality, false whenever one side is not a number. -/
def le (x y : Binary64) : Bool := x.lt y || x.eq y

theorem le_eq_of_key {a b : Int} (hx : x.key = some a) (hy : y.key = some b) :
    x.le y = decide (a ≤ b) := by
  rw [le, lt_eq_of_key hx hy, eq_eq_of_key hx hy, Bool.eq_iff_iff]
  simp only [Bool.or_eq_true, decide_eq_true_eq, beq_iff_eq]
  exact Int.le_iff_lt_or_eq.symm

theorem le_iff : x.le y = true ↔ ∃ a b, x.key = some a ∧ y.key = some b ∧ a ≤ b := by
  constructor
  · intro h
    rcases hx : x.key with _ | a
    · simp [le, lt, eq, hx] at h
    rcases hy : y.key with _ | b
    · simp [le, lt, eq, hx, hy] at h
    rw [le_eq_of_key hx hy, decide_eq_true_eq] at h
    exact ⟨a, b, rfl, rfl, h⟩
  · rintro ⟨a, b, hx, hy, h⟩
    rw [le_eq_of_key hx hy]
    exact decide_eq_true h

theorem le_refl (h : x ≠ nan) : x.le x = true := by
  obtain ⟨a, ha⟩ := exists_key h
  exact le_iff.mpr ⟨a, a, ha, ha, Int.le_refl a⟩

theorem le_trans (h : x.le y = true) (h' : y.le z = true) : x.le z = true := by
  obtain ⟨a, b, ha, hb, hab⟩ := le_iff.mp h
  obtain ⟨b', c, hb', hc, hbc⟩ := le_iff.mp h'
  obtain rfl := Option.some.inj (hb.symm.trans hb')
  exact le_iff.mpr ⟨a, c, ha, hc, Int.le_trans hab hbc⟩

theorem ne_nan_of_le (h : x.le y = true) : x ≠ nan := by
  obtain ⟨a, _, ha, _, _⟩ := le_iff.mp h
  exact ne_nan_of_key ha

theorem le_max_left (h : x ≠ nan) (y : Binary64) : x.le (x.max y) = true := by
  unfold max
  split
  · rename_i hlt
    rw [le, hlt, Bool.true_or]
  · exact le_refl h

theorem max_le (hx : x.le z = true) (hy : y.le z = true) : (x.max y).le z = true := by
  unfold max
  split
  · exact hy
  · exact hx

theorem min_le_right (hx : x ≠ nan) (hy : y ≠ nan) : (x.min y).le y = true := by
  unfold min
  split
  · exact le_refl hy
  · rename_i hlt
    obtain ⟨a, ha⟩ := exists_key hx
    obtain ⟨b, hb⟩ := exists_key hy
    rw [lt_eq_of_key hb ha, decide_eq_true_eq, Int.not_lt] at hlt
    exact le_iff.mpr ⟨a, b, ha, hb, hlt⟩

theorem min_ne_nan (hx : x ≠ nan) (hy : y ≠ nan) : x.min y ≠ nan := by
  unfold min
  split
  · exact hy
  · exact hx

end Tabula.Binary64
