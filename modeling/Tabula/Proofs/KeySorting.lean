import Mathlib.Algebra.Ring.Int.Defs
import Mathlib.Data.List.Nodup
import Mathlib.Data.Prod.Lex
import Mathlib.Data.String.Basic
import Mathlib.Data.Sum.Order
import Tabula.Proofs.FloatOrder
import Tabula.Proofs.WeakOrder
import Tabula.Store.Rows

/-!
# Sorting by several keys

A sort makes one pass for each key, the last key first, and each pass puts the items that have no
value under its key behind the others. `OrderKey.exists_pass` says that a pass is one stable sort by
`OrderKey.before`, and `exists_sortRows` that all of them together are one stable sort by `before` :
by the keys in turn, and then by the tie-break.

A pass fails where it meets an integer beyond the largest float under a number column
(`OrderKey.pass_error`), and so do all of them together (`sortRows_error`). There is no other way to
fail.
-/

namespace Tabula

/-! ## Numeric views -/

namespace Value

variable {v : Value}

/-- The numeric view of the value is no fault : no integer is beyond the largest float. -/
def InRange (v : Value) : Prop := ∀ n, v = .int n → (Binary64.ofInt n).isFinite = true

theorem number_eq_ok (h : v.InRange) :
    ∃ x, v.number = .ok x ∧ ∀ y ∈ x, y.isFinite = true := by
  cases v with
  | int n =>
    have hn := h n rfl
    refine ⟨some (.ofInt n), ?_, fun y hy => Option.some.inj hy ▸ hn⟩
    rw [number, integerNumber, Binary64.ofInt?]
    simp only [hn, if_true, Option.elim_some]
  | float x =>
    refine ⟨_, rfl, fun y hy => ?_⟩
    split at hy
    · rename_i hx
      exact Option.some.inj hy ▸ hx
    · cases hy
  | text s => exact ⟨_, rfl, fun y hy => (Option.mem_filter_iff.mp hy).2⟩
  | _ => exact ⟨none, rfl, nofun⟩

theorem number_eq_error (h : ¬v.InRange) : v.number = .error (.fault .floatTooLarge) := by
  simp only [InRange, not_forall] at h
  obtain ⟨n, rfl, hn⟩ := h
  rw [number, integerNumber, Binary64.ofInt?]
  simp only [hn, if_false, Option.elim_none, Bool.false_eq_true]

theorem isFinite_of_number {x : Binary64} (h : v.number = .ok (some x)) : x.isFinite = true := by
  by_cases hv : v.InRange
  · obtain ⟨y, hy, hfinite⟩ := number_eq_ok hv
    exact hfinite x (Except.ok.inj (hy.symm.trans h))
  · rw [number_eq_error hv] at h
    cases h

end Value

namespace Query

/-! ## The values of one key -/

namespace SortValue

/-- Whether a value goes before another in a direction. -/
def ltIn (direction : Direction) (v u : SortValue) : Bool :=
  match direction with
  | .ascending => v.lt u
  | .descending => u.lt v

/-- The values that have a place in the order : all but the float that is not a number. -/
def IsOrdered (v : SortValue) : Prop := v ≠ .number .nan

/-- Where a value stands : by its number or text, numbers first. -/
def place : SortValue → Int ⊕ₗ String
  | number x => Sum.inlₗ (x.key.getD 0)
  | text s => Sum.inrₗ s

theorem lt_iff_place {v u : SortValue} (hv : v.IsOrdered) (hu : u.IsOrdered) :
    v.lt u = true ↔ v.place < u.place := by
  rcases v with x | s <;> rcases u with y | t
  · obtain ⟨a, ha⟩ := Binary64.exists_key fun h => hv (h ▸ rfl)
    obtain ⟨b, hb⟩ := Binary64.exists_key fun h => hu (h ▸ rfl)
    rw [lt, place, place, ha, hb, Binary64.lt_eq_of_key ha hb]
    simp
  · simp [lt, place]
  · simp [lt, place]
  · simp [lt, place]

theorem isWeakOrder_ltIn (direction : Direction) : IsWeakOrder IsOrdered (ltIn direction) := by
  have h : IsWeakOrder IsOrdered lt := .of_key place fun _ _ => lt_iff_place
  cases direction with
  | ascending => exact h
  | descending => exact h.swap

theorem not_ltIn_eq_le (direction : Direction) (v u : SortValue) :
    (!ltIn direction u v) = le direction v u := by
  cases direction <;> rfl

end SortValue

namespace OrderKey

variable {α : Type} {k : OrderKey} {cells : Cells} {cellsOf : α → Cells} {items : List α}

/-- The value of some cells under a key, `none` also where it is a fault. -/
def value? (k : OrderKey) (cells : Cells) : Option SortValue := (k.valueOf cells).toOption.join

/-- Whether some cells go before others under a key, those without a value behind all others in
either direction. -/
def before (k : OrderKey) (cells cells' : Cells) : Bool :=
  noneLast (SortValue.ltIn k.direction) (k.value? cells) (k.value? cells')

/-- Cells that can be sorted by a key : the one under a number column has a numeric view. -/
def Sorts (k : OrderKey) (cells : Cells) : Prop :=
  k.type = .number → (cells.get k.column).InRange

theorem valueOf_eq_ok (h : k.Sorts cells) : k.valueOf cells = .ok (k.value? cells) := by
  rw [Sorts] at h
  rw [value?, valueOf]
  cases htype : k.type with
  | text => rfl
  | number =>
    obtain ⟨x, hx, -⟩ := Value.number_eq_ok (h htype)
    rw [hx]
    rfl

theorem valueOf_eq_error (h : ¬k.Sorts cells) :
    k.valueOf cells = .error (.fault .floatTooLarge) := by
  obtain ⟨htype, h⟩ := Classical.not_imp.mp h
  rw [valueOf, htype, Value.number_eq_error h]
  rfl

/-- No value is the float that is not a number. -/
theorem isOrdered_value? (k : OrderKey) (cells : Cells) : ∀ v ∈ k.value? cells, v.IsOrdered := by
  rintro v hv rfl
  by_cases h : k.Sorts cells
  · rw [Sorts] at h
    rw [value?, valueOf] at hv
    cases htype : k.type with
    | text =>
      rw [htype] at hv
      simp [Except.toOption] at hv
    | number =>
      obtain ⟨x, hx, hfinite⟩ := Value.number_eq_ok (h htype)
      rw [htype, hx] at hv
      obtain ⟨y, hy, hnan⟩ := Option.mem_map.mp (show _ ∈ x.map SortValue.number from hv)
      have hy := hfinite y hy
      rw [SortValue.number.inj hnan] at hy
      cases hy
  · rw [value?, valueOf_eq_error h] at hv
    cases hv

theorem isWeakOrder_before (k : OrderKey) : IsWeakOrder (fun _ => True) k.before :=
  (SortValue.isWeakOrder_ltIn k.direction).noneLast.comap fun cells _ => isOrdered_value? k cells

/-! ## One pass -/

/-- Whether an item has a value under a key. -/
def hasValue (k : OrderKey) (cells : Cells) : Bool := (k.value? cells).isSome

theorem before_of_not_hasValue (h : k.hasValue cells = false) (cells' : Cells) :
    k.before cells cells' = false := by
  rw [hasValue, Option.isSome_eq_false_iff, Option.isNone_iff_eq_none] at h
  rw [before, h]
  rfl

theorem before_of_hasValue {cells' : Cells} (h : k.hasValue cells = true)
    (h' : k.hasValue cells' = false) : k.before cells cells' = true := by
  obtain ⟨v, hv⟩ := Option.isSome_iff_exists.mp h
  rw [hasValue, Option.isSome_eq_false_iff, Option.isNone_iff_eq_none] at h'
  rw [before, hv, h']
  rfl

theorem withValues_eq (h : ∀ a ∈ items, k.Sorts (cellsOf a)) :
    k.withValues cellsOf items = .ok (items.map fun a => (k.value? (cellsOf a), a)) := by
  induction items with
  | nil => rfl
  | cons a items ih =>
    rw [withValues, valueOf_eq_ok (h a List.mem_cons_self),
      ih fun a ha => h a (List.mem_cons_of_mem _ ha)]
    rfl

theorem presentItems_eq (k : OrderKey) (cellsOf : α → Cells) (items : List α) :
    (presentItems (items.map fun a => (k.value? (cellsOf a), a))).map Prod.snd =
      items.filter fun a => k.hasValue (cellsOf a) := by
  rw [presentItems, List.filterMap_map, List.map_filterMap, ← List.filterMap_eq_filter]
  congr 1
  funext a
  cases hv : k.value? (cellsOf a) <;> simp [hasValue, Option.guard, hv]

theorem emptyItems_eq (k : OrderKey) (cellsOf : α → Cells) (items : List α) :
    emptyItems (items.map fun a => (k.value? (cellsOf a), a)) =
      items.filter fun a => !k.hasValue (cellsOf a) := by
  rw [emptyItems, List.filterMap_map, ← List.filterMap_eq_filter]
  congr 1
  funext a
  cases hv : k.value? (cellsOf a) <;> simp [hasValue, Option.guard, hv]

theorem value?_of_mem {e : SortValue × α}
    (h : e ∈ presentItems (items.map fun a => (k.value? (cellsOf a), a))) :
    k.value? (cellsOf e.2) = some e.1 := by
  obtain ⟨e', he', h⟩ := List.mem_filterMap.mp h
  obtain ⟨a, ha, rfl⟩ := List.mem_map.mp he'
  obtain ⟨v, hv, rfl⟩ := Option.map_eq_some_iff.mp h
  exact hv

/-- A pass is one stable sort by its key. -/
theorem exists_pass (h : ∀ a ∈ items, k.Sorts (cellsOf a)) :
    ∃ sorted, k.pass cellsOf items = .ok sorted ∧
      IsStableSort (fun a b => k.before (cellsOf a) (cellsOf b)) items sorted := by
  have hweak : IsWeakOrder (fun _ => True) fun a b => k.before (cellsOf a) (cellsOf b) :=
    k.isWeakOrder_before.comap fun _ _ => trivial
  refine ⟨_, ?_, .of_split hweak (p := fun a => k.hasValue (cellsOf a))
    (fun a b => before_of_hasValue) (fun a b ha => before_of_not_hasValue ha _) items⟩
  rw [pass, withValues_eq h]
  refine congrArg Except.ok ?_
  rw [emptyItems_eq, ← presentItems_eq]
  congr 1
  refine List.map_mergeSort fun e he e' he' => ?_
  rw [before, value?_of_mem he, value?_of_mem he', noneLast, SortValue.not_ltIn_eq_le]

/-- A pass fails if one of the items has no value for being beyond the floats. -/
theorem pass_error (h : ¬∀ a ∈ items, k.Sorts (cellsOf a)) :
    k.pass cellsOf items = .error (.fault .floatTooLarge) := by
  have hvalues : k.withValues cellsOf items = .error (.fault .floatTooLarge) := by
    induction items with
    | nil => exact absurd (by simp) h
    | cons a items ih =>
      rw [withValues]
      by_cases ha : k.Sorts (cellsOf a)
      · rw [valueOf_eq_ok ha, ih fun hrest => h (List.forall_mem_cons.mpr ⟨ha, hrest⟩)]
        rfl
      · rw [valueOf_eq_error ha]
        rfl
  rw [pass, hvalues]
  rfl

end OrderKey

/-! ## All passes -/

variable {α β : Type} {order : List OrderKey} {cellsOf : α → Cells} {items : List α}

/-- Whether an item goes before another : by the keys in turn, then by the tie-break. -/
def before (order : List OrderKey) (cellsOf : α → Cells) (tie : α → α → Bool) : α → α → Bool :=
  (order.map fun k a b => k.before (cellsOf a) (cellsOf b)).foldr thenBy tie

theorem before_cons (k : OrderKey) (order : List OrderKey) (cellsOf : α → Cells)
    (tie : α → α → Bool) :
    before (k :: order) cellsOf tie =
      thenBy (fun a b => k.before (cellsOf a) (cellsOf b)) (before order cellsOf tie) :=
  rfl

theorem isWeakOrder_before (order : List OrderKey) (cellsOf : α → Cells) {tie : α → α → Bool}
    (htie : IsWeakOrder (fun _ => True) tie) :
    IsWeakOrder (fun _ => True) (before order cellsOf tie) := by
  refine htie.foldr fun lt hlt => ?_
  obtain ⟨k, -, rfl⟩ := List.mem_map.mp hlt
  exact k.isWeakOrder_before.comap fun _ _ => trivial

/-- The order of a tie-break, which without one leaves all items as they came in. -/
def tieLt [LinearOrder β] (tie : Option (α → β)) (a b : α) : Bool :=
  tie.any fun key => decide (key a < key b)

/-- The question that a tie-break answers in a sort. -/
def tieLe [LinearOrder β] (tie : Option (α → β)) : Option (α → α → Bool) :=
  tie.map fun key a b => decide (key a ≤ key b)

theorem isWeakOrder_tieLt [LinearOrder β] (tie : Option (α → β)) :
    IsWeakOrder (fun _ => True) (tieLt tie) := by
  cases tie with
  | none => exact ⟨nofun, nofun⟩
  | some key => exact .of_key key fun a b _ _ => by simp [tieLt]

/-- What the passes begin with. -/
theorem isStableSort_tie [LinearOrder β] (tie : Option (α → β)) (items : List α) :
    IsStableSort (tieLt tie) items
      (match tieLe tie with
      | some le => items.mergeSort le
      | none => items) := by
  cases tie with
  | none => exact ⟨.refl _, List.pairwise_of_forall fun _ _ => rfl, fun _ => rfl⟩
  | some key =>
    have hle : (fun a b => !tieLt (some key) b a) = fun a b => decide (key a ≤ key b) := by
      funext a b
      rw [tieLt, Option.any_some, ← decide_not, decide_eq_decide]
      exact not_lt
    have hstable := (isWeakOrder_tieLt (some key)).isStableSort_mergeSort items
    rw [hle] at hstable
    exact hstable

theorem sortRows_cons (k : OrderKey) (order : List OrderKey) (cellsOf : α → Cells)
    (tiebreak : Option (α → α → Bool)) (items : List α) :
    sortRows (k :: order) cellsOf tiebreak items =
      sortRows order cellsOf tiebreak items >>= k.pass cellsOf :=
  rfl

/-- The passes for the last keys first. The invariant is that the items are sorted by the keys
whose passes are done. -/
theorem exists_sortRows [LinearOrder β] (tie : Option (α → β))
    (h : ∀ k ∈ order, ∀ a ∈ items, k.Sorts (cellsOf a)) :
    ∃ sorted, sortRows order cellsOf (tieLe tie) items = .ok sorted ∧
      IsStableSort (before order cellsOf (tieLt tie)) items sorted := by
  induction order with
  | nil => exact ⟨_, rfl, isStableSort_tie tie items⟩
  | cons k order ih =>
    obtain ⟨later, hlater, hstable⟩ := ih fun k hk => h k (List.mem_cons_of_mem _ hk)
    have hsorts : ∀ a ∈ later, k.Sorts (cellsOf a) := fun a ha =>
      h k List.mem_cons_self a (hstable.perm.mem_iff.mp ha)
    obtain ⟨sorted, hsorted, hstable'⟩ := OrderKey.exists_pass hsorts
    refine ⟨sorted, ?_, hstable.thenBy (k.isWeakOrder_before.comap fun _ _ => trivial) hstable'⟩
    rw [sortRows_cons, hlater]
    exact hsorted

/-- Whatever the tie-break, the passes go through if all items have a value under all keys. -/
theorem exists_perm_of_sorts (tiebreak : Option (α → α → Bool))
    (h : ∀ k ∈ order, ∀ a ∈ items, k.Sorts (cellsOf a)) :
    ∃ sorted, sortRows order cellsOf tiebreak items = .ok sorted ∧ sorted.Perm items := by
  induction order with
  | nil => cases tiebreak with
    | none => exact ⟨_, rfl, .refl _⟩
    | some le => exact ⟨_, rfl, List.mergeSort_perm _ _⟩
  | cons k order ih =>
    obtain ⟨later, hlater, hperm⟩ := ih fun k hk => h k (List.mem_cons_of_mem _ hk)
    obtain ⟨sorted, hsorted, hstable⟩ := OrderKey.exists_pass fun a ha =>
      h k List.mem_cons_self a (hperm.mem_iff.mp ha)
    exact ⟨sorted, by rw [sortRows_cons, hlater]; exact hsorted, hstable.perm.trans hperm⟩

/-- Sorting fails at the last key that one of the items has no value for. -/
theorem sortRows_error {tiebreak : Option (α → α → Bool)}
    (h : ¬∀ k ∈ order, ∀ a ∈ items, k.Sorts (cellsOf a)) :
    sortRows order cellsOf tiebreak items = .error (.fault .floatTooLarge) := by
  induction order with
  | nil => exact absurd (by simp) h
  | cons k order ih =>
    rw [sortRows_cons]
    by_cases hlater : ∀ k ∈ order, ∀ a ∈ items, k.Sorts (cellsOf a)
    · obtain ⟨later, hsorted, hperm⟩ := exists_perm_of_sorts tiebreak hlater
      rw [hsorted]
      refine OrderKey.pass_error fun hall => h (List.forall_mem_cons.mpr ⟨fun a ha => ?_, hlater⟩)
      exact hall a (hperm.mem_iff.mpr ha)
    · rw [ih hlater]
      rfl

end Query

/-! ## Rows by position and id -/

/-- Where a row stands without keys. -/
def Row.placeKey (r : Row) : Int ×ₗ String := toLex (r.position, r.id)

theorem placeLt_eq : Store.Rows.placeLt = Query.tieLt (some Row.placeKey) := by
  funext a b
  rw [Store.Rows.placeLt, Query.tieLt, Option.any_some, Bool.eq_iff_iff, decide_eq_true_eq,
    Row.placeKey, Row.placeKey, Prod.Lex.lt_iff]
  simp

theorem isWeakOrder_placeLt : IsWeakOrder (fun _ => True) Store.Rows.placeLt :=
  placeLt_eq ▸ Query.isWeakOrder_tieLt (some Row.placeKey)

theorem tieLe_place :
    Query.tieLe (some Row.placeKey) = some fun a b => !Store.Rows.placeLt b a := by
  refine congrArg some ?_
  funext a b
  rw [placeLt_eq, Query.tieLt, Option.any_some, ← decide_not, decide_eq_decide]
  exact not_lt.symm

/-- Position and id tell rows with different ids apart. -/
theorem isTotalOn_placeLt {rows : List Row} (hids : (rows.map Row.id).Nodup) :
    IsTotalOn (· ∈ rows) Store.Rows.placeLt := by
  intro a b ha hb hab hba
  simp only [placeLt_eq, Query.tieLt, Option.any_some, decide_eq_false_iff_not, not_lt] at hab hba
  have hplace : a.placeKey = b.placeKey := le_antisymm hba hab
  exact List.inj_on_of_nodup_map hids ha hb (congrArg (fun p => (ofLex p).2) hplace)

namespace Query

end Query

end Tabula
