import Tabula.Proofs.KeySorting

/-!
# Rows that a plan does not tell apart

A plan reads cells through its tests and keys only. If every item is changed in such a way that all
of its tests answer the same and all of its keys put it in the same place (`Plan.Alike`), the plan
gives the changed items of its answer for the items as they were (`Plan.apply_map`).

One lemma for each stage says that the stage commutes with the change : `Selection.select_map`,
`OrderKey.pass_map`, `sortRows_map` and `page_map`.
-/

namespace Tabula.Query

variable {α β : Type} {f : α → β} {cellsOf : α → Cells} {cellsOf' : β → Cells}

/-- Two stages commute with a change if each of them does. -/
theorem map_bind_map {γ γ' δ δ' : Type} {g : γ → γ'} {g' : δ → δ'} {x : Except Failure γ}
    {next : γ → Except Failure δ} {next' : γ' → Except Failure δ'}
    (h : ∀ c, next' (g c) = (next c).map g') : (x.map g >>= next') = (x >>= next).map g' := by
  cases x with
  | error => rfl
  | ok c => exact h c

/-! ## Keys -/

/-- Whether a place goes before another in a direction. -/
def Direction.placesBefore (direction : Direction) (p q : Int ⊕ₗ String) : Bool :=
  match direction with
  | .ascending => decide (p < q)
  | .descending => decide (q < p)

theorem SortValue.ltIn_eq_placesBefore {v u : SortValue} (hv : v.IsOrdered) (hu : u.IsOrdered)
    (direction : Direction) : ltIn direction v u = direction.placesBefore v.place u.place := by
  cases direction with
  | ascending =>
    rw [ltIn, Bool.eq_iff_iff, lt_iff_place hv hu, Direction.placesBefore, decide_eq_true_iff]
  | descending =>
    rw [ltIn, Bool.eq_iff_iff, lt_iff_place hu hv, Direction.placesBefore, decide_eq_true_iff]

namespace OrderKey

variable {k : OrderKey} {cells cells' other other' : Cells} {items : List α}

/-- Cells that are one to a key : both can be sorted, to the same place, or neither can. -/
structure Alike (k : OrderKey) (cells cells' : Cells) : Prop where
  sorts : k.Sorts cells' ↔ k.Sorts cells
  place : (k.value? cells').map SortValue.place = (k.value? cells).map SortValue.place

theorem alike_of_get (h : cells'.get k.column = cells.get k.column) : k.Alike cells cells' where
  sorts := by rw [Sorts, Sorts, h]
  place := by rw [value?, value?, valueOf, valueOf, h]

/-- A key compares the places of its values. -/
theorem before_eq_places (k : OrderKey) (cells other : Cells) :
    k.before cells other = noneLast k.direction.placesBefore
      ((k.value? cells).map SortValue.place) ((k.value? other).map SortValue.place) := by
  have hordered := k.isOrdered_value?
  rw [before]
  rcases hv : k.value? cells with _ | v <;> rcases hu : k.value? other with _ | u
  · rfl
  · rfl
  · rfl
  · exact SortValue.ltIn_eq_placesBefore (hordered cells v hv) (hordered other u hu) k.direction

theorem before_congr (h : k.Alike cells cells') (h' : k.Alike other other') :
    k.before cells' other' = k.before cells other := by
  rw [before_eq_places, before_eq_places, h.place, h'.place]

/-- A pass is the merge sort by its order. -/
theorem pass_eq_mergeSort (h : ∀ a ∈ items, k.Sorts (cellsOf a)) : k.pass cellsOf items =
    .ok (items.mergeSort fun a b => !k.before (cellsOf b) (cellsOf a)) := by
  obtain ⟨sorted, hsorted, hstable⟩ := exists_pass h
  have hweak : IsWeakOrder (fun _ => True) fun a b => k.before (cellsOf a) (cellsOf b) :=
    k.isWeakOrder_before.comap fun _ _ => trivial
  rw [hsorted, hstable.unique hweak (hweak.isStableSort_mergeSort items)]

theorem pass_map (h : ∀ a, k.Alike (cellsOf a) (cellsOf' (f a))) (items : List α) :
    k.pass cellsOf' (items.map f) = (k.pass cellsOf items).map (List.map f) := by
  have hall : (∀ b ∈ items.map f, k.Sorts (cellsOf' b)) ↔ ∀ a ∈ items, k.Sorts (cellsOf a) := by
    simp only [List.forall_mem_map, (h _).sorts]
  by_cases hsorts : ∀ a ∈ items, k.Sorts (cellsOf a)
  · rw [pass_eq_mergeSort hsorts, pass_eq_mergeSort (hall.mpr hsorts)]
    refine congrArg Except.ok (List.map_mergeSort fun a _ b _ => ?_).symm
    rw [before_congr (h b) (h a)]
  · rw [pass_error hsorts, pass_error (mt hall.mp hsorts)]
    rfl

end OrderKey

theorem sortRows_map {order : List OrderKey} (tiebreak : Option (β → β → Bool)) (items : List α)
    (h : ∀ k ∈ order, ∀ a, k.Alike (cellsOf a) (cellsOf' (f a))) :
    sortRows order cellsOf' tiebreak (items.map f) =
      (sortRows order cellsOf (tiebreak.map fun le a b => le (f a) (f b)) items).map
        (List.map f) := by
  induction order with
  | nil =>
    cases tiebreak with
    | none => rfl
    | some le =>
      have hsorted : (items.map f).mergeSort le =
          (items.mergeSort fun a b => le (f a) (f b)).map f :=
        (List.map_mergeSort (s := le) fun _ _ _ _ => rfl).symm
      exact congrArg Except.ok hsorted
  | cons k order ih =>
    rw [sortRows_cons, sortRows_cons, ih fun k hk => h k (List.mem_cons_of_mem _ hk)]
    exact map_bind_map fun later => OrderKey.pass_map (h k List.mem_cons_self) later

/-! ## Tests and pages -/

/-- Questions that are answered alike for all items of a list. -/
theorem allM_anyM_congr {p q : α → Except Failure Bool} {items : List α}
    (h : ∀ a ∈ items, p a = q a) : items.allM p = items.allM q ∧ items.anyM p = items.anyM q := by
  induction items with
  | nil => exact ⟨rfl, rfl⟩
  | cons a items ih =>
    have ha := h a List.mem_cons_self
    obtain ⟨hall, hany⟩ := ih fun a ha => h a (List.mem_cons_of_mem _ ha)
    constructor
    · rw [List.allM, List.allM, ha, hall]
    · rw [List.anyM, List.anyM, ha, hany]

theorem Selection.accepts_congr {s : Selection} {cells cells' : Cells}
    (h : ∀ t ∈ s.tests, t.accepts cells' = t.accepts cells) :
    s.accepts cells' = s.accepts cells := by
  obtain ⟨hall, hany⟩ := allM_anyM_congr h
  rw [accepts, accepts, hall, hany]

theorem Selection.select_map {s : Selection}
    (h : ∀ a, s.accepts (cellsOf' (f a)) = s.accepts (cellsOf a)) (items : List α) :
    s.select cellsOf' (items.map f) = (s.select cellsOf items).map (List.map f) := by
  induction items with
  | nil => rfl
  | cons a items ih =>
    rw [List.map_cons, select, select, h, ih]
    rcases s.accepts (cellsOf a) with _ | keep
    · rfl
    rcases s.select cellsOf items with _ | kept
    · rfl
    · cases keep <;> rfl

theorem page_map (limit : Option Int) (offset : Int) (items : List α) :
    page limit offset (items.map f) = (page limit offset items).map f := by
  simp only [page, List.length_map, List.map_drop, List.map_take]

/-! ## Plans -/

/-- Cells that are one to a plan : its tests answer the same for both, and both are one to each of
its keys. -/
structure Plan.Alike (p : Plan) (cells cells' : Cells) : Prop where
  tests : ∀ t ∈ p.selection.tests, t.accepts cells' = t.accepts cells
  keys : ∀ k ∈ p.order, k.Alike cells cells'

/-- A plan answers for items that are changed with the changed items of its answer. -/
theorem Plan.apply_map {p : Plan} (f : α → β) (cellsOf : α → Cells) (cellsOf' : β → Cells)
    (h : ∀ a, p.Alike (cellsOf a) (cellsOf' (f a))) (tiebreak : Option (β → β → Bool))
    (limit : Option Int) (offset : Int) (items : List α) :
    p.apply cellsOf' tiebreak limit offset (items.map f) =
      (p.apply cellsOf (tiebreak.map fun le a b => le (f a) (f b)) limit offset items).map
        (List.map f) := by
  rw [apply, apply, Selection.select_map fun a => Selection.accepts_congr (h a).tests]
  refine map_bind_map fun kept => ?_
  rw [sortRows_map tiebreak kept fun k hk a => (h a).keys k hk]
  exact map_bind_map fun sorted => congrArg Except.ok (page_map limit offset sorted)

end Tabula.Query
