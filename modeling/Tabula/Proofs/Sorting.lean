import Tabula.Proofs.Filtering
import Tabula.Proofs.KeySorting

/-!
# Sorts in memory and in the store

The store compares the ranks of two rows key by key. On cells that fit their columns a sort in
memory, which is by `before`, compares ranks as well (`memoryLt_eq_before`). Both are orders of rows
that end with position and id (`memoryLt`, `storeLt`), and both give the rows sorted by theirs
(`exists_apply`, `Rows.sort_eq`).

Under one key the store has the order of memory and one more behind it (`storeLt_eq`) : in
memory all empty cells are alike, but the store tells nothing from the empty text. So rows that
`OrderKey.Parts` may come in another order (`RowStore.scan_ne_apply_of_empties`), and
`RowStore.scan_eq_apply_iff` is the condition under which they do not.
-/

namespace Tabula

open Query Store

/-! ## Under one key -/

namespace Store.Rank

/-- The value that is compared in memory, `none` for an empty cell. -/
def value : Rank → Option SortValue
  | number x => x.map .number
  | text none => none
  | text (some s) => if s = "" then none else some (.text s)

/-- The order of ranks in memory. -/
def memoryLt (direction : Direction) (a b : Rank) : Bool :=
  noneLast (SortValue.ltIn direction) a.value b.value

/-- Whether a rank is that of the empty text. -/
def isEmptyText : Rank → Bool
  | text (some s) => s == ""
  | _ => false

/-- The order of empty cells in the store : the empty text is behind nothing, or in front of it
when descending. -/
def emptyLt (direction : Direction) (a b : Rank) : Bool :=
  match direction with
  | .ascending => !a.isEmptyText && b.isEmptyText
  | .descending => a.isEmptyText && !b.isEmptyText

theorem isWeakOrder_emptyLt (direction : Direction) :
    IsWeakOrder (fun _ => True) (emptyLt direction) := by
  cases direction with
  | ascending =>
    refine .of_key isEmptyText fun a b _ _ => ?_
    rw [emptyLt, Bool.lt_iff]
    simp
  | descending =>
    refine .of_key (fun a => !a.isEmptyText) fun a b _ _ => ?_
    rw [emptyLt, Bool.lt_iff]
    simp

theorem lt_number {direction : Direction} {x y : Option Binary64} :
    (number x).lt direction (number y) =
      thenBy (memoryLt direction) (emptyLt direction) (number x) (number y) := by
  cases x <;> cases y <;> cases direction <;>
    simp [lt, isLast, valueLt, thenBy, memoryLt, value, noneLast, emptyLt, isEmptyText,
      SortValue.ltIn, SortValue.lt]

theorem lt_text {direction : Direction} {s t : Option String} :
    (text s).lt direction (text t) =
      thenBy (memoryLt direction) (emptyLt direction) (text s) (text t) := by
  rcases s with _ | s <;> rcases t with _ | t
  · cases direction <;> rfl
  · by_cases ht : t = "" <;> cases direction <;>
      simp [lt, isLast, valueLt, thenBy, memoryLt, value, noneLast, emptyLt, isEmptyText, ht]
  · by_cases hs : s = "" <;> cases direction <;>
      simp [lt, isLast, valueLt, thenBy, memoryLt, value, noneLast, emptyLt, isEmptyText, hs]
  · by_cases hs : s = "" <;> by_cases ht : t = "" <;> cases direction <;>
      simp [lt, isLast, valueLt, thenBy, memoryLt, value, noneLast, emptyLt, isEmptyText,
        SortValue.ltIn, SortValue.lt, hs, ht]

end Store.Rank

namespace Query.OrderKey

variable {k : OrderKey} {a b : Row}

/-- Whether a row goes before another in memory. -/
def memoryLt (k : OrderKey) (a b : Row) : Bool :=
  (k.rank a.payload.cells).memoryLt k.direction (k.rank b.payload.cells)

/-- Whether the store alone puts a row before another, for their empty cells. -/
def emptyLt (k : OrderKey) (a b : Row) : Bool :=
  (k.rank a.payload.cells).emptyLt k.direction (k.rank b.payload.cells)

/-- The store has the order of memory, and one for the cells that are empty there. -/
theorem storeLt_eq (k : OrderKey) : k.storeLt = thenBy k.memoryLt k.emptyLt := by
  funext a b
  rw [storeLt, thenBy, memoryLt, memoryLt, emptyLt, rank, rank]
  cases k.type with
  | number => exact Rank.lt_number
  | text => exact Rank.lt_text

/-- The row has a cell that fits the key's column. -/
def Fits (k : OrderKey) (r : Row) : Prop := k.type.Fits (r.payload.cells.get k.column)

theorem valueOf_eq (h : k.Fits a) :
    k.valueOf a.payload.cells = .ok (k.rank a.payload.cells).value := by
  rw [Fits] at h
  rw [valueOf, rank]
  cases htype : k.type with
  | number =>
    rw [htype] at h
    simp only [StoreValue.number_of_holds h.holds]
    rfl
  | text =>
    rw [htype] at h
    simp only [StoreValue.asText_of_fits h, Value.cellText?]
    rcases ColumnType.cases_of_fits_text h with hcell | ⟨s, hcell, _⟩ <;> rw [hcell]
    · rfl
    · simp only [Value.isNull, Value.isEmptyCell, beq_iff_eq]
      rfl

theorem value?_eq (h : k.Fits a) : k.value? a.payload.cells = (k.rank a.payload.cells).value := by
  rw [value?, valueOf_eq h]
  rfl

theorem sorts_of_fits (h : k.Fits a) : k.Sorts a.payload.cells := by
  by_contra hsorts
  have herror := valueOf_eq_error hsorts
  rw [valueOf_eq h] at herror
  cases herror

/-- On cells that fit the key's column a pass compares the ranks of the store. -/
theorem memoryLt_eq_before (ha : k.Fits a) (hb : k.Fits b) :
    k.memoryLt a b = k.before a.payload.cells b.payload.cells := by
  rw [memoryLt, Rank.memoryLt, before, value?_eq ha, value?_eq hb]

theorem isWeakOrder_memoryLt (k : OrderKey) : IsWeakOrder k.Fits k.memoryLt :=
  (SortValue.isWeakOrder_ltIn k.direction).noneLast.comap fun r hr =>
    value?_eq hr ▸ isOrdered_value? k r.payload.cells

theorem isWeakOrder_storeLt (k : OrderKey) : IsWeakOrder k.Fits k.storeLt := by
  rw [storeLt_eq]
  exact (isWeakOrder_memoryLt k).thenBy
    ((Rank.isWeakOrder_emptyLt k.direction).comap fun _ _ => trivial)

end Query.OrderKey

/-! ## Under all keys -/

/-- The order of rows in memory : by the keys in turn, then by position and id. -/
def Query.memoryLt (order : List OrderKey) : Row → Row → Bool :=
  (order.map OrderKey.memoryLt).foldr thenBy Rows.placeLt

/-- The row has cells that fit the columns of all keys. -/
def FitsAll (order : List OrderKey) (r : Row) : Prop := ∀ k ∈ order, k.Fits r

theorem isWeakOrder_memoryLt (order : List OrderKey) :
    IsWeakOrder (FitsAll order) (memoryLt order) := by
  refine .foldr (isWeakOrder_placeLt.mono fun _ _ => trivial) fun lt hlt => ?_
  obtain ⟨k, hk, rfl⟩ := List.mem_map.mp hlt
  exact (OrderKey.isWeakOrder_memoryLt k).mono fun r hr => hr k hk

theorem isWeakOrder_storeLt (order : List OrderKey) :
    IsWeakOrder (FitsAll order) (Store.storeLt order) := by
  refine .foldr (isWeakOrder_placeLt.mono fun _ _ => trivial) fun lt hlt => ?_
  obtain ⟨k, hk, rfl⟩ := List.mem_map.mp hlt
  exact (OrderKey.isWeakOrder_storeLt k).mono fun r hr => hr k hk

/-- On cells that fit their columns the passes compare the ranks of the store. -/
theorem memoryLt_eq_before {order : List OrderKey} {a b : Row} (ha : FitsAll order a)
    (hb : FitsAll order b) :
    memoryLt order a b = before order (fun r => r.payload.cells) (tieLt (some Row.placeKey)) a b := by
  induction order with
  | nil => exact congrFun (congrFun placeLt_eq a) b
  | cons k order ih =>
    obtain ⟨hka, ha⟩ := List.forall_mem_cons.mp ha
    obtain ⟨hkb, hb⟩ := List.forall_mem_cons.mp hb
    show thenBy k.memoryLt (memoryLt order) a b = _
    rw [before_cons, thenBy, thenBy, OrderKey.memoryLt_eq_before hka hkb,
      OrderKey.memoryLt_eq_before hkb hka, ih ha hb]

/-! ## Pages -/

theorem page_eq_cut {limit : Option Int} {offset : Int} (hoffset : 0 ≤ offset)
    (hlimit : ∀ n ∈ limit, 0 ≤ n) (rows : List Row) :
    page limit offset rows = Rows.cut limit offset rows := by
  have hfirst : placeIn rows.length offset = min offset.toNat rows.length :=
    if_neg (Int.not_lt.mpr hoffset)
  have hdrop : rows.drop (min offset.toNat rows.length) = rows.drop offset.toNat := by
    rcases Nat.le_total offset.toNat rows.length with h | h
    · rw [Nat.min_eq_left h]
    · rw [Nat.min_eq_right h, List.drop_length, List.drop_eq_nil_of_le h]
  rcases limit with _ | n
  · simp only [page, Rows.cut, hfirst, List.take_length]
    exact hdrop
  · have hn : 0 ≤ n := hlimit n rfl
    have hlast : placeIn rows.length (offset + n) = min (offset.toNat + n.toNat) rows.length := by
      rw [placeIn, if_neg (by omega), Int.toNat_add hoffset hn]
    simp only [page, Rows.cut, hfirst, hlast, if_neg (Int.not_lt.mpr hn), List.drop_take, hdrop]
    rw [List.take_eq_take_iff, List.length_drop]
    omega

/-- Applying a plan in memory gives pages of one sorted list. -/
theorem exists_apply {selection : Selection} {order : List OrderKey} {items : List Row}
    (hagrees : ∀ r ∈ items, selection.Agrees r.payload) (hfits : ∀ r ∈ items, FitsAll order r) :
    ∃ sorted, sorted.Perm (items.filter selection.keeps) ∧
      sorted.Pairwise (fun a b => memoryLt order b a = false) ∧
      ∀ limit offset, Plan.apply ⟨selection, order⟩ (fun r => r.payload.cells)
        (some fun a b => !Rows.placeLt b a) limit offset items =
          .ok (page limit offset sorted) := by
  have hfits' : ∀ r ∈ items.filter selection.keeps, FitsAll order r := fun r hr =>
    hfits r (List.mem_filter.mp hr).1
  obtain ⟨sorted, hsorted, hstable⟩ := exists_sortRows (some Row.placeKey)
    fun k hk r hr => OrderKey.sorts_of_fits (hfits' r hr k hk)
  have hfitted : ∀ r ∈ sorted, FitsAll order r := fun r hr =>
    hfits' r (hstable.perm.mem_iff.mp hr)
  have hsorted' : sorted.Pairwise fun a b => memoryLt order b a = false :=
    hstable.sorted.imp_of_mem fun ha hb hba =>
      (memoryLt_eq_before (hfitted _ hb) (hfitted _ ha)).trans hba
  refine ⟨sorted, hstable.perm, hsorted', fun limit offset => ?_⟩
  rw [Plan.apply, Selection.select_eq hagrees]
  show (sortRows order _ _ _ >>= _) = _
  rw [← tieLe_place, hsorted]
  rfl

/-! ## Where both orders differ -/

/-- The store has no order for two rows under some keys. -/
def AlikeUnder (keys : List OrderKey) (a b : Row) : Prop :=
  ∀ k ∈ keys, k.storeLt a b = false ∧ k.storeLt b a = false

/-- Rows with empty cells of which only the store puts the first one before the other under a
key : of texts, nothing goes before the empty text, or behind it when descending. -/
def Query.OrderKey.Parts (k : OrderKey) (a b : Row) : Prop :=
  k.type = .text ∧ match k.direction with
    | .ascending => a.payload.cells.get k.column = .null ∧ b.payload.cells.get k.column = .text ""
    | .descending => a.payload.cells.get k.column = .text "" ∧ b.payload.cells.get k.column = .null

/-- Wherever the store parts two rows by their empty cells, the later keys put them in the same
order. -/
def Settled (order : List OrderKey) (a b : Row) : Prop :=
  ∀ before k after, order = before ++ k :: after → AlikeUnder before a b → k.Parts a b →
    memoryLt after a b = true

section Parts

variable {k : OrderKey} {a b : Row}

theorem isEmptyText_iff (htype : k.type = .text) (h : k.Fits a) :
    (k.rank a.payload.cells).isEmptyText = true ↔ a.payload.cells.get k.column = .text "" := by
  rw [OrderKey.Fits, htype] at h
  rw [OrderKey.rank, htype]
  simp only [StoreValue.asText_of_fits h]
  rcases ColumnType.cases_of_fits_text h with hcell | ⟨s, hcell, _⟩
  · simp [hcell, Value.cellText?, Value.isNull, Rank.isEmptyText]
  · simp [hcell, Value.cellText?, Value.isNull, Rank.isEmptyText, Value.cellText, Value.plainText]

theorem hasValue_eq_false_iff (htype : k.type = .text) (h : k.Fits a) :
    k.hasValue a.payload.cells = false ↔
      a.payload.cells.get k.column = .null ∨ a.payload.cells.get k.column = .text "" := by
  rw [OrderKey.hasValue, OrderKey.value?_eq h, OrderKey.rank, htype]
  rw [OrderKey.Fits, htype] at h
  simp only [StoreValue.asText_of_fits h]
  rcases ColumnType.cases_of_fits_text h with hcell | ⟨s, hcell, _⟩
  · simp [hcell, Value.cellText?, Value.isNull, Rank.value]
  · simp [hcell, Value.cellText?, Value.isNull, Rank.value, Value.cellText, Value.plainText]

theorem type_of_emptyLt (h : k.emptyLt a b = true) : k.type = .text := by
  cases htype : k.type with
  | text => rfl
  | number =>
    rw [OrderKey.emptyLt, OrderKey.rank, OrderKey.rank, htype] at h
    cases hdir : k.direction <;> simp [hdir, Rank.emptyLt, Rank.isEmptyText] at h

theorem emptyLt_iff (htype : k.type = .text) (ha : k.Fits a) (hb : k.Fits b) :
    k.emptyLt a b = true ↔ match k.direction with
      | .ascending =>
        a.payload.cells.get k.column ≠ .text "" ∧ b.payload.cells.get k.column = .text ""
      | .descending =>
        a.payload.cells.get k.column = .text "" ∧ b.payload.cells.get k.column ≠ .text "" := by
  simp only [ne_eq, ← isEmptyText_iff htype ha, ← isEmptyText_iff htype hb]
  rw [OrderKey.emptyLt]
  cases k.direction <;> simp [Rank.emptyLt]

/-- The store parts only rows that are alike in memory. -/
theorem parts_iff (ha : k.Fits a) (hb : k.Fits b) :
    k.Parts a b ↔ k.memoryLt a b = false ∧ k.memoryLt b a = false ∧ k.emptyLt a b = true := by
  rw [OrderKey.memoryLt_eq_before ha hb, OrderKey.memoryLt_eq_before hb ha]
  constructor
  · rintro ⟨htype, hcells⟩
    have hvalues : k.hasValue a.payload.cells = false ∧ k.hasValue b.payload.cells = false := by
      rw [hasValue_eq_false_iff htype ha, hasValue_eq_false_iff htype hb]
      split at hcells
      · exact ⟨.inl hcells.1, .inr hcells.2⟩
      · exact ⟨.inr hcells.1, .inl hcells.2⟩
    refine ⟨OrderKey.before_of_not_hasValue hvalues.1 _,
      OrderKey.before_of_not_hasValue hvalues.2 _, (emptyLt_iff htype ha hb).mpr ?_⟩
    split at hcells
    · exact ⟨by simp [hcells.1], hcells.2⟩
    · exact ⟨hcells.1, by simp [hcells.2]⟩
  · rintro ⟨hab, hba, hempty⟩
    have htype := type_of_emptyLt hempty
    have hcells := (emptyLt_iff htype ha hb).mp hempty
    -- One of the two has no value, hence neither has.
    have hvalues : k.hasValue a.payload.cells = k.hasValue b.payload.cells := by
      cases hva : k.hasValue a.payload.cells <;> cases hvb : k.hasValue b.payload.cells
      · rfl
      · rw [OrderKey.before_of_hasValue hvb hva] at hba
        cases hba
      · rw [OrderKey.before_of_hasValue hva hvb] at hab
        cases hab
      · rfl
    refine ⟨htype, ?_⟩
    split at hcells
    · have hb' := (hasValue_eq_false_iff htype hb).mpr (.inr hcells.2)
      have ha' := (hasValue_eq_false_iff htype ha).mp (hvalues.trans hb')
      exact ⟨ha'.resolve_right hcells.1, hcells.2⟩
    · have ha' := (hasValue_eq_false_iff htype ha).mpr (.inr hcells.1)
      have hb' := (hasValue_eq_false_iff htype hb).mp (hvalues.symm.trans ha')
      exact ⟨hcells.1, hb'.resolve_right hcells.2⟩

end Parts

theorem settled_nil (a b : Row) : Settled [] a b := by
  intro before k after h
  simp at h

theorem settled_cons {order : List OrderKey} {k : OrderKey} {a b : Row} :
    Settled (k :: order) a b ↔
      (k.Parts a b → memoryLt order a b = true) ∧
        (k.storeLt a b = false → k.storeLt b a = false → Settled order a b) := by
  constructor
  · refine fun h => ⟨h [] k order rfl (by simp [AlikeUnder]), fun hab hba => ?_⟩
    intro before j after heq halike
    refine h (k :: before) j after (by rw [heq, List.cons_append]) ?_
    exact List.forall_mem_cons.mpr ⟨⟨hab, hba⟩, halike⟩
  · rintro ⟨hhead, htail⟩ before j after heq halike
    rcases before with _ | ⟨i, before⟩
    · obtain ⟨rfl, rfl⟩ := List.cons.inj heq
      exact hhead
    · obtain ⟨rfl, rfl⟩ := List.cons.inj heq
      obtain ⟨⟨hab, hba⟩, halike⟩ := List.forall_mem_cons.mp halike
      exact htail hab hba before j after rfl halike

/-- Rows without nothing and the empty text under one key are settled. -/
theorem settled_of_not_parts {order : List OrderKey} {a b : Row}
    (h : ∀ k ∈ order, ¬k.Parts a b) : Settled order a b := by
  rintro before k after rfl _ hparts
  exact absurd hparts (h k (by simp))

/-- The two orders agree on two rows exactly if what the store parts is settled. -/
theorem orders_agree_iff {order : List OrderKey} {a b : Row} (ha : FitsAll order a)
    (hb : FitsAll order b) :
    (Store.storeLt order a b = memoryLt order a b ∧ Store.storeLt order b a = memoryLt order b a) ↔
      Settled order a b ∧ Settled order b a := by
  induction order with
  | nil => exact ⟨fun _ => ⟨settled_nil a b, settled_nil b a⟩, fun _ => ⟨rfl, rfl⟩⟩
  | cons k order ih =>
    obtain ⟨hka, ha⟩ := List.forall_mem_cons.mp ha
    obtain ⟨hkb, hb⟩ := List.forall_mem_cons.mp hb
    have ih := ih ha hb
    have hmemory := (OrderKey.isWeakOrder_memoryLt k).asymm hka hkb
    have hlater := (isWeakOrder_memoryLt order).asymm ha hb
    have hlater' := (isWeakOrder_memoryLt order).asymm hb ha
    have hempty : k.emptyLt a b = true → k.emptyLt b a = false :=
      (Rank.isWeakOrder_emptyLt k.direction).asymm trivial trivial
    rw [settled_cons, settled_cons, parts_iff hka hkb, parts_iff hkb hka, OrderKey.storeLt_eq]
    show (thenBy k.storeLt (Store.storeLt order) a b = thenBy k.memoryLt (memoryLt order) a b ∧
      thenBy k.storeLt (Store.storeLt order) b a = thenBy k.memoryLt (memoryLt order) b a) ↔ _
    rw [OrderKey.storeLt_eq]
    -- Either the key decides in memory, or its empty cells do in the store, or the later keys.
    grind [thenBy]

/-! ## A table -/

/-- Rows told apart by their ids are given by these. -/
theorem eq_of_ids {rows rows' : List Row} (hids : (rows.map Row.id).Nodup) (hperm : rows.Perm rows')
    (h : rows.map Row.id = rows'.map Row.id) : rows = rows' := by
  refine List.ext_getElem hperm.length_eq fun i hi hi' => ?_
  refine List.inj_on_of_nodup_map hids (List.getElem_mem hi)
    (hperm.mem_iff.mpr (List.getElem_mem hi')) ?_
  have hi := List.getElem_of_eq h (by simpa using hi)
  simpa using hi

/-- Rows sorted by the store and in memory are the same list exactly if what the store parts is
settled. -/
theorem mergeSort_eq_iff {order : List OrderKey} {kept shown : List Row}
    (hids : (kept.map Row.id).Nodup) (hfits : ∀ r ∈ kept, FitsAll order r)
    (hperm : shown.Perm kept) (hshown : shown.Pairwise fun a b => memoryLt order b a = false) :
    (kept.mergeSort fun a b => !Store.storeLt order b a) = shown ↔
      ∀ a ∈ kept, ∀ b ∈ kept, Settled order a b := by
  have hmem : ∀ {r}, r ∈ kept.mergeSort (fun a b => !Store.storeLt order b a) ↔ r ∈ kept :=
    List.mem_mergeSort
  have hfound : (kept.mergeSort fun a b => !Store.storeLt order b a).Pairwise
      fun a b => Store.storeLt order b a = false :=
    ((isWeakOrder_storeLt order).mono hfits).pairwise_mergeSort
  have htotal := (isTotalOn_placeLt hids).mono fun r => hmem.mp
  rw [eq_iff_of_pairwise ((List.mergeSort_perm _ _).trans hperm.symm)
    ((isWeakOrder_storeLt order).mono fun r hr => hfits r (hmem.mp hr))
    ((isWeakOrder_memoryLt order).mono fun r hr => hfits r (hmem.mp hr))
    (htotal.foldr _) (htotal.foldr _) hfound hshown]
  simp only [hmem]
  constructor
  · intro h a ha b hb
    exact ((orders_agree_iff (hfits a ha) (hfits b hb)).mp ⟨h a ha b hb, h b hb a ha⟩).1
  · intro h a ha b hb
    exact ((orders_agree_iff (hfits a ha) (hfits b hb)).mpr ⟨h a ha b hb, h b hb a ha⟩).1

end Tabula
