import Mathlib.Data.List.Pairwise
import Mathlib.Order.Lattice

/-!
# Weak orders and stable sorting

Rows are sorted by orders that do not tell all of them apart. `IsWeakOrder` is such an order
on the items with a property; `thenBy` leaves what one order does not decide to another, and
is a weak order again (`IsWeakOrder.thenBy`).

A merge sort by a weak order is stable : items that it does not tell apart stay in the order
they came in (`IsWeakOrder.isStableSort_mergeSort`). There is one stable sort of a list
(`IsStableSort.unique`), and a stable sort of a sorted list is one by both orders, the later one
first (`IsStableSort.thenBy`).

Orders that tell all items apart sort a list in the same way exactly if they agree on its items
(`eq_iff_of_pairwise`).
-/

namespace Tabula

/-- A strict order on the items with a property, under which items that it does not tell apart
are alike. -/
structure IsWeakOrder {α : Type} (P : α → Prop) (lt : α → α → Bool) : Prop where
  asymm {a b : α} : P a → P b → lt a b = true → lt b a = false
  split {a b c : α} : P a → P b → P c → lt a b = true → lt a c = true ∨ lt c b = true

/-- The first order decides, the second where the first does not. -/
def thenBy {α : Type} (lt lt' : α → α → Bool) (a b : α) : Bool := lt a b || (!lt b a && lt' a b)

namespace IsWeakOrder

variable {α β : Type} {P : α → Prop} {lt lt' : α → α → Bool}

/-- Comparing keys from a linear order. -/
theorem of_key [LinearOrder β] (key : α → β)
    (h : ∀ a b, P a → P b → (lt a b = true ↔ key a < key b)) : IsWeakOrder P lt where
  asymm ha hb hab := by
    rw [Bool.eq_false_iff, ne_eq, h _ _ hb ha]
    exact lt_asymm ((h _ _ ha hb).mp hab)
  split ha hb hc hab := by
    rw [h _ _ ha hc, h _ _ hc hb]
    exact (lt_or_ge _ _).imp_right fun hca => hca.trans_lt ((h _ _ ha hb).mp hab)

theorem comap {Q : β → Prop} {f : β → α} (h : IsWeakOrder P lt) (hf : ∀ b, Q b → P (f b)) :
    IsWeakOrder Q fun a b => lt (f a) (f b) where
  asymm ha hb := h.asymm (hf _ ha) (hf _ hb)
  split ha hb hc := h.split (hf _ ha) (hf _ hb) (hf _ hc)

theorem mono {Q : α → Prop} (h : IsWeakOrder P lt) (hQ : ∀ a, Q a → P a) : IsWeakOrder Q lt :=
  h.comap (f := id) hQ

theorem swap (h : IsWeakOrder P lt) : IsWeakOrder P fun a b => lt b a where
  asymm ha hb := h.asymm hb ha
  split ha hb hc hab := (h.split hb ha hc hab).symm

theorem irrefl (h : IsWeakOrder P lt) {a : α} (ha : P a) : lt a a = false := by
  rw [Bool.eq_false_iff]
  intro haa
  rw [h.asymm ha ha haa] at haa
  exact Bool.false_ne_true haa

/-- Items that are not told apart from a third one are not told apart. -/
theorem le_trans (h : IsWeakOrder P lt) {a b c : α} (ha : P a) (hb : P b) (hc : P c)
    (hba : lt b a = false) (hcb : lt c b = false) : lt c a = false := by
  rw [Bool.eq_false_iff]
  intro hca
  rcases h.split hc ha hb hca with hlt | hlt
  · rw [hlt] at hcb
    exact Bool.noConfusion hcb
  · rw [hlt] at hba
    exact Bool.noConfusion hba

theorem thenBy (h : IsWeakOrder P lt) (h' : IsWeakOrder P lt') : IsWeakOrder P (thenBy lt lt') where
  asymm {a b} ha hb hab := by
    have := h.asymm ha hb
    have := h.asymm hb ha
    have := h'.asymm ha hb
    grind [Tabula.thenBy]
  split {a b c} ha hb hc hab := by
    have := h.split ha hb hc
    have := h'.split ha hb hc
    -- Where the first order decides neither, it tells none of the three apart.
    have := h.split hc ha hb
    have := h.split hb hc ha
    grind [Tabula.thenBy]

end IsWeakOrder

/-- Orders in turn, the first to decide. -/
theorem IsWeakOrder.foldr {α : Type} {P : α → Prop} {tie : α → α → Bool}
    {lts : List (α → α → Bool)} (htie : IsWeakOrder P tie) (h : ∀ lt ∈ lts, IsWeakOrder P lt) :
    IsWeakOrder P (lts.foldr Tabula.thenBy tie) := by
  induction lts with
  | nil => exact htie
  | cons lt lts ih =>
    exact (h lt List.mem_cons_self).thenBy (ih fun lt hlt => h lt (List.mem_cons_of_mem _ hlt))

/-- An order with nothing behind everything. -/
def noneLast {α : Type} (lt : α → α → Bool) : Option α → Option α → Bool
  | some a, some b => lt a b
  | some _, none => true
  | none, _ => false

theorem IsWeakOrder.noneLast {α : Type} {P : α → Prop} {lt : α → α → Bool} (h : IsWeakOrder P lt) :
    IsWeakOrder (fun a => ∀ v ∈ a, P v) (noneLast lt) where
  asymm {a b} ha hb hab := by
    rcases a with _ | a <;> rcases b with _ | b
    · rfl
    · cases hab
    · rfl
    · exact h.asymm (ha a rfl) (hb b rfl) hab
  split {a b c} ha hb hc hab := by
    rcases a with _ | a
    · cases hab
    rcases c with _ | c
    · exact .inl rfl
    rcases b with _ | b
    · exact .inr rfl
    exact h.split (ha a rfl) (hb b rfl) (hc c rfl) hab

/-- An order that tells all items with a property apart. -/
def IsTotalOn {α : Type} (P : α → Prop) (lt : α → α → Bool) : Prop :=
  ∀ a b, P a → P b → lt a b = false → lt b a = false → a = b

theorem IsTotalOn.mono {α : Type} {P Q : α → Prop} {lt : α → α → Bool} (h : IsTotalOn P lt)
    (hQ : ∀ a, Q a → P a) : IsTotalOn Q lt :=
  fun a b ha hb => h a b (hQ a ha) (hQ b hb)

theorem IsTotalOn.thenBy {α : Type} {P : α → Prop} {lt lt' : α → α → Bool} (h : IsTotalOn P lt') :
    IsTotalOn P (thenBy lt lt') := by
  intro a b ha hb hab hba
  have := h a b ha hb
  grind [Tabula.thenBy]

theorem IsTotalOn.foldr {α : Type} {P : α → Prop} {tie : α → α → Bool} (h : IsTotalOn P tie)
    (lts : List (α → α → Bool)) : IsTotalOn P (lts.foldr Tabula.thenBy tie) := by
  induction lts with
  | nil => exact h
  | cons lt lts ih => exact ih.thenBy

/-! ## Sorting -/

section Sorting

variable {α : Type} {P : α → Prop} {l l' : List α}

theorem mergeSort_pair (le : α → α → Bool) (a b : α) :
    [a, b].mergeSort le = if le a b then [a, b] else [b, a] := by
  simp [List.mergeSort, List.merge]

section Questions

variable {lt : α → α → Bool} (h : IsWeakOrder (fun _ => True) lt)
include h

/-- A merge sort asks whether an item need not go behind another. -/
theorem IsWeakOrder.not_trans (a b c : α) (hba : (!lt b a) = true) (hcb : (!lt c b) = true) :
    (!lt c a) = true := by
  simp only [Bool.not_eq_true'] at hba hcb ⊢
  exact h.le_trans trivial trivial trivial hba hcb

theorem IsWeakOrder.not_total (a b : α) : (!lt b a || !lt a b) = true := by
  rcases hba : lt b a
  · rfl
  · rw [h.asymm trivial trivial hba]
    rfl

end Questions

/-- Sorting by a weak order on the items of a list. -/
theorem IsWeakOrder.pairwise_mergeSort {lt : α → α → Bool} (h : IsWeakOrder (· ∈ l) lt) :
    (l.mergeSort fun a b => !lt b a).Pairwise fun a b => lt b a = false := by
  have hmap : (l.attach.mergeSort fun a b => !lt b.1 a.1).map Subtype.val =
      l.mergeSort fun a b => !lt b a := by
    rw [List.map_mergeSort (s := fun a b => !lt b a) fun _ _ _ _ => rfl,
      List.attach_map_subtype_val]
  have hattach : IsWeakOrder (fun _ => True) fun a b : {a // a ∈ l} => lt a.1 b.1 :=
    h.comap fun a _ => a.2
  rw [← hmap, List.pairwise_map]
  refine (List.pairwise_mergeSort hattach.not_trans hattach.not_total l.attach).imp fun hba => ?_
  simpa only [Bool.not_eq_true'] using hba

/-- Lists sorted by orders that tell all items apart are the same list exactly if the orders
agree on the items. -/
theorem eq_iff_of_pairwise {lt lt' : α → α → Bool} (hperm : l.Perm l')
    (hlt : IsWeakOrder (· ∈ l) lt) (hlt' : IsWeakOrder (· ∈ l) lt')
    (htotal : IsTotalOn (· ∈ l) lt) (htotal' : IsTotalOn (· ∈ l) lt')
    (h : l.Pairwise fun a b => lt b a = false) (h' : l'.Pairwise fun a b => lt' b a = false) :
    l = l' ↔ ∀ a ∈ l, ∀ b ∈ l, lt a b = lt' a b := by
  constructor
  · rintro rfl
    -- Of two items in the list the first one goes before the other in both orders.
    have hsorted := h.and h'
    refine fun a ha b hb => List.Pairwise.forall_of_forall_of_flip
      (R := fun a b => lt a b = lt' a b) (fun a ha => ?_) (hsorted.imp_of_mem ?_)
      (hsorted.imp fun {a b} hba => hba.1.trans hba.2.symm) ha hb
    · rw [hlt.irrefl ha, hlt'.irrefl ha]
    · rintro a b ha hb ⟨hba, hba'⟩
      by_cases hab : a = b
      · rw [hab, hlt.irrefl hb, hlt'.irrefl hb]
      · rw [Bool.of_not_eq_false fun hlt => hab (htotal a b ha hb hlt hba),
          Bool.of_not_eq_false fun hlt => hab (htotal' a b ha hb hlt hba')]
  · intro hagree
    have h'' : l'.Pairwise fun a b => lt b a = false := h'.imp_of_mem fun {a b} ha hb hba => by
      rw [hagree b (hperm.mem_iff.mpr hb) a (hperm.mem_iff.mpr ha)]
      exact hba
    refine List.Perm.eq_of_pairwise (fun a b ha hb hba hab => ?_) h h'' hperm
    exact htotal a b ha (hperm.mem_iff.mpr hb) hab hba

end Sorting

/-! ## Stable sorts -/

section Stable

variable {α : Type} {lt lt' : α → α → Bool} {l m s s' : List α}

/-- Whether an order does not tell two items apart. -/
def alike (lt : α → α → Bool) (a b : α) : Bool := !lt a b && !lt b a

/-- The items of a list in order, those that are alike as they came in. -/
structure IsStableSort (lt : α → α → Bool) (l s : List α) : Prop where
  perm : s.Perm l
  sorted : s.Pairwise fun a b => lt b a = false
  stable : ∀ a, s.filter (alike lt a) = l.filter (alike lt a)

theorem alike_thenBy (a b : α) :
    alike (thenBy lt lt') a b = (alike lt' a b && alike lt a b) := by
  grind [alike, thenBy]

theorem IsWeakOrder.alike_self (h : IsWeakOrder (fun _ => True) lt) (a : α) :
    alike lt a a = true := by
  simp [alike, h.irrefl trivial]

/-- Two items that are alike to a third one are alike. -/
theorem IsWeakOrder.lt_of_alike (h : IsWeakOrder (fun _ => True) lt) {a b c : α}
    (hb : alike lt a b = true) (hc : alike lt a c = true) : lt c b = false := by
  simp only [alike, Bool.and_eq_true, Bool.not_eq_true'] at hb hc
  exact h.le_trans (b := a) trivial trivial trivial hb.1 hc.2

theorem IsWeakOrder.isStableSort_mergeSort (h : IsWeakOrder (fun _ => True) lt) (l : List α) :
    IsStableSort lt l (l.mergeSort fun a b => !lt b a) where
  perm := List.mergeSort_perm _ _
  sorted := (h.mono fun _ _ => trivial).pairwise_mergeSort
  stable a := by
    -- The items that are alike to `a` are sorted as they came in, so they stay a sublist.
    have hsub : (l.filter (alike lt a)).Sublist (l.mergeSort fun a b => !lt b a) := by
      refine List.sublist_mergeSort h.not_trans h.not_total ?_ List.filter_sublist
      refine List.pairwise_of_forall_mem_list fun b hb c hc => ?_
      rw [h.lt_of_alike (List.mem_filter.mp hb).2 (List.mem_filter.mp hc).2]
      rfl
    have hfilter := hsub.filter (alike lt a)
    rw [List.filter_filter] at hfilter
    simp only [Bool.and_self] at hfilter
    exact (hfilter.eq_of_length ((List.mergeSort_perm _ _).filter _).length_eq.symm).symm

namespace IsStableSort

/-- Sorted lists are the same if they have the items of each class in the same order. -/
theorem eq_of_filter (h : IsWeakOrder (fun _ => True) lt)
    (hs : s.Pairwise fun a b => lt b a = false) (hs' : s'.Pairwise fun a b => lt b a = false)
    (hfilter : ∀ a, s.filter (alike lt a) = s'.filter (alike lt a)) : s = s' := by
  have hmem : ∀ a, a ∈ s ↔ a ∈ s' := fun a => by
    have := congrArg (a ∈ ·) (hfilter a)
    simpa [h.alike_self] using this
  induction s generalizing s' with
  | nil => exact (List.eq_nil_iff_forall_not_mem.mpr fun a ha => by simp [← hmem a] at ha).symm
  | cons a s ih =>
    rcases s' with _ | ⟨b, s'⟩
    · exact absurd ((hmem a).mp List.mem_cons_self) List.not_mem_nil
    obtain ⟨hfirst, hrest⟩ := List.pairwise_cons.mp hs
    obtain ⟨hfirst', hrest'⟩ := List.pairwise_cons.mp hs'
    -- Each of the two first items goes before no item of the other list.
    have hab : alike lt a b = true := by
      have hba : lt b a = false := by
        rcases List.mem_cons.mp ((hmem b).mpr List.mem_cons_self) with rfl | hb
        · exact h.irrefl trivial
        · exact hfirst b hb
      have hab : lt a b = false := by
        rcases List.mem_cons.mp ((hmem a).mp List.mem_cons_self) with rfl | ha
        · exact h.irrefl trivial
        · exact hfirst' a ha
      rw [alike, hab, hba]
      rfl
    have hhead := hfilter a
    rw [List.filter_cons_of_pos (h.alike_self a), List.filter_cons_of_pos hab] at hhead
    obtain rfl := (List.cons.inj hhead).1
    have htail : ∀ c, s.filter (alike lt c) = s'.filter (alike lt c) := fun c => by
      have := hfilter c
      rw [List.filter_cons, List.filter_cons] at this
      split at this
      · exact (List.cons.inj this).2
      · exact this
    refine congrArg _ (ih hrest hrest' htail fun c => ?_)
    have := congrArg (c ∈ ·) (htail c)
    simpa [h.alike_self] using this

/-- There is one stable sort of a list. -/
theorem unique (h : IsWeakOrder (fun _ => True) lt) (hs : IsStableSort lt l s)
    (hs' : IsStableSort lt l s') : s = s' :=
  eq_of_filter h hs.sorted hs'.sorted fun a => (hs.stable a).trans (hs'.stable a).symm

/-- Sorting a sorted list by another order sorts by this order, and by the former one where it
does not decide. -/
theorem thenBy (h : IsWeakOrder (fun _ => True) lt) (hm : IsStableSort lt' l m)
    (hs : IsStableSort lt m s) : IsStableSort (thenBy lt lt') l s where
  perm := hs.perm.trans hm.perm
  sorted := by
    refine List.pairwise_iff_forall_sublist.mpr fun {a b} hab => ?_
    have hba := List.pairwise_iff_forall_sublist.mp hs.sorted hab
    rcases hlt : lt a b
    · -- The two are alike, so they are in the order that the former sort gave them.
      have hclass : [a, b].filter (alike lt a) = [a, b] := by
        have halike : alike lt a b = true := by
          rw [alike, hlt, hba]
          rfl
        simp [h.alike_self, halike]
      have hsub := hab.filter (alike lt a)
      rw [hclass, hs.stable a] at hsub
      have hba' :=
        List.pairwise_iff_forall_sublist.mp hm.sorted (hsub.trans List.filter_sublist)
      rw [Tabula.thenBy, hba, hba', Bool.and_false]
      rfl
    · rw [Tabula.thenBy, hba, hlt]
      rfl
  stable a := by
    have hclass : ∀ xs : List α, xs.filter (alike (Tabula.thenBy lt lt') a) =
        (xs.filter (alike lt a)).filter (alike lt' a) := fun xs => by
      rw [List.filter_filter]
      exact List.filter_congr fun b _ => alike_thenBy a b
    rw [hclass, hclass, hs.stable, List.filter_filter, List.filter_filter]
    simp only [Bool.and_comm (alike lt' a _)]
    rw [← List.filter_filter, ← List.filter_filter, hm.stable]

/-- Items that go behind all others and are alike to each other may be put behind the others
once these are sorted. -/
theorem of_split (h : IsWeakOrder (fun _ => True) lt) {p : α → Bool}
    (hbefore : ∀ a b, p a = true → p b = false → lt a b = true)
    (hlast : ∀ a b, p a = false → lt a b = false) (l : List α) :
    IsStableSort lt l
      ((l.filter p).mergeSort (fun a b => !lt b a) ++ l.filter fun a => !p a) where
  perm := ((List.mergeSort_perm _ _).append_right _).trans (List.filter_append_perm p l)
  sorted := by
    refine List.pairwise_append.mpr ⟨(h.isStableSort_mergeSort _).sorted, ?_, ?_⟩
    · refine List.pairwise_of_forall_mem_list fun a _ b hb => hlast b a ?_
      simpa using (List.mem_filter.mp hb).2
    · exact fun a _ b hb => hlast b a (by simpa using (List.mem_filter.mp hb).2)
  stable a := by
    -- All items that are alike to `a` are in the same part as `a`.
    have hclass : ∀ b, alike lt a b = true → p b = p a := fun b hb => by
      simp only [alike, Bool.and_eq_true, Bool.not_eq_true'] at hb
      rcases hpa : p a <;> rcases hpb : p b
      · rfl
      · rw [hbefore b a hpb hpa] at hb
        cases hb.2
      · rw [hbefore a b hpa hpb] at hb
        cases hb.1
      · rfl
    have hpart : ∀ q : Bool → Bool, (l.filter fun b => q (p b)).filter (alike lt a) =
        if q (p a) then l.filter (alike lt a) else [] := fun q => by
      rw [List.filter_filter]
      split
      · rename_i hq
        refine List.filter_congr fun b _ => ?_
        rcases hb : alike lt a b
        · rfl
        · rw [hclass b hb, hq]
          rfl
      · rename_i hq
        refine List.filter_eq_nil_iff.mpr fun b _ hb => ?_
        obtain ⟨hb, hqb⟩ := Bool.and_eq_true_iff.mp hb
        exact hq (hclass b hb ▸ hqb)
    rw [List.filter_append, (h.isStableSort_mergeSort _).stable, show l.filter p =
      l.filter fun b => id (p b) from rfl, hpart id, hpart not]
    cases p a
    · rfl
    · exact List.append_nil _

/-- An order that tells all items apart sorts them in one way, whatever order they came in. -/
theorem eq_of_perm (htotal : IsTotalOn (· ∈ l) lt) (hs : IsStableSort lt l s)
    (hs' : IsStableSort lt m s') (hperm : m.Perm l) : s' = s := by
  have hmem : ∀ {a}, a ∈ s' ↔ a ∈ l := (hs'.perm.trans hperm).mem_iff
  refine List.Perm.eq_of_pairwise (fun a b ha hb hba hab => ?_) hs'.sorted hs.sorted
    (hs'.perm.trans (hperm.trans hs.perm.symm))
  exact htotal a b (hmem.mp ha) (hs.perm.mem_iff.mp hb) hab hba

end IsStableSort

end Stable

end Tabula
