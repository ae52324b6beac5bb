import Tabula.Proofs.JsonTexts
import Tabula.Proofs.NestedTexts

/-!
# How deep values are nested

A value has as many levels as lists and mappings stand in it one in the other (`Value.depth`), and
reading its text goes just as deep, wherever the text stands (`Json.HasDepth`, `Json.hasDepth_write`).
The items of a list or an object are read one after the other, so the deepest of them counts
(`Json.elementsExceed_write`, `Json.membersExceed_write`). The text of a JSON value is nested too deep
exactly if the value is (`Json.isTooDeep_write`).
-/

namespace Tabula

namespace Value

mutual

/-- How many lists and mappings stand one in the other. -/
def depth : Value → Nat
  | list xs => depthIn xs + 1
  | dict es => depthUnder es + 1
  | _ => 0

def depthIn : List Value → Nat
  | [] => 0
  | x :: xs => max (depth x) (depthIn xs)

def depthUnder : List (Value × Value) → Nat
  | [] => 0
  | (_, v) :: es => max (depth v) (depthUnder es)

end

theorem lt_depthIn (levels : Nat) (xs : List Value) :
    decide (levels < depthIn xs) = xs.any fun x => levels < x.depth := by
  induction xs with
  | nil => simp [depthIn]
  | cons x xs ih =>
    rw [depthIn, List.any_cons, ← ih, ← Bool.decide_or]
    exact decide_eq_decide.mpr lt_max_iff

theorem lt_depthUnder (levels : Nat) (es : List (String × Value)) :
    decide (levels < depthUnder (es.map fun e => (text e.1, e.2))) =
      es.any fun e => levels < e.2.depth := by
  induction es with
  | nil => simp [depthUnder]
  | cons e es ih =>
    rw [List.map_cons, depthUnder, List.any_cons, ← ih, ← Bool.decide_or]
    exact decide_eq_decide.mpr lt_max_iff

end Value

namespace Json

variable {layout : Layout} {levels : Nat}

/-- Reading the text goes so many levels deep, wherever it stands. -/
def HasDepth (t : String) (n : Nat) : Prop :=
  ∀ levels fuel tail, t.toList.length ≤ fuel →
    valueExceeds levels fuel (t.toList ++ tail) = decide (levels < n)

theorem hasDepth_zero {t : String} (h : ∃ x xs, t.toList = x :: xs ∧ x ≠ '[' ∧ x ≠ '\x7b') :
    HasDepth t 0 := by
  intro levels fuel tail _
  obtain ⟨x, xs, hx, hne, hne'⟩ := h
  rw [hx, List.cons_append, valueExceeds_of_ne hne hne']
  simp

theorem hasDepth_number {t : String}
    (h : ∃ negative y ys, t.toList = signChars negative (y :: ys) ∧ y.isDigit = true) :
    HasDepth t 0 := by
  obtain ⟨negative, y, ys, ht, hy⟩ := h
  cases negative with
  | false => exact hasDepth_zero ⟨y, ys, ht, ne_of_isDigit hy (by decide), ne_of_isDigit hy (by decide)⟩
  | true => exact hasDepth_zero ⟨'-', y :: ys, ht, by decide, by decide⟩

/-- One of the written elements goes deeper than there is room. -/
theorem elementsExceed_write : ∀ {xs : List Value} {ts : List String} {fuel : Nat}
    (tail : List Char), xs ≠ [] →
      (∀ x ∈ xs, x.longInteger? = none ∧
        ∀ t, write layout x = .ok t → IsTextOf t x ∧ HasDepth t x.depth) →
      writeAll layout xs = .ok ts → (layout.comma.intercalate ts).toList.length < fuel →
      elementsExceed levels fuel ((layout.comma.intercalate ts).toList ++ ']' :: tail) =
        xs.any fun x => levels < x.depth
  | [], _, _, _, hne, _, _, _ => absurd rfl hne
  | x :: xs, ts, fuel, tail, _, hall, hts, hfuel => by
    obtain ⟨fuel, rfl⟩ : ∃ n, fuel = n + 1 := Nat.exists_eq_succ_of_ne_zero (by omega)
    obtain ⟨t, ts', ht, hts', rfl⟩ := exists_of_writeAll hts
    obtain ⟨hshort, htexts⟩ := hall x List.mem_cons_self
    obtain ⟨htext, hdepth⟩ := htexts t ht
    rcases xs with _ | ⟨y, ys⟩
    · -- the last element
      rw [writeAll] at hts'
      obtain rfl := Except.ok.inj hts'
      rw [String.intercalate_singleton] at hfuel ⊢
      rw [elementsExceed, hdepth levels fuel _ (by omega), htext.read fuel (']' :: tail) (by omega)
        (endsNumbers_cons ⟨by decide, by decide, by decide⟩ tail), hshort]
      simp [reading, skipBlanks_cons (show isBlank ']' = false by decide)]
    · -- an element that is followed by another one
      have hrest := hts'
      obtain ⟨u, us, hu, -, rfl⟩ := exists_of_writeAll hts'
      have hlength := length_intercalate_lt layout t u us
      obtain ⟨more, hmore, hskip⟩ := exists_comma layout t us
        ((hall y (by simp)).2 u hu).1.first (']' :: tail)
      have ih := elementsExceed_write tail (List.cons_ne_nil y ys)
        (fun x' hx' => hall x' (List.mem_cons_of_mem x hx')) hrest (show _ < fuel by omega)
      rw [hmore, elementsExceed, hdepth levels fuel _ (by omega), htext.read fuel (',' :: more) (by omega)
        (endsNumbers_cons ⟨by decide, by decide, by decide⟩ more), hshort]
      simp only [reading, skipBlanks_cons (show isBlank ',' = false by decide), hskip, ih,
        List.any_cons]

/-- One of the written members does. -/
theorem membersExceed_write : ∀ {es : List (String × Value)} {ts : List String} {fuel : Nat}
    (tail : List Char), es ≠ [] →
      (∀ e ∈ es, e.2.longInteger? = none ∧
        ∀ t, write layout e.2 = .ok t → IsTextOf t e.2 ∧ HasDepth t e.2.depth) →
      writeMembers layout (es.map fun e => (.text e.1, e.2)) = .ok ts →
      (layout.comma.intercalate ts).toList.length < fuel →
      membersExceed levels fuel ((layout.comma.intercalate ts).toList ++ '\x7d' :: tail) =
        es.any fun e => levels < e.2.depth
  | [], _, _, _, hne, _, _, _ => absurd rfl hne
  | e :: es, ts, fuel, tail, _, hall, hts, hfuel => by
    obtain ⟨fuel, rfl⟩ : ∃ n, fuel = n + 1 := Nat.exists_eq_succ_of_ne_zero (by omega)
    obtain ⟨t, ts', ht, hts', rfl⟩ := exists_of_writeMembers hts
    obtain ⟨hshort, htexts⟩ := hall e List.mem_cons_self
    obtain ⟨htext, hdepth⟩ := htexts t ht
    have hlength := length_le_member layout e.1 t
    rcases es with _ | ⟨f, es⟩
    · -- the last member
      rw [List.map_nil, writeMembers] at hts'
      obtain rfl := Except.ok.inj hts'
      rw [String.intercalate_singleton] at hfuel ⊢
      rw [membersExceed, readName_write layout e.1 htext]
      dsimp only
      rw [hdepth levels fuel _ (by omega), htext.read fuel ('\x7d' :: tail) (by omega)
        (endsNumbers_cons ⟨by decide, by decide, by decide⟩ tail), hshort]
      simp [reading, skipBlanks_cons (show isBlank '\x7d' = false by decide)]
    · -- a member that is followed by another one
      have hrest := hts'
      obtain ⟨u, us, -, -, rfl⟩ := exists_of_writeMembers hts'
      have hlonger := length_intercalate_lt layout (writeText e.1 ++ layout.colon ++ t)
        (writeText f.1 ++ layout.colon ++ u) us
      obtain ⟨more, hmore, hskip⟩ := exists_comma layout (writeText e.1 ++ layout.colon ++ t) us
        (exists_cons_member layout f.1 u) ('\x7d' :: tail)
      have ih := membersExceed_write tail (List.cons_ne_nil f es)
        (fun e' he' => hall e' (List.mem_cons_of_mem e he')) hrest (show _ < fuel by omega)
      rw [hmore, membersExceed, readName_write layout e.1 htext]
      dsimp only
      rw [hdepth levels fuel _ (by omega), htext.read fuel (',' :: more) (by omega)
        (endsNumbers_cons ⟨by decide, by decide, by decide⟩ more), hshort]
      simp only [reading, skipBlanks_cons (show isBlank ',' = false by decide), hskip, ih,
        List.any_cons]

theorem valueExceeds_list (fuel : Nat) {z : Char} (hz : Begins z) (more : List Char) :
    valueExceeds (levels + 1) (fuel + 1) ('[' :: z :: more) = elementsExceed levels fuel (z :: more) := by
  rw [valueExceeds, skipBlanks_cons hz.not_isBlank]
  split
  · rename_i heq
    exact absurd (List.cons.inj heq).1 hz.notClosing
  · rfl

theorem hasDepth_list {xs : List Value} {ts : List String}
    (hall : ∀ x ∈ xs, x.longInteger? = none ∧
      ∀ t, write layout x = .ok t → IsTextOf t x ∧ HasDepth t x.depth)
    (hts : writeAll layout xs = .ok ts) :
    HasDepth ("[" ++ layout.comma.intercalate ts ++ "]") (Value.list xs).depth := by
  have htext := toList_brackets (layout.comma.intercalate ts)
  intro levels fuel tail hfuel
  rw [htext, List.length_cons, List.length_append, List.length_singleton] at hfuel
  obtain ⟨fuel, rfl⟩ : ∃ n, fuel = n + 1 := Nat.exists_eq_succ_of_ne_zero (by omega)
  rw [htext, List.cons_append, List.append_assoc, List.singleton_append, Value.depth]
  rcases levels with _ | levels
  · rw [valueExceeds]
    simp
  simp only [Nat.add_lt_add_iff_right, Value.lt_depthIn]
  rcases xs with _ | ⟨x, xs⟩
  · rw [writeAll] at hts
    obtain rfl := Except.ok.inj hts
    rw [valueExceeds]
    rfl
  · have helements : elementsExceed levels fuel _ = _ :=
      elementsExceed_write tail (List.cons_ne_nil x xs) hall hts (show _ < fuel by omega)
    obtain ⟨z, more, hmore, hbegins⟩ :=
      exists_cons_elements (fun t ht => ((hall x List.mem_cons_self).2 t ht).1) hts (']' :: tail)
    rw [hmore] at helements ⊢
    rw [valueExceeds_list fuel hbegins, helements]

theorem hasDepth_object {es : List (String × Value)} {ts : List String}
    (hall : ∀ e ∈ es, e.2.longInteger? = none ∧
      ∀ t, write layout e.2 = .ok t → IsTextOf t e.2 ∧ HasDepth t e.2.depth)
    (hts : writeMembers layout (es.map fun e => (.text e.1, e.2)) = .ok ts) :
    HasDepth ("\x7b" ++ layout.comma.intercalate ts ++ "\x7d") (Value.object es).depth := by
  have htext := toList_braces (layout.comma.intercalate ts)
  intro levels fuel tail hfuel
  rw [htext, List.length_cons, List.length_append, List.length_singleton] at hfuel
  obtain ⟨fuel, rfl⟩ : ∃ n, fuel = n + 1 := Nat.exists_eq_succ_of_ne_zero (by omega)
  rw [htext, List.cons_append, List.append_assoc, List.singleton_append, Value.object, Value.depth]
  rcases levels with _ | levels
  · rw [valueExceeds]
    simp
  simp only [Nat.add_lt_add_iff_right, Value.lt_depthUnder]
  rcases es with _ | ⟨e, es⟩
  · rw [List.map_nil, writeMembers] at hts
    obtain rfl := Except.ok.inj hts
    rw [valueExceeds]
    rfl
  · have hmembers : membersExceed levels fuel _ = _ :=
      membersExceed_write tail (List.cons_ne_nil e es) hall hts (show _ < fuel by omega)
    obtain ⟨more, hmore⟩ := exists_cons_members hts ('\x7d' :: tail)
    rw [hmore] at hmembers ⊢
    rw [valueExceeds_object, hmembers]

/-- The text of a JSON value goes as deep as the value. -/
theorem hasDepth_write {v : Value} (hv : v.IsJson) (hlong : v.longInteger? = none) :
    ∀ t, write layout v = .ok t → HasDepth t v.depth := by
  induction hv with
  | null =>
    intro t h
    rw [write] at h
    obtain rfl := Except.ok.inj h
    exact hasDepth_zero ⟨'n', _, rfl, by decide, by decide⟩
  | bool b =>
    intro t h
    rw [write] at h
    obtain rfl := Except.ok.inj h
    cases b
    · exact hasDepth_zero ⟨'f', _, rfl, by decide, by decide⟩
    · exact hasDepth_zero ⟨'t', _, rfl, by decide, by decide⟩
  | int n =>
    intro t h
    rw [write] at h
    obtain rfl := Except.ok.inj h
    obtain ⟨y, ys, hy, hdigit⟩ := exists_cons_repr n.natAbs
    exact hasDepth_number ⟨n < 0, y, ys, by rw [toList_integerText, hy], hdigit⟩
  | float hx =>
    intro t h
    rw [write, writeFloat, if_pos hx] at h
    obtain rfl := Except.ok.inj h
    exact hasDepth_number (isNumberText_text hx).first
  | text s =>
    intro t h
    rw [write] at h
    obtain rfl := Except.ok.inj h
    exact hasDepth_zero ⟨'"', _, toList_writeText s, by decide, by decide⟩
  | list hv ih =>
    intro t h
    rw [write] at h
    obtain ⟨ts, hts, h⟩ := ok_of_bind h
    obtain rfl := Except.ok.inj h
    rw [Value.longInteger?_list, List.findSome?_eq_none_iff] at hlong
    exact hasDepth_list (fun x hx => ⟨hlong x hx, fun t ht =>
      ⟨isTextOf_write (hv x hx) t ht, ih x hx (hlong x hx) t ht⟩⟩) hts
  | object hkeys hv ih =>
    intro t h
    rw [Value.object, write] at h
    obtain ⟨ts, hts, h⟩ := ok_of_bind h
    obtain rfl := Except.ok.inj h
    rw [Value.longInteger?_object, List.findSome?_eq_none_iff] at hlong
    exact hasDepth_object (fun e he => ⟨hlong e he, fun t ht =>
      ⟨isTextOf_write (hv e he) t ht, ih e he (hlong e he) t ht⟩⟩) hts

/-- The text of a JSON value is nested too deep exactly if the value is. -/
theorem isTooDeep_write {v : Value} (hv : v.IsJson) (hlong : v.longInteger? = none) {t : String}
    (ht : write layout v = .ok t) : isTooDeep t.toList = decide (levelLimit < v.depth) := by
  obtain ⟨x, xs, hx, hbegins⟩ := (isTextOf_write hv t ht).first
  have hdepth := hasDepth_write hv hlong t ht levelLimit (2 * t.toList.length + 1) [] (by omega)
  rw [List.append_nil] at hdepth
  rw [isTooDeep, hx, skipBlanks_cons hbegins.not_isBlank, ← hx, hdepth]

end Json

end Tabula
