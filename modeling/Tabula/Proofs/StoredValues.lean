import Tabula.Proofs.Changes

/-!
# Values as they come back

What has a JSON text comes back from the store as a value that is `IsKept` : it has a text itself
and comes back as it is (`isKept_stored`). So the payloads that rows ever have consist of such
cells (`Payload.IsKept`) : those of a batch, edited ones, and those from which the store has taken
a key.
-/

namespace Tabula

namespace Json

variable {layout : Layout}

theorem exists_writeAll_iff {xs : List Value} :
    (∃ ts, writeAll layout xs = .ok ts) ↔ ∀ x ∈ xs, ∃ t, write layout x = .ok t := by
  induction xs with
  | nil => simp [writeAll]
  | cons x xs ih =>
    rw [List.forall_mem_cons, ← ih]
    constructor
    · rintro ⟨_, h⟩
      obtain ⟨t, ht, h⟩ := ok_of_bind h
      obtain ⟨ts, hts, _⟩ := ok_of_bind h
      exact ⟨⟨t, ht⟩, ts, hts⟩
    · rintro ⟨⟨t, ht⟩, ts, hts⟩
      exact ⟨t :: ts, by rw [writeAll, ht, hts]; rfl⟩

/-- Members have texts exactly if their keys have names and their values texts. -/
theorem exists_writeMembers_iff {es : List (Value × Value)} :
    (∃ ts, writeMembers layout es = .ok ts) ↔
      ∀ e ∈ es, (∃ name, keyName e.1 = .ok name) ∧ ∃ t, write layout e.2 = .ok t := by
  induction es with
  | nil => simp [writeMembers]
  | cons e es ih =>
    rw [List.forall_mem_cons, ← ih]
    constructor
    · rintro ⟨_, h⟩
      obtain ⟨name, hname, h⟩ := ok_of_bind h
      obtain ⟨t, ht, h⟩ := ok_of_bind h
      obtain ⟨ts, hts, _⟩ := ok_of_bind h
      exact ⟨⟨⟨name, hname⟩, t, ht⟩, ts, hts⟩
    · rintro ⟨⟨⟨name, hname⟩, t, ht⟩, ts, hts⟩
      exact ⟨_ :: ts, by rw [writeMembers, hname, ht, hts]; rfl⟩

theorem exists_write_list_iff {xs : List Value} :
    (∃ t, write layout (.list xs) = .ok t) ↔ ∀ x ∈ xs, ∃ t, write layout x = .ok t := by
  rw [← exists_writeAll_iff, write]
  constructor
  · rintro ⟨_, h⟩
    obtain ⟨ts, hts, _⟩ := ok_of_bind h
    exact ⟨ts, hts⟩
  · rintro ⟨ts, hts⟩
    exact ⟨_, by rw [hts]; rfl⟩

theorem exists_write_dict_iff {es : List (Value × Value)} :
    (∃ t, write layout (.dict es) = .ok t) ↔
      ∀ e ∈ es, (∃ name, keyName e.1 = .ok name) ∧ ∃ t, write layout e.2 = .ok t := by
  rw [← exists_writeMembers_iff, write]
  constructor
  · rintro ⟨_, h⟩
    obtain ⟨ts, hts, _⟩ := ok_of_bind h
    exact ⟨ts, hts⟩
  · rintro ⟨ts, hts⟩
    exact ⟨_, by rw [hts]; rfl⟩

end Json

namespace Value

/-! ## Values that are kept as they are -/

/-- A value that has a JSON text and comes back from the store as it is. -/
structure IsKept (v : Value) : Prop where
  written : ∃ t, Json.write .spaced v = .ok t
  stored : v.stored = v

/-- Entries of a mapping that is kept as it is. -/
structure AreKept (es : List (Value × Value)) : Prop where
  keys : (es.map Prod.fst).Nodup
  entries : ∀ e ∈ es, (∃ k, e.1 = .text k) ∧ e.2.IsKept

theorem storedEntries_eq_map : ∀ es : List (Value × Value),
    storedEntries es = es.map fun e => (.text (storedKey e.1), e.2.stored)
  | [] => rfl
  | (k, v) :: es => by rw [storedEntries, storedEntries_eq_map es, List.map_cons]

theorem same_text_iff {v : Value} (h : ∃ k, v = .text k) (key : String) :
    v.same (.text key) = true ↔ v = .text key := by
  obtain ⟨k, rfl⟩ := h
  simp [same, sameAtom]

/-- A new key comes last. -/
theorem put_of_notMem {es : List (Value × Value)} (hes : ∀ e ∈ es, ∃ k, e.1 = .text k) {key : String}
    (h : .text key ∉ es.map Prod.fst) (v : Value) : put (.text key) v es = es ++ [(.text key, v)] := by
  induction es with
  | nil => rfl
  | cons e es ih =>
    rw [List.map_cons, List.mem_cons, not_or] at h
    rw [put, if_neg fun hsame => h.1 ((same_text_iff (hes e List.mem_cons_self) key).mp hsame).symm,
      ih (fun e' he' => hes e' (List.mem_cons_of_mem e he')) h.2, List.cons_append]

/-- A key that is there keeps its place. -/
theorem keys_put_of_mem {es : List (Value × Value)} (hes : ∀ e ∈ es, ∃ k, e.1 = .text k)
    {key : String} (h : .text key ∈ es.map Prod.fst) (v : Value) :
    (put (.text key) v es).map Prod.fst = es.map Prod.fst := by
  induction es with
  | nil => cases h
  | cons e es ih =>
    rw [put]
    split
    · rfl
    · rename_i hsame
      have hne : .text key ≠ e.1 := fun he =>
        hsame ((same_text_iff (hes e List.mem_cons_self) key).mpr he.symm)
      rw [List.map_cons, List.map_cons, ih (fun e' he' => hes e' (List.mem_cons_of_mem e he'))
        ((List.mem_cons.mp h).resolve_left hne)]

theorem mem_put {key v : Value} {es : List (Value × Value)} :
    ∀ e ∈ put key v es, e ∈ es ∨ e.2 = v ∧ (e.1 = key ∨ e.1 ∈ es.map Prod.fst) := by
  induction es with
  | nil => simp [put]
  | cons e es ih =>
    intro e' he'
    rw [put] at he'
    split at he'
    · rcases List.mem_cons.mp he' with rfl | he'
      · exact .inr ⟨rfl, .inr List.mem_cons_self⟩
      · exact .inl (List.mem_cons_of_mem e he')
    · rcases List.mem_cons.mp he' with rfl | he'
      · exact .inl List.mem_cons_self
      · rcases ih e' he' with he' | ⟨hv, hkey⟩
        · exact .inl (List.mem_cons_of_mem e he')
        · exact .inr ⟨hv, hkey.imp_right (List.mem_cons_of_mem _)⟩

theorem AreKept.put {es : List (Value × Value)} (h : AreKept es) (key : String) {v : Value}
    (hv : v.IsKept) : AreKept (put (.text key) v es) := by
  have htexts : ∀ e ∈ es, ∃ k, e.1 = .text k := fun e he => (h.entries e he).1
  refine ⟨?_, fun e he => ?_⟩
  · by_cases hkey : .text key ∈ es.map Prod.fst
    · rw [keys_put_of_mem htexts hkey]
      exact h.keys
    · rw [put_of_notMem htexts hkey, List.map_append]
      exact List.Nodup.append h.keys (List.nodup_singleton _) (by simpa using hkey)
  · rcases mem_put e he with he | ⟨rfl, hkey⟩
    · exact h.entries e he
    · refine ⟨?_, hv⟩
      rcases hkey with hkey | hkey
      · exact ⟨key, hkey⟩
      · obtain ⟨e', he', heq⟩ := List.mem_map.mp hkey
        exact heq ▸ htexts e' he'

theorem areKept_foldl_put {fs : List (Value × Value)}
    (hfs : ∀ e ∈ fs, (∃ k, e.1 = .text k) ∧ e.2.IsKept) :
    ∀ es : List (Value × Value), AreKept es →
      AreKept (fs.foldl (fun acc e => Value.put e.1 e.2 acc) es) := by
  induction fs with
  | nil => exact fun _ => id
  | cons e fs ih =>
    intro es hes
    obtain ⟨⟨k, hk⟩, hv⟩ := hfs e List.mem_cons_self
    rw [List.foldl_cons, hk]
    exact ih (fun e' he' => hfs e' (List.mem_cons_of_mem e he')) _ (hes.put k hv)

/-- Entries with different texts as keys make a mapping of just these. -/
theorem foldl_put_eq_append {fs : List (Value × Value)} (hfs : ∀ e ∈ fs, ∃ k, e.1 = .text k) :
    ∀ es : List (Value × Value), (∀ e ∈ es, ∃ k, e.1 = .text k) →
      ((es ++ fs).map Prod.fst).Nodup →
      fs.foldl (fun acc e => Value.put e.1 e.2 acc) es = es ++ fs := by
  induction fs with
  | nil => simp
  | cons e fs ih =>
    intro es hes hkeys
    obtain ⟨k, hk⟩ := hfs e List.mem_cons_self
    have hsplit : es ++ e :: fs = (es ++ [e]) ++ fs := by simp
    have hnew : e.1 ∉ es.map Prod.fst := by
      rw [List.map_append, List.map_cons] at hkeys
      exact fun hmem => (List.nodup_append.mp hkeys).2.2 _ hmem _ List.mem_cons_self rfl
    rw [List.foldl_cons, hk, put_of_notMem hes (hk ▸ hnew), ← hk, hsplit]
    refine ih (fun e' he' => hfs e' (List.mem_cons_of_mem e he')) _ (fun e' he' => ?_) (hsplit ▸ hkeys)
    rcases List.mem_append.mp he' with he' | he'
    · exact hes e' he'
    · exact hfs e' (List.mem_singleton.mp he' ▸ List.mem_cons_self)

/-- A mapping of entries that are kept is kept. -/
theorem AreKept.isKept {es : List (Value × Value)} (h : AreKept es) : (dict es).IsKept := by
  refine ⟨Json.exists_write_dict_iff.mpr fun e he => ?_, ?_⟩
  · obtain ⟨⟨k, hk⟩, hv⟩ := h.entries e he
    exact ⟨⟨k, by rw [hk]; rfl⟩, hv.written⟩
  · have hes : storedEntries es = es := by
      rw [storedEntries_eq_map]
      refine (List.map_congr_left fun e he => ?_).trans (List.map_id es)
      obtain ⟨⟨k, hk⟩, hv⟩ := h.entries e he
      exact Prod.ext (by rw [hk]; exact hk.symm) hv.stored
    rw [stored, hes, ofEntries, foldl_put_eq_append (fun e he => (h.entries e he).1) [] (by simp)
      h.keys, List.nil_append]

mutual

/-- What comes back of a value with a JSON text is kept as it is from then on. -/
theorem isKept_stored : ∀ {v : Value}, (∃ t, Json.write .spaced v = .ok t) → v.stored.IsKept
  | .null, h | .bool _, h | .int _, h | .float _, h | .text _, h | .bytes _, h => ⟨h, rfl⟩
  | .list xs, h | .tuple xs, h => by
    have hall := areKept_storedAll (Json.exists_write_list_iff.mp h)
    rw [stored]
    refine ⟨Json.exists_write_list_iff.mpr fun x hx => (hall x hx).written, ?_⟩
    rw [stored, storedAll_eq_map]
    exact congrArg list ((List.map_congr_left fun x hx => (hall x hx).stored).trans (List.map_id _))
  | .dict es, h => by
    rw [stored, ofEntries]
    exact (areKept_foldl_put (areKept_storedEntries (Json.exists_write_dict_iff.mp h)) []
      ⟨List.nodup_nil, by simp⟩).isKept

theorem areKept_storedAll : ∀ {xs : List Value}, (∀ x ∈ xs, ∃ t, Json.write .spaced x = .ok t) →
    ∀ x ∈ storedAll xs, x.IsKept
  | [], _ => by simp [storedAll]
  | x :: xs, h => by
    rw [storedAll, List.forall_mem_cons]
    exact ⟨isKept_stored (h x List.mem_cons_self),
      areKept_storedAll fun y hy => h y (List.mem_cons_of_mem x hy)⟩

theorem areKept_storedEntries : ∀ {es : List (Value × Value)},
    (∀ e ∈ es, (∃ name, Json.keyName e.1 = .ok name) ∧ ∃ t, Json.write .spaced e.2 = .ok t) →
    ∀ e ∈ storedEntries es, (∃ k, e.1 = .text k) ∧ e.2.IsKept
  | [], _ => by simp [storedEntries]
  | (k, v) :: es, h => by
    rw [storedEntries, List.forall_mem_cons]
    exact ⟨⟨⟨_, rfl⟩, isKept_stored (h (k, v) List.mem_cons_self).2⟩,
      areKept_storedEntries fun e he => h e (List.mem_cons_of_mem _ he)⟩

end

end Value

/-! ## Payloads that are kept -/

/-- The cells that pass the check of a row may be stored. -/
theorem Batch.allStorable_of_checkCells :
    ∀ {es : List (Value × Value)} {cells : Cells}, checkCells es = .ok cells →
      Source.AllStorable cells
  | [], cells, h => by
    obtain rfl := Except.ok.inj h
    exact fun e he => nomatch he
  | (key, v) :: es, cells, h => by
    cases key with
    | text column =>
      rw [checkCells] at h
      split at h
      · cases h
      · rename_i kind hkind
        rcases hes : checkCells es with why | rest
        · simp [hes] at h
        · simp only [hes, Except.ok.injEq] at h
          obtain rfl := h
          intro e he
          rcases List.mem_cons.mp he with rfl | he
          · exact fun hnone => by cases hkind.symm.trans hnone
          · exact allStorable_of_checkCells hes e he
    | _ => cases h

/-- A payload as rows have it : every cell is kept as it is. -/
def Payload.IsKept (p : Payload) : Prop := ∀ e ∈ p.cells, e.2.IsKept

namespace Payload

variable {p : Payload} {value : Value}

/-- Cells have a JSON text exactly if each of them has one. -/
theorem exists_write_object_iff {layout : Json.Layout} {cells : Cells} :
    (∃ t, Json.write layout (.object cells) = .ok t) ↔
      ∀ e ∈ cells, ∃ t, Json.write layout e.2 = .ok t := by
  rw [Value.object, Json.exists_write_dict_iff, List.forall_mem_map]
  exact forall₂_congr fun e _ => and_iff_right ⟨e.1, rfl⟩

/-- Cells that may be stored are kept. -/
theorem isKept_of_allStorable (h : Source.AllStorable p.cells) : p.IsKept := by
  intro e he
  have hcell := h e he
  cases hv : e.2 with
  | null | text | int => exact ⟨⟨_, rfl⟩, rfl⟩
  | float x =>
    refine ⟨⟨x.text, ?_⟩, rfl⟩
    have hfinite : x.isFinite = true := by
      rw [hv, Value.classify] at hcell
      by_contra hnot
      simp [hnot] at hcell
    rw [Json.write, Json.writeFloat, if_pos hfinite]
  | _ => exact absurd rfl (hv ▸ hcell)

/-- The payloads of a batch are kept. -/
theorem isKept_of_encode {idOf : Nat → String} {batch start : Int} {vs : List Value} {es : Batch}
    (h : Batch.encode idOf batch start vs = .ok es) : ∀ e ∈ es, e.payload.IsKept := by
  intro e he
  obtain ⟨v, _, hv⟩ := Batch.exists_of_mem_encodeFrom h e he
  cases v with
  | dict entries => exact isKept_of_allStorable (Batch.allStorable_of_checkCells hv)
  | _ => cases hv

/-- An edit of a payload that is kept succeeds exactly if the new cell has a JSON text, and it
leaves every other cell. -/
theorem IsKept.edited (h : p.IsKept) (column : String)
    (hvalue : ∃ t, Json.write .spaced value = .ok t) :
    ∃ new, edited (Cells.set column value p.cells) = .ok new ∧ new.IsKept ∧
      new.cells.get? column = some value.stored ∧
      ∀ other, other ≠ column → new.cells.get? other = p.cells.get? other := by
  have hwrites : ∀ e ∈ Cells.set column value p.cells, ∃ t, Json.write .spaced e.2 = .ok t := by
    intro e he
    rcases Cells.mem_set he with he | he
    · exact (h e he).written
    · exact he ▸ hvalue
  obtain ⟨t, ht⟩ := exists_write_object_iff.mpr hwrites
  refine ⟨⟨(Cells.set column value p.cells).map fun e => (e.1, e.2.stored), .spaced⟩,
    by rw [Payload.edited, ht], ?_, ?_, fun other hother => ?_⟩
  · intro e he
    obtain ⟨e', he', rfl⟩ := List.mem_map.mp he
    exact Value.isKept_stored (hwrites e' he')
  · rw [Cells.get?_map_stored, Cells.get?_set_self, Option.map_some]
  · rw [Cells.get?_map_stored, Cells.get?_set_of_ne hother]
    rcases hget : p.cells.get? other with _ | v
    · rfl
    · rw [Option.map_some, (h _ (Cells.mem_of_get? hget)).stored]

theorem IsKept.removeKey (h : p.IsKept) (column : String) : (Store.removeKey p column).IsKept :=
  fun e he => h e (List.mem_filter.mp he).1

end Payload

end Tabula
