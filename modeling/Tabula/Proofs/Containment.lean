import Tabula.Proofs.Filtering

/-!
# Containment in memory and in the store

In memory a cell contains a text if the lower case of the one stands in the lower case of the
other (`containsText_iff`). The store matches a pattern with the text between wildcards instead,
reads characters as patterns do, which know the lower case of the 26 letters only (`Text.fold`), and
ends both texts at a zero character : `Store.Finds` says what it finds, and `holds_contains` what
its clause comes to.

`contains_agree` is the condition under which both give one answer. It is met where the cell
reads in one way and no other letters than the 26 have a case (`foundIn_iff_standsIn`); a capital
beyond these is found in memory and not in the store (`holds_ne_containsText_of_accent`).
-/

namespace Tabula

open Query Store

/-! ## Texts in small letters -/

namespace Text

theorem lowerFrom_eq_fold (before : List Char) {cs : List Char}
    (h : ∀ c ∈ cs, c.toNat < 0x80) : lowerFrom before cs = fold cs := by
  induction cs generalizing before with
  | nil => rfl
  | cons c cs ih =>
    have hc := h c List.mem_cons_self
    rw [lowerFrom, if_neg (by omega), lowerChar, if_pos hc,
      ih (c :: before) fun c hc => h c (List.mem_cons_of_mem _ hc),
      ← foldChar_eq_asciiLowerChar (by omega)]
    rfl

/-- In a text of ASCII characters only the 26 letters have a lower case. -/
theorem lower_eq_fold {cs : List Char} (h : ∀ c ∈ cs, c.toNat < 0x80) : lower cs = fold cs :=
  lowerFrom_eq_fold [] h

end Text

/-! ## Texts that both read in the same way -/

/-- A text that the store reads to its end, and whose lower case is what patterns read. -/
def IsSimple (s : String) : Prop := HasNoZero s ∧ Text.lower s.toList = Text.fold s.toList

instance : DecidablePred IsSimple := fun s =>
  inferInstanceAs (Decidable (HasNoZero s ∧ Text.lower s.toList = Text.fold s.toList))

/-- The characters of which the texts of numbers are made. -/
def IsNumeral (c : Char) : Prop := c.isDigit = true ∨ c ∈ "-+.einfaI".toList

theorem toNat_of_isNumeral {c : Char} (h : IsNumeral c) : c.toNat ≠ 0 ∧ c.toNat < 0x80 := by
  rcases h with h | h
  · obtain ⟨h0, h9⟩ := Char.isDigit_iff_toNat.mp h
    have : '0'.toNat = 48 := rfl
    have : '9'.toNat = 57 := rfl
    omega
  · have hall : "-+.einfaI".toList.all (fun c => c.toNat != 0 && c.toNat < 0x80) = true := by decide
    simpa using List.all_eq_true.mp hall c h

theorem isSimple_of_numerals {s : String} (h : ∀ c ∈ s.toList, IsNumeral c) : IsSimple s :=
  ⟨fun c hc => (toNat_of_isNumeral (h c hc)).1,
    Text.lower_eq_fold fun c hc => (toNat_of_isNumeral (h c hc)).2⟩

theorem isNumeral_of_mem_toDigits {n : Nat} {c : Char} (h : c ∈ Nat.toDigits 10 n) : IsNumeral c :=
  .inl (Nat.isDigit_of_mem_toDigits (by decide) (by decide) h)

theorem isNumeral_of_mem_integerText {n : Int} {c : Char} (h : c ∈ (integerText n).toList) :
    IsNumeral c := by
  rcases eq_or_isDigit_of_mem_integerText h with rfl | h
  · exact .inr (by decide)
  · exact .inl h

theorem isSimple_integerText (n : Int) : IsSimple (integerText n) :=
  isSimple_of_numerals fun _ => isNumeral_of_mem_integerText

/-- A decimal form made of numerals. -/
def Decimal.IsNumeral (d : Decimal) : Prop := ∀ c ∈ d.digits, Tabula.IsNumeral c

theorem isNumeral_of_mem_dropEndZeros {n : Nat} {c : Char}
    (h : c ∈ dropEndZeros (Nat.toDigits 10 n)) : IsNumeral c := by
  rw [dropEndZeros, List.mem_reverse] at h
  exact isNumeral_of_mem_toDigits (List.mem_reverse.mp ((List.dropWhile_sublist _).mem h))

namespace Magnitude

theorem isNumeral_significant (m : Magnitude) (n : Nat) : (m.significant n).IsNumeral := by
  intro c hc
  rw [significant] at hc
  split at hc
  · rw [List.mem_singleton.mp hc]
    exact .inl (by decide)
  · exact isNumeral_of_mem_dropEndZeros hc

theorem isNumeral_of_onGrid? {m : Magnitude} {n : Nat} {d : Decimal} (h : m.onGrid? n = some d) :
    d.IsNumeral := by
  intro c hc
  rw [onGrid?] at h
  obtain ⟨_, _, rfl⟩ := Option.map_eq_some_iff.mp h
  exact isNumeral_of_mem_dropEndZeros hc

theorem isNumeral_shortest (m : Magnitude) : m.shortest.IsNumeral := by
  rw [shortest]
  split
  · intro c hc
    rw [List.mem_singleton.mp hc]
    exact .inl (by decide)
  · cases h : (List.range 17).findSome? fun i => m.onGrid? (i + 1) with
    | none => exact isNumeral_significant m 17
    | some d =>
      obtain ⟨i, _, hi⟩ := List.exists_of_findSome?_eq_some h
      exact isNumeral_of_onGrid? hi

end Magnitude

theorem isNumeral_exponentText {e : Int} {c : Char} (h : c ∈ exponentText e) : IsNumeral c := by
  rw [exponentText, List.mem_cons] at h
  rcases h with rfl | h
  · split <;> exact .inr (by decide)
  · split at h
    · rcases List.mem_cons.mp h with rfl | h
      · exact .inl (by decide)
      · exact isNumeral_of_mem_toDigits h
    · exact isNumeral_of_mem_toDigits h

theorem DecimalStyle.isNumeral_render {style : DecimalStyle} {d : Decimal} (hd : d.IsNumeral) :
    ∀ c ∈ style.render d, IsNumeral c := by
  have hzero : IsNumeral '0' := .inl (by decide)
  have hpoint : IsNumeral '.' := .inr (by decide)
  have htail : IsNumeral 'e' ∧ ∀ c ∈ exponentText (d.place - 1), IsNumeral c :=
    ⟨.inr (by decide), fun c hc => isNumeral_exponentText hc⟩
  have hzeros : ∀ n, ∀ c ∈ List.replicate n '0', IsNumeral c := fun n c hc =>
    (List.eq_of_mem_replicate hc).symm ▸ hzero
  rw [render]
  split
  · split
    · exact List.forall_mem_cons.mpr ⟨hzero, List.forall_mem_cons.mpr htail⟩
    · rename_i x hx
      have hx : IsNumeral x := hd x (hx ▸ List.mem_singleton_self x)
      split
      · simpa only [List.forall_mem_cons] using ⟨hx, hpoint, hzero, htail⟩
      · exact List.forall_mem_cons.mpr ⟨hx, List.forall_mem_cons.mpr htail⟩
    · rename_i x ds _ hx
      obtain ⟨hx, hds⟩ := List.forall_mem_cons.mp fun c hc => hd c (hx ▸ hc)
      simpa only [List.cons_append, List.forall_mem_cons, List.forall_mem_append] using
        ⟨hx, hpoint, hds, htail⟩
  · split
    · simpa only [List.cons_append, List.forall_mem_cons, List.forall_mem_append] using
        ⟨hzero, hpoint, hzeros _, hd⟩
    · have hwhole : ∀ c ∈ d.digits.take d.place.toNat, IsNumeral c := fun c hc =>
        hd c (List.mem_of_mem_take hc)
      have hpart : ∀ c ∈ (if (d.digits.drop d.place.toNat).isEmpty then ['0']
          else d.digits.drop d.place.toNat), IsNumeral c := by
        split
        · exact List.forall_mem_singleton.mpr hzero
        · exact fun c hc => hd c (List.mem_of_mem_drop hc)
      simpa only [List.forall_mem_cons, List.forall_mem_append] using
        ⟨⟨hwhole, hzeros _⟩, hpoint, hpart⟩

namespace Binary64

theorem isSimple_text (x : Binary64) : IsSimple x.text := by
  refine isSimple_of_numerals ?_
  cases x with
  | nan => exact fun c hc => .inr ((show "nan".toList ⊆ "-+.einfaI".toList by decide) hc)
  | signed negative m =>
    have hsize : ∀ c ∈ if m.isFinite then displayStyle.render m.shortest else "inf".toList,
        IsNumeral c := by
      split
      · exact DecimalStyle.isNumeral_render m.isNumeral_shortest
      · exact fun c hc => .inr ((show "inf".toList ⊆ "-+.einfaI".toList by decide) hc)
    rw [text, String.toList_ofList]
    split
    · exact List.forall_mem_cons.mpr ⟨.inr (by decide), hsize⟩
    · exact hsize

theorem isSimple_storeText (x : Binary64) : IsSimple x.storeText := by
  refine isSimple_of_numerals ?_
  cases x with
  | nan => exact fun c hc => absurd hc List.not_mem_nil
  | signed negative m =>
    have hsize : ∀ c ∈ if m.isFinite then storeStyle.render (m.significant 15) else "Inf".toList,
        IsNumeral c := by
      split
      · exact DecimalStyle.isNumeral_render (m.isNumeral_significant 15)
      · exact fun c hc => .inr ((show "Inf".toList ⊆ "-+.einfaI".toList by decide) hc)
    rw [storeText, String.toList_ofList]
    split
    · exact List.forall_mem_cons.mpr ⟨.inr (by decide), hsize⟩
    · exact hsize

end Binary64

theorem isSimple_cellText_float (x : Binary64) : IsSimple (Value.float x).cellText := by
  rw [Value.cellText]
  split
  · exact isSimple_integerText _
  · exact x.isSimple_text

/-! ## What the store finds -/

namespace Store

/-- A text with a zero character, cut at the first one. -/
theorem exists_cut {s : String} (h : ¬HasNoZero s) :
    ∃ zero back, zero.toNat = 0 ∧ s.toList = (upToZero s).toList ++ zero :: back := by
  rcases hdrop : s.toList.dropWhile (·.toNat ≠ 0) with _ | ⟨zero, back⟩
  · refine absurd (fun c hc => ?_) h
    simpa using List.dropWhile_eq_nil_iff.mp hdrop c hc
  · refine ⟨zero, back, ?_, ?_⟩
    · have hhead := List.head?_dropWhile_not (fun c : Char => decide (c.toNat ≠ 0)) s.toList
      rw [hdrop] at hhead
      simpa using hhead
    · rw [upToZero, String.toList_ofList, ← hdrop, List.takeWhile_append_dropWhile]

theorem hasNoZero_upToZero (s : String) : HasNoZero (upToZero s) := by
  intro c hc
  rw [upToZero, String.toList_ofList] at hc
  simpa using List.mem_takeWhile_imp hc

/-- The pattern of a text with a zero character is cut there, the wildcard behind the text with
what follows. -/
theorem upToZero_containsPattern {needle : String} (h : ¬HasNoZero needle) :
    (upToZero (Text.containsPattern needle)).toList =
      '%' :: Text.escapeWildcards (upToZero needle).toList := by
  obtain ⟨zero, back, hzero, hcut⟩ := exists_cut h
  have hplain : Text.escapeWildcards (zero :: back) = zero :: Text.escapeWildcards back := by
    have hne : ∀ c : Char, c.toNat ≠ 0 → zero ≠ c := fun c hc heq =>
      hc (heq ▸ hzero)
    simp [Text.escapeWildcards, hne '\\' (by decide), hne '%' (by decide), hne '_' (by decide)]
  have happend : ∀ front : List Char, Text.escapeWildcards (front ++ zero :: back) =
      Text.escapeWildcards front ++ zero :: Text.escapeWildcards back := fun front => by
    rw [← hplain]
    exact List.flatMap_append
  have hfront : ∀ c ∈ '%' :: Text.escapeWildcards (upToZero needle).toList,
      decide (c.toNat ≠ 0) = true := by
    intro c hc
    rw [decide_eq_true_eq]
    rcases List.mem_cons.mp hc with rfl | hc
    · decide
    · rcases mem_of_mem_escapeWildcards hc with rfl | hc
      · decide
      · exact hasNoZero_upToZero needle c hc
  rw [upToZero, String.toList_ofList, Text.containsPattern, String.toList_ofList, hcut, happend,
    ← List.cons_append, List.append_assoc, List.takeWhile_append_of_pos hfront, List.cons_append,
    List.cons_append, List.takeWhile_cons_of_neg (by simpa using hzero), List.append_nil]

/-- Whether the store finds the first text in the second one, as patterns read both. A first text
with a zero character ends there, and has to be the end of the second. -/
def Finds (needle s : String) : Prop :=
  (HasNoZero needle ∧ Text.fold needle.toList <:+: Text.fold s.toList) ∨
  (¬HasNoZero needle ∧ Text.fold (upToZero needle).toList <:+ Text.fold s.toList)

theorem like_iff_finds {needle s : String} (hs : HasNoZero s) :
    Text.like (upToZero (Text.containsPattern needle)).toList (upToZero s).toList = true ↔
      Finds needle s := by
  rw [upToZero_eq hs]
  by_cases h : HasNoZero needle
  · rw [upToZero_eq (hasNoZero_containsPattern h), Text.like_iff_likes, Text.likes_containsPattern]
    simp [Finds, h]
  · rw [upToZero_containsPattern h, Text.like_iff_likes, Text.likes_atEnd]
    simp [Finds, h]

end Store

/-- The store finds a text in the text that it has for a cell. -/
def Value.FoundIn (needle v : Value) : Prop :=
  ∃ s ∈ (StoreValue.ofValue v).asText, Finds needle.cellText s

/-- The bytes of the pattern for a text. -/
def Value.patternSize (needle : Value) : Nat :=
  (Text.containsPattern needle.cellText).utf8ByteSize

/-- The store's text of a cell is read to its end. -/
theorem hasNoZero_asText {v : Value} (hv : v.classify ≠ none) :
    ∀ s ∈ (StoreValue.ofValue v).asText, HasNoZero s := by
  intro s hs
  cases v with
  | null => simp [StoreValue.ofValue, StoreValue.asText] at hs
  | text t =>
    obtain rfl := Option.some.inj hs
    exact hasNoZero_upToZero t
  | int n =>
    rw [StoreValue.ofValue] at hs
    split at hs
    · obtain rfl := Option.some.inj hs
      exact hasNoZero_integerText n
    · obtain rfl := Option.some.inj hs
      exact (Binary64.isSimple_storeText _).1
  | float x =>
    obtain rfl := Option.some.inj hs
    exact x.isSimple_storeText.1
  | _ => simp [Value.classify] at hv

/-- What the store answers for a cell : whether it finds the needle there, unless the pattern is
too long. -/
theorem holds_contains {p : Payload} {column : String} {needle : Value} (h : IsPlain column)
    (hcell : (p.cells.get column).classify ≠ none) :
    ∃ b, (b = true ↔ needle.FoundIn (p.cells.get column)) ∧
      (clauseOf column (.contains needle)).holds p =
        if patternLimit < needle.patternSize then .error .longPattern else .ok b := by
  have hread := hasNoZero_asText hcell
  refine ⟨(StoreValue.ofValue (p.cells.get column)).asText.any fun s =>
    Text.like (upToZero (Text.containsPattern needle.cellText)).toList (upToZero s).toList, ?_, ?_⟩
  · rw [Option.any_eq_true, Value.FoundIn]
    exact exists_congr fun s => and_congr_right fun hs => like_iff_finds (hread s hs)
  · rw [clauseOf, Clause.holds, textCell_eq p h]
    rfl

/-! ## Agreement -/

/-- A cell whose text is the same in memory and in the store, and lower-cased in the same way. -/
def Value.ReadsAlike : Value → Prop
  | .null => True
  | .text s => IsSimple s
  | .int n => fitsInteger n = true
  | .float x => x.isFinite = true ∧ x.storeText = (Value.float x).cellText
  | _ => False

/-- A text or number to look for of which only the 26 letters have a case. -/
def Value.IsSimpleNeedle : Value → Prop
  | .text s => IsSimple s
  | .int _ => True
  | .float x => x.isFinite = true
  | _ => False

theorem isSimple_of_isSimpleNeedle {v : Value} (h : v.IsSimpleNeedle) : IsSimple v.cellText := by
  cases v with
  | text s => exact h
  | int n => exact isSimple_integerText n
  | float x => exact isSimple_cellText_float x
  | _ => exact h.elim

section ReadsAlike

variable {v : Value}

theorem classify_of_readsAlike (h : v.ReadsAlike) : v.classify ≠ none := by
  cases v with
  | null => exact nofun
  | text s => exact nofun
  | int n => exact nofun
  | float x => simp [Value.classify, h.1]
  | _ => exact h.elim

theorem asText_of_readsAlike (h : v.ReadsAlike) : (StoreValue.ofValue v).asText = v.cellText? := by
  cases v with
  | null => rfl
  | text s =>
    rw [StoreValue.ofValue, upToZero_eq h.1]
    rfl
  | int n =>
    have hfits : fitsInteger n = true := h
    rw [StoreValue.ofValue, if_pos hfits]
    rfl
  | float x => exact congrArg some h.2
  | _ => exact h.elim

theorem isSimple_of_readsAlike (h : v.ReadsAlike) (hnull : v.isNull = false) :
    IsSimple v.cellText := by
  cases v with
  | null => cases hnull
  | text s => exact h
  | int n => exact isSimple_integerText n
  | float x => exact isSimple_cellText_float x
  | _ => exact h.elim

end ReadsAlike

/-- The lower case of a text stands in that of a cell, which is not nothing. -/
def Value.StandsIn (needle v : Value) : Prop :=
  v.isNull = false ∧ Text.lower needle.cellText.toList <:+: Text.lower v.cellText.toList

theorem containsText_iff {v needle : Value} : v.containsText needle = true ↔ needle.StandsIn v := by
  rw [Value.containsText, Bool.and_eq_true, Bool.not_eq_true', Text.contains_iff, Value.StandsIn]

/-- A cell that reads alike has what the store finds in it. -/
theorem foundIn_iff_standsIn {v needle : Value} (hv : v.ReadsAlike)
    (hneedle : needle.IsSimpleNeedle) : needle.FoundIn v ↔ needle.StandsIn v := by
  obtain ⟨hzero, hlower⟩ := isSimple_of_isSimpleNeedle hneedle
  rw [Value.FoundIn, asText_of_readsAlike hv, Value.cellText?, Value.StandsIn]
  cases hnull : v.isNull with
  | true => simp
  | false =>
    rw [(isSimple_of_readsAlike hv hnull).2, hlower]
    simp [Finds, hzero]

/-- In memory a cell contains a needle if the lower case of the one stands in that of the other.
The store's clause comes to that exactly if its pattern is not too long, and the store finds the
needle where it stands and nowhere else, as it does for a simple needle in a cell that reads
alike. -/
theorem contains_agree {p : Payload} {column : String} {needle : Value} (h : IsPlain column)
    (hcell : (p.cells.get column).classify ≠ none) :
    ((p.cells.get column).containsText needle = true ↔ needle.StandsIn (p.cells.get column)) ∧
    ((clauseOf column (.contains needle)).holds p =
        .ok ((p.cells.get column).containsText needle) ↔
      needle.patternSize ≤ patternLimit ∧
        (needle.FoundIn (p.cells.get column) ↔ needle.StandsIn (p.cells.get column))) ∧
    ((p.cells.get column).ReadsAlike → needle.IsSimpleNeedle →
      (needle.FoundIn (p.cells.get column) ↔ needle.StandsIn (p.cells.get column))) := by
  refine ⟨containsText_iff, ?_, foundIn_iff_standsIn⟩
  obtain ⟨b, hb, hholds⟩ := @holds_contains p column needle h hcell
  rw [hholds, ← hb, ← containsText_iff, ← Bool.eq_iff_iff]
  split
  · rename_i hlong
    exact iff_of_false nofun fun hle => absurd hle.1 (Nat.not_le.mpr hlong)
  · rename_i hlong
    rw [Except.ok.injEq]
    exact (and_iff_right (Nat.not_lt.mp hlong)).symm

/-- A text with wildcards in it, looked for without its case. -/
theorem contains_agree_of_wildcards :
    let p : Payload := ⟨[("a", .text "Up 50%_or\\So")], .compact⟩
    Value.ReadsAlike (p.cells.get "a") ∧ Value.IsSimpleNeedle (.text "0%_OR\\s") ∧
      (clauseOf "a" (.contains (.text "0%_OR\\s"))).holds p = .ok true := by
  intro p
  have hcell : Value.ReadsAlike (p.cells.get "a") := by
    show IsSimple _
    decide +kernel
  have hneedle : Value.IsSimpleNeedle (.text "0%_OR\\s") := by
    show IsSimple _
    decide +kernel
  refine ⟨hcell, hneedle, ?_⟩
  have hplain : IsPlain "a" := by decide
  obtain ⟨_, hagree, hfound⟩ := @contains_agree p "a" (.text "0%_OR\\s") hplain
    (classify_of_readsAlike hcell)
  rw [hagree.mpr ⟨by decide +kernel, hfound hcell hneedle⟩]
  exact congrArg Except.ok (by decide +kernel)

/-- A capital beyond the 26 letters, which the store does not find in its lower case. -/
theorem holds_ne_containsText_of_accent :
    let p : Payload := ⟨[("a", .text "É")], .compact⟩
    ((clauseOf "a" (.contains (.text "é"))).holds p).toOption = some false ∧
      (Test.accepts (.contains (.text "é")) (p.cells.get "a")).toOption = some true ∧
      Text.lower "é".toList <:+: Text.lower "É".toList := by
  decide +kernel

end Tabula
