import Mathlib.Data.List.Infix
import Mathlib.Data.List.TakeWhile
import Tabula.Store.Clause

/-!
# Texts that stand for themselves in patterns

`Text.Likes` are the rules by which a pattern matches a text, and `Text.like` decides them
(`Text.like_iff_likes`). An escaped text matches itself and nothing else, wherever it stands in a
pattern (`Text.likes_escapeWildcards_append`) : each of its characters matches one, the backslash
before it if it would be a wildcard. So the pattern that a text is looked for with matches what has
the text in it (`Text.likes_containsPattern`), and that for a beginning what begins with it.

The store reads texts up to a zero character, and refuses patterns that are too long.
`Store.likeText_literal` is what it answers for texts without one.
-/

namespace Tabula

namespace Text

/-- The rules by which a pattern matches a whole text. -/
inductive Likes : List Char → List Char → Prop where
  | nil : Likes [] []
  /-- A percent sign passes over any characters. -/
  | anything {p rest cs : List Char} (hrest : rest <:+ cs) (h : Likes p rest) : Likes ('%' :: p) cs
  /-- An underscore passes over one. -/
  | anyChar {p cs : List Char} (c : Char) (h : Likes p cs) : Likes ('_' :: p) (c :: cs)
  /-- A character behind a backslash matches itself. -/
  | escaped {p cs : List Char} {c d : Char} (hc : foldChar c = foldChar d) (h : Likes p cs) :
      Likes ('\\' :: d :: p) (c :: cs)
  /-- Any other one does too. -/
  | plain {p cs : List Char} {c d : Char} (hd : ¬(d = '\\' ∨ d = '%' ∨ d = '_'))
      (hc : foldChar c = foldChar d) (h : Likes p cs) : Likes (d :: p) (c :: cs)

variable {p cs ds : List Char} {c d : Char}

/-! ## Deciding whether a pattern matches -/

theorem mem_remainders {rest : List Char} : rest ∈ remainders cs ↔ rest <:+ cs := by
  induction cs with
  | nil => rw [remainders, List.mem_singleton, List.suffix_nil]
  | cons c cs ih => rw [remainders, List.mem_cons, ih, List.suffix_cons_iff]

theorem like_anything : like ('%' :: p) cs = true ↔ ∃ rest, rest <:+ cs ∧ like p rest = true := by
  simp only [like, patternParts]
  cases patternParts p with
  | none => simp
  | some parts => simp [matchParts, mem_remainders]

theorem like_anyChar : like ('_' :: p) cs = true ↔ ∃ c rest, cs = c :: rest ∧ like p rest = true := by
  simp only [like, patternParts]
  cases patternParts p with
  | none => simp
  | some parts => cases cs <;> simp [matchParts]

/-- A pattern that goes on behind a part for one character. -/
theorem like_exactly {q : List Char} (h : patternParts q = (patternParts p).map (.exactly d :: ·)) :
    like q cs = true ↔ ∃ c rest, cs = c :: rest ∧ foldChar c = foldChar d ∧ like p rest = true := by
  simp only [like, h]
  cases patternParts p with
  | none => simp
  | some parts => cases cs <;> simp [matchParts]

theorem patternParts_escaped (d : Char) (p : List Char) :
    patternParts ('\\' :: d :: p) = (patternParts p).map (.exactly d :: ·) := by
  rw [patternParts]

theorem patternParts_plain (hd : ¬(d = '\\' ∨ d = '%' ∨ d = '_')) (p : List Char) :
    patternParts (d :: p) = (patternParts p).map (.exactly d :: ·) := by
  simp only [not_or] at hd
  obtain ⟨h₁, h₂, h₃⟩ := hd
  rw [patternParts.eq_def]
  split <;> simp_all

/-- A character in front of a pattern that is read for none of the other reasons. -/
theorem not_wildcard (hend : d = '\\' → p = [] → False)
    (hescape : ∀ c q, d = '\\' → p = c :: q → False) (hanything : d = '%' → False)
    (hanyChar : d = '_' → False) : ¬(d = '\\' ∨ d = '%' ∨ d = '_') := by
  rintro (hd | hd | hd)
  · cases p with
    | nil => exact hend hd rfl
    | cons c q => exact hescape c q hd rfl
  · exact hanything hd
  · exact hanyChar hd

/-- Matching follows the rules. -/
theorem like_iff_likes : like p cs = true ↔ Likes p cs := by
  constructor
  · intro h
    induction p using patternParts.induct generalizing cs with
    | case1 =>
      obtain rfl := List.isEmpty_iff.mp h
      exact .nil
    | case2 => cases h
    | case3 d p ih =>
      obtain ⟨c, rest, rfl, hc, h⟩ := (like_exactly (patternParts_escaped d p)).mp h
      exact .escaped hc (ih h)
    | case4 p ih =>
      obtain ⟨rest, hrest, h⟩ := like_anything.mp h
      exact .anything hrest (ih h)
    | case5 p ih =>
      obtain ⟨c, rest, rfl, hrest⟩ := like_anyChar.mp h
      exact .anyChar c (ih hrest)
    | case6 d p hend hescape hanything hanyChar ih =>
      have hd := not_wildcard hend hescape hanything hanyChar
      obtain ⟨c, rest, rfl, hc, h⟩ := (like_exactly (patternParts_plain hd p)).mp h
      exact .plain hd hc (ih h)
  · intro h
    induction h with
    | nil => rfl
    | anything hrest _ ih => exact like_anything.mpr ⟨_, hrest, ih⟩
    | anyChar c _ ih => exact like_anyChar.mpr ⟨c, _, rfl, ih⟩
    | escaped hc _ ih => exact (like_exactly (patternParts_escaped _ _)).mpr ⟨_, _, rfl, hc, ih⟩
    | plain hd hc _ ih => exact (like_exactly (patternParts_plain hd _)).mpr ⟨_, _, rfl, hc, ih⟩

/-! ## Escaped texts -/

theorem escapeWildcards_append (cs ds : List Char) :
    escapeWildcards (cs ++ ds) = escapeWildcards cs ++ escapeWildcards ds :=
  List.flatMap_append

/-- A text without wildcards stands for itself as it is. -/
theorem escapeWildcards_eq_self (h : ∀ c ∈ cs, ¬(c = '\\' ∨ c = '%' ∨ c = '_')) :
    escapeWildcards cs = cs := by
  have hkept : escapeWildcards cs = cs.flatMap fun c => [c] :=
    List.flatMap_congr fun c hc => by simp [or_assoc, h c hc]
  rw [hkept, List.flatMap_singleton']

/-- An escaped character matches itself, whatever comes behind it. -/
theorem likes_escapeWildcards_cons : Likes (escapeWildcards (d :: ds) ++ p) cs ↔
    ∃ c rest, cs = c :: rest ∧ foldChar c = foldChar d ∧ Likes (escapeWildcards ds ++ p) rest := by
  rw [← like_iff_likes, like_exactly (p := escapeWildcards ds ++ p) (d := d)]
  · simp only [like_iff_likes]
  · by_cases h : d = '\\' ∨ d = '%' ∨ d = '_'
    · rw [← patternParts_escaped]
      simp [escapeWildcards, h, or_assoc]
    · rw [← patternParts_plain h]
      simp [escapeWildcards, h, or_assoc]

/-- An escaped text matches itself, wherever it stands in a pattern and whatever is in it. -/
theorem likes_escapeWildcards_append : Likes (escapeWildcards ds ++ p) cs ↔
    ∃ front back, cs = front ++ back ∧ fold front = fold ds ∧ Likes p back := by
  induction ds generalizing cs with
  | nil => simp [escapeWildcards, fold]
  | cons d ds ih =>
    rw [likes_escapeWildcards_cons]
    constructor
    · rintro ⟨c, rest, rfl, hc, h⟩
      obtain ⟨front, back, rfl, hfront, h⟩ := ih.mp h
      exact ⟨c :: front, back, rfl, congrArg₂ List.cons hc hfront, h⟩
    · rintro ⟨front, back, rfl, hfront, h⟩
      rcases front with _ | ⟨c, front⟩
      · cases hfront
      obtain ⟨hc, hfront⟩ := List.cons.inj hfront
      exact ⟨c, front ++ back, rfl, hc, ih.mpr ⟨front, back, rfl, hfront, h⟩⟩

theorem likes_anything : Likes ('%' :: p) cs ↔ ∃ rest, rest <:+ cs ∧ Likes p rest := by
  simp only [← like_iff_likes, like_anything]

/-- A percent sign at the end matches whatever remains. -/
theorem likes_percent (cs : List Char) : Likes ['%'] cs := .anything (List.nil_suffix) .nil

theorem likes_beginsPattern {start : String} :
    Likes (beginsPattern start).toList cs ↔ fold start.toList <+: fold cs := by
  rw [beginsPattern, String.toList_ofList, likes_escapeWildcards_append, fold, fold,
    List.prefix_map_iff]
  constructor
  · rintro ⟨front, back, rfl, hfront, -⟩
    exact ⟨front, List.prefix_append front back, hfront.symm⟩
  · rintro ⟨front, ⟨back, rfl⟩, hfront⟩
    exact ⟨front, back, rfl, hfront.symm, likes_percent back⟩

theorem likes_containsPattern {needle : String} :
    Likes (containsPattern needle).toList cs ↔ fold needle.toList <:+: fold cs := by
  rw [containsPattern, String.toList_ofList, List.cons_append, likes_anything, fold, fold,
    List.infix_map_iff]
  constructor
  · rintro ⟨rest, ⟨before, rfl⟩, h⟩
    obtain ⟨front, back, rfl, hfront, -⟩ := likes_escapeWildcards_append.mp h
    exact ⟨front, ⟨before, back, List.append_assoc before front back⟩, hfront.symm⟩
  · rintro ⟨front, ⟨before, back, rfl⟩, hfront⟩
    refine ⟨front ++ back, ⟨before, (List.append_assoc before front back).symm⟩, ?_⟩
    exact likes_escapeWildcards_append.mpr ⟨front, back, rfl, hfront.symm, likes_percent back⟩

/-- Without the percent sign behind it the text has to be the end. -/
theorem likes_atEnd : Likes ('%' :: escapeWildcards ds) cs ↔ fold ds <:+ fold cs := by
  have hend : ∀ {rest}, Likes (escapeWildcards ds) rest ↔ fold rest = fold ds := fun {rest} => by
    rw [← List.append_nil (escapeWildcards ds), likes_escapeWildcards_append]
    constructor
    · rintro ⟨front, back, rfl, hfront, ⟨⟩⟩
      rwa [List.append_nil]
    · exact fun h => ⟨rest, [], (List.append_nil rest).symm, h, .nil⟩
  rw [likes_anything, fold, fold, List.suffix_map_iff]
  simp only [hend, fold, eq_comm]

/-- The text with another one in the place of each `c`. -/
def replaceEach (c : Char) (t : String) (cs : List Char) : List Char :=
  cs.flatMap fun d => if d = c then t.toList else [d]

/-- Wildcards may be escaped in three turns. The backslashes come first, so that no later turn finds
one that was put in. -/
theorem escapeWildcards_eq_replaceEach (cs : List Char) : escapeWildcards cs =
    replaceEach '_' "\\_" (replaceEach '%' "\\%" (replaceEach '\\' "\\\\" cs)) := by
  simp only [escapeWildcards, replaceEach, List.flatMap_assoc]
  refine List.flatMap_congr fun c _ => ?_
  by_cases h₁ : c = '\\'
  · subst h₁
    rfl
  by_cases h₂ : c = '%'
  · subst h₂
    rfl
  by_cases h₃ : c = '_'
  · subst h₃
    rfl
  · simp [h₁, h₂, h₃]

/-! ## Case -/

/-- What holds of the 26 capitals, and of all characters that have no other small letter. -/
theorem forall_of_capitals {P : Char → Prop} (hcapital : ∀ n ∈ List.range' 0x41 26, P (Char.ofNat n))
    (hother : ∀ c, asciiLowerChar c = c → P c) (c : Char) : P c := by
  by_cases hc : c.toNat ∈ List.range' 0x41 26
  · have hletter := hcapital c.toNat hc
    rwa [Char.ofNat_toNat] at hletter
  · rw [List.mem_range'_1] at hc
    exact hother c (asciiLowerChar_eq_self (by omega))

theorem foldChar_asciiLowerChar : ∀ c, foldChar (asciiLowerChar c) = foldChar c :=
  forall_of_capitals (by decide) fun _ hc => congrArg foldChar hc

/-- A small letter is no wildcard. -/
theorem not_wildcard_asciiLowerChar : ∀ c, ¬(c = '\\' ∨ c = '%' ∨ c = '_') →
    ¬(asciiLowerChar c = '\\' ∨ asciiLowerChar c = '%' ∨ asciiLowerChar c = '_') :=
  forall_of_capitals (by decide) fun _ hc h => hc.symm ▸ h

theorem fold_eq_asciiLower (h : ∀ c ∈ cs, c.toNat ≠ 0xFFFE ∧ c.toNat ≠ 0xFFFF) :
    fold cs = asciiLower cs :=
  List.map_congr_left fun c hc => foldChar_eq_asciiLowerChar (h c hc)

/-- Small letters in the pattern and in the text match as the capitals do. -/
theorem like_asciiLower : like (asciiLower p) (asciiLower cs) = true ↔ like p cs = true := by
  -- A part that matches one character matches its small letter.
  have hcons : ∀ {p cs} {d : Char},
      (∀ cs, like (asciiLower p) (asciiLower cs) = true ↔ like p cs = true) →
      ((∃ c rest, asciiLower cs = c :: rest ∧ foldChar c = foldChar (asciiLowerChar d) ∧
          like (asciiLower p) rest = true) ↔
        ∃ c rest, cs = c :: rest ∧ foldChar c = foldChar d ∧ like p rest = true) := by
    intro p cs d ih
    cases cs with
    | nil => simp [asciiLower]
    | cons c cs => simp [← ih, asciiLower, foldChar_asciiLowerChar]
  induction p using patternParts.induct generalizing cs with
  | case1 => simp [like, patternParts, matchParts, asciiLower]
  | case2 => simp [like, patternParts, asciiLower, show asciiLowerChar '\\' = '\\' by decide]
  | case3 d p ih =>
    rw [like_exactly (patternParts_escaped d p), ← hcons @ih]
    exact like_exactly (patternParts_escaped _ _)
  | case4 p ih =>
    rw [like_anything]
    refine like_anything.trans ?_
    simp only [asciiLower, List.suffix_map_iff]
    constructor
    · rintro ⟨_, ⟨rest, hrest, rfl⟩, h⟩
      exact ⟨rest, hrest, ih.mp h⟩
    · rintro ⟨rest, hrest, h⟩
      exact ⟨_, ⟨rest, hrest, rfl⟩, ih.mpr h⟩
  | case5 p ih =>
    rw [like_anyChar]
    refine like_anyChar.trans ?_
    cases cs with
    | nil => simp [asciiLower]
    | cons c cs => simp [← ih, asciiLower]
  | case6 d p hend hescape hanything hanyChar ih =>
    have hd := not_wildcard hend hescape hanything hanyChar
    rw [like_exactly (patternParts_plain hd p), ← hcons @ih]
    exact like_exactly (patternParts_plain (not_wildcard_asciiLowerChar d hd) _)

instance : Decidable (Likes p cs) := decidable_of_iff _ like_iff_likes

end Text

/-! ## What the store answers -/

/-- A text whose characters the store can all read. -/
def HasNoZero (s : String) : Prop := ∀ c ∈ s.toList, c.toNat ≠ 0

instance : DecidablePred HasNoZero := fun s =>
  List.decidableBAll (fun c : Char => c.toNat ≠ 0) s.toList

theorem HasNoZero.append {s t : String} (hs : HasNoZero s) (ht : HasNoZero t) :
    HasNoZero (s ++ t) := by
  intro c hc
  rw [String.toList_append, List.mem_append] at hc
  exact hc.elim (hs c) (ht c)

theorem mem_of_mem_escapeWildcards {c : Char} {cs : List Char}
    (h : c ∈ Text.escapeWildcards cs) : c = '\\' ∨ c ∈ cs := by
  obtain ⟨d, hd, hc⟩ := List.mem_flatMap.mp h
  split at hc
  · rcases List.mem_cons.mp hc with rfl | hc
    · exact Or.inl rfl
    · rw [List.mem_singleton.mp hc]
      exact Or.inr hd
  · rw [List.mem_singleton.mp hc]
    exact Or.inr hd

namespace Store

open Text

variable {needle text : String}

theorem upToZero_eq {s : String} (h : HasNoZero s) : upToZero s = s := by
  have : s.toList.takeWhile (·.toNat ≠ 0) = s.toList :=
    List.takeWhile_eq_self_iff.mpr fun c hc => by simpa using h c hc
  rw [upToZero, this, String.ofList_toList]

theorem hasNoZero_beginsPattern (h : HasNoZero needle) : HasNoZero (beginsPattern needle) := by
  intro c hc
  rw [beginsPattern, String.toList_ofList, List.mem_append] at hc
  rcases hc with hc | hc
  · rcases mem_of_mem_escapeWildcards hc with rfl | hc
    · decide
    · exact h c hc
  · rw [List.mem_singleton.mp hc]
    decide

theorem hasNoZero_containsPattern (h : HasNoZero needle) : HasNoZero (containsPattern needle) := by
  intro c hc
  rw [containsPattern, String.toList_ofList, List.cons_append, List.mem_cons] at hc
  rcases hc with rfl | hc
  · decide
  · exact hasNoZero_beginsPattern h c (by rwa [beginsPattern, String.toList_ofList])

/-- The store goes by the rules of patterns for texts that it reads to their ends, if a pattern is not
too long. -/
theorem likeText_eq {pattern : String} (hpattern : HasNoZero pattern) (htext : HasNoZero text) :
    likeText pattern (some text) =
      if patternLimit < pattern.utf8ByteSize then .error .longPattern
      else .ok (decide (Likes pattern.toList text.toList)) := by
  have hlike : like pattern.toList text.toList = decide (Likes pattern.toList text.toList) := by
    rw [Bool.eq_iff_iff, decide_eq_true_iff]
    exact like_iff_likes
  rw [likeText, Option.any_some, upToZero_eq hpattern, upToZero_eq htext, hlike]

/-- Literal patterns. The store answers for the pattern of a text, unless it is too long, whether the
text stands somewhere in another one as patterns read both; and for the pattern of a beginning,
whether the other one begins with it. Whatever is in the text, it matches itself and nothing else
in all patterns, in which its wildcards are escaped in one turn or in three, and small letters in
the place of the capitals match the same. Texts without the two characters that stand for none are
read as they are, but for the case of the 26 letters. -/
theorem likeText_literal (hneedle : HasNoZero needle) (htext : HasNoZero text) :
    (∀ pattern ∈ [containsPattern needle, beginsPattern needle],
      likeText pattern (some text) =
        if patternLimit < pattern.utf8ByteSize then .error .longPattern
        else .ok (decide (Likes pattern.toList text.toList))) ∧
    (Likes (containsPattern needle).toList text.toList ↔
      fold needle.toList <:+: fold text.toList) ∧
    (Likes (beginsPattern needle).toList text.toList ↔
      fold needle.toList <+: fold text.toList) ∧
    (∀ p cs, Likes (escapeWildcards needle.toList ++ p) cs ↔
      ∃ front back, cs = front ++ back ∧ fold front = fold needle.toList ∧ Likes p back) ∧
    escapeWildcards needle.toList =
      replaceEach '_' "\\_" (replaceEach '%' "\\%" (replaceEach '\\' "\\\\" needle.toList)) ∧
    (∀ p cs, Likes (asciiLower p) (asciiLower cs) ↔ Likes p cs) ∧
    ((∀ c ∈ needle.toList ++ text.toList, c.toNat ≠ 0xFFFE ∧ c.toNat ≠ 0xFFFF) →
      fold needle.toList = asciiLower needle.toList ∧ fold text.toList = asciiLower text.toList) := by
  refine ⟨?_, likes_containsPattern, likes_beginsPattern, fun p cs => likes_escapeWildcards_append,
    escapeWildcards_eq_replaceEach _, fun p cs => ?_, fun h => ?_⟩
  · simp only [List.forall_mem_cons]
    exact ⟨likeText_eq (hasNoZero_containsPattern hneedle) htext,
      likeText_eq (hasNoZero_beginsPattern hneedle) htext, List.forall_mem_nil _⟩
  · rw [← like_iff_likes, ← like_iff_likes, like_asciiLower]
  · rw [List.forall_mem_append] at h
    exact ⟨fold_eq_asciiLower h.1, fold_eq_asciiLower h.2⟩

/-- Wildcards, a backslash before one of them, and capitals. -/
theorem likeText_literal_of_wildcards :
    HasNoZero "5\\%_O" ∧ HasNoZero "15\\%_of" ∧ HasNoZero "15\\%xof" ∧
      likeText (containsPattern "5\\%_O") (some "15\\%_of") = .ok true ∧
      likeText (containsPattern "5\\%_O") (some "15\\%xof") = .ok false ∧
      likeText (beginsPattern "5\\%_O") (some "15\\%_of") = .ok false := by
  have hneedle : HasNoZero "5\\%_O" := by decide
  have htext : HasNoZero "15\\%_of" := by decide
  have hother : HasNoZero "15\\%xof" := by decide
  obtain ⟨hanswers, hcontains, hbegins, -⟩ := likeText_literal hneedle htext
  obtain ⟨hanswers', hcontains', -⟩ := likeText_literal hneedle hother
  have hbeginsShort : ¬patternLimit < (beginsPattern "5\\%_O").utf8ByteSize := by decide +kernel
  have hcontainsShort : ¬patternLimit < (containsPattern "5\\%_O").utf8ByteSize := by decide +kernel
  refine ⟨hneedle, htext, hother, ?_, ?_, ?_⟩
  · rw [hanswers _ List.mem_cons_self, if_neg hcontainsShort,
      decide_eq_true (hcontains.mpr (by decide))]
  · rw [hanswers' _ List.mem_cons_self, if_neg hcontainsShort,
      decide_eq_false (hcontains'.not.mpr (by decide))]
  · rw [hanswers _ (List.mem_cons_of_mem _ List.mem_cons_self), if_neg hbeginsShort,
      decide_eq_false (hbegins.not.mpr (by decide))]

/-- The store finds one of the characters that stand for none in the other. -/
theorem likeText_of_noncharacters :
    let needle := String.ofList [Char.ofNat 0xFFFF]
    let text := String.ofList [Char.ofNat 0xFFFE]
    HasNoZero needle ∧ HasNoZero text ∧ (containsPattern needle).utf8ByteSize ≤ patternLimit ∧
      (likeText (containsPattern needle) (some text)).toOption = some true ∧
      ¬ asciiLower needle.toList <:+: asciiLower text.toList := by
  decide +kernel

end Store

end Tabula
