import Mathlib.Data.List.TakeWhile
import Tabula.Config.Substitution

/-!
# How a configuration text is read

A text is read from left to right, once, into pieces (`Reads`) : a reference where one begins, and else
the next character as it stands. So references are found at the leftmost places, behind each other,
and every text is read in one way (`Reads.exists_reads`) and no other (`Reads.unique`), whatever the
environment.

What begins with a reference is told by `takeReference?_eq_some_iff`; names and defaults end where
they must, so no reference begins in two ways. `substituteFrom_of_reads` puts the pieces together
again, each reference by what stands for it (`Piece.replaced`). In a reference that stays as it is no
other one begins, as it has one dollar sign only.
-/

namespace Tabula.Config

variable {env : String → Option String} {cs rest : List Char} {r : Reference}

/-! ## The grammar of references -/

/-- How a default is written, with the closing brace behind it. -/
def writtenDefault : Option (List Char) → List Char
  | none => ['\x7d']
  | some d => ':' :: '-' :: d ++ ['\x7d']

namespace Reference

/-- How a reference is written. -/
def text (r : Reference) : List Char := '$' :: '\x7b' :: r.name ++ writtenDefault r.default?

/-- A name is a capital or an underscore, then capitals, underscores and digits. A default goes up
to the closing brace. -/
structure IsValid (r : Reference) : Prop where
  name : ∃ c cs, r.name = c :: cs ∧ startsName c = true ∧ ∀ d ∈ cs, continuesName d = true
  default : ∀ d ∈ r.default?, '\x7d' ∉ d

theorem IsValid.continuesName_of_mem (hr : r.IsValid) {c : Char} (hc : c ∈ r.name) :
    continuesName c = true := by
  obtain ⟨d, ds, hname, hd, hall⟩ := hr.name
  rcases List.mem_cons.mp (hname ▸ hc) with rfl | hc
  · simp [continuesName, hd]
  · exact hall c hc

end Reference

/-- What is read behind a name is a default as it is written. -/
theorem takeDefault?_eq_some_iff {d? : Option (List Char)} : takeDefault? cs = some (d?, rest) ↔
    (∀ d ∈ d?, '\x7d' ∉ d) ∧ cs = writtenDefault d? ++ rest := by
  constructor
  · intro h
    unfold takeDefault? at h
    split at h
    · obtain ⟨rfl, rfl⟩ := Prod.mk.inj (Option.some.inj h)
      exact ⟨fun d hd => (Option.not_mem_none d hd).elim, rfl⟩
    · rename_i cs
      split at h
      · rename_i c after hdrop
        obtain ⟨rfl, rfl⟩ := Prod.mk.inj (Option.some.inj h)
        have hc : c = '\x7d' := by
          have := List.head?_dropWhile_not (· != '\x7d') cs
          simpa [hdrop] using this
        refine ⟨fun d hd hmem => ?_, ?_⟩
        · obtain rfl := Option.mem_some.mp hd
          simpa using List.mem_takeWhile_imp hmem
        · have hsplit := List.takeWhile_append_dropWhile (p := (· != '\x7d')) (l := cs)
          rw [hdrop, hc] at hsplit
          simp [writtenDefault, hsplit]
      · cases h
    · cases h
  · rintro ⟨hd, rfl⟩
    cases d? with
    | none => rfl
    | some d =>
      have hall : ∀ c ∈ d, (c != '\x7d') = true := fun c hc => by
        simpa using fun heq : c = '\x7d' => hd d rfl (heq ▸ hc)
      simp [writtenDefault, takeDefault?, List.dropWhile_append_of_pos hall,
        List.takeWhile_append_of_pos hall]

/-- A name ends where its default or its reference does. -/
theorem span_writtenDefault (d? : Option (List Char)) (rest : List Char) :
    (writtenDefault d? ++ rest).takeWhile continuesName = [] ∧
      (writtenDefault d? ++ rest).dropWhile continuesName = writtenDefault d? ++ rest := by
  have hcolon : continuesName ':' = false := by decide
  have hbrace : continuesName '\x7d' = false := by decide
  cases d? <;> simp [writtenDefault, hcolon, hbrace]

/-- What begins with a reference is the reference as it is written, and what is behind it. -/
theorem takeReference?_eq_some_iff :
    takeReference? cs = some (r, rest) ↔ r.IsValid ∧ cs = r.text ++ rest := by
  constructor
  · intro h
    unfold takeReference? at h
    split at h
    · rename_i c cs
      split at h
      · rename_i hc
        obtain ⟨⟨d?, after⟩, hdefault, h⟩ := Option.bind_eq_some_iff.mp h
        obtain ⟨rfl, rfl⟩ := Prod.mk.inj (Option.some.inj h)
        obtain ⟨hd, hdrop⟩ := takeDefault?_eq_some_iff.mp hdefault
        refine ⟨⟨⟨c, _, rfl, hc, fun d hd => List.mem_takeWhile_imp hd⟩, hd⟩, ?_⟩
        have hsplit := List.takeWhile_append_dropWhile (p := continuesName) (l := cs)
        rw [hdrop] at hsplit
        simp [Reference.text, hsplit]
      · cases h
    · cases h
  · rintro ⟨⟨⟨c, name, hname, hc, hall⟩, hdefault⟩, rfl⟩
    obtain ⟨_, d?⟩ := r
    obtain rfl : _ = c :: name := hname
    obtain ⟨htake, hdrop⟩ := span_writtenDefault d? rest
    have hread : takeDefault? (writtenDefault d? ++ rest) = some (d?, rest) :=
      takeDefault?_eq_some_iff.mpr ⟨hdefault, rfl⟩
    simp [Reference.text, takeReference?, hc, List.takeWhile_append_of_pos hall,
      List.dropWhile_append_of_pos hall, htake, hdrop, hread]

theorem takeReference?_text (hr : r.IsValid) (rest : List Char) :
    takeReference? (r.text ++ rest) = some (r, rest) :=
  takeReference?_eq_some_iff.mpr ⟨hr, rfl⟩

/-! ## Readings -/

/-- What a text is read as. -/
inductive Piece where
  | char (c : Char)
  | reference (r : Reference)

namespace Piece

/-- How the piece is written. -/
def text : Piece → List Char
  | char c => [c]
  | reference r => r.text

/-- What is put in the place of the piece : for a reference the value of its variable, if it has one,
or else its default, if it has one. -/
def replaced (env : String → Option String) : Piece → List Char
  | char c => [c]
  | reference r =>
    match env (String.ofList r.name) with
    | some value => value.toList
    | none => r.default?.getD r.text

end Piece

/-- Reading a text from left to right. No character at which a reference begins is read alone. -/
inductive Reads : List Char → List Piece → Prop where
  | nil : Reads [] []
  | char {c : Char} {cs : List Char} {ps : List Piece}
      (hnone : ∀ r rest, Reference.IsValid r → c :: cs ≠ r.text ++ rest) (h : Reads cs ps) :
      Reads (c :: cs) (.char c :: ps)
  | reference {r : Reference} {cs : List Char} {ps : List Piece} (hr : r.IsValid)
      (h : Reads cs ps) : Reads (r.text ++ cs) (.reference r :: ps)

namespace Reads

variable {ps ps' : List Piece}

theorem takeReference?_eq_none {c : Char}
    (hnone : ∀ r rest, Reference.IsValid r → c :: cs ≠ r.text ++ rest) :
    takeReference? (c :: cs) = none := by
  refine Option.eq_none_iff_forall_ne_some.mpr fun ⟨r, rest⟩ h => ?_
  obtain ⟨hr, heq⟩ := takeReference?_eq_some_iff.mp h
  exact hnone r rest hr heq

/-- The pieces are the text, in its order. -/
theorem flatMap_text (h : Reads cs ps) : ps.flatMap Piece.text = cs := by
  induction h with
  | nil => rfl
  | char _ _ ih => rw [List.flatMap_cons, ih]; rfl
  | reference _ _ ih => rw [List.flatMap_cons, ih]; rfl

/-- There are no two ways to read a text. -/
theorem unique (h : Reads cs ps) (h' : Reads cs ps') : ps' = ps := by
  induction h generalizing ps' with
  | nil =>
    generalize hcs : ([] : List Char) = cs at h'
    cases h' with
    | nil => rfl
    | char => cases hcs
    | reference => cases hcs
  | @char c cs ps hnone _ ih =>
    generalize hcs : c :: cs = cs' at h'
    cases h' with
    | nil => cases hcs
    | char _ h' =>
      obtain ⟨rfl, rfl⟩ := List.cons.inj hcs
      rw [ih h']
    | reference hr _ => exact absurd hcs (hnone _ _ hr)
  | @reference r cs ps hr _ ih =>
    generalize hcs : r.text ++ cs = cs' at h'
    cases h' with
    | nil => cases hcs
    | char hnone _ => exact absurd hcs.symm (hnone _ _ hr)
    | reference hr' h' =>
      have hread := takeReference?_text hr cs
      rw [hcs, takeReference?_text hr'] at hread
      obtain ⟨rfl, rfl⟩ := Prod.mk.inj (Option.some.inj hread)
      rw [ih h']

theorem exists_reads (cs : List Char) : ∃ ps, Reads cs ps := by
  induction hn : cs.length using Nat.strong_induction_on generalizing cs with
  | _ n ih =>
    rcases cs with _ | ⟨c, cs⟩
    · exact ⟨[], .nil⟩
    by_cases href : ∃ r rest, Reference.IsValid r ∧ c :: cs = r.text ++ rest
    · obtain ⟨r, rest, hr, heq⟩ := href
      have hlength := congrArg List.length heq
      simp only [Reference.text, List.length_cons, List.length_append] at hlength hn
      obtain ⟨ps, hps⟩ := ih rest.length (by omega) rest rfl
      exact ⟨.reference r :: ps, heq ▸ hps.reference hr⟩
    · obtain ⟨ps, hps⟩ := ih cs.length (by simpa using hn ▸ Nat.lt_succ_self _) cs rfl
      exact ⟨_, .char (fun r rest hr heq => href ⟨r, rest, hr, heq⟩) hps⟩

end Reads

/-! ## Replacing -/

theorem substituteFrom_skip (env : String → Option String) (front cs : List Char) :
    substituteFrom env front.length (front ++ cs) = substituteFrom env 0 cs := by
  induction front with
  | nil => rfl
  | cons c front ih => rw [List.length_cons, List.cons_append, substituteFrom, ih]

/-- What has no dollar sign is copied. -/
theorem substituteFrom_append {front : List Char} (h : '$' ∉ front) (cs : List Char) :
    substituteFrom env 0 (front ++ cs) = front ++ substituteFrom env 0 cs := by
  induction front with
  | nil => rfl
  | cons c front ih =>
    obtain ⟨hc, hfront⟩ := not_or.mp (mt List.mem_cons.mpr h)
    have hnone : takeReference? (c :: (front ++ cs)) = none := by
      unfold takeReference?
      split
      · rename_i heq
        exact absurd (List.cons.inj heq).1.symm hc
      · rfl
    rw [List.cons_append, substituteFrom, hnone]
    simp only [ih hfront, List.cons_append]

/-- A reference without a default has its dollar sign at its head only. -/
theorem dollar_notMem_tail (hr : r.IsValid) (hnone : r.default? = none) :
    '$' ∉ '\x7b' :: r.name ++ writtenDefault r.default? := by
  rw [hnone]
  intro h
  rcases List.mem_append.mp h with h | h
  · rcases List.mem_cons.mp h with h | h
    · cases h
    · exact absurd (hr.continuesName_of_mem h) (by decide)
  · cases List.mem_singleton.mp h

/-- What is read as a reference is replaced, and replacing goes on behind it. -/
theorem substituteFrom_text (hr : r.IsValid) (cs : List Char) :
    substituteFrom env 0 (r.text ++ cs) =
      (Piece.reference r).replaced env ++ substituteFrom env 0 cs := by
  obtain ⟨tail, htail⟩ : ∃ tail, '\x7b' :: r.name ++ writtenDefault r.default? = tail := ⟨_, rfl⟩
  have htext : r.text = '$' :: tail := by rw [← htail]; rfl
  have hread := takeReference?_text hr cs
  rw [htext, List.cons_append] at hread ⊢
  rw [substituteFrom, hread]
  rcases henv : env (String.ofList r.name) with _ | value
  · rcases hdefault : r.default? with _ | d
    · -- The reference stays, and replacing goes on in its midst.
      have hdollar : '$' ∉ tail := htail ▸ dollar_notMem_tail hr hdefault
      simp [Reference.value?, Piece.replaced, henv, hdefault, htext, substituteFrom_append hdollar]
    · simp [Reference.value?, Piece.replaced, henv, hdefault, substituteFrom_skip]
  · simp [Reference.value?, Piece.replaced, henv, substituteFrom_skip]

/-- Replacing goes piece by piece. -/
theorem substituteFrom_of_reads {ps : List Piece} (h : Reads cs ps) :
    substituteFrom env 0 cs = ps.flatMap (Piece.replaced env) := by
  induction h with
  | nil => rfl
  | char hnone _ ih =>
    rw [substituteFrom, Reads.takeReference?_eq_none hnone, List.flatMap_cons, ← ih]
    rfl
  | reference hr _ ih => rw [substituteFrom_text hr, List.flatMap_cons, ih]

/-- Every text is read in one way, which has all of the text and does not depend on the environment.
Substitution puts for each piece what stands for it, and does not look at that again. -/
theorem substitute_reads (s : String) :
    ∃ ps, (∀ ps', Reads s.toList ps' ↔ ps' = ps) ∧ ps.flatMap Piece.text = s.toList ∧
      ∀ env, (substitute env s).toList = ps.flatMap (Piece.replaced env) := by
  obtain ⟨ps, hps⟩ := Reads.exists_reads s.toList
  refine ⟨ps, fun ps' => ⟨hps.unique, fun heq => heq ▸ hps⟩, hps.flatMap_text, fun env => ?_⟩
  rw [substitute, String.toList_ofList, substituteFrom_of_reads hps]

end Tabula.Config
