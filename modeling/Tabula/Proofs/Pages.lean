import Mathlib.Logic.Basic
import Mathlib.Tactic.SplitIfs
import Tabula.Proofs.Actions
import Tabula.Workspace.Page

/-!
# Pages that are asked for

A limit and an offset are read one after the other, and both are checked then (`parsePage_eq`). A
value that stands for no integer is refused as such, with one exception : of an infinite float the
whole part is a fault of its own (`pageInteger_eq_error`, `pageInteger_of_isInfinite`).

So a page is given or the arguments are refused unless one of them is infinite, and no other one is
refused before it (`AsksForInfinity`). `parsePage_answers_iff` says so, and which page is given.
-/

namespace Tabula

/-- One of the two infinite floats. -/
def Value.IsInfinite (v : Value) : Prop := ∃ negative, v = .float (.signed negative .infinity)

theorem Magnitude.eq_infinity {m : Magnitude} (h : ¬m.isFinite = true) : m = infinity := by
  obtain ⟨rank, hrank⟩ := m
  have hle : infinityRank ≤ rank := Nat.not_lt.mp fun hlt => h (decide_eq_true hlt)
  obtain rfl : rank = infinityRank := Nat.le_antisymm hrank hle
  rfl

/-- Only of an infinite float the whole part is asked for in vain. -/
theorem Value.toInteger_eq_infinite_iff {v : Value} :
    v.toInteger = .error (.fault .infiniteInteger) ↔ v.IsInfinite := by
  constructor
  · intro h
    cases v with
    | float x =>
      cases x with
      | nan => cases h
      | signed negative m =>
        by_cases hfinite : m.isFinite = true
        · have hx : (Binary64.signed negative m).isFinite = true := hfinite
          rw [toInteger, if_pos hx] at h
          · cases h
          · nofun
        · exact ⟨negative, by rw [Magnitude.eq_infinity hfinite]⟩
    | text | bytes =>
      rw [toInteger] at h
      split at h <;> cases h
    | _ => cases h
  · rintro ⟨negative, rfl⟩
    rfl

namespace Workspace

variable {v limit offset config : Value} {default most : Int}

/-! ## One argument -/

theorem pageInteger_eq_ok {n : Int} (h : v.toInteger = .ok n) : pageInteger v = .ok n := by
  rw [pageInteger, h]

theorem pageInteger_of_isInfinite (h : v.IsInfinite) :
    pageInteger v = .error (.fault .infiniteInteger) := by
  rw [pageInteger, Value.toInteger_eq_infinite_iff.mpr h]

theorem pageInteger_eq_error (hnone : ∀ n, v.toInteger ≠ .ok n) (h : ¬v.IsInfinite) :
    pageInteger v = .error (.invalid .pageNotInteger) := by
  rw [← Value.toInteger_eq_infinite_iff] at h
  unfold pageInteger
  split
  · exact absurd ‹_› h
  · rfl
  · exact absurd ‹_› (hnone _)

/-- No limit, or a blank one. -/
def isBlankLimit (limit : Value) : Bool := limit.isNull || limit.isText ""

/-- The limit that a caller asks for : where none is given, the default. -/
def LimitIs (default : Int) (limit : Value) (l : Int) : Prop :=
  if isBlankLimit limit then l = default else limit.toInteger = .ok l

/-- The offset that a caller asks for : zero where none is given, or what counts as false. -/
def OffsetIs (offset : Value) (o : Int) : Prop :=
  if offset.truthy then offset.toInteger = .ok o else o = 0

/-- One of the arguments is infinite, and no other one is refused before it. -/
def AsksForInfinity (default : Int) (limit offset : Value) : Prop :=
  limit.IsInfinite ∨ offset.IsInfinite ∧ ∃ l, LimitIs default limit l

/-- An argument is the integer that it is to be, a fault if it is infinite, and else refused. -/
structure Reads (infinite : Prop) (is : Int → Prop) (r : Except Failure Int) : Prop where
  ok_iff : ∀ n, r = .ok n ↔ is n
  fault : infinite → r = .error (.fault .infiniteInteger)
  refused : ¬infinite → ∀ e, r = .error e → ∃ why, e = .invalid why

theorem reads_pageInteger (v : Value) :
    Reads v.IsInfinite (fun n => v.toInteger = .ok n) (pageInteger v) := by
  refine ⟨fun n => ⟨fun h => ?_, pageInteger_eq_ok⟩, pageInteger_of_isInfinite, fun hv e he => ?_⟩
  · rcases hv : v.toInteger with why | m
    · rw [pageInteger, hv] at h
      split at h <;> cases h
      assumption
    · rw [pageInteger_eq_ok hv] at h
      exact h
  · rw [pageInteger_eq_error (fun n hn => ?_) hv] at he
    · exact ⟨_, (Except.error.inj he).symm⟩
    · rw [pageInteger_eq_ok hn] at he
      cases he

/-- An argument for which something else stands is read without a fault. -/
theorem reads_ok {infinite : Prop} (h : ¬infinite) (n : Int) :
    Reads infinite (fun m => m = n) (.ok n) :=
  ⟨fun m => by rw [Except.ok.injEq, eq_comm], fun hinfinite => absurd hinfinite h, nofun⟩

/-- The limit as it is read. -/
def readLimit (default : Int) (limit : Value) : Except Failure Int :=
  if isBlankLimit limit then .ok default else pageInteger limit

/-- The offset as it is read. -/
def readOffset (offset : Value) : Except Failure Int :=
  if offset.truthy then pageInteger offset else .ok 0

theorem reads_readLimit (default : Int) (limit : Value) :
    Reads limit.IsInfinite (LimitIs default limit) (readLimit default limit) := by
  unfold readLimit LimitIs
  by_cases h : isBlankLimit limit = true
  · simp only [if_pos h]
    refine reads_ok ?_ default
    rintro ⟨negative, rfl⟩
    cases h
  · simp only [if_neg h]
    exact reads_pageInteger limit

theorem reads_readOffset (offset : Value) :
    Reads offset.IsInfinite (OffsetIs offset) (readOffset offset) := by
  unfold readOffset OffsetIs
  by_cases h : offset.truthy = true
  · simp only [if_pos h]
    exact reads_pageInteger offset
  · simp only [if_neg h]
    refine reads_ok ?_ 0
    rintro ⟨negative, rfl⟩
    exact h rfl

/-! ## Both arguments -/

/-- The check of a limit and an offset that are integers. -/
def checkPage (most l o : Int) : Except Failure (Int × Int) := do
  if !(1 ≤ l && l ≤ most) then throw (.invalid (.pageLimit most))
  if o < 0 then throw (.invalid .pageOffset)
  return (l, o)

theorem checkPage_eq_ite (most l o : Int) : checkPage most l o =
    if 1 ≤ l ∧ l ≤ most then
      if 0 ≤ o then .ok (l, o) else .error (.invalid .pageOffset)
    else .error (.invalid (.pageLimit most)) := by
  unfold checkPage
  by_cases hlimit : 1 ≤ l ∧ l ≤ most
  · by_cases hoffset : 0 ≤ o
    · simp [hlimit, hoffset, Int.not_lt.mpr hoffset, pure, Except.pure]
    · simp [hlimit, hoffset, Int.not_le.mp hoffset, throw, throwThe, MonadExceptOf.throw, bind,
        Except.bind]
  · simp [hlimit, throw, throwThe, MonadExceptOf.throw, bind, Except.bind]

/-- The default and the greatest limit of a page that are configured. -/
structure HasLimits (config : Value) (default most : Int) : Prop where
  default : (config.require "default_limit" >>= Value.toInteger) = .ok default
  most : (config.require "max_limit" >>= Value.toInteger) = .ok most

/-- The limit is read first, then the offset, and both are checked then. -/
theorem parsePage_eq (hlimits : HasLimits config default most) :
    parsePage limit offset config =
      (do checkPage most (← readLimit default limit) (← readOffset offset)) := by
  have hlimit : (do pageInteger (← chosenLimit limit config)) = readLimit default limit := by
    unfold chosenLimit readLimit isBlankLimit
    split
    · obtain ⟨d, hd, hdefault⟩ := ok_of_bind hlimits.default
      rw [hd]
      simp only [bind, Except.bind, hdefault, pure, Except.pure]
      rfl
    · rfl
  obtain ⟨m, hm, hmost⟩ := ok_of_bind hlimits.most
  rw [← hlimit, parsePage, hm]
  simp only [bind, Except.bind, hmost]
  rcases chosenLimit limit config with why | chosen
  · rfl
  rcases hl : pageInteger chosen with why | l
  · simp only [hl]
  simp only [hl]
  unfold readOffset checkPage
  split <;> rfl

/-- Which page is given. -/
theorem parsePage_eq_ok_iff (hlimits : HasLimits config default most) {l o : Int} :
    parsePage limit offset config = .ok (l, o) ↔
      LimitIs default limit l ∧ OffsetIs offset o ∧ 1 ≤ l ∧ l ≤ most ∧ 0 ≤ o := by
  rw [parsePage_eq hlimits, ← (reads_readLimit default limit).ok_iff,
    ← (reads_readOffset offset).ok_iff]
  constructor
  · intro h
    obtain ⟨l', hl, h⟩ := ok_of_bind h
    obtain ⟨o', ho, h⟩ := ok_of_bind h
    rw [checkPage_eq_ite] at h
    split_ifs at h
    obtain ⟨rfl, rfl⟩ := Prod.mk.inj (Except.ok.inj h)
    exact ⟨hl, ho, by omega⟩
  · rintro ⟨hl, ho, hpositive, hmost, hoffset⟩
    rw [hl, ho]
    show checkPage most l o = _
    rw [checkPage_eq_ite, if_pos ⟨hpositive, hmost⟩, if_pos hoffset]

/-- An infinite argument is a fault. -/
theorem parsePage_of_asksForInfinity (hlimits : HasLimits config default most)
    (h : AsksForInfinity default limit offset) :
    parsePage limit offset config = .error (.fault .infiniteInteger) := by
  rw [parsePage_eq hlimits]
  rcases h with h | ⟨h, l, hl⟩
  · rw [(reads_readLimit default limit).fault h]
    rfl
  · rw [((reads_readLimit default limit).ok_iff l).mpr hl, (reads_readOffset offset).fault h]
    rfl

/-- Everything else that is wrong is refused. -/
theorem exists_of_parsePage (hlimits : HasLimits config default most)
    (h : ¬AsksForInfinity default limit offset) {e : Failure}
    (he : parsePage limit offset config = .error e) : ∃ why, e = .invalid why := by
  rw [AsksForInfinity, not_or, not_and] at h
  rw [parsePage_eq hlimits] at he
  rcases hl : readLimit default limit with why | l
  · rw [hl] at he
    exact (reads_readLimit default limit).refused h.1 e
      (hl.trans (congrArg _ (Except.error.inj he)))
  rcases ho : readOffset offset with why | o
  · rw [hl, ho] at he
    have hfinite : ¬offset.IsInfinite := fun hinfinite =>
      h.2 hinfinite ⟨l, ((reads_readLimit default limit).ok_iff l).mp hl⟩
    exact (reads_readOffset offset).refused hfinite e (ho.trans (congrArg _ (Except.error.inj he)))
  · rw [hl, ho] at he
    replace he : checkPage most l o = .error e := he
    rw [checkPage_eq_ite] at he
    split_ifs at he <;> exact ⟨_, (Except.error.inj he).symm⟩

/-- For a limit and an offset of any kind a page within the configured limits is given, or they are
refused, unless one of them is infinite and no other one is refused before; then it is a fault. The
page is the one that is asked for, the default one if nothing is. -/
theorem parsePage_answers_iff (hlimits : HasLimits config default most) (hpositive : 1 ≤ default)
    (hle : default ≤ most) (limit offset : Value) :
    (((∃ l o, parsePage limit offset config = .ok (l, o) ∧ 1 ≤ l ∧ l ≤ most ∧ 0 ≤ o) ∨
        ∃ why, parsePage limit offset config = .error (.invalid why)) ↔
      ¬AsksForInfinity default limit offset) ∧
    (AsksForInfinity default limit offset →
      parsePage limit offset config = .error (.fault .infiniteInteger)) ∧
    (∀ l o, parsePage limit offset config = .ok (l, o) ↔
      LimitIs default limit l ∧ OffsetIs offset o ∧ 1 ≤ l ∧ l ≤ most ∧ 0 ≤ o) ∧
    (isBlankLimit limit = true → offset.truthy = false →
      parsePage limit offset config = .ok (default, 0)) := by
  refine ⟨⟨?_, fun h => ?_⟩, parsePage_of_asksForInfinity hlimits,
    fun l o => parsePage_eq_ok_iff hlimits, fun hlimit hoffset => ?_⟩
  · intro hanswer h
    rw [parsePage_of_asksForInfinity hlimits h] at hanswer
    rcases hanswer with ⟨_, _, hok, _⟩ | ⟨_, hrefused⟩
    · cases hok
    · cases hrefused
  · rcases hpage : parsePage limit offset config with e | ⟨l, o⟩
    · obtain ⟨why, rfl⟩ := exists_of_parsePage hlimits h hpage
      exact .inr ⟨why, rfl⟩
    · exact .inl ⟨l, o, rfl, ((parsePage_eq_ok_iff hlimits).mp hpage).2.2⟩
  · rw [parsePage_eq_ok_iff hlimits, LimitIs, if_pos hlimit, OffsetIs, hoffset]
    exact ⟨rfl, rfl, hpositive, hle, Int.le_refl 0⟩

/-- The limits that the settings come with. -/
def usualLimits : Value := .object [("default_limit", .int 20), ("max_limit", .int 100)]

theorem hasLimits_usualLimits : HasLimits usualLimits 20 100 := ⟨rfl, rfl⟩

theorem parsePage_answers_of_texts :
    parsePage (.text " 7 ") .null usualLimits = .ok (7, 0) ∧
      parsePage (.text "") (.bool false) usualLimits = .ok (20, 0) ∧
      ∃ why, parsePage (.float .nan) (.float .infinity) usualLimits = .error (.invalid why) := by
  have h := @parsePage_answers_iff usualLimits 20 100 hasLimits_usualLimits (by decide) (by decide)
  have hdigits : integerOfText? " 7 " = some 7 := by decide +kernel
  have hseven : Value.toInteger (.text " 7 ") = .ok 7 := by rw [Value.toInteger, hdigits]
  refine ⟨((h _ _).2.2.1 7 0).mpr ⟨hseven, rfl, by decide⟩, (h _ _).2.2.2 rfl rfl, ?_⟩
  have hfinite : ¬AsksForInfinity 20 (.float .nan) (.float .infinity) := by
    rintro (⟨_, hnan⟩ | ⟨-, l, hl⟩)
    · cases hnan
    · cases hl
  obtain ⟨_, _, hpage, _⟩ | hrefused := (h _ _).1.mpr hfinite
  · obtain ⟨hl, -⟩ := ((h _ _).2.2.1 _ _).mp hpage
    cases hl
  · exact hrefused

/-- An infinite limit is neither a page nor refused. -/
theorem parsePage_of_infinite_limit :
    ¬((∃ l o, parsePage (.float .infinity) (.int 0) usualLimits = .ok (l, o) ∧ 1 ≤ l ∧ l ≤ 100 ∧
        0 ≤ o) ∨
      ∃ why, parsePage (.float .infinity) (.int 0) usualLimits = .error (.invalid why)) := by
  have hfault : parsePage (.float .infinity) (.int 0) usualLimits =
      .error (.fault .infiniteInteger) :=
    parsePage_of_asksForInfinity hasLimits_usualLimits (.inl ⟨false, rfl⟩)
  rw [hfault]
  rintro (⟨_, _, h, _⟩ | ⟨_, h⟩) <;> cases h

end Workspace

end Tabula
