import Tabula.Store.Clause

/-!
# Clauses with three truth values

A comparison with nothing is neither true nor false. `Clause.truth` is the truth of a clause
with a third value for what is unknown, which stays unknown under a conjunction or disjunction
that the other side does not decide. The store keeps the rows of which its clause is true.
`Clause.holds` has two values and stops early, and comes to the same : a clause that is not
refused holds exactly if it is true (`truth_eq_true_iff`).
-/

namespace Tabula

open Query Store

/-- Conjunction where `none` is unknown : false as soon as one side is. -/
def andTruth : Option Bool → Option Bool → Option Bool
  | some false, _ => some false
  | some true, t => t
  | none, some false => some false
  | none, _ => none

/-- Disjunction where `none` is unknown : true as soon as one side is. -/
def orTruth : Option Bool → Option Bool → Option Bool
  | some true, _ => some true
  | some false, t => t
  | none, some true => some true
  | none, _ => none

variable (p : Payload)

mutual

/-- The truth of a clause, unknown where it compares with nothing. -/
def Store.Clause.truth : Clause → Option Bool
  | .number column c operand =>
    (floatCell p column).toOption.join.map fun x => c.holdsNumber x operand
  | .text column r operand => (textCell p column).toOption.join.map fun s => r.holds s operand
  | .isNull column => some (textCell p column).toOption.join.isNone
  | .isNotNull column => some (textCell p column).toOption.join.isSome
  | .contains column pattern => (textCell p column).toOption.join.bind fun s =>
    (likeText pattern (some s)).toOption
  | .all cs => Store.Clause.allTruth cs
  | .any cs => Store.Clause.anyTruth cs

def Store.Clause.allTruth : List Clause → Option Bool
  | [] => some true
  | c :: cs => andTruth (Store.Clause.truth c) (Store.Clause.allTruth cs)

def Store.Clause.anyTruth : List Clause → Option Bool
  | [] => some false
  | c :: cs => orTruth (Store.Clause.truth c) (Store.Clause.anyTruth cs)

end

theorem andTruth_eq_true {t u : Option Bool} :
    andTruth t u = some true ↔ t = some true ∧ u = some true := by
  rcases t with _ | _ | _ <;> rcases u with _ | _ | _ <;> decide

theorem orTruth_eq_true {t u : Option Bool} :
    orTruth t u = some true ↔ t = some true ∨ u = some true := by
  rcases t with _ | _ | _ <;> rcases u with _ | _ | _ <;> decide

variable {p}

theorem truth_of_map {α : Type} {x : Except Refusal (Option α)} {f : α → Bool} {b : Bool}
    (h : x.map (fun a => a.any f) = .ok b) :
    x.toOption.join.map f = some true ↔ b = true := by
  rcases x with _ | a
  · cases h
  · obtain rfl := Except.ok.inj h
    rcases a with _ | a <;> simp [Except.toOption]

theorem truth_of_likeText {pattern : String} {s : Option String} {b : Bool}
    (h : likeText pattern s = .ok b) :
    (s.bind fun s => (likeText pattern (some s)).toOption) = some true ↔ b = true := by
  simp only [likeText] at h ⊢
  split at h
  · cases h
  · rename_i hlong
    obtain rfl := Except.ok.inj h
    rcases s with _ | s <;> simp [hlong, Except.toOption]

mutual

/-- A clause that is not refused holds exactly if it is true : what is unknown does not hold. -/
theorem truth_eq_true_iff {b : Bool} :
    ∀ {c : Clause}, c.holds p = .ok b → (c.truth p = some true ↔ b = true)
  | .number _ _ _, h => by
    rw [Clause.holds] at h
    rw [Clause.truth]
    exact truth_of_map h
  | .text _ _ _, h => by
    rw [Clause.holds] at h
    rw [Clause.truth]
    exact truth_of_map h
  | .isNull column, h => by
    rw [Clause.holds] at h
    rw [Clause.truth]
    rcases ht : textCell p column with _ | s <;> rw [ht] at h
    · cases h
    · obtain rfl := Except.ok.inj h
      exact Option.some_inj
  | .isNotNull column, h => by
    rw [Clause.holds] at h
    rw [Clause.truth]
    rcases ht : textCell p column with _ | s <;> rw [ht] at h
    · cases h
    · obtain rfl := Except.ok.inj h
      exact Option.some_inj
  | .contains column pattern, h => by
    rw [Clause.holds] at h
    rw [Clause.truth]
    rcases ht : textCell p column with _ | s <;> rw [ht] at h
    · cases h
    · exact truth_of_likeText h
  | .all cs, h => by
    rw [Clause.holds] at h
    rw [Clause.truth]
    exact allTruth_eq_true_iff h
  | .any cs, h => by
    rw [Clause.holds] at h
    rw [Clause.truth]
    exact anyTruth_eq_true_iff h

theorem allTruth_eq_true_iff {b : Bool} :
    ∀ {cs : List Clause}, Clause.allHold p cs = .ok b →
      (Clause.allTruth p cs = some true ↔ b = true)
  | [], h => by
    obtain rfl := Except.ok.inj h
    exact iff_of_true rfl rfl
  | c :: cs, h => by
    rw [Clause.allHold] at h
    rw [Clause.allTruth, andTruth_eq_true]
    rcases hc : c.holds p with _ | _ | _ <;> rw [hc] at h
    · cases h
    · obtain rfl := Except.ok.inj h
      simp [truth_eq_true_iff hc]
    · rw [truth_eq_true_iff hc, allTruth_eq_true_iff h, eq_self, true_and]

theorem anyTruth_eq_true_iff {b : Bool} :
    ∀ {cs : List Clause}, Clause.anyHolds p cs = .ok b →
      (Clause.anyTruth p cs = some true ↔ b = true)
  | [], h => by
    obtain rfl := Except.ok.inj h
    exact iff_of_false nofun nofun
  | c :: cs, h => by
    rw [Clause.anyHolds] at h
    rw [Clause.anyTruth, orTruth_eq_true]
    rcases hc : c.holds p with _ | _ | _ <;> rw [hc] at h
    · cases h
    · rw [truth_eq_true_iff hc, anyTruth_eq_true_iff h]
      simp
    · obtain rfl := Except.ok.inj h
      simp [truth_eq_true_iff hc]

end

end Tabula
