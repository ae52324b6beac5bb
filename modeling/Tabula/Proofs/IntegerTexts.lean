import Tabula.Proofs.IntegerFilters
import Tabula.Proofs.JsonTexts
import Tabula.Proofs.Retyping

/-!
# Integers in texts

Under a number column the text of an integer is read as the float nearest the integer
(`Value.textNumber?_integerText`). This float is whole (`Magnitude.isInteger_ofRatio`), so an integer
is stored, and it is the one in the text exactly if that one has at most 53 significant bits
(`Binary64.truncate_ofInt_iff`). A column of such texts is made a number column without a change of
any value exactly if all its integers have so few (`Workspace.retyped_integerTexts_iff`).
-/

namespace Tabula

open Store

/-! ## Integers that are floats -/

/-- The integer has at most 53 significant bits. -/
def FitsFloat (n : Int) : Prop := ∃ k e, k < 2 ^ 53 ∧ n.natAbs = k * 2 ^ e

theorem fitsFloat_of_le {n : Int} (h : n.natAbs ≤ 2 ^ 53) : FitsFloat n := by
  rcases h.lt_or_eq with hlt | heq
  · exact ⟨n.natAbs, 0, hlt, (Nat.mul_one _).symm⟩
  · exact ⟨1, 53, by decide, by rw [heq, Nat.one_mul]⟩

namespace Magnitude

variable {k : Nat}

theorem units_ofRatio_shifted {e : Nat} (hk : k < 2 ^ 53) (hlt : k * 2 ^ e < 2 ^ 64) :
    (ofRatio (k * 2 ^ e) 1).units = k * 2 ^ e * unitsPerOne := by
  rcases Nat.eq_zero_or_pos k with rfl | hpos
  · rw [Nat.zero_mul, units_ofRatio (Nat.zero_le _)]
  obtain ⟨sig, t, hunits, hlow, hhigh⟩ := exists_significand hpos hk
  refine units_ofRatio_of_significand (t := t + e) hlt ?_ hlow hhigh
  rw [Nat.mul_right_comm, hunits, Nat.pow_add, Nat.mul_assoc]

theorem exists_unitsPerOne : ∃ u, unitsPerOne = 2 ^ u := by
  have hpow : ∀ e, ∃ u, 1 <<< e = 2 ^ u := fun e => ⟨e, Nat.one_shiftLeft e⟩
  exact hpow 1074

/-- A size above `2 ^ 53` is a whole number too, for in its binade the sizes are one or more apart. -/
theorem unitsPerOne_dvd (hk : k < 2 ^ 64) : unitsPerOne ∣ (ofRatio k 1).units := by
  rcases Nat.lt_or_ge (2 ^ 53) k with hlarge | hsmall
  · obtain ⟨t, hlow, hhigh, hrank⟩ := exists_rankOfUnits Nat.one_pos (k * unitsPerOne)
    obtain ⟨u, hu⟩ := exists_unitsPerOne
    have ht : u ≤ t := by
      by_contra hlt
      have hpow : 2 * binadeSize * 2 ^ t ≤ 2 ^ 53 * 2 ^ u :=
        Nat.mul_le_mul_left _ (Nat.pow_le_pow_right (by decide) (not_le.mp hlt).le)
      have hle : 2 ^ 53 * 2 ^ u ≤ k * unitsPerOne := hu ▸ Nat.mul_le_mul_right _ hlarge.le
      rw [Nat.mul_one] at hhigh
      exact absurd hhigh (not_lt.mpr (hpow.trans hle))
    obtain ⟨hfirst, hlast⟩ := roundHalfEven_binade Nat.one_pos hlow hhigh
    rw [units, rank_ofRatio hk, hrank, unitsOfRank_binade hlast hfirst, hu]
    exact (Nat.pow_dvd_pow 2 ht).mul_left _
  · exact units_ofRatio hsmall ▸ Nat.dvd_mul_left _ _

theorem isInteger_ofRatio (hk : k < 2 ^ 64) : (ofRatio k 1).isInteger = true := by
  have hfinite : (Binary64.ofRatio k 1).isFinite = true :=
    Binary64.isFinite_ofRatio (by rwa [Int.natAbs_natCast]) 1
  have hfinite : (ofRatio k 1).isFinite = true := hfinite
  rw [isInteger, hfinite, Nat.mod_eq_zero_of_dvd (unitsPerOne_dvd hk)]
  rfl

/-- The significand of the nearest size has 53 bits, and what is shifted out of it are zeros. -/
theorem floor_ofRatio_iff (hk : k < 2 ^ 64) :
    (ofRatio k 1).floor = k ↔ ∃ j e, j < 2 ^ 53 ∧ k = j * 2 ^ e := by
  constructor
  · intro hfloor
    obtain ⟨s, sig, hrank, hsig, hnormal⟩ := exists_binade (ofRatio k 1).rank
    have hunits : k * unitsPerOne = sig * 2 ^ s := by
      rw [← unitsOfRank_binade hsig.le hnormal, ← hrank, ← units,
        ← Nat.div_mul_cancel (unitsPerOne_dvd hk), ← floor, hfloor]
    obtain ⟨u, hu⟩ := exists_unitsPerOne
    rw [hu] at hunits
    rcases Nat.le_total u s with hs | hs
    · refine ⟨sig, s - u, hsig, Nat.eq_of_mul_eq_mul_right (Nat.two_pow_pos u) ?_⟩
      rw [hunits, Nat.mul_assoc, ← Nat.pow_add, Nat.sub_add_cancel hs]
    · refine ⟨k, 0, ?_, (Nat.mul_one _).symm⟩
      have hle : k * 2 ^ s ≤ sig * 2 ^ s :=
        hunits ▸ Nat.mul_le_mul_left k (Nat.pow_le_pow_right (by decide) hs)
      exact (Nat.le_of_mul_le_mul_right hle (Nat.two_pow_pos s)).trans_lt hsig
  · rintro ⟨j, e, hj, rfl⟩
    rw [floor, units_ofRatio_shifted hj hk, Nat.mul_div_cancel _ unitsPerOne_pos]

end Magnitude

namespace Binary64

variable {n : Int}

theorem isInteger_ofInt (hn : fitsInteger n = true) : (ofInt n).isInteger = true :=
  Magnitude.isInteger_ofRatio (natAbs_lt_of_fitsInteger hn)

/-- An integer is its nearest float exactly if it has at most 53 significant bits. -/
theorem truncate_ofInt_iff (hn : fitsInteger n = true) : (ofInt n).truncate = n ↔ FitsFloat n := by
  rw [FitsFloat, ← Magnitude.floor_ofRatio_iff (natAbs_lt_of_fitsInteger hn), ofInt, ofRatio]
  by_cases h : n < 0
  · rw [decide_eq_true h, truncate]
    omega
  · rw [decide_eq_false h, truncate]
    omega

end Binary64

/-! ## Reading the text of an integer -/

theorem begins_of_mem_integerText {n : Int} {c : Char} (h : c ∈ (integerText n).toList) :
    Json.Begins c := by
  rcases eq_or_isDigit_of_mem_integerText h with rfl | h
  · exact ⟨by decide, by decide, by decide⟩
  · exact .of_isDigit h

namespace Text

variable {cs : List Char}

theorem trimChars_eq_self {p : Char → Bool} (h : ∀ c ∈ cs, p c = false) : trimChars p cs = cs := by
  have hkeep : ∀ ds : List Char, (∀ c ∈ ds, p c = false) → ds.dropWhile p = ds := fun ds hds => by
    cases ds with
    | nil => rfl
    | cons d ds => rw [List.dropWhile_cons_of_neg (by simp [hds d List.mem_cons_self])]
  rw [trimChars, hkeep cs h, hkeep cs.reverse fun c hc => h c (List.mem_reverse.mp hc),
    List.reverse_reverse]

theorem plainDigits_eq_self (h : ∀ c ∈ cs, c.toNat < 0x80) : plainDigits cs = cs := by
  rw [plainDigits]
  exact (List.map_congr_left fun c hc => if_pos (h c hc)).trans (List.map_id' cs)

theorem joinDigits?_eq_self (h : ∀ c ∈ cs, c ≠ '_') (afterDigit : Bool) :
    joinDigits? afterDigit cs = some cs := by
  induction cs generalizing afterDigit with
  | nil => rfl
  | cons c cs ih =>
    obtain ⟨hc, hcs⟩ := List.forall_mem_cons.mp h
    rw [joinDigits?, ih hcs]
    · rfl
    · exact fun _ _ heq _ => absurd heq hc
    · exact fun heq _ => absurd heq hc

theorem takeSign_signChars (negative : Bool) {d : Char} (hd : d.isDigit = true) (ds : List Char) :
    takeSign (Json.signChars negative (d :: ds)) = (negative, d :: ds) := by
  cases negative with
  | false =>
    have hminus : d ≠ '-' := Json.ne_of_isDigit hd (by decide)
    have hplus : d ≠ '+' := Json.ne_of_isDigit hd (by decide)
    simp [Json.signChars, takeSign, hminus, hplus]
  | true => rfl

theorem spanDigits_eq_self (h : ∀ c ∈ cs, c.isDigit = true) : spanDigits cs = (cs, []) := by
  rw [spanDigits, List.takeWhile_eq_self_iff.mpr h, List.dropWhile_eq_nil_iff.mpr h]

end Text

theorem takeScientific?_digits {ds : List Char} (hds : ∀ d ∈ ds, d.isDigit = true) (hne : ds ≠ []) :
    takeScientific? ds = some (⟨Nat.ofDigitChars 10 ds 0, 0⟩, []) := by
  simp [takeScientific?, Text.spanDigits_eq_self hds, takeFraction, takeExponent?, hne]

/-- A digit begins none of the words for infinity and for no number. -/
theorem ofList_ne_of_isDigit {d : Char} (hd : d.isDigit = true) (ds : List Char) {c : Char}
    (cs : List Char) (hc : c.isDigit = false) :
    String.ofList ((d :: ds).map Char.toLower) ≠ String.ofList (c :: cs) := by
  intro h
  have hlower : d.toLower = d := by
    have hnine : d.toNat ≤ 57 := (Char.isDigit_iff_toNat.mp hd).2
    refine dif_neg ?_
    rintro ⟨hlow, -⟩
    have hlow : 65 ≤ d.toNat := hlow
    omega
  have hhead := (List.cons.inj (String.ofList_injective h)).1
  rw [hlower] at hhead
  rw [hhead, hc] at hd
  cases hd

namespace Binary64

theorem ofDecimal_integer (negative : Bool) {k : Nat} (hk : (Nat.toDigits 10 k).length ≤ 310) :
    ofDecimal negative k 0 = signed negative (.ofRatio k 1) := by
  rcases Nat.eq_zero_or_pos k with rfl | hpos
  · have hzero : Magnitude.ofRatio 0 1 = .zero := by decide +kernel
    rw [hzero]
    rfl
  · have hnot : (decide (k = 0) || decide ((Nat.toDigits 10 k).length + (0 : Int) < -330)) = false := by
      simp only [Bool.or_eq_false_iff, decide_eq_false_iff_not]
      omega
    rw [ofDecimal]
    simp only [hnot, Bool.false_eq_true, if_false, if_neg (show ¬ 310 < (Nat.toDigits 10 k).length + (0 : Int) by omega),
      Int.le_refl, if_true, Int.toNat_zero, Nat.pow_eq, Nat.pow_zero, Nat.mul_one]

/-- The text of an integer is read as the float nearest the integer. -/
theorem ofText?_integerText {n : Int} (hn : (Nat.toDigits 10 n.natAbs).length ≤ 310) :
    ofText? (integerText n) = some (ofInt n) := by
  obtain ⟨d, ds, hd, hdigit⟩ := Json.exists_cons_repr n.natAbs
  have hdigits : ∀ c ∈ d :: ds, c.isDigit = true := fun c hc => isDigit_of_mem_repr (hd ▸ hc)
  have hchars : (integerText n).toList = Json.signChars (n < 0) (d :: ds) := by
    rw [Json.toList_integerText, hd]
  have hplain : Text.plainDigits (integerText n).toList = (integerText n).toList :=
    Text.plainDigits_eq_self fun c hc =>
      (begins_of_mem_integerText hc).high.trans (by decide)
  have htrim : Text.trimChars Text.isAsciiBlank (integerText n).toList = (integerText n).toList :=
    Text.trimChars_eq_self fun c hc => Bool.eq_false_iff.mpr fun hblank => by
      have := (begins_of_mem_integerText hc).not_isBlank_text
      rw [Text.isBlank_of_isAsciiBlank hblank] at this
      cases this
  have hjoin : Text.joinDigits? false (integerText n).toList = some (integerText n).toList :=
    Text.joinDigits?_eq_self (fun c hc hmark => by
      rcases eq_or_isDigit_of_mem_integerText hc with rfl | hc
      · cases hmark
      · exact Json.ne_of_isDigit hc (by decide) hmark) false
  have hvalue : Nat.ofDigitChars 10 (d :: ds) 0 = n.natAbs := by
    rw [← hd, Nat.toList_repr, Nat.ofDigitChars_ten_toDigits]
  have hword : ∀ c cs, c.isDigit = false →
      String.ofList ((d :: ds).map Char.toLower) ≠ String.ofList (c :: cs) := fun c cs =>
    ofList_ne_of_isDigit hdigit ds cs
  rw [ofText?, hplain, htrim, hjoin]
  simp only [Option.bind_eq_bind, Option.bind_some, hchars, Text.takeSign_signChars _ hdigit]
  rw [if_neg, if_neg, takeScientific?_digits hdigits (List.cons_ne_nil d ds), hvalue]
  · exact congrArg some (ofDecimal_integer _ hn)
  · exact hword 'n' ['a', 'n'] (by decide)
  · rw [Bool.or_eq_true, decide_eq_true_eq, decide_eq_true_eq]
    exact not_or.mpr ⟨hword 'i' ['n', 'f'] (by decide),
      hword 'i' ['n', 'f', 'i', 'n', 'i', 't', 'y'] (by decide)⟩

end Binary64

/-- The numeric view of the text of an integer that can be stored. -/
theorem Value.textNumber?_integerText {n : Int} (hn : fitsInteger n = true) :
    textNumber? (integerText n) = some (.ofInt n) := by
  have hlt := natAbs_lt_of_fitsInteger hn
  have hlength : (Nat.toDigits 10 n.natAbs).length ≤ 310 :=
    ((Nat.length_toDigits_le_iff (k := 20) (by decide) (by decide)).mpr
      (hlt.trans (by decide))).trans (by decide)
  have htrim : Text.trim (integerText n) = integerText n := by
    rw [Text.trim, Text.trimChars_eq_self fun c hc =>
      (begins_of_mem_integerText hc).not_isBlank_text, String.ofList_toList]
  have hfinite : (Binary64.ofInt n).isFinite = true := Binary64.isFinite_ofRatio hlt 1
  rw [textNumber?, htrim, Binary64.ofText?_integerText hlength, Option.filter_some, if_pos hfinite]

namespace ColumnType

variable {n : Int}

/-- Under a number column the text of an integer becomes the integer that the nearest float is. -/
theorem coerce_integerText (hn : fitsInteger n = true) :
    coerce .number (.text (integerText n)) = .ok (.int (Binary64.ofInt n).truncate) := by
  have hne : integerText n ≠ "" := fun h => by
    obtain ⟨d, ds, hd, -⟩ := Json.exists_cons_repr n.natAbs
    have hnil : Json.signChars (n < 0) (d :: ds) = [] := by
      rw [← hd, ← Json.toList_integerText, h]
      rfl
    cases hneg : decide (n < 0) <;> rw [hneg] at hnil <;> cases hnil
  refine coerce_number_text_iff.mpr (.inr ⟨hne, _, Value.textNumber?_integerText hn, ?_⟩)
  rw [storedNumber, if_pos (Binary64.isInteger_ofInt hn)]

theorem coerce_text_int (n : Int) : coerce .text (.int n) = .ok (.text (integerText n)) := rfl

/-- Integers are told apart by the texts they are shown as. -/
theorem coerce_text_int_iff {m : Int} :
    coerce .text (.int m) = .ok (.text (integerText n)) ↔ m = n := by
  rw [coerce_text_int]
  refine ⟨fun h => ?_, fun h => by rw [h]⟩
  exact Int.repr_inj.mp (Value.text.inj (Except.ok.inj h))

end ColumnType

/-! ## A column of integer texts -/

/-- The cell of the column is the text of an integer that can be stored. -/
def Row.HasIntegerText (column : String) (n : Int) (r : Row) : Prop :=
  fitsInteger n = true ∧ r.payload.cells.get? column = some (.text (integerText n))

namespace Workspace

variable {table column : String} {rows rows' : Rows}

/-- The cells of a column of a table, where there are any, are texts of integers. -/
def HoldsIntegerTexts (table column : String) (rows : Rows) : Prop :=
  ∀ r ∈ rows, r.table = table → ∀ v, r.payload.cells.get? column = some v →
    ∃ n, r.HasIntegerText column n

/-- Every integer of which the column of the table held the text is in its place. -/
def KeepsIntegers (table column : String) (rows rows' : Rows) : Prop :=
  List.Forall₂ (fun r r' => r.table = table → ∀ n, r.HasIntegerText column n →
    r'.payload.cells.get? column = some (.int n)) rows rows'

theorem HoldsIntegerTexts.hasNumber (h : HoldsIntegerTexts table column rows) :
    ∀ r ∈ rows, r.table = table → HasNumber column r := by
  intro r hr htable v hv
  obtain ⟨n, hn, hcell⟩ := h r hr htable v hv
  obtain rfl := Option.some.inj (hv.symm.trans hcell)
  exact ⟨_, ColumnType.coerce_integerText hn⟩

/-- The cell of a row that is converted is the integer its text is read as. -/
theorem cell_of_retyped {r r' : Row} {n : Int} (h : r.Retyped column r')
    (hn : r.HasIntegerText column n) :
    r'.payload.cells.get? column = some (.int (Binary64.ofInt n).truncate) := by
  obtain ⟨v, hv, hcell⟩ := h.cell _ hn.2
  rw [ColumnType.coerce_integerText hn.1] at hv
  rw [hcell, ← Except.ok.inj hv]

theorem keepsIntegers_iff (h : RowsRetyped table column rows rows') :
    KeepsIntegers table column rows rows' ↔
      ∀ r ∈ rows, r.table = table → ∀ n, r.HasIntegerText column n → FitsFloat n := by
  rw [KeepsIntegers]
  induction h with
  | nil => simp
  | @cons r r' rows rows' hrow _ ih =>
    rw [List.forall₂_cons, List.forall_mem_cons, ih]
    refine and_congr_left fun _ => forall_congr' fun htable => forall₂_congr fun n hn => ?_
    rw [if_pos htable] at hrow
    rw [cell_of_retyped hrow hn, ← Binary64.truncate_ofInt_iff hn.1]
    simp

end Workspace

open ColumnType Workspace

/-- An integer that is entered as a number and as a text. The number is stored as it is. The text is
stored as the integer that the nearest float is, and this is the integer of the text, which is then
also shown by this text, exactly if it has at most 53 significant bits, as all up to `2 ^ 53` have.
So a text column of integers is made a number column without a change of any value exactly if each
of its integers has so few. -/
theorem integerTexts_kept_iff {n : Int} (hn : fitsInteger n = true) :
    coerce .number (.int n) = .ok (.int n) ∧
    (∃ m, coerce .number (.text (integerText n)) = .ok (.int m) ∧
      m = (Binary64.ofInt n).truncate ∧ (m = n ↔ FitsFloat n) ∧
      (coerce .text (.int m) = .ok (.text (integerText n)) ↔ FitsFloat n) ∧
      (n.natAbs ≤ 2 ^ 53 → m = n)) ∧
    ∀ (s : Surroundings) (w : World) (db : Database) (actor id : String) (name type order : Value)
      (c c' : Column), w.storage = .ready db → Catalog.ownColumn actor id db = .ok c →
      Converts type c → Catalog.editedColumn name type order c = .ok c' →
      HoldsIntegerTexts c.table id db.rows →
      ∃ rows', updateColumn actor id name type order s w =
          (.ok c'.toValue, w.withDatabase ((db.withRows rows').withColumn c')) ∧
        RowsRetyped c.table id db.rows rows' ∧
        (KeepsIntegers c.table id db.rows rows' ↔
          ∀ r ∈ db.rows, r.table = c.table → ∀ n, r.HasIntegerText id n → FitsFloat n) := by
  refine ⟨rfl, ⟨_, coerce_integerText hn, rfl, ?_⟩, ?_⟩
  · have hexact := Binary64.truncate_ofInt_iff hn
    exact ⟨hexact, coerce_text_int_iff.trans hexact, fun hle => hexact.mpr (fitsFloat_of_le hle)⟩
  · intro s w db actor id name type order c c' hw hown hconverts hedit hcells
    have hrun := run_updateColumn_of_converts (s := s) name order hw hown hconverts hcells.hasNumber
    rw [hedit] at hrun
    have hrows := rowsRetyped_retypedRows s.now hcells.hasNumber
    exact ⟨_, hrun, hrows, keepsIntegers_iff hrows⟩

/-- The text of a power of two, in a column that is made a number column. -/
theorem integerTexts_kept_of_power :
    coerce .number (.text (integerText (2 ^ 60))) = .ok (.int (2 ^ 60)) ∧
    ∃ rows', updateColumn "u" "c" .null (.text "NUMBER") .null textSurroundings
        (textWorld (integerText (2 ^ 60))) =
      (.ok (Column.toValue ⟨"c", "t", "Column", .number, 0, ⟨0⟩⟩),
        (textWorld (integerText (2 ^ 60))).withDatabase
          (((textSample (integerText (2 ^ 60))).withRows rows').withColumn
            ⟨"c", "t", "Column", .number, 0, ⟨0⟩⟩)) ∧
      KeepsIntegers "t" "c" (textSample (integerText (2 ^ 60))).rows rows' := by
  have hpower : FitsFloat (2 ^ 60) := ⟨1, 60, by decide, by decide⟩
  have hedit : Catalog.editedColumn .null (.text "NUMBER") .null
      ⟨"c", "t", "Column", .text, 0, ⟨0⟩⟩ = .ok ⟨"c", "t", "Column", .number, 0, ⟨0⟩⟩ := by
    rw [Catalog.editedColumn_eq, converts_textSample.2]
    rfl
  have hcell : ∀ r ∈ (textSample (integerText (2 ^ 60))).rows,
      r.payload.cells.get? "c" = some (.text (integerText (2 ^ 60))) := fun r hr => by
    rw [List.mem_singleton.mp hr]
    rfl
  obtain ⟨-, ⟨m, hm, -, hexact, -⟩, hretyped⟩ := @integerTexts_kept_iff (2 ^ 60) (by decide)
  obtain ⟨rows', hrun, -, hkept⟩ := hretyped textSurroundings (textWorld (integerText (2 ^ 60))) _
    "u" "c" .null (.text "NUMBER") .null _ _ rfl rfl converts_textSample hedit
    fun r hr _ _ _ => ⟨2 ^ 60, by decide, hcell r hr⟩
  rw [hexact.mpr hpower] at hm
  refine ⟨hm, rows', hrun, hkept.mpr fun r hr _ n hn => ?_⟩
  have hsame := Option.some.inj ((hcell r hr).symm.trans hn.2)
  have hn : 2 ^ 60 = n := coerce_text_int_iff.mp (congrArg Except.ok hsame)
  exact hn ▸ hpower

/-- The number is stored as it is, and its text as another number. -/
theorem integerText_changed :
    coerce .number (.int 9007199254740993) = .ok (.int 9007199254740993) ∧
      coerce .number (.text "9007199254740993") = .ok (.int 9007199254740992) := by
  have hnearest : (Binary64.ofInt 9007199254740993).truncate = 9007199254740992 := by decide +kernel
  have htext : integerText 9007199254740993 = "9007199254740993" := by decide +kernel
  have hfits : fitsInteger 9007199254740993 = true := by decide
  rw [← htext, coerce_integerText hfits, hnearest]
  exact ⟨rfl, rfl⟩

end Tabula
