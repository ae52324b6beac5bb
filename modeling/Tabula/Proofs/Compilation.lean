import Tabula.Proofs.KeySorting
import Tabula.Proofs.QueryForms

/-!
# What compiling answers

Conditions are compiled in turn, and so are sort keys : the first one that does not compile is the
one that the failure is about (`mapM_eq_error_iff`). Of a condition there are three causes
(`Condition.Stops`), of a sort key one, and the filter and the sort may be malformed (`Stops`). All
but two of the causes are answers to the caller. The exceptions are an operand beyond the largest
float, which has no numeric view and is a fault instead (`ComparesLarge`), and a text that is nested
deeper than it is read (`ReachesBuried`).

A test of a plan fails for such an integer too, in the cell that it is asked about. Which tests are
asked depends on those before them, with which a conjunction ends at the first that fails and a
disjunction at the first that holds (`Selection.MeetsLarge`). A sort asks for all values
(`sortRows_error`). `compile_answers_iff` says all of this at once.
-/

namespace Tabula

/-! ## The item that decides -/

section

variable {ε α β : Type} {goes stops : α → Prop} {x : α} {xs : List α}

/-- Some item stops, and all those before it go on. -/
def StopsAt (goes stops : α → Prop) (xs : List α) : Prop :=
  ∃ pre x post, xs = pre ++ x :: post ∧ (∀ y ∈ pre, goes y) ∧ stops x

theorem not_stopsAt_nil : ¬StopsAt goes stops [] := by
  rintro ⟨pre, x, post, h, -⟩
  simp at h

theorem stopsAt_cons : StopsAt goes stops (x :: xs) ↔ stops x ∨ goes x ∧ StopsAt goes stops xs := by
  constructor
  · rintro ⟨_ | ⟨y, pre⟩, z, post, h, hpre, hz⟩
    · obtain ⟨rfl, rfl⟩ := List.cons.inj h
      exact .inl hz
    · obtain ⟨rfl, rfl⟩ := List.cons.inj h
      obtain ⟨hy, hpre⟩ := List.forall_mem_cons.mp hpre
      exact .inr ⟨hy, pre, z, post, rfl, hpre, hz⟩
  · rintro (hx | ⟨hx, pre, z, post, rfl, hpre, hz⟩)
    · exact ⟨[], x, xs, rfl, by simp, hx⟩
    · exact ⟨x :: pre, z, post, rfl, List.forall_mem_cons.mpr ⟨hx, hpre⟩, hz⟩

theorem StopsAt.exists_mem (h : StopsAt goes stops xs) : ∃ x ∈ xs, stops x := by
  obtain ⟨pre, x, post, rfl, -, hx⟩ := h
  exact ⟨x, by simp, hx⟩

theorem StopsAt.imp {stops' : α → Prop} (h : StopsAt goes stops xs)
    (himp : ∀ x, stops x → stops' x) : StopsAt goes stops' xs := by
  obtain ⟨pre, x, post, hxs, hpre, hx⟩ := h
  exact ⟨pre, x, post, hxs, hpre, himp x hx⟩

theorem mapM_eq_error_iff {f : α → Except ε β} {e : ε} :
    xs.mapM f = .error e ↔ StopsAt (fun x => ∃ y, f x = .ok y) (fun x => f x = .error e) xs := by
  induction xs with
  | nil => exact iff_of_false nofun not_stopsAt_nil
  | cons x xs ih =>
    rw [stopsAt_cons, ← ih, List.mapM_cons]
    rcases f x with why | y
    · simp [bind, Except.bind]
    · rcases xs.mapM f with why | ys <;> simp [bind, Except.bind, pure, Except.pure]

theorem allM_eq_error_iff {f : α → Except ε Bool} {e : ε} :
    xs.allM f = .error e ↔ StopsAt (fun x => f x = .ok true) (fun x => f x = .error e) xs := by
  induction xs with
  | nil => exact iff_of_false nofun not_stopsAt_nil
  | cons x xs ih =>
    rw [stopsAt_cons, ← ih, List.allM]
    rcases f x with why | _ | _ <;> simp [bind, Except.bind, pure, Except.pure]

theorem anyM_eq_error_iff {f : α → Except ε Bool} {e : ε} :
    xs.anyM f = .error e ↔ StopsAt (fun x => f x = .ok false) (fun x => f x = .error e) xs := by
  induction xs with
  | nil => exact iff_of_false nofun not_stopsAt_nil
  | cons x xs ih =>
    rw [stopsAt_cons, ← ih, List.anyM]
    rcases f x with why | _ | _ <;> simp [bind, Except.bind, pure, Except.pure]

end

namespace Query

variable {types : ColumnTypes} {filter sort : Value} {e : Failure}

/-! ## One condition -/

/-- The column is not among those whose types are known. -/
def Outside (types : ColumnTypes) (column : String) : Prop :=
  ∃ known, types = some known ∧ known.lookup column = none

theorem typeOf_eq_error_iff {column : String} :
    typeOf types column = .error e ↔ Outside types column ∧ e = .notFound .column column := by
  rcases types with _ | known
  · constructor
    · intro h
      cases h
    · rintro ⟨⟨_, h, -⟩, -⟩
      cases h
  · rcases h : known.lookup column with _ | type
    · rw [typeOf, h, Except.error.injEq, eq_comm]
      exact ⟨fun he => ⟨⟨known, rfl, h⟩, he⟩, And.right⟩
    · rw [typeOf, h]
      constructor
      · intro hok
        cases hok
      · rintro ⟨⟨_, heq, hnone⟩, -⟩
        obtain rfl := Option.some.inj heq
        cases h.symm.trans hnone

/-- A comparison fails for a number column, with a value that is no number or none that a float
comes near. -/
theorem comparisonTest_eq_error_iff {type : ColumnType} {comparison : Comparison} {v : Value} :
    comparisonTest type comparison v = .error e ↔ type = .number ∧
      (v.number = .ok none ∧ e = .invalid (.number v) ∨
        ¬v.InRange ∧ e = .fault .floatTooLarge) := by
  cases type with
  | text => simp [comparisonTest]
  | number =>
    by_cases hv : v.InRange
    · obtain ⟨_ | x, hx, -⟩ := Value.number_eq_ok hv
      · have hcompare : comparisonTest .number comparison v = .error (.invalid (.number v)) := by
          rw [comparisonTest, hx]
          rfl
        simp [hcompare, hx, hv, eq_comm]
      · have hcompare : comparisonTest .number comparison v = .ok (.number comparison x) := by
          rw [comparisonTest, hx]
          rfl
        simp [hcompare, hx, hv]
    · have hcompare : comparisonTest .number comparison v = .error (.fault .floatTooLarge) := by
        rw [comparisonTest, Value.number_eq_error hv]
        rfl
      simp [hcompare, Value.number_eq_error hv, hv, eq_comm]

namespace Condition

variable {c : Condition}

/-- The condition compares the cells of a number column. -/
def ComparesNumbers (types : ColumnTypes) (c : Condition) : Prop :=
  typeOf types c.column = .ok .number ∧ c.operator.isComparison = true

/-- Why a condition does not compile : its column is not known, or it compares a number column with
a value that is no number, or with an integer beyond the largest float. -/
inductive Stops (types : ColumnTypes) (c : Condition) : Failure → Prop
  | unknown (h : Outside types c.column) : Stops types c (.notFound .column c.column)
  | notNumber (h : c.ComparesNumbers types) (hv : c.value.number = .ok none) :
    Stops types c (.invalid (.number c.value))
  | tooLarge (h : c.ComparesNumbers types) (hv : ¬c.value.InRange) :
    Stops types c (.fault .floatTooLarge)

/-- The test of a condition on a column of a type. -/
def testFor (type : ColumnType) (c : Condition) : Except Failure Test :=
  match c.operator with
  | .equals => comparisonTest type .equals c.value
  | .greaterThan => comparisonTest type .greaterThan c.value
  | .lessThan => comparisonTest type .lessThan c.value
  | .contains => .ok (.contains c.value)
  | .isEmpty => .ok .isEmpty
  | .isNotEmpty => .ok .isNotEmpty

theorem compile_eq_bind (types : ColumnTypes) (c : Condition) :
    c.compile types = typeOf types c.column >>= fun type =>
      c.testFor type >>= fun test => .ok ⟨c.column, test⟩ := by
  rw [compile]
  refine bind_congr fun type => ?_
  rw [testFor]
  cases c.operator <;> rfl

theorem testFor_eq_error_iff {type : ColumnType} :
    c.testFor type = .error e ↔ c.operator.isComparison = true ∧ type = .number ∧
      (c.value.number = .ok none ∧ e = .invalid (.number c.value) ∨
        ¬c.value.InRange ∧ e = .fault .floatTooLarge) := by
  rw [testFor]
  cases hop : c.operator with
  | equals | greaterThan | lessThan => simp [Operator.isComparison, comparisonTest_eq_error_iff]
  | _ => simp [Operator.isComparison]

theorem compile_eq_error_iff : c.compile types = .error e ↔ c.Stops types e := by
  rw [compile_eq_bind]
  rcases htype : typeOf types c.column with why | type
  · obtain ⟨hout, rfl⟩ := typeOf_eq_error_iff.mp htype
    constructor
    · intro h
      obtain rfl := Except.error.inj h
      exact .unknown hout
    · rintro (_ | ⟨h, -⟩ | ⟨h, -⟩)
      · rfl
      · cases htype.symm.trans h.1
      · cases htype.symm.trans h.1
  · have hknown : ¬Outside types c.column := fun hout => by
      cases htype.symm.trans (typeOf_eq_error_iff.mpr ⟨hout, rfl⟩)
    have herror : ((c.testFor type >>= fun test => .ok (⟨c.column, test⟩ : ColumnTest)) =
        .error e) ↔ c.testFor type = .error e := by simp [bind_eq_error_iff]
    rw [ok_bind, herror, testFor_eq_error_iff]
    constructor
    · rintro ⟨hop, rfl, ⟨hv, rfl⟩ | ⟨hv, rfl⟩⟩
      · exact .notNumber ⟨htype, hop⟩ hv
      · exact .tooLarge ⟨htype, hop⟩ hv
    · rintro (hout | ⟨⟨hnumber, hop⟩, hv⟩ | ⟨⟨hnumber, hop⟩, hv⟩)
      · exact absurd hout hknown
      · exact ⟨hop, Except.ok.inj (htype.symm.trans hnumber), .inl ⟨hv, rfl⟩⟩
      · exact ⟨hop, Except.ok.inj (htype.symm.trans hnumber), .inr ⟨hv, rfl⟩⟩

end Condition

/-! ## A filter and a sort -/

theorem SortKey.compile_eq_error_iff {k : SortKey} :
    k.compile types = .error e ↔ Outside types k.column ∧ e = .notFound .column k.column := by
  rw [← typeOf_eq_error_iff, compile, bind_eq_error_iff]
  simp [pure, Except.pure]

/-- Why a filter and a sort do not compile. The filter comes first, and of the conditions as of the
sort keys the first one that does not compile. -/
inductive Stops (types : ColumnTypes) (filter sort : Value) : Failure → Prop
  | malformedFilter {why : Invalid} (h : Filter.parse filter = .error (.invalid why)) :
    Stops types filter sort (.invalid why)
  | buriedFilter (h : Buried filter) : Stops types filter sort (.fault .tooDeep)
  | condition {f : Filter} {e : Failure} (hf : Filter.parse filter = .ok f)
    (h : StopsAt (fun c => ∃ t, Condition.compile types c = .ok t)
      (fun c => Condition.Stops types c e) f.conditions) : Stops types filter sort e
  | malformedSort {selection : Selection} {why : Invalid}
    (hfilter : compileFilter types filter = .ok selection)
    (h : parseSort sort = .error (.invalid why)) : Stops types filter sort (.invalid why)
  | buriedSort {selection : Selection} (hfilter : compileFilter types filter = .ok selection)
    (h : Buried sort) : Stops types filter sort (.fault .tooDeep)
  | key {selection : Selection} {keys : List SortKey} {column : String}
    (hfilter : compileFilter types filter = .ok selection) (hkeys : parseSort sort = .ok keys)
    (h : StopsAt (fun k => ∃ o, SortKey.compile types k = .ok o)
      (fun k => Outside types k.column ∧ k.column = column) keys) :
    Stops types filter sort (.notFound .column column)

theorem Filter.compile_eq_error_iff {f : Filter} :
    f.compile types = .error e ↔
      StopsAt (fun c => ∃ t, Condition.compile types c = .ok t)
        (fun c => Condition.Stops types c e) f.conditions := by
  simp only [← Condition.compile_eq_error_iff]
  rw [← mapM_eq_error_iff, compile, bind_eq_error_iff]
  simp [pure, Except.pure]

theorem compileSort_eq_error_iff {keys : List SortKey} :
    compileSort types keys = .error e ↔
      ∃ column, e = .notFound .column column ∧
        StopsAt (fun k => ∃ o, SortKey.compile types k = .ok o)
          (fun k => Outside types k.column ∧ k.column = column) keys := by
  rw [compileSort, mapM_eq_error_iff]
  simp only [SortKey.compile_eq_error_iff, StopsAt]
  constructor
  · rintro ⟨pre, k, post, hkeys, hpre, hout, rfl⟩
    exact ⟨k.column, rfl, pre, k, post, hkeys, hpre, hout, rfl⟩
  · rintro ⟨_, rfl, pre, k, post, hkeys, hpre, hout, rfl⟩
    exact ⟨pre, k, post, hkeys, hpre, hout, rfl⟩

theorem compileFilter_eq_error_iff :
    compileFilter types filter = .error e ↔
      (∃ why, Filter.parse filter = .error (.invalid why) ∧ e = .invalid why) ∨
      (Buried filter ∧ e = .fault .tooDeep) ∨
      ∃ f, Filter.parse filter = .ok f ∧
        StopsAt (fun c => ∃ t, Condition.compile types c = .ok t)
          (fun c => Condition.Stops types c e) f.conditions := by
  rw [compileFilter, bind_eq_error_iff, Filter.reader.eq_error_iff, or_assoc]
  simp only [Filter.compile_eq_error_iff]

theorem compile_eq_error_iff :
    compile types filter sort = .error e ↔ Stops types filter sort e := by
  have hpair : ∀ (selection : Selection) (keys : List SortKey),
      ((compileSort types keys >>= fun order => pure (⟨selection, order⟩ : Plan)) = .error e ↔
        compileSort types keys = .error e) := fun selection keys => by
    simp [bind_eq_error_iff, pure, Except.pure]
  rw [compile, bind_eq_error_iff]
  simp only [bind_eq_error_iff, hpair]
  constructor
  · rintro (hfilter | ⟨selection, hfilter, hsort | ⟨keys, hkeys, horder⟩⟩)
    · rcases compileFilter_eq_error_iff.mp hfilter with
        ⟨why, hf, rfl⟩ | ⟨hdeep, rfl⟩ | ⟨f, hf, hstops⟩
      · exact .malformedFilter hf
      · exact .buriedFilter hdeep
      · exact .condition hf hstops
    · rcases sortReader.eq_error_iff.mp hsort with ⟨why, hsort, rfl⟩ | ⟨hdeep, rfl⟩
      · exact .malformedSort hfilter hsort
      · exact .buriedSort hfilter hdeep
    · obtain ⟨column, rfl, hstops⟩ := compileSort_eq_error_iff.mp horder
      exact .key hfilter hkeys hstops
  · rintro (h | h | ⟨hf, h⟩ | ⟨hfilter, h⟩ | ⟨hfilter, h⟩ | ⟨hfilter, hkeys, h⟩)
    · exact .inl (compileFilter_eq_error_iff.mpr (.inl ⟨_, h, rfl⟩))
    · exact .inl (compileFilter_eq_error_iff.mpr (.inr (.inl ⟨h, rfl⟩)))
    · exact .inl (compileFilter_eq_error_iff.mpr (.inr (.inr ⟨_, hf, h⟩)))
    · exact .inr ⟨_, hfilter, .inl h⟩
    · exact .inr ⟨_, hfilter, .inl (sortReader.buried sort h)⟩
    · exact .inr ⟨_, hfilter, .inr ⟨_, hkeys, compileSort_eq_error_iff.mpr ⟨_, rfl, h⟩⟩⟩

/-- The filter compares a number column with an integer beyond the largest float, and all conditions
before this one compile. -/
def ComparesLarge (types : ColumnTypes) (filter : Value) : Prop :=
  ∃ f, Filter.parse filter = .ok f ∧
    StopsAt (fun c => ∃ t, Condition.compile types c = .ok t)
      (fun c => c.ComparesNumbers types ∧ ¬c.value.InRange) f.conditions

/-- Compiling comes to a text that is nested too deep : the filter, or the sort behind a filter that
compiles. -/
def ReachesBuried (types : ColumnTypes) (filter sort : Value) : Prop :=
  Buried filter ∨ (∃ selection, compileFilter types filter = .ok selection) ∧ Buried sort

/-- Some condition or sort key is about the column. -/
def Names (filter sort : Value) (column : String) : Prop :=
  (∃ f, Filter.parse filter = .ok f ∧ ∃ c ∈ f.conditions, c.column = column) ∨
    ∃ keys, parseSort sort = .ok keys ∧ ∃ k ∈ keys, k.column = column

/-- A column that is not found is one that the filter or the sort names. -/
theorem Stops.notFound {what : Entity} {id : String}
    (h : Stops types filter sort (.notFound what id)) :
    what = .column ∧ Outside types id ∧ Names filter sort id := by
  rcases h with _ | _ | ⟨hf, h⟩ | _ | _ | ⟨-, hkeys, h⟩
  · obtain ⟨c, hc, hstops⟩ := h.exists_mem
    cases hstops with
    | unknown hout => exact ⟨rfl, hout, .inl ⟨_, hf, c, hc, rfl⟩⟩
  · obtain ⟨k, hk, hout, rfl⟩ := h.exists_mem
    exact ⟨rfl, hout, .inr ⟨_, hkeys, k, hk, rfl⟩⟩

/-- A filter and a sort are refused, a column is not found, an operand is too large, or a text is
nested too deep. -/
theorem Stops.cases (h : Stops types filter sort e) :
    (∃ why, e = .invalid why) ∨ (∃ column, e = .notFound .column column) ∨
      e = .fault .floatTooLarge ∧ ComparesLarge types filter ∨
      e = .fault .tooDeep ∧ ReachesBuried types filter sort := by
  cases h with
  | malformedFilter => exact .inl ⟨_, rfl⟩
  | buriedFilter h => exact .inr (.inr (.inr ⟨rfl, .inl h⟩))
  | condition hf h =>
    obtain ⟨c, -, hstops⟩ := h.exists_mem
    cases hstops with
    | unknown => exact .inr (.inl ⟨_, rfl⟩)
    | notNumber => exact .inl ⟨_, rfl⟩
    | tooLarge =>
      refine .inr (.inr (.inl ⟨rfl, _, hf, h.imp fun c hc => ?_⟩))
      cases hc with
      | tooLarge hnumbers hlarge => exact ⟨hnumbers, hlarge⟩
  | malformedSort => exact .inl ⟨_, rfl⟩
  | buriedSort hfilter h => exact .inr (.inr (.inr ⟨rfl, .inr ⟨⟨_, hfilter⟩, h⟩⟩))
  | key => exact .inr (.inl ⟨_, rfl⟩)

theorem compile_of_comparesLarge (h : ComparesLarge types filter) :
    compile types filter sort = .error (.fault .floatTooLarge) := by
  obtain ⟨f, hf, hstops⟩ := h
  exact compile_eq_error_iff.mpr (.condition hf (hstops.imp fun c hc => .tooLarge hc.1 hc.2))

theorem compile_of_reachesBuried (h : ReachesBuried types filter sort) :
    compile types filter sort = .error (.fault .tooDeep) := by
  rcases h with h | ⟨⟨_, hfilter⟩, h⟩
  · exact compile_eq_error_iff.mpr (.buriedFilter h)
  · exact compile_eq_error_iff.mpr (.buriedSort hfilter h)

/-! ## Plans -/

/-- The test compares numbers and meets an integer beyond the largest float. -/
def ColumnTest.MeetsLarge (cells : Cells) (t : ColumnTest) : Prop :=
  (∃ comparison operand, t.test = .number comparison operand) ∧ ¬(cells.get t.column).InRange

theorem ColumnTest.accepts_eq_error_iff {cells : Cells} {t : ColumnTest} :
    t.accepts cells = .error e ↔ t.MeetsLarge cells ∧ e = .fault .floatTooLarge := by
  rw [accepts, MeetsLarge]
  cases t.test with
  | number comparison operand =>
    rw [Test.accepts, bind_eq_error_iff]
    by_cases hv : (cells.get t.column).InRange
    · obtain ⟨x, hx, -⟩ := Value.number_eq_ok hv
      rcases x with _ | x <;> simp [hx, hv, pure, Except.pure]
    · simp [Value.number_eq_error hv, hv, eq_comm]
  | text comparison operand => cases comparison <;> simp [Test.accepts]
  | _ => simp [Test.accepts]

/-- A test that is reached meets an integer beyond the largest float. -/
def Selection.MeetsLarge (s : Selection) (cells : Cells) : Prop :=
  StopsAt (fun t => ColumnTest.accepts t cells = .ok (decide (s.logic = .and)))
    (ColumnTest.MeetsLarge cells) s.tests

theorem Selection.accepts_eq_error_iff {s : Selection} {cells : Cells} :
    s.accepts cells = .error e ↔ s.MeetsLarge cells ∧ e = .fault .floatTooLarge := by
  obtain ⟨tests, logic⟩ := s
  have hstops : StopsAt (fun t => t.accepts cells = .ok (decide (logic = .and)))
      (fun t => t.accepts cells = .error e) tests ↔
        (⟨tests, logic⟩ : Selection).MeetsLarge cells ∧ e = .fault .floatTooLarge := by
    simp only [ColumnTest.accepts_eq_error_iff, MeetsLarge, StopsAt]
    constructor
    · rintro ⟨pre, t, post, htests, hpre, ht, he⟩
      exact ⟨⟨pre, t, post, htests, hpre, ht⟩, he⟩
    · rintro ⟨⟨pre, t, post, htests, hpre, ht⟩, he⟩
      exact ⟨pre, t, post, htests, hpre, ht, he⟩
  rw [← hstops]
  rcases tests with _ | ⟨t, tests⟩
  · exact iff_of_false nofun not_stopsAt_nil
  · cases logic
    · exact allM_eq_error_iff
    · exact anyM_eq_error_iff

/-- A plan answers for all cells and sorts all items, whatever the tie-break, unless it meets an
integer beyond the largest float under a number column : then it fails. -/
structure Plan.Runs (p : Plan) : Prop where
  accepts : ∀ cells, (∃ b, p.selection.accepts cells = .ok b) ↔ ¬p.selection.MeetsLarge cells
  acceptsLarge : ∀ cells, p.selection.MeetsLarge cells →
    p.selection.accepts cells = .error (.fault .floatTooLarge)
  sorts : ∀ {α : Type} (cellsOf : α → Cells) (tiebreak : Option (α → α → Bool)) (items : List α),
    (∃ sorted, sortRows p.order cellsOf tiebreak items = .ok sorted) ↔
      ∀ k ∈ p.order, ∀ a ∈ items, k.Sorts (cellsOf a)
  sortsLarge : ∀ {α : Type} (cellsOf : α → Cells) (tiebreak : Option (α → α → Bool))
    (items : List α), (¬∀ k ∈ p.order, ∀ a ∈ items, k.Sorts (cellsOf a)) →
      sortRows p.order cellsOf tiebreak items = .error (.fault .floatTooLarge)

theorem exists_ok_iff {ε α : Type} {r : Except ε α} : (∃ a, r = .ok a) ↔ ∀ e, r ≠ .error e := by
  cases r <;> simp

theorem Plan.runs (p : Plan) : p.Runs := by
  refine ⟨fun cells => ?_, fun cells h => ?_,
    fun cellsOf tiebreak items => ⟨fun h => ?_, fun h => ?_⟩, fun _ _ _ h => sortRows_error h⟩
  · rw [exists_ok_iff]
    simp [Selection.accepts_eq_error_iff]
  · exact Selection.accepts_eq_error_iff.mpr ⟨h, rfl⟩
  · by_contra hnot
    obtain ⟨sorted, hsorted⟩ := h
    cases hsorted.symm.trans (sortRows_error hnot)
  · obtain ⟨sorted, hsorted, -⟩ := exists_perm_of_sorts tiebreak h
    exact ⟨sorted, hsorted⟩

theorem compileFilter_oneCondition (v : Value) (hv : v.IsOperand) :
    compileFilter (some [("c", .number)]) (oneCondition .equals v) =
      comparisonTest .number .equals v >>= fun test => .ok ⟨[⟨"c", test⟩], .and⟩ := by
  have hparse : Filter.parse (oneCondition .equals v) = .ok ⟨[⟨"c", .equals, v⟩], .and⟩ :=
    (Filter.reader.form _ rfl _).mpr (isForm_oneCondition .equals hv)
  have htype : typeOf (some [("c", .number)]) "c" = .ok .number := rfl
  have hcompile : Condition.compile (some [("c", .number)]) ⟨"c", .equals, v⟩ =
      comparisonTest .number .equals v >>= fun test => .ok ⟨"c", test⟩ := by
    rw [Condition.compile_eq_bind, htype, ok_bind]
    rfl
  rw [compileFilter, hparse, ok_bind, Filter.compile, List.mapM_cons, List.mapM_nil, hcompile]
  rcases comparisonTest .number .equals v <;> rfl

theorem number_five : (Value.int 5).number = .ok (some (.ofInt 5)) := by
  rw [Value.number, Value.integerNumber, Binary64.ofInt?, if_pos (by decide +kernel)]
  rfl

theorem compileFilter_five :
    compileFilter (some [("c", .number)]) (oneCondition .equals (.int 5)) =
      .ok ⟨[⟨"c", .number .equals (.ofInt 5)⟩], .and⟩ := by
  rw [compileFilter_oneCondition (.int 5) trivial, comparisonTest, number_five]
  rfl

/-- A text of opening brackets for which there is no room. -/
theorem buried_brackets {n : Nat} (h : Json.levelLimit < n) :
    Buried (.text (String.ofList (List.replicate n '['))) := by
  obtain ⟨k, rfl⟩ : ∃ k, n = k + 1 := Nat.exists_eq_succ_of_ne_zero (by omega)
  have hdeep := Json.isTooDeep_replicate h []
  rw [List.append_nil] at hdeep
  refine ⟨?_, by rwa [String.toList_ofList]⟩
  rw [Text.isBlankText, String.toList_ofList, List.replicate_succ, List.all_cons,
    show Text.isBlank '[' = false by decide, Bool.false_and]

end Query

end Tabula
