import Tabula.Proofs.Retyping
import Tabula.Workspace.Views

/-!
# Filters and sorts that views keep

A view keeps the form in which its filter and its sort were read, and the store writes the form
as JSON text. Nothing is lost on the way : a condition and a sort key are read with some column
and, where it is needed, an operand (`Condition.IsRead`, `SortKey.IsRead`), and of such ones the
form comes back from the store as it is and reads as before (`Workspace.parse_orNull_keptFilter`,
`Workspace.parseSort_orNull_keptSort`).

Whether a plan can be compiled is said for the columns alone, `FilterCompiles` and
`SortCompiles` : each column is known, and a number column is compared with numbers only. That
this is all there is to it is `exists_compile_iff`.
-/

namespace Tabula

namespace Value

/-- A value of two entries with different keys comes back from the store entry by entry. -/
theorem stored_object_pair {k l : String} (h : k ≠ l) (v w : Value) :
    (object [(k, v), (l, w)]).stored = object [(k, v.stored), (l, w.stored)] := by
  simp [object, stored, storedEntries, storedKey, Json.keyName, ofEntries, put, same, sameAtom, h]

theorem stored_object_triple {k l m : String} (h : k ≠ l) (h' : k ≠ m) (h'' : l ≠ m)
    (u v w : Value) :
    (object [(k, u), (l, v), (m, w)]).stored =
      object [(k, u.stored), (l, v.stored), (m, w.stored)] := by
  simp [object, stored, storedEntries, storedKey, Json.keyName, ofEntries, put, same, sameAtom, h,
    h', h'']

theorem get?_object (es : List (String × Value)) (key : String) :
    (object es).get? key = Cells.get? es key := by
  induction es with
  | nil => rfl
  | cons e es ih =>
    rw [Cells.get?_cons]
    by_cases h : e.1 = key
    · simp [object, get?, lookup, isText, h]
    · rw [if_neg h, ← ih]
      simp [object, get?, lookup, isText, h]

theorem storedAll_eq_map : ∀ xs : List Value, storedAll xs = xs.map stored
  | [] => rfl
  | x :: xs => by rw [storedAll, storedAll_eq_map xs, List.map_cons]

end Value

namespace Query

/-! ## What is read -/

/-- A condition as it is read : with a column, and with a value just if the operator needs one. -/
structure Condition.IsRead (c : Condition) : Prop where
  column : c.column ≠ ""
  value : if c.operator.needsValue then isOperand c.value = true else c.value = .null

theorem ne_of_columnOf {part : QueryPart} {raw : Value} {column : String}
    (h : columnOf part raw = .ok column) : column ≠ "" := by
  rw [columnOf] at h
  split at h
  · split at h
    · cases h
    · rename_i hne
      rwa [← Except.ok.inj h]
  · cases h

theorem Condition.isRead_of_parse {i : Nat} {raw : Value} {c : Condition}
    (h : parse i raw = .ok c) : c.IsRead := by
  cases raw with
  | dict es =>
    obtain ⟨column, hcolumn, h⟩ := ok_of_bind h
    obtain ⟨operator, _, h⟩ := ok_of_bind h
    dsimp only at h
    split at h
    · cases h
    split at h
    · cases h
    rename_i hoperand hneeds
    obtain rfl := Except.ok.inj h
    refine ⟨ne_of_columnOf hcolumn, ?_⟩
    by_cases hvalue : operator.needsValue = true
    · simp only [hvalue, if_true, Bool.true_and] at hneeds ⊢
      simpa [hneeds] using hoperand
    · simp [hvalue]
  | _ => cases h

/-- A sort key as it is read : with a column. -/
def SortKey.IsRead (k : SortKey) : Prop := k.column ≠ ""

theorem SortKey.isRead_of_parse {i : Nat} {raw : Value} {k : SortKey} (h : parse i raw = .ok k) :
    k.IsRead := by
  cases raw with
  | dict es =>
    obtain ⟨column, hcolumn, h⟩ := ok_of_bind h
    split at h
    · obtain rfl := Except.ok.inj h
      exact ne_of_columnOf hcolumn
    · obtain ⟨direction, _, h⟩ := ok_of_bind h
      obtain rfl := Except.ok.inj h
      exact ne_of_columnOf hcolumn
  | _ => cases h

theorem forall_of_parseEach {α : Type} {parse : Nat → Value → Except Failure α} {P : α → Prop}
    (hparse : ∀ i v x, parse i v = .ok x → P x) :
    ∀ {vs : List Value} {i : Nat} {xs : List α}, parseEach parse i vs = .ok xs → ∀ x ∈ xs, P x
  | [], i, xs, h => by
    obtain rfl := Except.ok.inj h
    simp
  | v :: vs, i, xs, h => by
    obtain ⟨x, hx, h⟩ := ok_of_bind h
    obtain ⟨rest, hrest, h⟩ := ok_of_bind h
    obtain rfl := Except.ok.inj h
    intro y hy
    rcases List.mem_cons.mp hy with rfl | hy
    · exact hparse i v y hx
    · exact forall_of_parseEach hparse hrest y hy

theorem Filter.isRead_of_conditions {vs : List Value} {logic : Value} {f : Filter}
    (h : (parseEach Condition.parse 0 vs >>= fun conditions =>
      if logic.truthy then choose "filter logic" Logic.label [.and, .or] logic >>= fun logic =>
        pure (⟨conditions, logic⟩ : Filter)
      else pure Logic.and >>= fun logic => pure ⟨conditions, logic⟩) = .ok f) :
    ∀ c ∈ f.conditions, c.IsRead := by
  obtain ⟨conditions, hconditions, h⟩ := ok_of_bind h
  have heq : f.conditions = conditions := by
    split at h
    · obtain ⟨logic, _, h⟩ := ok_of_bind h
      rw [← Except.ok.inj h]
    · rw [← Except.ok.inj h]
  rw [heq]
  exact forall_of_parseEach (fun _ _ _ => Condition.isRead_of_parse) hconditions

theorem Filter.isRead_of_parse {raw : Value} {f : Filter} (h : parse raw = .ok f) :
    ∀ c ∈ f.conditions, c.IsRead := by
  obtain ⟨v, _, h⟩ := ok_of_bind h
  split at h
  · obtain rfl := Except.ok.inj h
    simp [Filter.everything]
  · dsimp only at h
    split at h
    · rw [pure_bind] at h
      exact isRead_of_conditions h
    · rw [pure_bind] at h
      exact isRead_of_conditions h
    · cases h
  · cases h

theorem isRead_of_parseSort {raw : Value} {keys : List SortKey} (h : parseSort raw = .ok keys) :
    ∀ k ∈ keys, k.IsRead := by
  obtain ⟨v, _, h⟩ := ok_of_bind h
  split at h
  · obtain rfl := Except.ok.inj h
    simp
  · exact forall_of_parseEach (fun _ _ _ => SortKey.isRead_of_parse) h
  · cases h

/-! ## What is written reads back -/

theorem parseEach_map {α : Type} {parse : Nat → Value → Except Failure α} {render : α → Value} :
    ∀ {xs : List α} (i : Nat), (∀ x ∈ xs, ∀ i, parse i (render x) = .ok x) →
      parseEach parse i (xs.map render) = .ok xs
  | [], _, _ => rfl
  | x :: xs, i, h => by
    rw [List.map_cons, parseEach, h x List.mem_cons_self,
      parseEach_map (i + 1) fun y hy => h y (List.mem_cons_of_mem x hy)]
    rfl

theorem isNull_of_isOperand {v : Value} (h : isOperand v = true) : v.isNull = false := by
  cases v with
  | null => cases h
  | _ => rfl

theorem choose_operator (what : String) (operator : Operator) :
    choose what Operator.label Operator.all (.text operator.label) = .ok operator := by
  cases operator <;> rfl

theorem Condition.parse_of_get {i : Nat} {es : List (Value × Value)} {c : Condition} (h : c.IsRead)
    (hcolumn : (Value.dict es).get "columnId" = .text c.column)
    (hoperator : (Value.dict es).get "operator" = .text c.operator.label)
    (hvalue : (Value.dict es).get "value" = c.value) : parse i (.dict es) = .ok c := by
  have hread := h.value
  rw [parse, columnOf, hcolumn, hoperator, hvalue]
  simp only [if_neg h.column]
  rw [choose_operator]
  by_cases hneeds : c.operator.needsValue = true
  · rw [if_pos hneeds] at hread
    simp [hneeds, hread, isNull_of_isOperand hread, bind, Except.bind, pure, Except.pure]
  · rw [if_neg hneeds] at hread
    simp [hneeds, hread, Value.isNull, bind, Except.bind, pure, Except.pure]
    rw [← hread]

theorem Condition.parse_toValue {c : Condition} (h : c.IsRead) (i : Nat) :
    parse i c.toValue = .ok c := by
  obtain ⟨es, hes, hcolumn, hoperator, hvalue⟩ : ∃ es, c.toValue = .object es ∧
      Cells.get es "columnId" = .text c.column ∧
      Cells.get es "operator" = .text c.operator.label ∧ Cells.get es "value" = c.value := by
    refine ⟨_, rfl, ?_⟩
    rcases hnull : c.value.isNull with _ | _
    · simp [Cells.get, Cells.get?]
    · cases hv : c.value with
      | null => simp [Cells.get, Cells.get?]
      | _ => simp [hv, Value.isNull] at hnull
  rw [hes]
  refine parse_of_get h ?_ ?_ ?_
  · exact (congrArg (·.getD .null) (Value.get?_object es "columnId")).trans hcolumn
  · exact (congrArg (·.getD .null) (Value.get?_object es "operator")).trans hoperator
  · exact (congrArg (·.getD .null) (Value.get?_object es "value")).trans hvalue

theorem choose_direction (what : String) (direction : Direction) :
    choose what Direction.label [.ascending, .descending] (.text direction.label) =
      .ok direction := by
  cases direction <;> rfl

theorem SortKey.parse_toValue {k : SortKey} (h : k.IsRead) (i : Nat) :
    parse i k.toValue = .ok k := by
  have hcolumn : Value.get? "columnId" k.toValue = some (.text k.column) := Value.get?_object _ _
  have hdirection : Value.get? "direction" k.toValue = some (.text k.direction.label) :=
    Value.get?_object _ _
  obtain ⟨es, hes⟩ : ∃ es, k.toValue = .dict es := ⟨_, rfl⟩
  rw [hes] at hcolumn hdirection ⊢
  rw [parse, columnOf, Value.get, hcolumn, hdirection]
  simp only [Option.getD_some, if_neg h]
  rw [choose_direction]
  rfl

theorem choose_logic (what : String) (logic : Logic) :
    choose what Logic.label [.and, .or] (.text logic.label) = .ok logic := by
  cases logic <;> rfl

theorem Filter.parse_toValue {f : Filter} (h : ∀ c ∈ f.conditions, c.IsRead) :
    parse f.toValue = .ok f := by
  have hconditions : Value.get? "conditions" f.toValue =
      some (.list (f.conditions.map Condition.toValue)) := Value.get?_object _ _
  have hlogic : Value.get? "logic" f.toValue = some (.text f.logic.label) := Value.get?_object _ _
  have htruthy : (Value.text f.logic.label).truthy = true := by cases f.logic <;> rfl
  obtain ⟨es, hes⟩ : ∃ es, f.toValue = .dict es := ⟨_, rfl⟩
  rw [hes] at hconditions hlogic ⊢
  have heach : parseEach Condition.parse 0 (f.conditions.map Condition.toValue) =
      .ok f.conditions := parseEach_map 0 fun c hc i => Condition.parse_toValue (h c hc) i
  simp only [parse, load, Value.get, hconditions, hlogic, Option.getD_some, htruthy, if_true,
    choose_logic, heach, bind, Except.bind, pure, Except.pure]

theorem parse_sortValue {keys : List SortKey} (h : ∀ k ∈ keys, k.IsRead) :
    parseSort (sortValue keys) = .ok keys :=
  parseEach_map 0 fun k hk i => SortKey.parse_toValue (h k hk) i

/-! ## What the store keeps -/

theorem stored_of_isOperand {v : Value} (h : isOperand v = true) : v.stored = v := by
  cases v with
  | text | int | float => rfl
  | _ => cases h

theorem Condition.stored_value {c : Condition} (h : c.IsRead) : c.value.stored = c.value := by
  have hread := h.value
  by_cases hneeds : c.operator.needsValue = true
  · rw [if_pos hneeds] at hread
    exact stored_of_isOperand hread
  · rw [if_neg hneeds] at hread
    rw [hread]
    rfl

/-- The form of a condition comes back from the store as it is. -/
theorem Condition.stored_toValue {c : Condition} (h : c.IsRead) : c.toValue.stored = c.toValue := by
  have hstored := stored_value h
  rw [toValue]
  split
  · exact Value.stored_object_pair (by decide) _ _
  · refine (Value.stored_object_triple (by decide) (by decide) (by decide) _ _ _).trans ?_
    rw [hstored]
    rfl

theorem SortKey.stored_toValue (k : SortKey) : k.toValue.stored = k.toValue :=
  Value.stored_object_pair (by decide) _ _

theorem stored_list_map {α : Type} {f : α → Value} {xs : List α}
    (h : ∀ x ∈ xs, (f x).stored = f x) :
    (Value.list (xs.map f)).stored = .list (xs.map f) := by
  rw [Value.stored, Value.storedAll_eq_map, List.map_map]
  exact congrArg Value.list (List.map_congr_left h)

theorem Filter.stored_toValue {f : Filter} (h : ∀ c ∈ f.conditions, c.IsRead) :
    f.toValue.stored = f.toValue := by
  refine (Value.stored_object_pair (by decide) _ _).trans ?_
  rw [stored_list_map fun c hc => Condition.stored_toValue (h c hc)]
  rfl

theorem stored_sortValue (keys : List SortKey) : (sortValue keys).stored = sortValue keys :=
  stored_list_map fun k _ => k.stored_toValue

/-! ## What compiles -/

end Query

/-- A value by which the cells of a number column can be compared. -/
def Value.IsNumeric (v : Value) : Prop := ∃ x, v.number = .ok (some x)

namespace Query

/-- Whether a condition with this operator compares cells with its value. -/
def Operator.isComparison : Operator → Bool
  | equals => true
  | greaterThan => true
  | lessThan => true
  | _ => false

/-- A condition on a known column which, if this holds numbers, is compared with a number. -/
def Condition.Compiles (types : List (String × ColumnType)) (c : Condition) : Prop :=
  ∃ type, types.lookup c.column = some type ∧
    (type = .number → c.operator.isComparison = true → c.value.IsNumeric)

/-- A filter that compiles for columns of these types. -/
def FilterCompiles (types : List (String × ColumnType)) (raw : Value) : Prop :=
  ∃ f, Filter.parse raw = .ok f ∧ ∀ c ∈ f.conditions, c.Compiles types

/-- A sort that compiles for columns of these types. -/
def SortCompiles (types : List (String × ColumnType)) (raw : Value) : Prop :=
  ∃ keys, parseSort raw = .ok keys ∧ ∀ k ∈ keys, ∃ type, types.lookup k.column = some type

variable {types : List (String × ColumnType)}

theorem exists_comparisonTest_iff {type : ColumnType} {comparison : Comparison} {v : Value} :
    (∃ t, comparisonTest type comparison v = .ok t) ↔ (type = .number → v.IsNumeric) := by
  cases type with
  | text => simp [comparisonTest]
  | number =>
    rcases h : v.number with why | _ | x <;>
      simp [comparisonTest, Value.IsNumeric, h, bind, Except.bind, pure, Except.pure, throw,
        throwThe, MonadExceptOf.throw]

theorem typeOf_eq_ok_iff {column : String} {type : ColumnType} :
    typeOf (some types) column = .ok type ↔ types.lookup column = some type := by
  rcases h : types.lookup column with _ | found <;> simp [typeOf, h]

theorem Condition.exists_compile_iff {c : Condition} :
    (∃ t, c.compile (some types) = .ok t) ↔ c.Compiles types := by
  have hpair : ∀ {r : Except Failure Test}, (∃ t : ColumnTest,
      (r >>= fun test => pure ⟨c.column, test⟩) = .ok t) ↔ ∃ test, r = .ok test := by
    rintro (why | test) <;> simp [bind, Except.bind, pure, Except.pure]
  rw [Compiles]
  rcases htype : types.lookup c.column with _ | type
  · simp [compile, typeOf, htype, bind, Except.bind]
  · have htypeOf := typeOf_eq_ok_iff.mpr htype
    have hcompile : ∀ r : Except Failure Test,
        c.compile (some types) = r >>= (fun test => pure ⟨c.column, test⟩) →
          ((∃ t, c.compile (some types) = .ok t) ↔ ∃ test, r = .ok test) := fun r h => by
      rw [h, hpair]
    cases hop : c.operator with
    | equals | greaterThan | lessThan =>
      rw [hcompile (comparisonTest type _ c.value) (by rw [compile, htypeOf, hop]; rfl)]
      simp [Operator.isComparison, exists_comparisonTest_iff]
    | _ =>
      rw [hcompile (pure _) (by rw [compile, htypeOf, hop]; rfl)]
      simp [Operator.isComparison, pure, Except.pure]

end Query

/-- Each item of a list has an answer : so has the list. -/
theorem exists_mapM_iff {ε α β : Type} {f : α → Except ε β} {xs : List α} :
    (∃ ys, xs.mapM f = .ok ys) ↔ ∀ x ∈ xs, ∃ y, f x = .ok y := by
  induction xs with
  | nil => simp [pure, Except.pure]
  | cons x xs ih =>
    rw [List.forall_mem_cons, ← ih, List.mapM_cons]
    rcases f x with why | y
    · simp [bind, Except.bind]
    · rcases xs.mapM f with why | ys <;> simp [bind, Except.bind, pure, Except.pure]

namespace Query

variable {types : List (String × ColumnType)} {filter sort : Value}

theorem exists_compileFilter_iff :
    (∃ s, compileFilter (some types) filter = .ok s) ↔ FilterCompiles types filter := by
  rw [compileFilter, FilterCompiles]
  rcases Filter.parse filter with why | f
  · simp [bind, Except.bind]
  · simp only [← Condition.exists_compile_iff, ← exists_mapM_iff]
    rcases h : f.conditions.mapM (Condition.compile (some types)) with why | tests <;>
      simp [h, Filter.compile, bind, Except.bind, pure, Except.pure]

theorem SortKey.exists_compile_iff {k : SortKey} :
    (∃ o, k.compile (some types) = .ok o) ↔ ∃ type, types.lookup k.column = some type := by
  rcases h : types.lookup k.column with _ | type <;>
    simp [SortKey.compile, typeOf, h, bind, Except.bind, pure, Except.pure]

theorem exists_compile_iff : (∃ plan, compile (some types) filter sort = .ok plan) ↔
    FilterCompiles types filter ∧ SortCompiles types sort := by
  rw [← exists_compileFilter_iff, compile, SortCompiles]
  rcases compileFilter (some types) filter with why | selection
  · simp [bind, Except.bind]
  · rcases parseSort sort with why | keys
    · simp [bind, Except.bind]
    · simp only [← SortKey.exists_compile_iff, ← exists_mapM_iff]
      rcases h : keys.mapM (SortKey.compile (some types)) with why | order <;>
        simp [h, compileSort, bind, Except.bind, pure, Except.pure]

end Query

/-! ## Views -/

namespace Workspace

/-- What is compiled of a field of a view : nothing if it is empty. -/
def orNull (v : Value) : Value := if v.truthy then v else .null

variable {types : List (String × ColumnType)} {raw kept : Value}

theorem truthy_toValue (f : Query.Filter) : f.toValue.truthy = true := rfl

theorem eq_null_of_isNull {v : Value} (h : v.isNull = true) : v = .null := by
  cases v with
  | null => rfl
  | _ => cases h

/-- A filter that is kept is none, or it is kept in the form in which it was read. -/
theorem keptFilter_cases (h : keptFilter raw = .ok kept) :
    raw = .null ∧ kept = .null ∨ ∃ f, Query.Filter.parse raw = .ok f ∧ kept = f.toValue := by
  rw [keptFilter] at h
  split at h
  · rename_i hnull
    exact .inl ⟨eq_null_of_isNull hnull, (Except.ok.inj h).symm⟩
  · rcases hf : Query.Filter.parse raw with why | f
    · simp [hf, Except.map] at h
    · simp only [hf, Except.map, Except.ok.injEq] at h
      exact .inr ⟨f, rfl, h.symm⟩

theorem keptSort_cases (h : keptSort raw = .ok kept) :
    raw = .null ∧ kept = .null ∨
      ∃ keys, Query.parseSort raw = .ok keys ∧ kept = Query.sortValue keys := by
  rw [keptSort] at h
  split at h
  · rename_i hnull
    exact .inl ⟨eq_null_of_isNull hnull, (Except.ok.inj h).symm⟩
  · rcases hkeys : Query.parseSort raw with why | keys
    · simp [hkeys, Except.map] at h
    · simp only [hkeys, Except.map, Except.ok.injEq] at h
      exact .inr ⟨keys, rfl, h.symm⟩

theorem orNull_keptFilter (h : keptFilter raw = .ok kept) :
    orNull (Value.stored (if kept.isNull then .dict [] else kept)) = kept := by
  rcases keptFilter_cases h with ⟨-, rfl⟩ | ⟨f, hf, rfl⟩
  · rfl
  · have hnull : f.toValue.isNull = false := rfl
    rw [hnull, if_neg Bool.false_ne_true,
      Query.Filter.stored_toValue (Query.Filter.isRead_of_parse hf), orNull, truthy_toValue,
      if_pos rfl]

/-- The filter that a view comes to have is read as the raw one. -/
theorem parse_orNull_keptFilter (h : keptFilter raw = .ok kept) :
    Query.Filter.parse (orNull (Value.stored (if kept.isNull then .dict [] else kept))) =
      Query.Filter.parse raw := by
  rw [orNull_keptFilter h]
  rcases keptFilter_cases h with ⟨rfl, rfl⟩ | ⟨f, hf, rfl⟩
  · rfl
  · rw [hf]
    exact Query.Filter.parse_toValue (Query.Filter.isRead_of_parse hf)

theorem parseSort_keptSort (h : keptSort raw = .ok kept) :
    Query.parseSort kept = Query.parseSort raw := by
  rcases keptSort_cases h with ⟨rfl, rfl⟩ | ⟨keys, hkeys, rfl⟩
  · rfl
  · rw [hkeys]
    exact Query.parse_sortValue (Query.isRead_of_parseSort hkeys)

/-- The sort that a view comes to have is read as the raw one. -/
theorem parseSort_orNull_keptSort (h : keptSort raw = .ok kept) :
    Query.parseSort (orNull (Value.stored (if kept.isNull then .list [] else kept))) =
      Query.parseSort raw := by
  rw [← parseSort_keptSort h]
  rcases keptSort_cases h with ⟨-, rfl⟩ | ⟨keys, -, rfl⟩
  · rfl
  · have hnull : (Query.sortValue keys).isNull = false := rfl
    rw [hnull, if_neg Bool.false_ne_true, Query.stored_sortValue, orNull]
    split
    · rfl
    · -- an empty sort counts as none, which asks for nothing as well
      rename_i hempty
      rcases keys with _ | ⟨k, keys⟩
      · rfl
      · exact absurd rfl hempty

/-- What is read alike compiles alike. -/
theorem sortCompiles_keptSort (h : keptSort raw = .ok kept)
    (hcompiles : Query.SortCompiles types kept) :
    Query.SortCompiles types (orNull (Value.stored (if kept.isNull then .list [] else kept))) := by
  rw [Query.SortCompiles, parseSort_orNull_keptSort h, ← parseSort_keptSort h]
  exact hcompiles

end Workspace

end Tabula
