import Tabula.Proofs.NestedValues
import Tabula.Proofs.StoredViews

/-!
# The forms of filters and sorts

What a filter and a sort may be asked for with is said without the readers : `Filter.IsForm` and
`SortIsForm` are the objects and lists that are forms of one, item by item (`Condition.IsForm`,
`SortKey.IsForm`). The readers take the forms and nothing else (`Filter.ofLoaded_eq_ok_iff`,
`sortOfLoaded_eq_ok_iff`), and refuse everything else as malformed (`IsRefusable`).

A text is not a form but spells one. Both readers go through `load`, so what texts do is said for
both at once (`Reader.of_load`) : the text of a JSON value is read as the value is. There are two
exceptions. For an integer with more digits than are read the text is refused and the value is not
(`parse_of_long`), and a text whose brackets are nested deeper than they are read is a fault
(`Buried`).
-/

namespace Tabula

/-- What a condition may compare with : a text or a finite number. -/
def Value.IsOperand : Value → Prop
  | .text _ | .int _ => True
  | .float x => x.isFinite = true
  | _ => False

/-- A text or bytes, which stand for the value that they spell. -/
def Value.isSpelling : Value → Bool
  | .text _ | .bytes _ => true
  | _ => false

theorem Value.isText_eq_true_iff {v : Value} {s : String} : v.isText s = true ↔ v = .text s := by
  cases v <;> simp [isText]

namespace Query

/-! ## Forms -/

/-- The value is a form of the condition : an object with the column and the operator, and with a
value if the operator needs one. Where it needs none, the value that is there is left out. -/
structure Condition.IsForm (raw : Value) (c : Condition) : Prop where
  object : ∃ es, raw = .dict es
  column : raw.get "columnId" = .text c.column
  named : c.column ≠ ""
  operator : raw.get "operator" = .text c.operator.label
  operand : raw.get "value" = .null ∨ (raw.get "value").IsOperand
  needed : c.operator.needsValue = true → raw.get "value" ≠ .null
  value : c.value = if c.operator.needsValue then raw.get "value" else .null

/-- The value is a form of the logic : its label, or anything that counts as false. -/
def Logic.IsForm (raw : Value) (logic : Logic) : Prop :=
  raw.truthy = false ∧ logic = .and ∨ raw = .text logic.label

/-- The value is a form of the filter : nothing, or an object with a form of each condition in a
list, which may be absent. -/
inductive Filter.IsForm : Value → Filter → Prop
  | nothing : IsForm .null .everything
  | object {es : List (Value × Value)} {forms : List Value} {f : Filter}
      (list : (Value.dict es).get "conditions" = .list forms ∨
        (Value.dict es).get "conditions" = .null ∧ forms = [])
      (conditions : List.Forall₂ Condition.IsForm forms f.conditions)
      (logic : Logic.IsForm ((Value.dict es).get "logic") f.logic) : IsForm (.dict es) f

/-- The value is a form of the sort key : an object with the column and the direction, which may be
absent if it is ascending. -/
structure SortKey.IsForm (raw : Value) (k : SortKey) : Prop where
  object : ∃ es, raw = .dict es
  column : raw.get "columnId" = .text k.column
  named : k.column ≠ ""
  direction : raw.get? "direction" = some (.text k.direction.label) ∨
    raw.get? "direction" = none ∧ k.direction = .ascending

/-- The value is a form of the sort : nothing, or a list with a form of each key. -/
inductive SortIsForm : Value → List SortKey → Prop
  | nothing : SortIsForm .null []
  | list {forms : List Value} {keys : List SortKey}
      (items : List.Forall₂ SortKey.IsForm forms keys) : SortIsForm (.list forms) keys

/-! ## Answers and refusals -/

/-- There is an answer, or the request is refused as malformed. -/
def IsRefusable {α : Type} (r : Except Failure α) : Prop :=
  ∀ e, r = .error e → ∃ why, e = .invalid why

namespace IsRefusable

variable {α β : Type}

theorem ok (a : α) : IsRefusable (.ok a) := nofun

theorem invalid (why : Invalid) : IsRefusable (.error (.invalid why) : Except Failure α) :=
  fun _ he => ⟨why, (Except.error.inj he).symm⟩

theorem bind {r : Except Failure α} {f : α → Except Failure β} (hr : IsRefusable r)
    (hf : ∀ a, IsRefusable (f a)) : IsRefusable (r >>= f) := by
  rcases r with e | a
  · exact fun e' he => hr e' (Except.error.inj he ▸ rfl)
  · exact hf a

theorem ite {p : Prop} [Decidable p] {r r' : Except Failure α} (h : IsRefusable r)
    (h' : IsRefusable r') : IsRefusable (if p then r else r') := by
  split
  · exact h
  · exact h'

end IsRefusable

/-! ## Parts of a form -/

theorem columnOf_eq_ok_iff (part : QueryPart) {raw : Value} {column : String} :
    columnOf part raw = .ok column ↔ raw.get "columnId" = .text column ∧ column ≠ "" := by
  constructor
  · intro h
    refine ⟨?_, ne_of_columnOf h⟩
    rw [columnOf] at h
    split at h
    · split at h
      · cases h
      · rw [‹raw.get "columnId" = _›, Except.ok.inj h]
    · cases h
  · rintro ⟨hraw, hne⟩
    rw [columnOf, hraw]
    exact if_neg hne

theorem isRefusable_columnOf (part : QueryPart) (raw : Value) :
    IsRefusable (columnOf part raw) := by
  rw [columnOf]
  split
  · exact .ite (.invalid _) (.ok _)
  · exact .invalid _

variable {α : Type}

/-- A choice is made by its label, which no other choice has. -/
theorem choose_eq_ok_iff (what : String) {label : α → String} {choices : List α} {v : Value} {c : α}
    (hinj : Function.Injective label) (hall : ∀ c, c ∈ choices) :
    choose what label choices v = .ok c ↔ v = .text (label c) := by
  rw [choose]
  constructor
  · intro h
    split at h
    · rename_i found hfound
      obtain rfl := Except.ok.inj h
      exact Value.isText_eq_true_iff.mp (List.find?_some (p := fun c => v.isText (label c)) hfound)
    · cases h
  · rintro rfl
    split
    · rename_i found hfound
      have hlabel :=
        List.find?_some (p := fun c' => (Value.text (label c)).isText (label c')) hfound
      rw [hinj (Value.text.inj (Value.isText_eq_true_iff.mp hlabel))]
    · rename_i hnone
      exact absurd (Value.isText_eq_true_iff.mpr rfl) (List.find?_eq_none.mp hnone c (hall c))

theorem isRefusable_choose (what : String) (label : α → String) (choices : List α) (v : Value) :
    IsRefusable (choose what label choices v) := by
  rw [choose]
  split
  · exact .ok _
  · exact .invalid _

theorem Operator.label_injective : Function.Injective Operator.label := by
  intro a b h
  cases a <;> cases b <;> first | rfl | exact absurd h (by decide)

theorem Operator.mem_all (operator : Operator) : operator ∈ Operator.all := by
  cases operator <;> decide

theorem Logic.label_injective : Function.Injective Logic.label := by
  intro a b h
  cases a <;> cases b <;> first | rfl | exact absurd h (by decide)

theorem Logic.mem_all (logic : Logic) : logic ∈ [Logic.and, .or] := by
  cases logic <;> decide

theorem Direction.mem_all (direction : Direction) :
    direction ∈ [Direction.ascending, .descending] := by
  cases direction <;> decide

theorem Direction.label_injective : Function.Injective Direction.label := by
  intro a b h
  cases a <;> cases b <;> first | rfl | exact absurd h (by decide)

theorem isOperand_eq_true_iff {v : Value} : isOperand v = true ↔ v.IsOperand := by
  cases v with
  | float x =>
    by_cases hx : x.isFinite = true <;> simp [isOperand, Value.classify, Value.IsOperand, hx]
  | _ => simp [isOperand, Value.classify, Value.IsOperand]

theorem isNull_eq_true_iff {v : Value} : v.isNull = true ↔ v = .null := by
  cases v <;> simp [Value.isNull]

/-! ## Conditions -/

namespace Condition

variable {i : Nat} {raw value : Value} {column : String} {operator : Operator} {c : Condition}

/-- The condition with a value, if it is one to compare with and given where it is needed. -/
def withValue (i : Nat) (column : String) (operator : Operator) (value : Value) :
    Except Failure Condition :=
  if !value.isNull && !isOperand value then .error (.invalid (.conditionValue i))
  else if operator.needsValue && value.isNull then
    .error (.invalid (.conditionNeedsValue i operator.label))
  else .ok ⟨column, operator, if operator.needsValue then value else .null⟩

theorem parse_dict (i : Nat) (es : List (Value × Value)) :
    parse i (.dict es) = columnOf (.condition i) (.dict es) >>= fun column =>
      choose "filter operator" Operator.label Operator.all ((Value.dict es).get "operator") >>=
        fun operator => withValue i column operator ((Value.dict es).get "value") := by
  rw [parse]
  refine bind_congr fun column => bind_congr fun operator => ?_
  rw [withValue]
  dsimp only
  split_ifs <;> rfl

theorem withValue_eq_ok_iff : withValue i column operator value = .ok c ↔
    (value = .null ∨ value.IsOperand) ∧ (operator.needsValue = true → value ≠ .null) ∧
      c = ⟨column, operator, if operator.needsValue then value else .null⟩ := by
  rw [withValue, ← isOperand_eq_true_iff, ne_eq, ← isNull_eq_true_iff]
  cases value.isNull <;> cases isOperand value <;> cases operator.needsValue <;> simp [eq_comm]

theorem parse_eq_ok_iff (i : Nat) (raw : Value) (c : Condition) :
    parse i raw = .ok c ↔ IsForm raw c := by
  cases raw with
  | dict es =>
    rw [parse_dict]
    constructor
    · intro h
      obtain ⟨column, hcolumn, h⟩ := ok_of_bind h
      obtain ⟨operator, hoperator, h⟩ := ok_of_bind h
      obtain ⟨hcolumn, hne⟩ := (columnOf_eq_ok_iff _).mp hcolumn
      obtain ⟨hoperand, hneeded, rfl⟩ := withValue_eq_ok_iff.mp h
      exact ⟨⟨es, rfl⟩, hcolumn, hne,
        (choose_eq_ok_iff _ Operator.label_injective Operator.mem_all).mp hoperator, hoperand,
        hneeded, rfl⟩
    · intro h
      have hcolumn := (columnOf_eq_ok_iff (.condition i)).mpr ⟨h.column, h.named⟩
      have hoperator := (choose_eq_ok_iff "filter operator" Operator.label_injective
        Operator.mem_all).mpr h.operator
      rw [hcolumn, ok_bind, hoperator, ok_bind]
      exact withValue_eq_ok_iff.mpr ⟨h.operand, h.needed, by rw [← h.value]⟩
  | _ => exact ⟨nofun, fun h => by obtain ⟨es, hes⟩ := h.object; cases hes⟩

theorem isRefusable_parse (i : Nat) (raw : Value) : IsRefusable (parse i raw) := by
  cases raw with
  | dict es =>
    rw [parse_dict]
    exact (isRefusable_columnOf _ _).bind fun _ => (isRefusable_choose _ _ _ _).bind fun _ =>
      .ite (.invalid _) (.ite (.invalid _) (.ok _))
  | _ => exact .invalid _

end Condition

/-! ## Sort keys -/

namespace SortKey

variable {i : Nat} {raw : Value} {k : SortKey}

/-- The direction of a sort key. -/
def directionOf (raw : Value) : Except Failure Direction :=
  match raw.get? "direction" with
  | none => .ok .ascending
  | some v => choose "sort direction" Direction.label [.ascending, .descending] v

theorem parse_dict (i : Nat) (es : List (Value × Value)) :
    parse i (.dict es) = columnOf (.sortKey i) (.dict es) >>= fun column =>
      directionOf (.dict es) >>= fun direction => .ok ⟨column, direction⟩ := by
  rw [parse]
  refine bind_congr fun column => ?_
  rw [directionOf]
  cases (Value.dict es).get? "direction" <;> rfl

theorem directionOf_eq_ok_iff {direction : Direction} : directionOf raw = .ok direction ↔
    raw.get? "direction" = some (.text direction.label) ∨
      raw.get? "direction" = none ∧ direction = .ascending := by
  rw [directionOf]
  rcases raw.get? "direction" with _ | v
  · simp [eq_comm]
  · simpa using choose_eq_ok_iff "sort direction" Direction.label_injective Direction.mem_all

theorem parse_eq_ok_iff (i : Nat) (raw : Value) (k : SortKey) :
    parse i raw = .ok k ↔ IsForm raw k := by
  cases raw with
  | dict es =>
    rw [parse_dict]
    constructor
    · intro h
      obtain ⟨column, hcolumn, h⟩ := ok_of_bind h
      obtain ⟨direction, hdirection, h⟩ := ok_of_bind h
      obtain rfl := Except.ok.inj h
      obtain ⟨hcolumn, hne⟩ := (columnOf_eq_ok_iff _).mp hcolumn
      exact ⟨⟨es, rfl⟩, hcolumn, hne, directionOf_eq_ok_iff.mp hdirection⟩
    · intro h
      have hcolumn := (columnOf_eq_ok_iff (.sortKey i)).mpr ⟨h.column, h.named⟩
      rw [hcolumn, ok_bind, directionOf_eq_ok_iff.mpr h.direction, ok_bind]
  | _ => exact ⟨nofun, fun h => by obtain ⟨es, hes⟩ := h.object; cases hes⟩

theorem isRefusable_parse (i : Nat) (raw : Value) : IsRefusable (parse i raw) := by
  cases raw with
  | dict es =>
    rw [parse_dict]
    refine (isRefusable_columnOf _ _).bind fun _ => IsRefusable.bind ?_ fun _ => .ok _
    rw [directionOf]
    split
    · exact .ok _
    · exact isRefusable_choose _ _ _ _
  | _ => exact .invalid _

end SortKey

/-! ## Lists -/

section Each

variable {parse : Nat → Value → Except Failure α} {IsForm : Value → α → Prop}

/-- A list is read exactly if it is a list of forms, and as what they are forms of one by one. -/
theorem parseEach_eq_ok_iff (hparse : ∀ i raw a, parse i raw = .ok a ↔ IsForm raw a)
    (forms : List Value) (i : Nat) (as : List α) :
    parseEach parse i forms = .ok as ↔ List.Forall₂ IsForm forms as := by
  induction forms generalizing i as with
  | nil => simp [parseEach, eq_comm]
  | cons form forms ih =>
    rw [parseEach]
    constructor
    · intro h
      obtain ⟨a, ha, h⟩ := ok_of_bind h
      obtain ⟨rest, hrest, h⟩ := ok_of_bind h
      obtain rfl := Except.ok.inj h
      exact .cons ((hparse i form a).mp ha) ((ih (i + 1) rest).mp hrest)
    · rintro (_ | ⟨ha, hrest⟩)
      rw [(hparse i form _).mpr ha, ok_bind, (ih (i + 1) _).mpr hrest]
      rfl

theorem isRefusable_parseEach (hparse : ∀ i raw, IsRefusable (parse i raw)) :
    ∀ (forms : List Value) (i : Nat), IsRefusable (parseEach parse i forms)
  | [], _ => .ok _
  | form :: forms, i => (hparse i form).bind fun _ =>
      (isRefusable_parseEach hparse forms (i + 1)).bind fun _ => .ok _

end Each

/-! ## Filters and sorts -/

/-- The conditions of a filter as they are given, none where there is no list. -/
def conditionForms (raw : Value) : Except Failure (List Value) :=
  match raw.get "conditions" with
  | .null => .ok []
  | .list forms => .ok forms
  | _ => .error (.invalid .conditionsNotList)

theorem conditionForms_eq_ok_iff {raw : Value} {forms : List Value} :
    conditionForms raw = .ok forms ↔
      raw.get "conditions" = .list forms ∨ raw.get "conditions" = .null ∧ forms = [] := by
  rw [conditionForms]
  cases raw.get "conditions" <;> simp [eq_comm]

theorem isRefusable_conditionForms (raw : Value) : IsRefusable (conditionForms raw) := by
  rw [conditionForms]
  split
  · exact .ok _
  · exact .ok _
  · exact .invalid _

/-- The logic of a filter as it is given. -/
def logicOf (raw : Value) : Except Failure Logic :=
  if raw.truthy then choose "filter logic" Logic.label [.and, .or] raw else .ok .and

theorem logicOf_eq_ok_iff {raw : Value} {logic : Logic} :
    logicOf raw = .ok logic ↔ Logic.IsForm raw logic := by
  rw [logicOf, Logic.IsForm]
  split_ifs with htruthy
  · rw [choose_eq_ok_iff _ Logic.label_injective Logic.mem_all]
    simp [htruthy]
  · have hne : raw ≠ .text logic.label := by
      rintro rfl
      cases logic <;> exact htruthy (by decide)
    simp [htruthy, hne, eq_comm]

/-- A filter from the value that was loaded. -/
def Filter.ofLoaded : Value → Except Failure Filter
  | .null => .ok everything
  | .dict es => conditionForms (.dict es) >>= fun forms =>
      parseEach Condition.parse 0 forms >>= fun conditions =>
        logicOf ((Value.dict es).get "logic") >>= fun logic => .ok ⟨conditions, logic⟩
  | _ => .error (.invalid .filterNotObject)

theorem Filter.parse_eq_bind (raw : Value) : parse raw = load "filter" raw >>= ofLoaded := by
  rw [parse]
  refine bind_congr fun v => ?_
  cases v with
  | dict es =>
    rw [ofLoaded, conditionForms]
    dsimp only [logicOf]
    cases (Value.dict es).get "conditions" with
    | null | list =>
      dsimp only
      rw [pure_bind, ok_bind]
      refine bind_congr fun conditions => ?_
      split_ifs <;> rfl
    | _ => rfl
  | _ => rfl

theorem Filter.ofLoaded_eq_ok_iff {raw : Value} {f : Filter} :
    ofLoaded raw = .ok f ↔ IsForm raw f := by
  cases raw with
  | null =>
    constructor
    · rintro h
      obtain rfl := Except.ok.inj h
      exact .nothing
    · rintro ⟨⟩
      rfl
  | dict es =>
    have heach := fun forms => parseEach_eq_ok_iff Condition.parse_eq_ok_iff forms 0
    rw [ofLoaded]
    constructor
    · intro h
      obtain ⟨forms, hforms, h⟩ := ok_of_bind h
      obtain ⟨conditions, hconditions, h⟩ := ok_of_bind h
      obtain ⟨logic, hlogic, h⟩ := ok_of_bind h
      obtain rfl := Except.ok.inj h
      exact .object (conditionForms_eq_ok_iff.mp hforms)
        ((heach _ _).mp hconditions) (logicOf_eq_ok_iff.mp hlogic)
    · rintro (_ | ⟨hlist, hconditions, hlogic⟩)
      rw [conditionForms_eq_ok_iff.mpr hlist, ok_bind, (heach _ _).mpr hconditions, ok_bind,
        logicOf_eq_ok_iff.mpr hlogic, ok_bind]
  | _ => exact ⟨nofun, nofun⟩

theorem Filter.isRefusable_ofLoaded (raw : Value) : IsRefusable (ofLoaded raw) := by
  cases raw with
  | null => exact .ok _
  | dict es =>
    refine (isRefusable_conditionForms _).bind fun forms =>
      (isRefusable_parseEach Condition.isRefusable_parse forms 0).bind fun conditions =>
        IsRefusable.bind ?_ fun _ => .ok _
    exact .ite (isRefusable_choose _ _ _ _) (.ok _)
  | _ => exact .invalid _

/-- A sort from the value that was loaded. -/
def sortOfLoaded : Value → Except Failure (List SortKey)
  | .null => .ok []
  | .list forms => parseEach SortKey.parse 0 forms
  | _ => .error (.invalid .sortNotList)

theorem parseSort_eq_bind (raw : Value) : parseSort raw = load "sort" raw >>= sortOfLoaded := by
  rw [parseSort]
  refine bind_congr fun v => ?_
  cases v <;> rfl

theorem sortOfLoaded_eq_ok_iff {raw : Value} {keys : List SortKey} :
    sortOfLoaded raw = .ok keys ↔ SortIsForm raw keys := by
  cases raw with
  | null =>
    constructor
    · rintro h
      obtain rfl := Except.ok.inj h
      exact .nothing
    · rintro ⟨⟩
      rfl
  | list forms =>
    have hitems := parseEach_eq_ok_iff SortKey.parse_eq_ok_iff forms 0 keys
    exact ⟨fun h => .list (hitems.mp h), fun | .list h => hitems.mpr h⟩
  | _ => exact ⟨nofun, nofun⟩

theorem isRefusable_sortOfLoaded (raw : Value) : IsRefusable (sortOfLoaded raw) := by
  cases raw with
  | null => exact .ok _
  | list forms => exact isRefusable_parseEach SortKey.isRefusable_parse forms 0
  | _ => exact .invalid _

/-! ## Values and texts -/

/-- A text or bytes whose brackets are nested deeper than they are read. -/
def Buried : Value → Prop
  | .text s => Text.isBlankText s = false ∧ Json.isTooDeep s.toList = true
  | .bytes bs => areBlank bs = false ∧ Json.areTooDeep bs = true
  | _ => False

/-- How forms are read, and texts as the values that they spell. A text that spells a text is not
read again, and what is none of the kinds of value that have forms is refused as `other`. A text that
is nested too deep is a fault, and the text of a JSON value is nested as deep as the value. -/
structure Reader (what : String) (parse : Value → Except Failure α) (IsForm : Value → α → Prop)
    (write : α → Value) (nothing : α) (other : Invalid) : Prop where
  form : ∀ raw, raw.isSpelling = false → ∀ a, parse raw = .ok a ↔ IsForm raw a
  refusable : ∀ raw, ¬ Buried raw → IsRefusable (parse raw)
  buried : ∀ raw, Buried raw → parse raw = .error (.fault .tooDeep)
  back : ∀ raw a, parse raw = .ok a → parse (write a) = .ok a
  blank : ∀ s, Text.isBlankText s = true → parse (.text s) = .ok nothing
  spelled : ∀ s v, ¬ Buried (.text s) → Text.isBlankText s = false → Json.read s = .ok v →
    parse (.text s) = if v.isSpelling then .error (.invalid other) else parse v
  misspelled : ∀ s why, ¬ Buried (.text s) → Text.isBlankText s = false →
    Json.read s = .error why → parse (.text s) = .error (.invalid (.queryJson what why))
  written : ∀ layout v s, v.IsJson → Json.write layout v = .ok s → ¬ Buried (.text s) →
    parse (.text s) = match v.longInteger? with
      | some digits => .error (.invalid (.queryJson what (.longInteger digits)))
      | none => if v.isSpelling then .error (.invalid other) else parse v
  nested : ∀ layout v s, v.IsJson → v.longInteger? = none → Json.write layout v = .ok s →
    (Buried (.text s) ↔ Json.levelLimit < v.depth)

theorem load_of_not_isSpelling {what : String} {raw : Value} (h : raw.isSpelling = false) :
    load what raw = .ok raw := by
  cases raw with
  | text | bytes => cases h
  | _ => rfl

theorem load_of_buried {what : String} {raw : Value} (h : Buried raw) :
    load what raw = .error (.fault .tooDeep) := by
  cases raw with
  | text | bytes =>
    obtain ⟨hblank, hdeep⟩ := h
    simp [load, hblank, hdeep]
  | _ => exact h.elim

theorem load_text {what s : String} (hdeep : ¬ Buried (.text s))
    (hblank : Text.isBlankText s = false) :
    load what (.text s) = (Json.read s).mapError fun why => .invalid (.queryJson what why) := by
  have hflat : Json.isTooDeep s.toList = false :=
    Bool.eq_false_iff.mpr fun h => hdeep ⟨hblank, h⟩
  simp [load, hblank, hflat]

theorem isRefusable_load (what : String) {raw : Value} (h : ¬ Buried raw) :
    IsRefusable (load what raw) := by
  have hmap : ∀ r : Except Json.ReadError Value,
      IsRefusable (r.mapError fun why => Failure.invalid (.queryJson what why)) := by
    rintro (why | v)
    · exact .invalid _
    · exact .ok _
  cases raw with
  | text | bytes =>
    rw [load]
    split_ifs with hblank hdeep
    · exact .ok _
    · exact absurd ⟨Bool.eq_false_iff.mpr hblank, hdeep⟩ h
    · exact hmap _
  | _ => exact .ok _

/-- The text of a JSON value is nested too deep exactly if the value has too many levels. -/
theorem buried_write_iff {layout : Json.Layout} {v : Value} {s : String} (hv : v.IsJson)
    (hlong : v.longInteger? = none) (hs : Json.write layout v = .ok s) :
    Buried (.text s) ↔ Json.levelLimit < v.depth := by
  rw [Buried, Json.isBlankText_write hv hs, Json.isTooDeep_write hv hlong hs, decide_eq_true_eq,
    eq_self_iff_true, true_and]

/-- What reads a value that was loaded reads texts through it too. -/
theorem Reader.of_load {what : String} {parse ofLoaded : Value → Except Failure α}
    {IsForm : Value → α → Prop} {write : α → Value} {nothing : α} {other : Invalid}
    (hparse : ∀ raw, parse raw = load what raw >>= ofLoaded)
    (hform : ∀ {raw a}, ofLoaded raw = .ok a ↔ IsForm raw a)
    (hrefusable : ∀ raw, IsRefusable (ofLoaded raw))
    (hback : ∀ raw a, parse raw = .ok a → parse (write a) = .ok a)
    (hnothing : ofLoaded .null = .ok nothing)
    (hother : ∀ raw, raw.isSpelling = true → ofLoaded raw = .error (.invalid other)) :
    Reader what parse IsForm write nothing other := by
  have hvalue : ∀ {raw : Value}, raw.isSpelling = false → parse raw = ofLoaded raw := fun h => by
    rw [hparse, load_of_not_isSpelling h, ok_bind]
  have hspelled : ∀ s v, ¬ Buried (.text s) → Text.isBlankText s = false → Json.read s = .ok v →
      parse (.text s) = if v.isSpelling then .error (.invalid other) else parse v := by
    intro s v hdeep hs hv
    rw [hparse, load_text hdeep hs, hv]
    show ofLoaded v = _
    split_ifs with hspelling
    · exact hother v hspelling
    · exact (hvalue (Bool.eq_false_iff.mpr hspelling)).symm
  have hmisspelled : ∀ s why, ¬ Buried (.text s) → Text.isBlankText s = false →
      Json.read s = .error why → parse (.text s) = .error (.invalid (.queryJson what why)) := by
    intro s why hdeep hs hv
    rw [hparse, load_text hdeep hs, hv]
    rfl
  refine ⟨fun raw hraw a => ?_, fun raw hdeep => ?_, fun raw hdeep => ?_, hback, fun s hs => ?_,
    hspelled, hmisspelled, fun layout v s hv hs hdeep => ?_, fun layout v s => buried_write_iff⟩
  · rw [hvalue hraw, hform]
  · rw [hparse]
    exact (isRefusable_load what hdeep).bind hrefusable
  · rw [hparse, load_of_buried hdeep]
    rfl
  · rw [hparse, load, hs]
    exact hnothing
  · have hblank := Json.isBlankText_write hv hs
    have hread := Json.read_write hv hs
    rcases hlong : v.longInteger? with _ | digits <;> rw [hlong] at hread
    · exact hspelled s v hdeep hblank hread
    · exact hmisspelled s _ hdeep hblank hread

/-- What a reader fails with : a refusal, or a text that is nested too deep. -/
theorem Reader.eq_error_iff {what : String} {parse : Value → Except Failure α}
    {IsForm : Value → α → Prop} {write : α → Value} {nothing : α} {other : Invalid}
    (h : Reader what parse IsForm write nothing other) {raw : Value} {e : Failure} :
    parse raw = .error e ↔ (∃ why, parse raw = .error (.invalid why) ∧ e = .invalid why) ∨
      Buried raw ∧ e = .fault .tooDeep := by
  constructor
  · intro herror
    by_cases hdeep : Buried raw
    · exact .inr ⟨hdeep, Except.error.inj (herror.symm.trans (h.buried raw hdeep))⟩
    · obtain ⟨why, rfl⟩ := h.refusable raw hdeep e herror
      exact .inl ⟨why, herror, rfl⟩
  · rintro (⟨why, herror, rfl⟩ | ⟨hdeep, rfl⟩)
    · exact herror
    · exact h.buried raw hdeep

theorem Filter.reader :
    Reader "filter" Filter.parse Filter.IsForm Filter.toValue .everything .filterNotObject :=
  .of_load parse_eq_bind ofLoaded_eq_ok_iff isRefusable_ofLoaded
    (fun _ _ h => parse_toValue (isRead_of_parse h)) rfl
    fun raw h => by cases raw with
      | text | bytes => rfl
      | _ => cases h

theorem sortReader : Reader "sort" parseSort SortIsForm sortValue [] .sortNotList :=
  .of_load parseSort_eq_bind sortOfLoaded_eq_ok_iff isRefusable_sortOfLoaded
    (fun _ _ h => parse_sortValue (isRead_of_parseSort h)) rfl
    fun raw h => by cases raw with
      | text | bytes => rfl
      | _ => cases h

/-- A condition has no value just if its operator needs none. -/
theorem Condition.IsRead.value_eq_null_iff {c : Condition} (h : c.IsRead) :
    c.value = .null ↔ c.operator = .isEmpty ∨ c.operator = .isNotEmpty := by
  have hvalue := h.value
  rw [← isNull_eq_true_iff]
  cases hop : c.operator <;> rw [hop] at hvalue
  case isEmpty | isNotEmpty => simp [show c.value = .null from hvalue, Value.isNull]
  all_goals simp [isNull_of_isOperand hvalue]

/-- Filters and sorts are read from their forms and from nothing else, and so are the texts of their
forms as far as the integers in them are read and there is room for their brackets. A condition that
was read has no value just if it asks for emptiness. -/
theorem forms_are_read :
    Reader "filter" Filter.parse Filter.IsForm Filter.toValue .everything .filterNotObject ∧
    Reader "sort" parseSort SortIsForm sortValue [] .sortNotList ∧
    ∀ raw f, Filter.parse raw = .ok f → ∀ c ∈ f.conditions,
      (c.value = .null ↔ c.operator = .isEmpty ∨ c.operator = .isNotEmpty) :=
  ⟨Filter.reader, sortReader, fun _ _ h c hc =>
    (Filter.isRead_of_parse h c hc).value_eq_null_iff⟩

/-- A form of a filter with one condition. -/
def oneCondition (operator : Operator) (value : Value) : Value :=
  .object [("conditions", .list [.object [("columnId", .text "c"),
    ("operator", .text operator.label), ("value", value)]])]

theorem isJson_oneCondition (operator : Operator) {value : Value} (h : value.IsJson) :
    (oneCondition operator value).IsJson := by
  refine .object (List.nodup_singleton _)
    (List.forall_mem_singleton.mpr (.list (List.forall_mem_singleton.mpr ?_)))
  refine .object (show ["columnId", "operator", "value"].Nodup by decide) fun e he => ?_
  simp only [List.mem_cons, List.not_mem_nil, or_false] at he
  rcases he with rfl | rfl | rfl
  exacts [.text _, .text _, h]

theorem longInteger?_oneCondition (operator : Operator) (value : Value) :
    (oneCondition operator value).longInteger? = value.longInteger? := by
  have htext : ∀ s, (Value.text s).longInteger? = none := fun _ => rfl
  simp only [oneCondition, Value.longInteger?_object, Value.longInteger?_list, List.findSome?_cons,
    List.findSome?_nil, htext]
  cases value.longInteger? <;> rfl

theorem isForm_oneCondition (operator : Operator) {value : Value} (h : value.IsOperand) :
    Filter.IsForm (oneCondition operator value)
      ⟨[⟨"c", operator, if operator.needsValue then value else .null⟩], .and⟩ := by
  have hne : value ≠ .null := by
    rintro rfl
    exact h
  exact .object (.inl rfl)
    (.cons ⟨⟨_, rfl⟩, rfl, show "c" ≠ "" by decide, rfl, .inr h, fun _ => hne, rfl⟩ .nil)
    (.inl ⟨rfl, rfl⟩)

/-- A value that the operator does not need is left out, of the form as of its text. -/
theorem forms_are_read_of_unneeded :
    let raw := oneCondition .isEmpty (.int 3)
    let f : Filter := ⟨[⟨"c", .isEmpty, .null⟩], .and⟩
    let sort := Value.list [.object [("columnId", .text "c")]]
    raw.IsJson ∧ Filter.parse raw = .ok f ∧ Filter.parse f.toValue = .ok f ∧
      (∃ s, Json.write .compact raw = .ok s ∧ Filter.parse (.text s) = .ok f) ∧
      (∃ s, Json.write .spaced sort = .ok s ∧ parseSort (.text s) = .ok [⟨"c", .ascending⟩]) ∧
      ∀ c ∈ f.conditions, (c.value = .null ↔ c.operator = .isEmpty ∨ c.operator = .isNotEmpty) := by
  intro raw f sort
  obtain ⟨hfilter, hsort, hnull⟩ := forms_are_read
  have hjson : raw.IsJson := isJson_oneCondition .isEmpty (.int 3)
  have hparse : Filter.parse raw = .ok f :=
    (hfilter.form raw rfl f).mpr (isForm_oneCondition .isEmpty trivial)
  refine ⟨hjson, hparse, hfilter.back raw f hparse, ?_, ?_, hnull raw f hparse⟩
  · obtain ⟨s, hs⟩ := Json.exists_write_of_isJson hjson
    have hlong : raw.longInteger? = none := (longInteger?_oneCondition _ _).trans (by decide)
    have hflat : ¬ Buried (.text s) := by
      rw [hfilter.nested .compact raw s hjson hlong hs]
      decide
    refine ⟨s, hs, ?_⟩
    rw [hfilter.written .compact raw s hjson hs hflat, hlong]
    exact hparse
  · have hsortJson : sort.IsJson := .list (List.forall_mem_singleton.mpr
      (.object (List.nodup_singleton _) (List.forall_mem_singleton.mpr (.text "c"))))
    obtain ⟨s, hs⟩ := Json.exists_write_of_isJson hsortJson
    have hflat : ¬ Buried (.text s) := by
      rw [hsort.nested .spaced sort s hsortJson rfl hs]
      decide
    refine ⟨s, hs, ?_⟩
    rw [hsort.written .spaced sort s hsortJson hs hflat, show sort.longInteger? = none from rfl]
    exact (hsort.form sort rfl _).mpr
      (.list (.cons ⟨⟨_, rfl⟩, rfl, by decide, .inr ⟨rfl, rfl⟩⟩ .nil))

/-- An integer with too many digits in a value that is left out : the form is read, its text is
not. -/
theorem parse_of_long {n : Int} (hn : Text.integerDigitLimit < (Nat.toDigits 10 n.natAbs).length) :
    (oneCondition .isEmpty (.int n)).IsJson ∧
      Filter.parse (oneCondition .isEmpty (.int n)) = .ok ⟨[⟨"c", .isEmpty, .null⟩], .and⟩ ∧
      ∃ s, Json.write .compact (oneCondition .isEmpty (.int n)) = .ok s ∧
        ∀ f, Filter.parse (.text s) ≠ .ok f := by
  have hjson := isJson_oneCondition .isEmpty (.int n)
  obtain ⟨s, hs⟩ := Json.exists_write_of_isJson hjson
  refine ⟨hjson, (Filter.reader.form _ rfl _).mpr (isForm_oneCondition .isEmpty trivial), s, hs,
    fun f h => ?_⟩
  have hflat : ¬ Buried (.text s) := fun hdeep => by
    cases (Filter.reader.buried _ hdeep).symm.trans h
  rw [Filter.reader.written .compact _ s hjson hs hflat, longInteger?_oneCondition,
    Value.longInteger?, if_pos hn] at h
  cases h

theorem lt_length_toDigits_pow (k : Nat) :
    k < (Nat.toDigits 10 (Int.natAbs (10 ^ k))).length := by
  rw [Int.natAbs_pow, show Int.natAbs 10 = 10 from rfl, Nat.lt_iff_add_one_le, ← not_lt,
    Nat.lt_add_one_iff]
  rcases Nat.eq_zero_or_pos k with rfl | hk
  · decide
  · rw [Nat.length_toDigits_le_iff (by decide) hk]
    exact lt_irrefl _

/-- An integer of 4301 digits in a value that is left out. -/
theorem parse_of_long_integer :
    let raw := oneCondition .isEmpty (.int (10 ^ 4300))
    raw.IsJson ∧ Filter.parse raw = .ok ⟨[⟨"c", .isEmpty, .null⟩], .and⟩ ∧
      ∃ s, Json.write .compact raw = .ok s ∧ ∀ f, Filter.parse (.text s) ≠ .ok f :=
  parse_of_long (lt_length_toDigits_pow 4300)

end Query

end Tabula
