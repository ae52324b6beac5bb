import Tabula.Proofs.Additions
import Tabula.Proofs.Isolation
import Tabula.Proofs.Refusals
import Tabula.Proofs.SavedViews

/-!
# Names

A name is trimmed before it is stored, and a call to make a record, or to change a column, is refused
if nothing would be left of it (`Operation.refuses_blank`). A call to change a view trims the name
without a look at what is left. So names stay tidy as long as no view gets a name that is blank
(`Operation.Blanks`), and a call that gives it one is carried out as if no name was given, but for
the name of the view, which is empty from then on (`isNamed_iff_of_reached`).
-/

namespace Tabula

open Store Tabula.Action

/-- Every name of a record is tidy. -/
def Database.IsNamed (db : Database) : Prop := ∀ n ∈ db.names, Text.IsTidy n

/-- The action fails for what is given : for a reason of its own, or as it does whatever is given. -/
def Action.Refuses {α : Type} (x : Value → Action α) (given : Value) (own : Failure)
    (s : Surroundings) (w : World) : Prop :=
  ∃ why w', x given s w = (.error why, w') ∧ (why = own ∨ ∀ v, x v s w = (.error why, w'))

namespace Action

variable {α β : Type} {s : Surroundings} {w w' : World} {given : Value} {own : Failure}

theorem refuses_of_eq {x : Value → Action α} (h : x given s w = (.error own, w')) :
    Refuses x given own s w := ⟨own, w', h, .inl rfl⟩

/-- What comes first does not depend on what is given. -/
theorem refuses_bind {x : Action α} {f : Value → α → Action β}
    (h : ∀ a w', x s w = (.ok a, w') → Refuses (fun v => f v a) given own s w') :
    Refuses (fun v => x >>= f v) given own s w := by
  rcases hx : x s w with ⟨why | a, w'⟩
  · exact ⟨why, w', run_bind_error hx _, .inr fun v => run_bind_error hx _⟩
  · obtain ⟨why, w₁, hrun, hwhy⟩ := h a w' hx
    exact ⟨why, w₁, (run_bind_ok hx _).trans hrun,
      hwhy.imp_right fun hall v => (run_bind_ok hx _).trans (hall v)⟩

theorem Refuses.map {x : Value → Action α} (h : Refuses x given own s w) (f : α → β) :
    Refuses (fun v => do return f (← x v)) given own s w := by
  obtain ⟨why, w', hrun, hwhy⟩ := h
  exact ⟨why, w', run_bind_error hrun _,
    hwhy.imp_right fun hall v => run_bind_error (hall v) _⟩

/-- What is read of what is given comes first. -/
theorem refuses_lift_bind {read : Value → Except Failure α} {f : α → Action β}
    (h : read given = .error own) : Refuses (fun v => liftM (read v) >>= f) given own s w :=
  refuses_of_eq (run_bind_error (by rw [run_liftM, h]) f)

/-- A change of the database looks up a record first. -/
theorem refuses_transaction {found : Database → Except Failure α}
    {f : Value → α → Database → Except Failure (β × Database)}
    (h : ∀ db a, f given a db = .error own) :
    Refuses (fun v => transaction fun db => found db >>= fun a => f v a db) given own s w := by
  rcases hw : w.storage with db | _ | _
  · rcases ha : found db with why | a
    · have hall : ∀ v, transaction (fun db => found db >>= fun a => f v a db) s w =
          (.error why, w) := fun v => by rw [run_transaction hw, ha]; rfl
      exact ⟨why, w, hall given, .inr hall⟩
    · have hfails : (found db >>= fun a => f given a db) = .error own := by rw [ha]; exact h db a
      have hrun : transaction (fun db => found db >>= fun a => f given a db) s w =
          (.error own, w) := by rw [run_transaction hw, hfails]
      exact refuses_of_eq hrun
  all_goals
    have hall : ∀ v, ∃ why, transaction (fun db => found db >>= fun a => f v a db) s w =
        (.error why, w) := fun v => by simp only [transaction, hw]; exact ⟨_, rfl⟩
    obtain ⟨why, hwhy⟩ := hall given
    refine ⟨why, w, hwhy, .inr fun v => ?_⟩
    rw [← hwhy]
    simp only [transaction, hw]

end Action

/-! ## Names that are refused -/

/-- White space is trimmed to nothing. -/
theorem Text.trim_blank {t : String} (h : isBlankText t = true) : trim t = "" := by
  have hnil : t.toList.dropWhile isBlank = [] :=
    List.dropWhile_eq_nil_iff.mpr (List.all_eq_true.mp h)
  rw [trim, trimChars, hnil]
  rfl

namespace Catalog

variable {t : String}

theorem nameOf_blank (what : Entity) (h : Text.isBlankText t = true) :
    nameOf what (.text t) = .error (.invalid (.blankName what)) := by
  unfold nameOf
  split
  · rfl
  · dsimp only
    rw [if_pos h]

theorem columnNameOf_blank (h : Text.isBlankText t = true) :
    columnNameOf (.text t) = .error (.invalid (.blankName .column)) := by
  rw [columnNameOf]
  exact if_pos h

theorem editedColumn_blank (h : Text.isBlankText t = true) (type order : Value) (c : Column) :
    editedColumn (.text t) type order c = .error (.invalid (.blankName .column)) := by
  have hgiven : ¬ (Value.text t).isNull = true := Bool.false_ne_true
  rw [editedColumn_eq, if_neg hgiven, columnNameOf_blank h]
  rfl

end Catalog

namespace Operation

/-- The call with another name for the record that it makes or changes. -/
def named (name : Value) : Operation → Operation
  | createBase actor _ => createBase actor name
  | createTable actor base _ => createTable actor base name
  | addColumn actor table _ type order => addColumn actor table name type order
  | updateColumn actor column _ type order => updateColumn actor column name type order
  | createView actor table _ filter sort => createView actor table name filter sort
  | updateView actor view _ filter sort => updateView actor view name filter sort
  | op => op

/-- The record for which a name is looked at. -/
def record? : Operation → Option Entity
  | createBase _ _ => some .base
  | createTable _ _ _ => some .table
  | addColumn _ _ _ _ _ => some .column
  | updateColumn _ _ _ _ _ => some .column
  | createView _ _ _ _ _ => some .view
  | _ => none

/-- The call comes to convert cells before it looks at the name. -/
def ConvertsCells (db : Database) : Operation → Prop
  | updateColumn actor id _ type _ => Workspace.RewritesTexts actor id type db
  | _ => False

variable {s : Surroundings} {w w' : World} {db : Database} {op : Operation} {what : Entity}
  {t : String}

/-- A call to make a record, or to change a column, is not carried out if its name is blank. -/
theorem refuses_blank (settings : Workspace.Settings) (s : Surroundings) (w : World)
    (hop : op.record? = some what) (h : Text.isBlankText t = true) :
    Refuses (fun name => (op.named name).perform settings) (.text t) (.invalid (.blankName what))
      s w := by
  cases op with
  | createBase actor name =>
    obtain rfl := Option.some.inj hop
    exact ((refuses_lift_bind (Catalog.nameOf_blank .base h)).map _).map _
  | createTable actor base name =>
    obtain rfl := Option.some.inj hop
    refine Refuses.map (refuses_bind fun b w₁ _ => ?_) _
    exact refuses_lift_bind (Catalog.nameOf_blank .table h)
  | addColumn actor table name type order =>
    obtain rfl := Option.some.inj hop
    have hcolumn : ∀ order w, Refuses (fun name => Catalog.createColumn (some table) name type order)
        (.text t) (.invalid (.blankName .column)) s w := by
      intro order w
      have hrun : Catalog.createColumn (some table) (.text t) type order s w =
          (.error (.invalid (.blankName .column)), w) := by
        unfold Catalog.createColumn
        split
        · rfl
        · exact run_bind_error (by rw [run_liftM, Catalog.columnNameOf_blank h]) _
      exact refuses_of_eq hrun
    refine Refuses.map (refuses_bind fun _ w₁ _ => ?_) _
    dsimp only
    split
    · exact refuses_bind fun columns w₂ _ => (hcolumn _ w₂).map _
    · exact (hcolumn order w₁).map _
  | updateColumn actor column name type order =>
    obtain rfl := Option.some.inj hop
    have hrecord : ∀ w, Refuses (fun name => Catalog.updateColumn column name type order) (.text t)
        (.invalid (.blankName .column)) s w := fun w =>
      refuses_transaction fun db c => by
        rw [Catalog.editedColumn_blank h]
        rfl
    simp only [named, perform, Workspace.updateColumn_eq]
    refine Refuses.map (refuses_bind fun c w₁ _ => refuses_bind fun _ w₂ _ => ?_) _
    exact refuses_bind fun _ w₃ _ => (hrecord w₃).map _
  | createView actor table name filter sort =>
    obtain rfl := Option.some.inj hop
    refine Refuses.map (refuses_bind fun _ w₁ _ => refuses_bind fun kept w₂ _ => ?_) _
    exact (refuses_lift_bind (Catalog.nameOf_blank .view h)).map _
  | _ => cases hop

/-- Nothing is left of it either, unless cells were converted before. -/
theorem storage_of_blank (settings : Workspace.Settings) (s : Surroundings)
    (hw : w.storage = .ready db) (hop : op.record? = some what) (h : Text.isBlankText t = true) :
    ((op.named (.text t)).perform settings s w).2.storage = w.storage ↔
      ¬ op.ConvertsCells db := by
  obtain ⟨why, w', hrun, -⟩ := refuses_blank settings s w hop h
  replace hrun : (op.named (.text t)).perform settings s w = (.error why, w') := hrun
  have hundone : ∀ {α : Type} {x : Action α}, Undoes (fun _ => True) x →
      (op.named (.text t)).perform settings s w = (do let _ ← x : Action Unit) s w →
        w'.storage = w.storage := fun hx heq =>
    Undoes.map hx s w why w' (heq.symm.trans hrun) trivial
  rw [hrun]
  cases op with
  | createBase => exact iff_of_true (hundone (Workspace.undoes_createBase _ _) rfl) id
  | createTable => exact iff_of_true (hundone (Workspace.undoes_createTable _ _ _) rfl) id
  | addColumn => exact iff_of_true (hundone (Workspace.undoes_addColumn _ _ _ _ _) rfl) id
  | createView => exact iff_of_true (hundone (Workspace.undoes_createView _ _ _ _ _) rfl) id
  | updateColumn actor id name type order =>
    obtain ⟨r, db', hcall, hupdates⟩ :=
      Workspace.updates (s := s) actor id (.text t) type order hw
    have hrun' : (do let _ ← Workspace.updateColumn actor id (.text t) type order : Action Unit) s w =
        (.error why, w') := hrun
    rw [run_bind, hcall] at hrun'
    rcases r with e | c
    · obtain ⟨-, rfl⟩ := Prod.mk.inj hrun'
      rw [storage_withDatabase, hw, Storage.ready.injEq]
      rcases hupdates.of_error with ⟨rfl, hnot⟩ | ⟨-, hne, hconverts⟩
      · exact iff_of_true rfl hnot
      · exact iff_of_false (fun h => hne (by rw [h])) (not_not.mpr hconverts)
    · cases hrun'
  | _ => cases hop

end Operation

/-! ## Names of views that are changed -/

/-- What comes of a world in which a change of the database ends an action. -/
def World.settle {α : Type} (w : World) : Except Failure (α × Database) → Except Failure α × World
  | .ok (a, db) => (.ok a, w.withDatabase db)
  | .error why => (.error why, w)

theorem bind_of_ok {ε α β : Type} {x : Except ε α} {a : α} (h : x = .ok a) (f : α → Except ε β) :
    (x >>= f) = f a := by
  rw [h]
  rfl

/-- Two changes fail alike if they do after what is read. -/
theorem bind_error_congr {α β : Type} {x : Except Failure α} {f g : α → Except Failure β}
    {why : Failure} (h : ∀ a, f a = .error why ↔ g a = .error why) :
    (x >>= f) = .error why ↔ (x >>= g) = .error why := by
  rcases x with e | a
  · exact Iff.rfl
  · exact h a

section Reading

variable {α β : Type} {s : Surroundings} {w : World} {x : Action α} {r : Except Failure α}

theorem Action.read_bind (hx : x s w = (r, w)) {f : α → Action β} {g : α → Except Failure β}
    (h : ∀ a, r = .ok a → f a s w = (g a, w)) : (x >>= f) s w = (r >>= g, w) := by
  rcases r with why | a
  · exact run_bind_error hx f
  · exact (run_bind_ok hx f).trans (h a rfl)

/-- What is only read comes before the change. -/
theorem Action.settle_bind (hx : x s w = (r, w)) {f : α → Action β}
    {g : α → Except Failure (β × Database)} (h : ∀ a, r = .ok a → f a s w = w.settle (g a)) :
    (x >>= f) s w = w.settle (r >>= g) := by
  rcases r with why | a
  · exact run_bind_error hx f
  · exact (run_bind_ok hx f).trans (h a rfl)

end Reading

namespace Workspace

/-- The read forms of a filter and a sort that compile. -/
def compiledConfigs (types : List (String × ColumnType)) (filter sort : Value) :
    Except Failure (Value × Value) := do
  let filter ← keptFilter filter
  let sort ← keptSort sort
  let _ ← Query.compile (some types) filter sort
  return (filter, sort)

/-- What a call to change a view answers, and the database that it leaves. -/
def updatedView (actor id : String) (name filter sort : Value) (db : Database) :
    Except Failure (Value × Database) := do
  let view ← Catalog.findView id db
  let _ ← Catalog.ownedTable actor view.table db
  let (filter, sort) ← compiledConfigs (Catalog.typesOf view.table db) filter sort
  let name ← Catalog.viewNameOf view.name name
  let filter ← Catalog.viewField view.filter filter
  let sort ← Catalog.viewField view.sort sort
  let kept := { view with
    name := name, filter := Catalog.keptField view.filter filter
    sort := Catalog.keptField view.sort sort }
  return (View.toValue { view with name := name, filter := filter, sort := sort },
    { db with views := db.views.map fun v => if v.id == id then kept else v })

variable {s : Surroundings} {w : World} {db db' : Database} {actor id t : String}
  {name filter sort answer : Value} {v : View}

theorem run_keptConfigs (hw : w.storage = .ready db) (table : String) (filter sort : Value) :
    keptConfigs table filter sort s w =
      (compiledConfigs (Catalog.typesOf table db) filter sort, w) := by
  refine read_bind (run_liftM _) fun f _ => read_bind (run_liftM _) fun k _ => ?_
  have htypes : typesFor table s w = (.ok (some (Catalog.typesOf table db)), w) :=
    run_query_bind (f := fun db => .ok (Catalog.typesOf table db)) hw rfl _
  exact (run_bind_ok htypes _).trans (read_bind (run_liftM _) fun _ _ => rfl)

theorem run_updateView (hw : w.storage = .ready db) (actor id : String)
    (name filter sort : Value) : updateView actor id name filter sort s w =
      w.settle (updatedView actor id name filter sort db) := by
  refine settle_bind (run_query hw _) fun view hview => ?_
  refine settle_bind (run_query hw _) fun t _ => ?_
  refine settle_bind (run_keptConfigs hw _ _ _) fun ⟨f, k⟩ _ => ?_
  dsimp only
  rw [run_bind, Catalog.updateView, run_transaction hw, bind_of_ok hview]
  rcases Catalog.viewNameOf view.name name with why | n
  · rfl
  rcases Catalog.viewField view.filter f with why | f'
  · rfl
  rcases Catalog.viewField view.sort k with why | k' <;> rfl

theorem exists_viewNameOf (old t : String) : ∃ n, Catalog.viewNameOf old (.text t) = .ok n := by
  unfold Catalog.viewNameOf
  split <;> exact ⟨_, rfl⟩

/-- A text for a name is never refused. -/
theorem updatedView_text {why : Failure} :
    updatedView actor id (.text t) filter sort db = .error why ↔
      updatedView actor id .null filter sort db = .error why := by
  refine bind_error_congr fun view => bind_error_congr fun _ => bind_error_congr fun kept => ?_
  obtain ⟨n, hn⟩ := exists_viewNameOf view.name t
  have hnull : Catalog.viewNameOf view.name .null = .ok view.name := rfl
  dsimp only
  rw [hn, hnull]
  show (Catalog.viewField view.filter kept.1 >>= _) = _ ↔
    (Catalog.viewField view.filter kept.1 >>= _) = _
  exact bind_error_congr fun f => bind_error_congr fun k => iff_of_false
    (by rintro ⟨⟩) (by rintro ⟨⟩)

/-- The owner can always change the name alone. -/
theorem exists_updatedView {owned : Table} (hv : Catalog.findView id db = .ok v)
    (howned : Catalog.ownedTable actor v.table db = .ok owned) (t : String) :
    ∃ answer db', updatedView actor id (.text t) .null .null db = .ok (answer, db') := by
  obtain ⟨plan, hplan⟩ := Query.exists_compile_iff.mpr
    ⟨(⟨Query.Filter.everything, rfl, by simp [Query.Filter.everything]⟩ :
        Query.FilterCompiles (Catalog.typesOf v.table db) .null),
      (⟨[], rfl, List.forall_mem_nil _⟩ : Query.SortCompiles _ .null)⟩
  have hkept : compiledConfigs (Catalog.typesOf v.table db) .null .null = .ok (.null, .null) :=
    (bind_of_ok (show keptFilter .null = .ok .null from rfl) _).trans <|
      (bind_of_ok (show keptSort .null = .ok .null from rfl) _).trans <| bind_of_ok hplan _
  obtain ⟨n, hn⟩ := exists_viewNameOf v.name t
  exact ⟨_, _, (bind_of_ok hv _).trans <| (bind_of_ok howned _).trans <|
    (bind_of_ok hkept _).trans <| bind_of_ok hn _⟩

/-- The name of the view is empty if it was white space. -/
theorem name_of_updatedView (hblank : Text.isBlankText t = true) (hne : t ≠ "")
    (h : updatedView actor id (.text t) filter sort db = .ok (answer, db')) :
    ∃ v, Catalog.findView id db' = .ok v ∧ v ∈ db'.views ∧ v.name = "" := by
  obtain ⟨view, hview, h⟩ := ok_of_bind h
  obtain ⟨_, -, h⟩ := ok_of_bind h
  obtain ⟨⟨f, k⟩, -, h⟩ := ok_of_bind h
  obtain ⟨n, hn, h⟩ := ok_of_bind h
  obtain ⟨f', -, h⟩ := ok_of_bind h
  obtain ⟨k', -, h⟩ := ok_of_bind h
  obtain ⟨-, rfl⟩ := Prod.mk.inj (Except.ok.inj h)
  have hname : n = "" := by
    rw [Catalog.viewNameOf, if_neg (by simpa [Value.truthy] using hne)] at hn
    rw [← Except.ok.inj hn, Text.trim_blank hblank]
  have hid : ({ view with
      name := n, filter := Catalog.keptField view.filter f',
      sort := Catalog.keptField view.sort k' } : View).id = view.id := rfl
  have hfind := Catalog.findView_map hview hid
  exact ⟨_, hfind, (Catalog.mem_of_findView hfind).1, hname⟩

end Workspace

/-! ## Names in one process -/

/-- The operation gives a view a name of white space. -/
def Operation.Blanks (db : Database) : Operation → Prop
  | updateView actor id name filter sort => ∃ t, name = .text t ∧ t ≠ "" ∧
      Text.isBlankText t = true ∧
        ∃ answer db', Workspace.updatedView actor id name filter sort db = .ok (answer, db')
  | _ => False

namespace Database

variable {db db' : Database} {IsName : String → Prop}

theorem isNamed_empty : Database.empty.IsNamed := fun _ h => absurd h List.not_mem_nil

theorem IsNamed.inherits (h : db.IsNamed) (hinherits : Inherits Text.IsTidy db db') :
    db'.IsNamed := fun n hn => (hinherits.names n hn).elim (h n) id

/-- Workers leave the names. -/
theorem IsNamed.pending (h : db.IsNamed) (hpending : Worker.Pending db db') : db'.IsNamed := by
  intro n hn
  rw [(stands_of_pending hpending).eq] at hn
  exact h n hn

end Database

section Perform

variable {s : Surroundings} {w : World} {db : Database} {op : Operation}

/-- An operation that gives no view a blank name leaves names tidy. -/
theorem Operation.leaves_isNamed (settings : Workspace.Settings) (hw : w.storage = .ready db)
    (hsound : op.IsSound) (hblanks : ¬ op.Blanks db) (hnamed : db.IsNamed) :
    Leaves (fun db' => db'.IsNamed) (op.perform settings) s w := by
  by_cases hrows : op.AddsRows
  · cases op with
    | createTable actor base name =>
      refine leaves_map ?_
      rcases Workspace.createsTable (s := s) hw actor base name with
        hw' | ⟨hw', -, hname, hnames, -, -⟩
      · exact ⟨_, hw', hnamed⟩
      · refine ⟨_, hw', hnamed.inherits ⟨fun _ => .inl, ?_, ?_, fun v hv => .inl ⟨v, hv, rfl⟩,
          fun j hj => .inl ⟨j, hj, rfl⟩⟩⟩
        · exact List.forall_mem_append.mpr ⟨fun _ => .inl, List.forall_mem_singleton.mpr (.inr hname)⟩
        · exact List.forall_mem_append.mpr
            ⟨fun c hc => .inl ⟨c, hc, rfl⟩, fun c hc => .inr (hnames c hc)⟩
    | insertRows actor table rows =>
      obtain ⟨_, _, hw', _⟩ := Workspace.exists_of_insertRows (s := s) hw settings actor table rows
      exact leaves_map ⟨_, hw', hnamed⟩
    | runJob worker job =>
      exact leaves_map ((worker.makes_run hsound job s w db hw).mono fun _ h => hnamed.pending h)
    | runPending worker table =>
      exact leaves_map ((worker.makes_runPending hsound table s w db hw).mono
        fun _ h => hnamed.pending h)
    | _ => exact hrows.elim
  -- Any other operation gives tidy names, or is a call to change a view that is refused.
  by_cases hnames : ∀ n, op.GivesName n → Text.IsTidy n
  · exact (op.thins_perform settings hw hsound hrows fun n hn => hn.elim id (hnames n)).mono
      fun db' h => hnamed.inherits h.toInherits
  · push Not at hnames
    obtain ⟨n, hgives, hnot⟩ := hnames
    cases op with
    | updateView actor id name filter sort =>
      obtain ⟨t, rfl, hne, rfl⟩ := hgives
      have hblank : Text.isBlankText t = true := by
        by_contra hblank
        exact hnot (Text.isTidy_trim (by simpa using hblank))
      refine leaves_map ?_
      rcases hupdated : Workspace.updatedView actor id (.text t) filter sort db with
        why | ⟨answer, db'⟩
      · refine leaves_of_eq (Workspace.run_updateView hw actor id (.text t) filter sort) ?_ hnamed
        rw [hupdated]
        exact hw
      · exact absurd ⟨t, rfl, hne, hblank, answer, db', hupdated⟩ hblanks
    | _ => exact hgives.elim

/-- One that does leaves a view without a name. -/
theorem Operation.exists_of_blanks (settings : Workspace.Settings) (hw : w.storage = .ready db)
    (hblanks : op.Blanks db) : ∃ db', (op.perform settings s w).2.storage = .ready db' ∧
      "" ∈ db'.names := by
  cases op with
  | updateView actor id name filter sort =>
    obtain ⟨t, rfl, hne, hblank, answer, db', hupdated⟩ := hblanks
    have hrun := Workspace.run_updateView (s := s) hw actor id (.text t) filter sort
    rw [hupdated] at hrun
    obtain ⟨v, -, hv, hname⟩ := Workspace.name_of_updatedView hblank hne hupdated
    refine ⟨db', ?_, Database.mem_names.mpr (.inr (.inr (.inr ⟨v, hv, hname⟩)))⟩
    rw [perform, run_bind, hrun]
    rfl
  | _ => exact hblanks.elim

end Perform

theorem isNamed_of_reached {w : World} (h : Reached (fun op db => ¬ op.Blanks db) w) :
    ∃ db, w.storage = .ready db ∧ db.IsNamed := by
  induction h with
  | empty hw => exact ⟨_, hw, Database.isNamed_empty⟩
  | perform _ hw settings _ hsound hblanks ih =>
    obtain ⟨_, hw', hnamed⟩ := ih
    obtain rfl := Storage.ready.inj (hw'.symm.trans hw)
    exact Operation.leaves_isNamed settings hw hsound hblanks hnamed
  | stopped _ hfactory hdisk ih =>
    obtain ⟨db, hw, hnamed⟩ := ih
    obtain ⟨db', hdb', hpending⟩ := pending_of_onDisk hfactory hw hdisk
    exact ⟨db', hdb', hnamed.pending hpending⟩

/-- A call to give a view a blank name can come about with no such call before. -/
theorem exists_blanks : ∃ w db id, Reached (fun op db => ¬ op.Blanks db) w ∧
    w.storage = .ready db ∧
      (Operation.updateView "u" id (.text " ") .null .null).Blanks db := by
  obtain ⟨w, db, t, h, hw, hnew⟩ := @exists_isNew_of_creates (fun op db => ¬ op.Blanks db)
    (fun _ _ _ => id) fun _ _ _ _ => id
  obtain ⟨s, hs⟩ := exists_isFresh w
  have hread : ∀ k ∈ ([] : List Query.SortKey), k.IsRead := List.forall_mem_nil _
  obtain ⟨_, w', v, hrun, hw', htable, -⟩ := Workspace.exists_createView (s := s) hw hnew.owned
    (nameOf_name .view) hread (List.forall_mem_nil _)
  rw [hnew.views, List.nil_append] at hw'
  refine ⟨w', _, v.id, h.run hw hs (.createView "u" t.id (.text "A") .null (Query.sortValue []))
    trivial id rfl hrun, hw', " ", rfl, by decide, by decide, ?_⟩
  have hfind : Catalog.findView v.id { db with views := [v] } = .ok v := by
    simp [Catalog.findView]
  have howned : Catalog.ownedTable "u" v.table { db with views := [v] } = .ok t :=
    htable ▸ hnew.owned
  exact Workspace.exists_updatedView hfind howned " "

/-- Names in one process. As long as no view is given a name of white space every name is tidy, and
a call that gives a view one leaves an empty name. A call to make a record or to change a column is
refused if its name is blank, for the name or as it is whatever the name is, and leaves everything
unless it comes to convert cells before. A call to change a view is not refused for its name, and an
empty one is none. -/
theorem isNamed_iff_of_reached {w : World} (h : Reached (fun op db => ¬ op.Blanks db) w) :
    ∃ db, w.storage = .ready db ∧ db.IsNamed ∧
      ∀ (settings : Workspace.Settings) (s : Surroundings) (op : Operation), op.IsSound →
        (∃ db', (op.perform settings s w).2.storage = .ready db' ∧
          (db'.IsNamed ↔ ¬ op.Blanks db)) ∧
        (∀ what t, op.record? = some what → Text.isBlankText t = true →
          Refuses (fun name => (op.named name).perform settings) (.text t)
            (.invalid (.blankName what)) s w ∧
          (((op.named (.text t)).perform settings s w).2.storage = w.storage ↔
            ¬ op.ConvertsCells db)) ∧
        ∀ actor view filter sort,
          (∀ t why, (Workspace.updateView actor view (.text t) filter sort s w).1 = .error why ↔
            (Workspace.updateView actor view .null filter sort s w).1 = .error why) ∧
          Workspace.updateView actor view (.text "") filter sort s w =
            Workspace.updateView actor view .null filter sort s w := by
  obtain ⟨db, hw, hnamed⟩ := isNamed_of_reached h
  refine ⟨db, hw, hnamed, fun settings s op hsound => ⟨?_, fun what t hop hblank => ?_,
    fun actor view filter sort => ⟨fun t why => ?_, ?_⟩⟩⟩
  · by_cases hblanks : op.Blanks db
    · obtain ⟨db', hdb', hmem⟩ := Operation.exists_of_blanks (s := s) settings hw hblanks
      exact ⟨db', hdb', iff_of_false (fun h => (h "" hmem).ne_nil rfl) (not_not.mpr hblanks)⟩
    · exact (Operation.leaves_isNamed settings hw hsound hblanks hnamed).mono
        fun db' h => iff_of_true h hblanks
  · exact ⟨op.refuses_blank settings s w hop hblank, op.storage_of_blank settings s hw hop hblank⟩
  · have hsettle : ∀ r : Except Failure (Value × Database),
        (w.settle r).1 = .error why ↔ r = .error why := by
      rintro (e | ⟨answer, db'⟩)
      · simp [World.settle]
      · simp [World.settle]
    rw [Workspace.run_updateView hw, Workspace.run_updateView hw, hsettle, hsettle]
    exact Workspace.updatedView_text
  · rw [Workspace.run_updateView hw, Workspace.run_updateView hw]
    rfl

/-- A view loses its name to a space. -/
theorem isNamed_iff_of_space : ∃ w db id s db', Reached (fun op db => ¬ op.Blanks db) w ∧
    w.storage = .ready db ∧ db.IsNamed ∧
      ((Operation.updateView "u" id (.text " ") .null .null).perform ⟨.null, 1⟩ s w).2.storage =
        .ready db' ∧ ¬ db'.IsNamed := by
  obtain ⟨w, db, id, h, hw, hblanks⟩ := exists_blanks
  obtain ⟨s, -⟩ := exists_isFresh w
  obtain ⟨db₀, hw₀, hnamed, hstep⟩ := isNamed_iff_of_reached h
  obtain rfl := Storage.ready.inj (hw₀.symm.trans hw)
  obtain ⟨⟨db', hdb', hiff⟩, -⟩ :=
    hstep ⟨.null, 1⟩ s (.updateView "u" id (.text " ") .null .null) trivial
  exact ⟨w, db₀, id, s, db', h, hw, hnamed, hdb', fun h => hiff.mp h hblanks⟩

/-- So a call that is given a blank name may be carried out, and a record have no name. -/
theorem exists_not_isNamed : ∃ w db id s db', Reached (fun _ _ => True) w ∧
    w.storage = .ready db ∧
      ((Operation.updateView "u" id (.text " ") .null .null).perform ⟨.null, 1⟩ s w).1 = .ok () ∧
      ((Operation.updateView "u" id (.text " ") .null .null).perform ⟨.null, 1⟩ s w).2.storage =
        .ready db' ∧ "" ∈ db'.names := by
  obtain ⟨w, db, id, h, hw, hblanks⟩ := exists_blanks
  obtain ⟨s, -⟩ := exists_isFresh w
  obtain ⟨db', hdb', hmem⟩ := Operation.exists_of_blanks (s := s) ⟨.null, 1⟩ hw hblanks
  refine ⟨w, db, id, s, db', h.mono fun _ _ _ => trivial, hw, ?_, hdb', hmem⟩
  obtain ⟨_, -, -, -, _, _, hupdated⟩ := hblanks
  rw [Operation.perform, run_bind, Workspace.run_updateView hw, hupdated]
  rfl

end Tabula
