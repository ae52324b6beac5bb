import Tabula.Proofs.Integrity

/-!
# Views that compile

A view is compiled against the columns of its table when it is made or changed, and again each
time its rows are listed. In between its columns may be deleted or changed, which nothing checks.

More columns break no view (`View.Compiles.mono`). A column that is deleted breaks those that
mention it (`View.compiles_withoutColumn_iff`), and one that is changed those that compare it with
a text when it is to hold numbers (`View.compiles_withColumn_iff`). There are no other ways
(`viewsCompile_iff_of_steps`), and while no operation goes either, the owner of a view is answered
with its rows unless the store fails.
-/

namespace Tabula

open Store Database Query

/-! ## What compiles for more columns -/

namespace Query

variable {types types' : List (String × ColumnType)} {raw : Value}

theorem FilterCompiles.mono (h : FilterCompiles types raw)
    (hle : ∀ column type, types.lookup column = some type → types'.lookup column = some type) :
    FilterCompiles types' raw := by
  obtain ⟨f, hf, hconditions⟩ := h
  refine ⟨f, hf, fun c hc => ?_⟩
  obtain ⟨type, htype, hvalue⟩ := hconditions c hc
  exact ⟨type, hle _ _ htype, hvalue⟩

theorem SortCompiles.mono (h : SortCompiles types raw)
    (hle : ∀ column type, types.lookup column = some type → types'.lookup column = some type) :
    SortCompiles types' raw := by
  obtain ⟨keys, hkeys, hcolumns⟩ := h
  exact ⟨keys, hkeys, fun k hk => (hcolumns k hk).imp fun type => hle _ type⟩

end Query

/-! ## The types of the columns -/

namespace Database.IsKeyed

variable {db : Database} {c c' : Column} {now : Moment} {table column : String}
  {type : ColumnType}

theorem lookup_eq_some_iff_of_mem (h : db.IsKeyed) (hc : c ∈ db.columns) :
    (Catalog.typesOf table db).lookup c.id = some type ↔ c.table = table ∧ c.type = type := by
  rw [h.lookup_typesOf]
  constructor
  · rintro ⟨d, hd, rfl, hid, rfl⟩
    rw [h.column_eq hc hd hid.symm]
    exact ⟨rfl, rfl⟩
  · exact fun ⟨htable, htype⟩ => ⟨c, hc, htable, rfl, htype⟩

theorem lookup_withoutColumn (h : db.IsKeyed) :
    (Catalog.typesOf table (db.withoutColumn now c)).lookup column = some type ↔
      column ≠ c.id ∧ (Catalog.typesOf table db).lookup column = some type := by
  rw [(h.withoutColumn now c).lookup_typesOf, h.lookup_typesOf]
  constructor
  · rintro ⟨d, hd, htable, rfl, rfl⟩
    obtain ⟨hd, hne⟩ := List.mem_filter.mp hd
    exact ⟨by simpa using hne, d, hd, htable, rfl, rfl⟩
  · rintro ⟨hne, d, hd, htable, rfl, rfl⟩
    exact ⟨d, List.mem_filter.mpr ⟨hd, by simpa using hne⟩, htable, rfl, rfl⟩

theorem lookup_withColumn_self (h : db.IsKeyed) (hc : c ∈ db.columns) (hid : c'.id = c.id)
    (htable : c'.table = c.table) :
    (Catalog.typesOf table (db.withColumn c')).lookup c.id = some type ↔
      c.table = table ∧ c'.type = type := by
  have hc' : c' ∈ (db.withColumn c').columns :=
    List.mem_map.mpr ⟨c, hc, if_pos (beq_iff_eq.mpr hid.symm)⟩
  rw [← hid, ← htable]
  exact (h.renew (renews_withColumn h hc hid htable)).lookup_eq_some_iff_of_mem hc'

theorem lookup_withColumn_of_ne (h : db.IsKeyed) (hc : c ∈ db.columns) (hid : c'.id = c.id)
    (htable : c'.table = c.table) (hne : column ≠ c.id) :
    (Catalog.typesOf table (db.withColumn c')).lookup column = some type ↔
      (Catalog.typesOf table db).lookup column = some type := by
  rw [(h.renew (renews_withColumn h hc hid htable)).lookup_typesOf, h.lookup_typesOf]
  constructor
  · rintro ⟨d', hd', hdtable, rfl, rfl⟩
    obtain ⟨d, hd, rfl⟩ := List.mem_map.mp hd'
    split at hne
    · exact absurd hid hne
    · rename_i hdid
      rw [if_neg hdid] at hdtable ⊢
      exact ⟨d, hd, hdtable, rfl, rfl⟩
  · rintro ⟨d, hd, hdtable, rfl, rfl⟩
    refine ⟨d, List.mem_map.mpr ⟨d, hd, if_neg ?_⟩, hdtable, rfl, rfl⟩
    rw [beq_iff_eq, hid]
    exact hne

end Database.IsKeyed

/-! ## One view -/

namespace View

/-- The filter and the sort of the view compile for the columns of its table. -/
def Compiles (db : Database) (v : View) : Prop :=
  ∃ plan, compile (some (Catalog.typesOf v.table db)) (Workspace.orNull v.filter)
    (Workspace.orNull v.sort) = .ok plan

/-- The filter or the sort of the view is about the column. -/
def Mentions (column : String) (v : View) : Prop :=
  (∃ f, Filter.parse (Workspace.orNull v.filter) = .ok f ∧ ∃ c ∈ f.conditions, c.column = column) ∨
    ∃ keys, parseSort (Workspace.orNull v.sort) = .ok keys ∧ ∃ k ∈ keys, k.column = column

/-- The filter of the view compares the column with a value that is no number. -/
def ComparesText (column : String) (v : View) : Prop :=
  ∃ f, Filter.parse (Workspace.orNull v.filter) = .ok f ∧
    ∃ c ∈ f.conditions, c.column = column ∧ c.operator.isComparison = true ∧ ¬ c.value.IsNumeric

variable {db db' : Database} {v : View} {c c' : Column} {now : Moment}

theorem compiles_iff : v.Compiles db ↔
    FilterCompiles (Catalog.typesOf v.table db) (Workspace.orNull v.filter) ∧
      SortCompiles (Catalog.typesOf v.table db) (Workspace.orNull v.sort) :=
  exists_compile_iff

theorem Compiles.mono (h : v.Compiles db)
    (hle : ∀ column type, (Catalog.typesOf v.table db).lookup column = some type →
      (Catalog.typesOf v.table db').lookup column = some type) : v.Compiles db' := by
  obtain ⟨hfilter, hsort⟩ := compiles_iff.mp h
  exact compiles_iff.mpr ⟨hfilter.mono hle, hsort.mono hle⟩

theorem Compiles.of_columns (h : v.Compiles db) (hkeyed : db.IsKeyed) (hkeyed' : db'.IsKeyed)
    (hle : ∀ c ∈ db.columns, c.table = v.table → c ∈ db'.columns) : v.Compiles db' := by
  refine h.mono fun column type htype => ?_
  obtain ⟨c, hc, htable, hid, rfl⟩ := hkeyed.lookup_typesOf.mp htype
  exact hkeyed'.lookup_typesOf.mpr ⟨c, hle c hc htable, htable, hid, rfl⟩

/-- A number column is not compared with anything else. -/
theorem Compiles.not_comparesText (h : v.Compiles db) (hkeyed : db.IsKeyed) (hc : c ∈ db.columns)
    (hnumber : c.type = .number) : ¬ v.ComparesText c.id := by
  rintro ⟨f, hf, cond, hcond, hcolumn, hcomparison, hvalue⟩
  obtain ⟨⟨f', hf', hconditions⟩, _⟩ := compiles_iff.mp h
  obtain rfl := Except.ok.inj (hf.symm.trans hf')
  obtain ⟨type, htype, hnumeric⟩ := hconditions cond hcond
  rw [hcolumn, hkeyed.lookup_eq_some_iff_of_mem hc] at htype
  exact hvalue (hnumeric (htype.2.symm.trans hnumber) hcomparison)

/-- Once a column is deleted, the views that mention it do not compile. -/
theorem compiles_withoutColumn_iff (h : v.Compiles db) (hkeyed : db.IsKeyed) :
    v.Compiles (db.withoutColumn now c) ↔ ¬ v.Mentions c.id := by
  obtain ⟨⟨f, hf, hconditions⟩, keys, hkeys, hcolumns⟩ := compiles_iff.mp h
  rw [compiles_iff]
  constructor
  · rintro ⟨⟨f', hf', hconditions'⟩, keys', hkeys', hcolumns'⟩
    rintro (⟨g, hg, cond, hcond, hcolumn⟩ | ⟨ks, hks, k, hk, hcolumn⟩)
    · obtain rfl := Except.ok.inj (hf'.symm.trans hg)
      obtain ⟨type, htype, _⟩ := hconditions' cond hcond
      exact (hkeyed.lookup_withoutColumn.mp htype).1 hcolumn
    · obtain rfl := Except.ok.inj (hkeys'.symm.trans hks)
      obtain ⟨type, htype⟩ := hcolumns' k hk
      exact (hkeyed.lookup_withoutColumn.mp htype).1 hcolumn
  · intro hnot
    refine ⟨⟨f, hf, fun cond hcond => ?_⟩, keys, hkeys, fun k hk => ?_⟩
    · obtain ⟨type, htype, hvalue⟩ := hconditions cond hcond
      refine ⟨type, hkeyed.lookup_withoutColumn.mpr ⟨fun hcolumn => ?_, htype⟩, hvalue⟩
      exact hnot (.inl ⟨f, hf, cond, hcond, hcolumn⟩)
    · obtain ⟨type, htype⟩ := hcolumns k hk
      refine ⟨type, hkeyed.lookup_withoutColumn.mpr ⟨fun hcolumn => ?_, htype⟩⟩
      exact hnot (.inr ⟨keys, hkeys, k, hk, hcolumn⟩)

/-- Once a column is changed, the views do not compile that compare it as it cannot be compared. -/
theorem compiles_withColumn_iff (h : v.Compiles db) (hkeyed : db.IsKeyed) (hc : c ∈ db.columns)
    (hid : c'.id = c.id) (htable : c'.table = c.table) :
    v.Compiles (db.withColumn c') ↔ ¬ (c'.type = .number ∧ v.ComparesText c.id) := by
  obtain ⟨⟨f, hf, hconditions⟩, keys, hkeys, hcolumns⟩ := compiles_iff.mp h
  rw [compiles_iff]
  constructor
  · rintro ⟨⟨f', hf', hconditions'⟩, _⟩ ⟨hnumber, g, hg, cond, hcond, hcolumn, hcompares, hvalue⟩
    obtain rfl := Except.ok.inj (hf'.symm.trans hg)
    obtain ⟨type, htype, hnumeric⟩ := hconditions' cond hcond
    rw [hcolumn, hkeyed.lookup_withColumn_self hc hid htable] at htype
    exact hvalue (hnumeric (htype.2.symm.trans hnumber) hcompares)
  · intro hnot
    refine ⟨⟨f, hf, fun cond hcond => ?_⟩, keys, hkeys, fun k hk => ?_⟩
    · obtain ⟨type, htype, hnumeric⟩ := hconditions cond hcond
      by_cases hcolumn : cond.column = c.id
      · rw [Condition.Compiles, hcolumn]
        rw [hcolumn, hkeyed.lookup_eq_some_iff_of_mem hc] at htype
        refine ⟨c'.type, (hkeyed.lookup_withColumn_self hc hid htable).mpr ⟨htype.1, rfl⟩,
          fun hnumber hcompares => ?_⟩
        by_contra hvalue
        exact hnot ⟨hnumber, f, hf, cond, hcond, hcolumn, hcompares, hvalue⟩
      · exact ⟨type, (hkeyed.lookup_withColumn_of_ne hc hid htable hcolumn).mpr htype, hnumeric⟩
    · obtain ⟨type, htype⟩ := hcolumns k hk
      by_cases hcolumn : k.column = c.id
      · rw [hcolumn, hkeyed.lookup_eq_some_iff_of_mem hc] at htype
        rw [hcolumn]
        exact ⟨c'.type, (hkeyed.lookup_withColumn_self hc hid htable).mpr ⟨htype.1, rfl⟩⟩
      · exact ⟨type, (hkeyed.lookup_withColumn_of_ne hc hid htable hcolumn).mpr htype⟩

end View

/-! ## Views that still compile -/

/-- Every view compiles. -/
def Database.ViewsCompile (db : Database) : Prop := ∀ v ∈ db.views, v.Compiles db

namespace Database

variable {db db' : Database}

theorem viewsCompile_empty : Database.empty.ViewsCompile := fun _ h => absurd h List.not_mem_nil

theorem ViewsCompile.change (h : db.ViewsCompile) (hkeyed : db.IsKeyed) (hchange : db.Change db') :
    db'.ViewsCompile := by
  have hkeyed' := hkeyed.change hchange
  cases hchange with
  | base | job | cell | rowErased => exact h
  | table | column =>
    exact fun v hv => (h v hv).of_columns hkeyed hkeyed' fun c hc _ => List.mem_append_left _ hc
  | ingested _ hingested =>
    rw [hingested.eq]
    exact h
  | views hviews =>
    intro v hv
    have hfollows := hviews v hv
    refine View.compiles_iff.mpr ⟨?_, ?_⟩
    · rcases hfollows.filter with ⟨old, hold, htable, hfilter⟩ | hcompiles
      · rw [← hfilter, ← htable]
        exact (View.compiles_iff.mp (h old hold)).1
      · exact hcompiles
    · rcases hfollows.sort with ⟨old, hold, htable, hsort⟩ | hcompiles
      · rw [← hsort, ← htable]
        exact (View.compiles_iff.mp (h old hold)).2
      · exact hcompiles
  | tableDropped id =>
    intro v hv
    obtain ⟨hv, hne⟩ := List.mem_filter.mp hv
    refine (h v hv).of_columns hkeyed hkeyed' fun c hc htable => List.mem_filter.mpr ⟨hc, ?_⟩
    rw [htable]
    exact hne

theorem ViewsCompile.changes (h : db.ViewsCompile) (hlinked : db.IsLinked) (hkeyed : db.IsKeyed)
    (hchanges : Changes db db') : db'.ViewsCompile :=
  (keeps_of_changes hchanges h hlinked hkeyed fun _ hkeyed hviews hchange =>
    hviews.change hkeyed hchange).1

end Database

/-! ## Operations that break views -/

/-- The operation keeps some view from compiling : it deletes a column that a view mentions, or
makes a text column that a view compares with a text a number column. -/
def Operation.Breaks (db : Database) : Operation → Prop
  | deleteColumn actor id => ∃ c, Catalog.ownColumn actor id db = .ok c ∧
      ∃ v ∈ db.views, v.Mentions c.id
  | updateColumn actor id name type order => ∃ c, Catalog.ownColumn actor id db = .ok c ∧
      Workspace.Converts type c ∧ (∀ r ∈ db.rows, r.table = c.table → Workspace.HasNumber c.id r) ∧
      (∃ c', Catalog.editedColumn name type order c = .ok c') ∧
      ∃ v ∈ db.views, v.ComparesText c.id
  | _ => False

theorem Operation.not_breaks_of_keeps {op : Operation} {db : Database} (h : ¬ op.AltersColumn) :
    ¬ op.Breaks db := by
  cases op with
  | updateColumn | deleteColumn => exact absurd trivial h
  | _ => exact id

section Steps

variable {now : Moment} {actor id : String} {name type order : Value} {db db' : Database}
  {c c' : Column} {r : Except Failure Column} {op : Operation}

theorem viewsCompile_withoutColumn_iff (h : db.ViewsCompile) (hkeyed : db.IsKeyed) :
    (db.withoutColumn now c).ViewsCompile ↔ ¬ ∃ v ∈ db.views, v.Mentions c.id := by
  rw [not_exists]
  refine forall_congr' fun v => ?_
  rw [not_and]
  exact forall_congr' fun hv => View.compiles_withoutColumn_iff (h v hv) hkeyed

theorem viewsCompile_withColumn_iff (h : db.ViewsCompile) (hkeyed : db.IsKeyed)
    (hc : c ∈ db.columns) (hid : c'.id = c.id) (htable : c'.table = c.table) :
    (db.withColumn c').ViewsCompile ↔
      ¬ (c'.type = .number ∧ ∃ v ∈ db.views, v.ComparesText c.id) := by
  have hviews : ∀ v ∈ db.views, (v.Compiles (db.withColumn c') ↔
      ¬ (c'.type = .number ∧ v.ComparesText c.id)) := fun v hv =>
    View.compiles_withColumn_iff (h v hv) hkeyed hc hid htable
  constructor
  · rintro hall ⟨hnumber, v, hv, hcompares⟩
    exact (hviews v hv).mp (hall v hv) ⟨hnumber, hcompares⟩
  · intro hnot v hv
    exact (hviews v hv).mpr fun ⟨hnumber, hcompares⟩ => hnot ⟨hnumber, v, hv, hcompares⟩

/-- Every view still compiles unless the call breaks one. -/
theorem Workspace.Updates.viewsCompile_iff
    (h : Workspace.Updates now actor id name type order db r db') (hviews : db.ViewsCompile)
    (hkeyed : db.IsKeyed) :
    db'.ViewsCompile ↔ ¬ (Operation.updateColumn actor id name type order).Breaks db := by
  have heq : ∀ {c d : Column}, Catalog.ownColumn actor id db = .ok c →
      Catalog.ownColumn actor id db = .ok d → d = c := fun hown hown' =>
    Except.ok.inj (hown'.symm.trans hown)
  cases h with
  | absent h =>
    refine iff_of_true hviews fun ⟨c, hown, _⟩ => ?_
    rw [h] at hown
    cases hown
  | unread hown _ h =>
    refine iff_of_true hviews fun ⟨c, _, hconverts, _⟩ => ?_
    rw [hconverts.2] at h
    cases h
  | rejected hown hkeeps _ =>
    exact iff_of_true hviews fun ⟨c, hown', hconverts, _⟩ => hkeeps (heq hown hown' ▸ hconverts)
  | stuck hown _ h =>
    refine iff_of_true hviews fun ⟨c, hown', _, hnumbers, _⟩ => ?_
    obtain rfl := heq hown hown'
    obtain ⟨_, rfl⟩ := Catalog.mem_of_ownColumn hown
    rw [Workspace.retypeFailure_byPosition_iff.mpr hnumbers] at h
    cases h
  | halfDone hown _ _ h =>
    refine iff_of_true hviews fun ⟨c, hown', _, _, ⟨c', hedit⟩, _⟩ => ?_
    rw [heq hown hown', h] at hedit
    cases hedit
  | @edited c c' hown hkeeps h =>
    obtain ⟨hc, _⟩ := Catalog.mem_of_ownColumn hown
    obtain ⟨hid, htable, _⟩ := Catalog.fields_of_editedColumn h
    refine iff_of_true ((viewsCompile_withColumn_iff hviews hkeyed hc hid htable).mpr ?_)
      fun ⟨_, hown', hconverts, _⟩ => hkeeps (heq hown hown' ▸ hconverts)
    rintro ⟨hnumber, v, hv, hcompares⟩
    -- Without a conversion the column held numbers before, and the view compiled then.
    rcases Workspace.types_of_editedColumn hkeeps h with hsame | ⟨_, htext⟩
    · exact (hviews v hv).not_comparesText hkeyed hc (hsame.symm.trans hnumber) hcompares
    · rw [htext] at hnumber
      cases hnumber
  | @retyped c c' hown hconverts hrows h =>
    obtain ⟨hc, rfl⟩ := Catalog.mem_of_ownColumn hown
    obtain ⟨hid, htable, _⟩ := Catalog.fields_of_editedColumn h
    have hkeyed' := hkeyed.renew (renews_retypedRows now c.table c.id)
    have hviews' : (db.withRows (Workspace.retypedRows now c.table c.id db.rows)).ViewsCompile :=
      hviews
    rw [viewsCompile_withColumn_iff hviews' hkeyed' hc hid htable]
    refine not_congr ⟨fun ⟨_, hbroken⟩ => ?_, fun ⟨d, hown', _, _, _, hbroken⟩ => ?_⟩
    · exact ⟨c, hown, hconverts, Workspace.retypeFailure_byPosition_iff.mp hrows, ⟨c', h⟩, hbroken⟩
    · exact ⟨Workspace.type_of_converts hconverts h, heq hown hown' ▸ hbroken⟩

/-- A step keeps every view compiling unless it breaks one. -/
theorem viewsCompile_iff_of_steps (h : op.Steps now db db') (hviews : db.ViewsCompile)
    (hlinked : db.IsLinked) (hkeyed : db.IsKeyed) : db'.ViewsCompile ↔ ¬ op.Breaks db := by
  cases h with
  | changes hkeeps h =>
    exact iff_of_true (hviews.changes hlinked hkeyed h) (Operation.not_breaks_of_keeps hkeeps)
  | missed hown =>
    refine iff_of_true hviews fun ⟨c, hown', _⟩ => ?_
    rw [hown] at hown'
    cases hown'
  | @deleted _ _ _ c hown =>
    rw [viewsCompile_withoutColumn_iff hviews hkeyed]
    exact not_congr ⟨fun hbroken => ⟨c, hown, hbroken⟩,
      fun ⟨d, hown', hbroken⟩ => Except.ok.inj (hown'.symm.trans hown) ▸ hbroken⟩
  | updated h => exact h.viewsCompile_iff hviews hkeyed

theorem viewsCompile_of_reached {w : World} (h : Reached (fun op db => ¬ op.Breaks db) w) :
    ∃ db, w.storage = .ready db ∧ db.ViewsCompile ∧ db.IsLinked ∧ db.IsKeyed :=
  h.induct_linked viewsCompile_empty (fun _ hkeyed hviews hchange => hviews.change hkeyed hchange)
    (fun hlinked hkeyed hviews hkeeps hown => (viewsCompile_iff_of_steps (.deleted hown) hviews
      hlinked hkeyed).mpr hkeeps)
    fun _ hkeyed hviews hkeeps hupdates => (hupdates.viewsCompile_iff hviews hkeyed).mpr hkeeps

end Steps

/-! ## Rows of a view -/

/-- What fails in a scan is the store. -/
theorem kind_of_scan {s : Surroundings} {w w' : World} {db : Database} (hw : w.storage = .ready db)
    {table : String} {plan : Plan} {limit : Option Int} {offset : Int} {why : Failure}
    (h : RowStore.scan table plan limit offset s w = (.error why, w')) :
    why.kind = "StorageFailure" ∨ why.kind = "OverflowError" := by
  have hquery := Action.run_query (s := s) hw fun db =>
    if RowStore.pageFits limit offset then
      RowStore.answered .scan (Rows.scan table plan limit offset db.rows)
    else .error (.fault .integerTooLarge)
  rw [RowStore.scan] at h
  by_cases hfits : RowStore.pageFits limit offset = true
  · simp only [hfits, if_true] at h hquery
    rcases hrows : Rows.scan table plan limit offset db.rows with refusal | rows <;>
      rw [hrows] at hquery
    · rw [Action.run_rowStore_error hquery] at h
      obtain rfl := Except.error.inj (Prod.mk.inj h).1
      exact .inl rfl
    · rw [Action.run_rowStore_ok hquery] at h
      cases h
  · simp only [if_neg hfits] at h hquery
    rw [Action.run_rowStore_error hquery] at h
    obtain rfl := Except.error.inj (Prod.mk.inj h).1
    exact .inr rfl

/-- The rows of a view whose filter and sort compile are those of a scan. -/
theorem run_listViewRows {s : Surroundings} {w : World} {db : Database} {v : View} {t : Table}
    {actor id : String} {settings : Workspace.Settings} {limit offset : Value} {page : Int × Int}
    {plan : Plan} (hw : w.storage = .ready db) (hv : Catalog.findView id db = .ok v)
    (hown : Catalog.ownedTable actor v.table db = .ok t)
    (hpage : Workspace.parsePage limit offset settings.limits = .ok page)
    (hplan : compile (some (Catalog.typesOf v.table db)) (Workspace.orNull v.filter)
      (Workspace.orNull v.sort) = .ok plan) :
    Workspace.listViewRows settings actor id limit offset s w =
      (do return .list ((← RowStore.scan v.table plan (some page.1) page.2).map Row.toValue) :
        Action Value) s w := by
  obtain ⟨n, k⟩ := page
  have htypes : Workspace.typesFor v.table s w = (.ok (some (Catalog.typesOf v.table db)), w) :=
    Action.run_query_bind (f := fun db => .ok (Catalog.typesOf v.table db)) hw rfl _
  rw [Workspace.listViewRows, Catalog.getView, Action.run_query_bind hw hv]
  change Workspace.listRows settings actor v.table (Workspace.orNull v.filter)
    (Workspace.orNull v.sort) limit offset s w = _
  rw [Workspace.listRows, Catalog.ensureOwner, Action.run_query_bind hw hown,
    Action.run_lift_bind hpage]
  exact (Action.run_bind_ok htypes _).trans (Action.run_lift_bind hplan _)

/-! ## A view whose column is deleted -/

/-- A view by whose sort a column is mentioned that is deleted next can come about with no column
altered before. -/
theorem exists_breaks {allowed : Operation → Database → Prop}
    (hallowed : ∀ op db, ¬ op.AltersColumn → allowed op db) :
    ∃ w db id, Reached allowed w ∧ w.storage = .ready db ∧
      (Operation.deleteColumn "u" id).Breaks db := by
  obtain ⟨w, db, t, h, hw, hnew⟩ := exists_isNew hallowed
  obtain ⟨db', hdb', _, hkeyed⟩ := isLinked_of_reached h
  obtain rfl := Storage.ready.inj (hdb'.symm.trans hw)
  obtain ⟨c, hc⟩ := List.exists_mem_of_ne_nil _ hnew.columns.1
  obtain ⟨htable, _, hid⟩ := hnew.columns.2 c hc
  have hread : ∀ k ∈ [(⟨c.id, .ascending⟩ : SortKey)], k.IsRead := fun k hk => by
    rw [List.mem_singleton.mp hk]
    exact hid
  obtain ⟨s, hs⟩ := exists_isFresh w
  obtain ⟨_, w', v, hrun, hw', _, hsort⟩ := Workspace.exists_createView (s := s) hw hnew.owned
    (nameOf_name .view) hread fun k hk => ⟨c.type, by
      rw [List.mem_singleton.mp hk]
      exact hkeyed.lookup_typesOf.mpr ⟨c, hc, htable, rfl, rfl⟩⟩
  have hmentions : v.Mentions c.id := by
    refine .inr ⟨[⟨c.id, .ascending⟩], ?_, ⟨c.id, .ascending⟩, List.mem_singleton_self _, rfl⟩
    rw [hsort]
    exact parse_sortValue hread
  exact ⟨w', _, c.id, h.run hw hs (.createView "u" t.id (.text "A") .null
      (sortValue [⟨c.id, .ascending⟩])) trivial (hallowed _ _ id) rfl hrun, hw', c,
    hkeyed.ownColumn_eq hc (htable ▸ hnew.owned), v,
    List.mem_append_right _ (List.mem_singleton_self v), hmentions⟩

/-- Views that compile. As long as no operation breaks a view, every view compiles, whatever comes
about, and its owner is answered with a page of its rows unless the store fails; and an operation
that breaks one leaves some view that does not compile. -/
theorem viewsCompile_iff_of_reached {w : World}
    (h : Reached (fun op db => ¬ op.Breaks db) w) :
    ∃ db, w.storage = .ready db ∧ (∀ v ∈ db.views, v.Compiles db) ∧
      (∀ (settings : Workspace.Settings) (s : Surroundings) (actor id : String) (v : View)
          (t : Table) (limit offset : Value) (page : Int × Int),
        Catalog.findView id db = .ok v → Catalog.ownedTable actor v.table db = .ok t →
          Workspace.parsePage limit offset settings.limits = .ok page → ∀ why,
            (Workspace.listViewRows settings actor id limit offset s w).1 = .error why →
              why.kind ≠ "NotFoundError" ∧ why.kind ≠ "ValidationError") ∧
      ∀ (settings : Workspace.Settings) (s : Surroundings) (op : Operation), s.IsFresh w →
        op.IsSound → ∃ db', (op.perform settings s w).2.storage = .ready db' ∧
          ((∀ v ∈ db'.views, v.Compiles db') ↔ ¬ op.Breaks db) := by
  obtain ⟨db, hw, hviews, hlinked, hkeyed⟩ := viewsCompile_of_reached h
  refine ⟨db, hw, hviews, ?_, fun settings s op hfresh hsound => ?_⟩
  · intro settings s actor id v t limit offset page hv hown hpage why hwhy
    obtain ⟨plan, hplan⟩ := hviews v (Catalog.mem_of_findView hv).1
    rw [run_listViewRows hw hv hown hpage hplan, Action.run_bind] at hwhy
    rcases hscan : RowStore.scan v.table plan (some page.1) page.2 s w with ⟨e | rows, w'⟩ <;>
      rw [hscan] at hwhy
    · obtain rfl := Except.error.inj hwhy
      rcases kind_of_scan hw hscan with hkind | hkind <;> rw [hkind] <;> decide
    · cases hwhy
  · obtain ⟨db', hdb', hsteps⟩ := Operation.steps_perform settings hw hfresh hsound
    exact ⟨db', hdb', viewsCompile_iff_of_steps hsteps hviews hlinked hkeyed⟩

/-- A view that is sorted by a column compiles until the column is deleted. -/
theorem viewsCompile_iff_of_sort : ∃ w db id s db', Reached (fun op db => ¬ op.Breaks db) w ∧
    w.storage = .ready db ∧ (∀ v ∈ db.views, v.Compiles db) ∧
      (Operation.deleteColumn "u" id).Breaks db ∧
      ((Operation.deleteColumn "u" id).perform ⟨.null, 1⟩ s w).2.storage = .ready db' ∧
      ¬ ∀ v ∈ db'.views, v.Compiles db' := by
  obtain ⟨w, db, id, h, hw, hbreaks⟩ := @exists_breaks (fun op db => ¬ op.Breaks db)
    fun _ _ => Operation.not_breaks_of_keeps
  obtain ⟨s, hs⟩ := exists_isFresh w
  obtain ⟨db₀, hw₀, hviews, _, hstep⟩ := viewsCompile_iff_of_reached h
  obtain rfl := Storage.ready.inj (hw₀.symm.trans hw)
  obtain ⟨db', hdb', hiff⟩ := hstep ⟨.null, 1⟩ s (.deleteColumn "u" id) hs trivial
  exact ⟨w, db₀, id, s, db', h, hw, hviews, hbreaks, hdb', fun h => hiff.mp h hbreaks⟩

/-- So a view may be found that does not compile. -/
theorem exists_not_compiles : ∃ w db, Reached (fun _ _ => True) w ∧ w.storage = .ready db ∧
    ∃ v ∈ db.views, ¬ v.Compiles db := by
  obtain ⟨w, db, id, h, hw, hbreaks⟩ := @exists_breaks (fun op db => ¬ op.Breaks db)
    fun _ _ => Operation.not_breaks_of_keeps
  obtain ⟨s, hs⟩ := exists_isFresh w
  have hsound : (Operation.deleteColumn "u" id).IsSound := trivial
  obtain ⟨db', hdb', hsteps⟩ := Operation.steps_perform ⟨.null, 1⟩ hw hs hsound
  obtain ⟨db₀, hw₀, hviews, hlinked, hkeyed⟩ := viewsCompile_of_reached h
  obtain rfl := Storage.ready.inj (hw₀.symm.trans hw)
  have hbroken : ¬ db'.ViewsCompile := fun hviews' =>
    (viewsCompile_iff_of_steps hsteps hviews hlinked hkeyed).mp hviews' hbreaks
  refine ⟨_, db', (h.mono fun _ _ _ => trivial).perform hw ⟨.null, 1⟩ hs hsound trivial, hdb', ?_⟩
  by_contra hall
  exact hbroken fun v hv => by_contra fun hnot => hall ⟨v, hv, hnot⟩

end Tabula
