import Tabula.Proofs.Confluence
import Tabula.Proofs.TwoRuns

/-!
# What an actor is told

Operations that only answer : bases, a table with its columns, rows, counts, views, the rows of a
view, a search, jobs. Each passes the gate, or keeps to the actor's tables as the search does, and
answers from what is behind it. So it agrees in worlds that are alike for the actor. A record is
looked up in the same way whatever its kind (`Kind.lookup`), which is what
`agrees_found_gate_bind` asks for.
-/

namespace Tabula

open Store Database Tabula.Action

variable {actor : String} {s₁ s₂ : Surroundings} {w₁ w₂ : World} {db₁ db₂ : Database}

/-! ## Records that are looked up -/

section LookUp

variable {s : Surroundings} {w : World} {db : Database} (hw : w.storage = .ready db) (id : String)

include hw

theorem run_getBase : Catalog.getBase id s w = (Kind.base.lookup id db, w) := by
  rw [Catalog.getBase, run_query hw, findBase_eq]

theorem run_getColumn : Catalog.getColumn id s w = (Kind.column.lookup id db, w) := by
  rw [Catalog.getColumn, run_query hw, findColumn_eq]

theorem run_getView : Catalog.getView id s w = (Kind.view.lookup id db, w) := by
  rw [Catalog.getView, run_query hw, findView_eq]

theorem run_getJob : Jobs.get id s w = (Kind.job.lookup id db, w) := by
  rw [Jobs.get, run_query hw, getJob_eq]

theorem run_getRow : RowStore.get id s w = (Kind.row.lookup id db, w) := by
  have hrun := run_query (s := s) hw (RowStore.find id)
  rw [findRow_eq, Kind.lookup] at hrun
  rw [Kind.lookup]
  rcases hfind : Kind.row.find? id db with _ | r <;> rw [hfind] at hrun
  · exact run_rowStore_error hrun
  · exact run_rowStore_ok hrun

end LookUp

namespace Workspace

/-! ## What is asked -/

section Asked

variable (h : World.AlikeFor actor s₁ s₂ w₁ w₂ db₁ db₂)

include h

theorem agrees_listBases : Agrees actor (listBases actor) s₁ s₂ w₁ w₂ db₁ :=
  agrees_map (agrees_query h (congrArg Except.ok h.same.ownBases_eq))

theorem agrees_getTable (table : String) : Agrees actor (getTable actor table) s₁ s₂ w₁ w₂ db₁ :=
  agrees_gate_bind h fun _ _ ho₁ ho₂ =>
    agrees_map (agrees_query h (congrArg Except.ok (h.same.columnsOf_eq ho₁ ho₂)))

theorem agrees_listViews (table : String) : Agrees actor (listViews actor table) s₁ s₂ w₁ w₂ db₁ :=
  agrees_gate_bind h fun _ _ ho₁ ho₂ =>
    agrees_map (agrees_query h (congrArg Except.ok (h.same.viewsOf_eq ho₁ ho₂)))

end Asked

theorem run_typesFor {s : Surroundings} {w : World} {db : Database} (hw : w.storage = .ready db)
    (table : String) : typesFor table s w = (.ok (some (Catalog.typesOf table db)), w) := by
  rw [typesFor, Catalog.columnTypes, run_query_bind (a := Catalog.typesOf table db) hw rfl]
  rfl

theorem agrees_typesFor_bind {β : Type} (h : World.AlikeFor actor s₁ s₂ w₁ w₂ db₁ db₂)
    {table : String} (ho₁ : db₁.owner table = some actor) (ho₂ : db₂.owner table = some actor)
    {k : Query.ColumnTypes → Action β}
    (hk : Agrees actor (k (some (Catalog.typesOf table db₁))) s₁ s₂ w₁ w₂ db₁) :
    Agrees actor (typesFor table >>= k) s₁ s₂ w₁ w₂ db₁ := by
  have htypes := h.same.typesOf_eq ho₁ ho₂
  exact agrees_bind_of_run h (run_typesFor h.ready₁ table) (htypes ▸ run_typesFor h.ready₂ table)
    fun types htypes => Except.ok.inj htypes ▸ hk

section Asked

variable (h : World.AlikeFor actor s₁ s₂ w₁ w₂ db₁ db₂)

include h

theorem agrees_listRows (settings : Settings) (table : String) (filter sort limit offset : Value) :
    Agrees actor (listRows settings actor table filter sort limit offset) s₁ s₂ w₁ w₂ db₁ := by
  refine agrees_gate_bind h fun _ _ ho₁ ho₂ => ?_
  have hrows := h.same.ofTable_eq ho₁ ho₂
  refine agrees_lift_bind h fun page _ => ?_
  refine agrees_typesFor_bind h ho₁ ho₂ ?_
  refine agrees_lift_bind h fun plan _ => ?_
  refine agrees_map (agrees_rowStore (agrees_query h ?_))
  simp only [Rows.scan, Rows.matching, hrows]

theorem agrees_countRows (table : String) (filter : Value) :
    Agrees actor (countRows actor table filter) s₁ s₂ w₁ w₂ db₁ := by
  refine agrees_gate_bind h fun _ _ ho₁ ho₂ => ?_
  have hrows := h.same.ofTable_eq ho₁ ho₂
  refine agrees_typesFor_bind h ho₁ ho₂ ?_
  refine agrees_lift_bind h fun selection _ => ?_
  refine agrees_rowStore (agrees_query h ?_)
  simp only [Rows.count, Rows.matching, hrows]

theorem agrees_getView (id : String) : Agrees actor (getView actor id) s₁ s₂ w₁ w₂ db₁ := by
  exact agrees_found_gate_bind Kind.view (fun _ _ => rfl) h (fun hw => run_getView hw id)
    fun _ _ _ _ _ _ => agrees_pure h _

theorem agrees_listViewRows (settings : Settings) (id : String) (limit offset : Value) :
    Agrees actor (listViewRows settings actor id limit offset) s₁ s₂ w₁ w₂ db₁ :=
  agrees_found_bind Kind.view h (fun hw => run_getView hw id)
    (fun _ _ hw ho hne => run_gate_bind_of_ne hw ho hne _)
    fun _ _ _ _ => agrees_listRows h settings _ _ _ limit offset

theorem agrees_search (settings : Settings) (text limit : Value) :
    Agrees actor (search settings actor text limit) s₁ s₂ w₁ w₂ db₁ := by
  cases text with
  | text t =>
    rw [search]
    dsimp only
    split
    · exact agrees_throw h _
    · refine agrees_lift_bind h fun page _ => ?_
      refine agrees_query_bind h (congrArg Except.ok h.same.tableIdsOf_eq) fun tables htables => ?_
      obtain rfl := Except.ok.inj htables
      have hrows : ∀ limit, Rows.search (Catalog.tableIdsOf actor db₁) (.text t) limit db₁.rows =
          Rows.search (Catalog.tableIdsOf actor db₁) (.text t) limit db₂.rows := by
        intro limit
        have hunder₂ := h.orderly₂.rows_under actor
        rw [← h.same.tableIdsOf_eq, ← h.same.own, ← h.orderly₁.rows_under] at hunder₂
        simp only [Rows.search, hunder₂]
      refine agrees_map ?_
      unfold RowStore.search
      split
      · exact agrees_pure h _
      · exact agrees_rowStore (agrees_query h (congrArg (RowStore.answered .search) (hrows _)))
  | _ => exact agrees_throw h _

end Asked

end Workspace

namespace Ingestion

section Asked

variable (h : World.AlikeFor actor s₁ s₂ w₁ w₂ db₁ db₂)

include h

theorem agrees_visibleJob (id : String) :
    Agrees actor (visibleJob id (some actor)) s₁ s₂ w₁ w₂ db₁ := by
  exact agrees_found_gate_bind Kind.job (fun _ _ => rfl) h (fun hw => run_getJob hw id)
    fun _ _ _ _ _ _ => agrees_pure h _

theorem agrees_listJobs (table : String) (limit : Int) :
    Agrees actor (listJobs actor table limit) s₁ s₂ w₁ w₂ db₁ := by
  refine agrees_gate_bind h fun _ _ ho₁ ho₂ => ?_
  have hjobs := h.same.newestFirst_eq ho₁ ho₂ (h.orderly₁.ne_empty_of_owner ho₁)
  refine agrees_map (agrees_query h ?_)
  simp only [Ledger.recent, hjobs]

end Asked

end Ingestion

end Tabula
