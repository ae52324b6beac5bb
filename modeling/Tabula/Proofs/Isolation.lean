import Tabula.Proofs.JobIds
import Tabula.Proofs.OwnChanges

/-!
# Isolation

An actor's part of the database is his alone. Whatever he asks for (`Asked`) leaves the records of
others as they are, and what he is told does not hang on them : in two databases that are the same
for him he is given the same answer (`isolation`).

Both are read off `Asked.concurs`, which needs databases that are in order. Those that come about
are (`Arises.isOrderly`) : what actors ask for keeps the order, by the same lemma in one world
taken twice, and workers do, as they leave all but rows and jobs (`Database.Stands`) and leave the
jobs under their ids (`Database.SameJobs`).
-/

namespace Tabula

open Store Database Tabula.Action

/-- What an actor may ask for, as the action that answers it. How a job is announced is not up to
the service. -/
inductive Asked (settings : Workspace.Settings) (actor : String) :
    {α : Type} → Action α → Prop where
  | createBase (name : Value) : Asked settings actor (Workspace.createBase (some actor) name)
  | listBases : Asked settings actor (Workspace.listBases actor)
  | createTable (base : String) (name : Value) :
      Asked settings actor (Workspace.createTable actor base name)
  | getTable (table : String) : Asked settings actor (Workspace.getTable actor table)
  | deleteTable (table : String) : Asked settings actor (Workspace.deleteTable actor table)
  | addColumn (table : String) (name type order : Value) :
      Asked settings actor (Workspace.addColumn actor table name type order)
  | updateColumn (column : String) (name type order : Value) :
      Asked settings actor (Workspace.updateColumn actor column name type order)
  | deleteColumn (column : String) : Asked settings actor (Workspace.deleteColumn actor column)
  | listRows (table : String) (filter sort limit offset : Value) :
      Asked settings actor (Workspace.listRows settings actor table filter sort limit offset)
  | countRows (table : String) (filter : Value) :
      Asked settings actor (Workspace.countRows actor table filter)
  | insertRows (table : String) (rows : Value) :
      Asked settings actor (Workspace.insertRows settings actor table rows)
  | updateCell (row : String) (column value : Value) :
      Asked settings actor (Workspace.updateCell actor row column value)
  | deleteRow (row : String) : Asked settings actor (Workspace.deleteRow actor row)
  | createView (table : String) (name filter sort : Value) :
      Asked settings actor (Workspace.createView actor table name filter sort)
  | listViews (table : String) : Asked settings actor (Workspace.listViews actor table)
  | getView (view : String) : Asked settings actor (Workspace.getView actor view)
  | updateView (view : String) (name filter sort : Value) :
      Asked settings actor (Workspace.updateView actor view name filter sort)
  | listViewRows (view : String) (limit offset : Value) :
      Asked settings actor (Workspace.listViewRows settings actor view limit offset)
  | search (text limit : Value) : Asked settings actor (Workspace.search settings actor text limit)
  | start {announce : String → Action Unit} (hannounce : ∀ job, IsQuiet (announce job))
      (table : String) (total : Value) :
      Asked settings actor (Ingestion.start announce actor table total)
  | jobStatus (job : String) : Asked settings actor (Ingestion.jobStatus job (some actor))
  | getJob (job : String) : Asked settings actor (Ingestion.getJob job (some actor))
  | listJobs (table : String) (limit : Int) :
      Asked settings actor (Ingestion.listJobs actor table limit)

/-- Whatever an actor asks for, worlds that he cannot tell apart concur in it. -/
theorem Asked.concurs {settings : Workspace.Settings} {actor : String} {α : Type} {x : Action α}
    (hx : Asked settings actor x) {s₁ s₂ : Surroundings} {w₁ w₂ : World} {db₁ db₂ : Database}
    (h : World.AlikeFor actor s₁ s₂ w₁ w₂ db₁ db₂) (hs₁ : s₁.IsUnused w₁) (hs₂ : s₂.IsUnused w₂) :
    Concurs actor x s₁ s₂ w₁ w₂ db₁ := by
  cases hx with
  | createBase name => exact (Workspace.agrees_createBase h hs₁ hs₂ name).concurs
  | listBases => exact (Workspace.agrees_listBases h).concurs
  | createTable base name => exact (Workspace.agrees_createTable h hs₁ hs₂ base name).concurs
  | getTable table => exact (Workspace.agrees_getTable h table).concurs
  | deleteTable table => exact (Workspace.agrees_deleteTable h table).concurs
  | addColumn table name type order =>
    exact (Workspace.agrees_addColumn h hs₁ hs₂ table name type order).concurs
  | updateColumn column name type order =>
    exact (Workspace.agrees_updateColumn h column name type order).concurs
  | deleteColumn column => exact (Workspace.agrees_deleteColumn h column).concurs
  | listRows table filter sort limit offset =>
    exact (Workspace.agrees_listRows h settings table filter sort limit offset).concurs
  | countRows table filter => exact (Workspace.agrees_countRows h table filter).concurs
  | insertRows table rows => exact (Workspace.agrees_insertRows h settings table rows).concurs
  | updateCell row column value => exact (Workspace.agrees_updateCell h row column value).concurs
  | deleteRow row => exact (Workspace.agrees_deleteRow h row).concurs
  | createView table name filter sort =>
    exact (Workspace.agrees_createView h hs₁ hs₂ table name filter sort).concurs
  | listViews table => exact (Workspace.agrees_listViews h table).concurs
  | getView view => exact (Workspace.agrees_getView h view).concurs
  | updateView view name filter sort =>
    exact (Workspace.agrees_updateView h view name filter sort).concurs
  | listViewRows view limit offset =>
    exact (Workspace.agrees_listViewRows h settings view limit offset).concurs
  | search text limit => exact (Workspace.agrees_search h settings text limit).concurs
  | start hannounce table total => exact Ingestion.concurs_start hannounce h hs₁ hs₂ table total
  | jobStatus job => exact (agrees_map (Ingestion.agrees_visibleJob h job)).concurs
  | getJob job => exact (agrees_map (Ingestion.agrees_visibleJob h job)).concurs
  | listJobs table limit => exact (Ingestion.agrees_listJobs h table limit).concurs

/-! ## Whatever comes about is in order -/

/-- The worlds that come about from an empty database if new ids are ids that no record has : by
what actors ask for, by what workers do, and by runs of jobs that are stopped at any moment. -/
inductive Arises : World → Prop where
  | empty {w : World} (hw : w.storage = .ready .empty) : Arises w
  | asked {w : World} (h : Arises w) {settings : Workspace.Settings} {actor : String} {α : Type}
      {x : Action α} (hx : Asked settings actor x) {s : Surroundings} (hs : s.IsUnused w) :
      Arises (x s w).2
  | run {w : World} (h : Arises w) {worker : Worker}
      (hfactory : SourceFactory.Conforms worker.source) (job : String) (s : Surroundings) :
      Arises (worker.run job s w).2
  | runPending {w : World} (h : Arises w) {worker : Worker}
      (hfactory : SourceFactory.Conforms worker.source) (table : Option String) (s : Surroundings) :
      Arises (worker.runPending table s w).2
  | stopped {w w' : World} (h : Arises w) {worker : Worker}
      (hfactory : SourceFactory.Conforms worker.source) {id : String}
      {refuses : Descriptor → Failure → Prop} (hdisk : OnDisk worker id refuses w w') : Arises w'

theorem isOrderly_empty : Database.empty.IsOrderly := by
  constructor <;> simp [Database.empty, ids, idLists, referenceLists]

namespace Database

variable {db db' : Database}

/-- All but rows and jobs is as it was, and these are still of the same tables. -/
structure Stands (db db' : Database) : Prop where
  eq : db' = (db.withRows db'.rows).withJobs db'.jobs
  nodup : (db.rows.map Row.id).Nodup → (db'.rows.map Row.id).Nodup
  references : db'.referenceLists.flatten ⊆ db.referenceLists.flatten

theorem Stands.refl (db : Database) : Stands db db := ⟨rfl, id, List.Subset.refl _⟩

theorem Stands.trans {db₁ db₂ db₃ : Database} (h : Stands db₁ db₂) (h' : Stands db₂ db₃) :
    Stands db₁ db₃ where
  eq := by
    rw [h'.eq, h.eq]
    rfl
  nodup := fun hn => h'.nodup (h.nodup hn)
  references := List.Subset.trans h'.references h.references

/-- What is done for a job. -/
theorem Ingested.stands {j : Job} {types : List (String × ColumnType)} (hj : j ∈ db.jobs)
    (h : Ingested j.table types db db') : Stands db db' := by
  refine ⟨h.eq, h.rows.nodup, fun table htable => ?_⟩
  have hjob : ∀ k ∈ db.jobs, k.table ∈ db.referenceLists.flatten := fun k hk =>
    Edit.mem_references.mpr (.inr (.inr (.inr ⟨k, hk, rfl⟩)))
  rw [h.eq] at htable
  rcases Edit.mem_references.mp htable with hc | hv | ⟨r, hr, rfl⟩ | ⟨k, hk, rfl⟩
  · exact Edit.mem_references.mpr (.inl hc)
  · exact Edit.mem_references.mpr (.inr (.inl hv))
  · rcases h.rows.mem_iff hr with hr | ⟨htable, _⟩
    · exact Edit.mem_references.mpr (.inr (.inr (.inl ⟨r, hr, rfl⟩)))
    · exact htable ▸ hjob j hj
  · obtain ⟨old, hold, htable⟩ := h.jobs k hk
    exact htable ▸ hjob old hold

theorem stands_of_pending (h : Worker.Pending db db') : Stands db db' := by
  induction h with
  | refl => exact .refl db
  | tail _ hworks ih =>
    rcases hworks with rfl | ⟨j, hj, hingested⟩
    · exact ih
    · exact ih.trans (hingested.stands hj)

/-- What workers do keeps a database in order. -/
theorem IsOrderly.pending (h : db.IsOrderly) (hpending : Worker.Pending db db')
    (hjobs : SameJobs db db') : db'.IsOrderly := by
  obtain ⟨heq, hnodup, hreferences⟩ := stands_of_pending hpending
  have hrows := hnodup (Kind.row.nodup h)
  have hkeys : db'.ids.Nodup := by
    refine nodup_ids ?_ ?_ ?_ ?_ hrows (hjobs ▸ Kind.job.nodup h)
    all_goals rw [heq]
    · exact (Kind.base.nodup h :)
    · exact (Kind.table.nodup h :)
    · exact (Kind.column.nodup h :)
    · exact (Kind.view.nodup h :)
  refine ⟨hkeys, ?_, fun table htable => ?_, ?_⟩
  · rw [heq]
    exact h.base
  · rw [heq]
    exact h.table table (hreferences htable)
  · rw [heq]
    exact h.named

end Database

theorem World.AlikeFor.refl {w : World} {db : Database} (hw : w.storage = .ready db)
    (h : db.IsOrderly) (actor : String) (s : Surroundings) :
    World.AlikeFor actor s s w w db db :=
  ⟨hw, hw, h, h, .refl actor db, rfl⟩

theorem Arises.isOrderly {w : World} (h : Arises w) :
    ∃ db, w.storage = .ready db ∧ db.IsOrderly := by
  induction h with
  | empty hw => exact ⟨_, hw, isOrderly_empty⟩
  | @asked w _ _ actor _ _ hx s hs ih =>
    obtain ⟨db, hw, horderly⟩ := ih
    obtain ⟨_, db', _, hdb', _, horderly', _⟩ := hx.concurs (.refl hw horderly actor s) hs hs
    exact ⟨db', hdb', horderly'⟩
  | @run w _ worker hfactory job s ih =>
    obtain ⟨db, hw, horderly⟩ := ih
    obtain ⟨db', hdb', hpending⟩ := Worker.makes_run hfactory job s w db hw
    obtain ⟨_, hsame, hjobs⟩ := worker.sameJobs_run job s w db hw
    obtain rfl := Storage.ready.inj (hdb'.symm.trans hsame)
    exact ⟨db', hdb', horderly.pending hpending hjobs⟩
  | @runPending w _ worker hfactory table s ih =>
    obtain ⟨db, hw, horderly⟩ := ih
    obtain ⟨db', hdb', hpending⟩ := worker.makes_runPending hfactory table s w db hw
    obtain ⟨_, hsame, hjobs⟩ := worker.sameJobs_runPending table s w db hw
    obtain rfl := Storage.ready.inj (hdb'.symm.trans hsame)
    exact ⟨db', hdb', horderly.pending hpending hjobs⟩
  | stopped _ hfactory hdisk ih =>
    obtain ⟨db, hw, horderly⟩ := ih
    obtain ⟨db', hdb', hpending⟩ := pending_of_onDisk hfactory hw hdisk
    obtain ⟨_, hsame, hjobs⟩ := sameJobs_of_onDisk hw hdisk
    obtain rfl := Storage.ready.inj (hdb'.symm.trans hsame)
    exact ⟨db', hdb', horderly.pending hpending hjobs⟩

/-! ## Isolation -/

/-- Whatever has come about and whatever an actor asks for, the records that are not under his bases
stay as they are. And in any other database that has come about, with the same records under his
bases and elsewhere the same ids with the same owners, he is given the same answer and goes on with
the same records, provided that the same ids and times are to come. -/
theorem isolation {w : World} (h : Arises w) {db : Database} (hw : w.storage = .ready db)
    {s : Surroundings} (hs : s.IsUnused w) {settings : Workspace.Settings} {actor : String}
    {α : Type} {x : Action α} (hx : Asked settings actor x) :
    ∃ db', (x s w).2.storage = .ready db' ∧ db'.apart actor = db.apart actor ∧
      ∀ {w₂ : World} {db₂ : Database} {s₂ : Surroundings}, Arises w₂ → w₂.storage = .ready db₂ →
        s₂.IsUnused w₂ → s.supply w = s₂.supply w₂ → SameFor actor db db₂ →
          (x s w).1 = (x s₂ w₂).1 ∧
            ∃ db₂', (x s₂ w₂).2.storage = .ready db₂' ∧ SameFor actor db' db₂' := by
  have horderly : ∀ {w : World} {db : Database}, Arises w → w.storage = .ready db →
      db.IsOrderly := by
    intro w db h hw
    obtain ⟨db', hw', horderly⟩ := h.isOrderly
    obtain rfl := Storage.ready.inj (hw'.symm.trans hw)
    exact horderly
  have ho := horderly h hw
  obtain ⟨_, db', _, hdb', _, _, _, hapart⟩ := hx.concurs (.refl hw ho actor s) hs hs
  refine ⟨db', hdb', hapart, fun {w₂ db₂ s₂} h₂ hw₂ hs₂ hsupply hsame => ?_⟩
  obtain ⟨hanswer, db₁', db₂', hdb₁', hdb₂', _, hsame', _⟩ :=
    hx.concurs ⟨hw, hw₂, ho, horderly h₂ hw₂, hsame, hsupply⟩ hs hs₂
  obtain rfl := Storage.ready.inj (hdb₁'.symm.trans hdb')
  exact ⟨hanswer, db₂', hdb₂', hsame'⟩

/-- Tokens that are longer than every id make ids that no record has. -/
theorem isUnused_longToken {w : World} {n : Nat}
    (hn : ∀ db, w.storage = .ready db → ∀ e ∈ db.ids, e.2.length ≤ n) :
    (⟨⟨0⟩, .zero, longToken n, id⟩ : Surroundings).IsUnused w := by
  have hcolumns : ∀ db, w.storage = .ready db → ∀ c ∈ db.columns, c.id.length ≤ n :=
    fun db hw c hc => hn db hw _ ((Kind.column.mem_keys_iff c.id).mpr ⟨c, hc, rfl⟩)
  refine ⟨isFresh_longToken hcolumns, fun db hw k hk entity kind hmem => ?_⟩
  have hle := hn db hw _ hmem
  rw [String.length_append, length_longToken] at hle
  omega

/-- The length of the longest id. -/
def World.longestId (w : World) : Nat :=
  match w.storage with
  | .ready db => (db.ids.map fun e => e.2.length).foldr max 0
  | _ => 0

/-- Surroundings in which the ids to come are longer than all that there are. -/
def Surroundings.newTo (w : World) : Surroundings := ⟨⟨0⟩, .zero, longToken w.longestId, id⟩

theorem isUnused_newTo (w : World) : (Surroundings.newTo w).IsUnused w := by
  refine isUnused_longToken fun db hw e he => ?_
  simp only [World.longestId, hw]
  exact List.le_max_of_le (List.mem_map_of_mem he) le_rfl

/-- There are always ids that no record has. -/
theorem exists_isUnused (w : World) : ∃ s : Surroundings, s.IsUnused w := ⟨_, isUnused_newTo w⟩

/-- A database with one base of an actor. -/
def baseSample (s : Surroundings) (name : String) : Database :=
  { Database.empty with bases := [⟨"base" ++ "_" ++ s.token 1, name, "v", s.now⟩] }

/-- The world after as many tokens, with nothing else done. -/
def plainWorld (tokens : Nat) (db : Database) : World :=
  ⟨.ready db, .entries [], tokens, 0, 0, []⟩

theorem arises_baseSample {s : Surroundings} (hs : s.IsUnused (plainWorld 0 .empty)) {name : String}
    (hname : Catalog.nameOf .base (.text name) = .ok name) :
    Arises (plainWorld 1 (baseSample s name)) := by
  have hrun : Catalog.createBase (some "v") (.text name) s (plainWorld 0 .empty) =
      (.ok ⟨"base" ++ "_" ++ s.token 1, name, "v", s.now⟩, plainWorld 1 (baseSample s name)) :=
    (run_lift_bind hname _).trans rfl
  have hworld : (Workspace.createBase (some "v") (.text name) s (plainWorld 0 .empty)).2 =
      plainWorld 1 (baseSample s name) :=
    congrArg Prod.snd (run_bind_ok hrun _)
  have hasked : Asked ⟨.null, 1⟩ "v" (Workspace.createBase (some "v") (.text name)) := .createBase _
  exact hworld ▸ (Arises.empty rfl).asked hasked hs

/-- What another actor calls a base is nothing to the one who makes a base of his own. -/
theorem isolation_of_names : ∃ (w₁ w₂ : World) (db₁ db₂ db₁' : Database) (s : Surroundings),
    Arises w₁ ∧ Arises w₂ ∧ w₁.storage = .ready db₁ ∧ w₂.storage = .ready db₂ ∧
      db₁.bases.map Base.name = ["A"] ∧ db₂.bases.map Base.name = ["B"] ∧ SameFor "u" db₁ db₂ ∧
      (Workspace.createBase (some "u") (.text "A") s w₁).2.storage = .ready db₁' ∧
      db₁'.apart "u" = db₁.apart "u" ∧
      (Workspace.createBase (some "u") (.text "A") s w₁).1 =
        (Workspace.createBase (some "u") (.text "A") s w₂).1 ∧
      ∃ db₂', (Workspace.createBase (some "u") (.text "A") s w₂).2.storage = .ready db₂' ∧
        SameFor "u" db₁' db₂' := by
  have hname : Catalog.nameOf .base (.text "B") = .ok "B" := by
    have hblank : Text.isBlankText "B" = false := by decide +kernel
    have htrim : Text.trim "B" = "B" := by decide +kernel
    simp [Catalog.nameOf, Value.truthy, hblank, htrim]
  obtain ⟨s₀, hs₀⟩ := exists_isUnused (plainWorld 0 .empty)
  have h₁ := arises_baseSample hs₀ (nameOf_name .base)
  have h₂ := arises_baseSample hs₀ hname
  obtain ⟨s, hs⟩ := exists_isUnused (plainWorld 1 (baseSample s₀ "A"))
  have hs₂ : s.IsUnused (plainWorld 1 (baseSample s₀ "B")) := by
    refine ⟨⟨hs.plain, hs.distinct, fun db hw k hk => ?_⟩, fun db hw k hk => ?_⟩
    · obtain rfl := Storage.ready.inj hw
      exact List.forall_mem_nil _
    · obtain rfl := Storage.ready.inj hw
      exact hs.unused _ rfl k hk
  have hsame : SameFor "u" (baseSample s₀ "A") (baseSample s₀ "B") := by
    refine ⟨rfl, fun other _ e => ?_⟩
    by_cases ho : other = "v" <;>
      simp [baseSample, Database.empty, under, Database.part, ids, idLists, ho]
  have hasked : Asked ⟨.null, 1⟩ "u" (Workspace.createBase (some "u") (.text "A")) := .createBase _
  obtain ⟨db₁', hdb₁', hapart, htwo⟩ := isolation h₁ rfl hs hasked
  exact ⟨_, _, _, _, db₁', s, h₁, h₂, rfl, rfl, rfl, rfl, hsame, hdb₁', hapart,
    htwo h₂ rfl hs₂ rfl hsame⟩

end Tabula
