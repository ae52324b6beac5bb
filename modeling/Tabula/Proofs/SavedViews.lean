import Tabula.Proofs.Changes
import Tabula.Proofs.OwnTables

/-!
# Saved views

A view keeps the form in which its filter and its sort were read, and the store keeps that form as
JSON. When the rows of a view are listed, the form is read once more. What is read then is what was
read at first (`parse_orNull_keptFilter`, `parseSort_orNull_keptSort`), so a view means the raw
filter and the raw sort that it was made from (`View.Means`), and a listing by the view is the
listing by those (`listViewRows_eq`), page by page, whatever happened to the rows in the meantime.

An update of a view is seen in one inversion (`exists_of_updateView`) : a field for which nothing is
given stays, and so does what it means. `listViewRows_of_createView` puts this together.
-/

namespace Tabula

/-! ## Read again -/

namespace Query

/-- A raw filter and a raw sort that are read as others are compiled as these. -/
theorem compile_congr {filter filter' sort sort' : Value}
    (hfilter : Filter.parse filter = Filter.parse filter') (hsort : parseSort sort = parseSort sort')
    (types : ColumnTypes) : compile types filter sort = compile types filter' sort' := by
  rw [compile, compile, compileFilter, compileFilter, hfilter, hsort]

end Query

/-! ## What a view means -/

/-- A view of the table whose filter and sort are read as these raw ones. -/
structure View.Means (v : View) (table : String) (filter sort : Value) : Prop where
  table : v.table = table
  filter : Query.Filter.parse (Workspace.orNull v.filter) = Query.Filter.parse filter
  sort : Query.parseSort (Workspace.orNull v.sort) = Query.parseSort sort

namespace Catalog

/-- A view that is put in the place of another is found there. -/
theorem findView_map {db : Database} {id : String} {v v' : View} (hv : findView id db = .ok v)
    (hid : v'.id = v.id) :
    findView id { db with views := db.views.map fun u => if u.id == id then v' else u } =
      .ok v' := by
  have hfound : db.views.find? (fun u => u.id == id) = some v := by
    rw [findView] at hv
    split at hv
    · rename_i hfind
      rw [hfind, Except.ok.inj hv]
    · cases hv
  have hcomp : (fun u : View => u.id == id) ∘ (fun u => if u.id == id then v' else u) =
      fun u => u.id == id := by
    funext u
    by_cases hu : u.id = id <;> simp [hu, hid, (mem_of_findView hv).2]
  rw [findView, List.find?_map, hcomp, hfound]
  simp [(mem_of_findView hv).2]

end Catalog

namespace Workspace

open Tabula.Action

variable {s : Surroundings} {w w' : World} {db : Database} {actor id table : String} {v : View}
  {name filter sort answer : Value}

/-- The rows of a view are the rows that its filter and sort ask for. -/
theorem listViewRows_eq (hw : w.storage = .ready db) (hv : Catalog.findView id db = .ok v)
    (h : v.Means table filter sort) (settings : Settings) (actor : String) (limit offset : Value) :
    listViewRows settings actor id limit offset s w =
      listRows settings actor table filter sort limit offset s w := by
  have hlist : listRows settings actor v.table (orNull v.filter) (orNull v.sort) limit offset =
      listRows settings actor table filter sort limit offset := by
    unfold listRows
    simp only [h.table, Query.compile_congr h.filter h.sort]
  rw [listViewRows, Catalog.getView, run_query_bind hw hv]
  exact congrFun (congrFun hlist s) w

theorem world_of_keptConfigs {kept : Value × Value} (hw : w.storage = .ready db)
    (h : keptConfigs table filter sort s w = (.ok kept, w')) : w' = w := by
  obtain ⟨f, _, h⟩ := ok_of_lift_bind h
  obtain ⟨k, _, h⟩ := ok_of_lift_bind h
  obtain ⟨types, w₁, htypes, h⟩ := ok_of_run_bind h
  obtain ⟨_, _, htypes⟩ := ok_of_query_bind hw htypes
  obtain ⟨_, _, h⟩ := ok_of_lift_bind h
  rw [← (Prod.mk.inj h).2, ← (Prod.mk.inj htypes).2]

/-- A new view means what it was made from. -/
theorem exists_of_createView (hw : w.storage = .ready db)
    (h : createView actor table name filter sort s w = (.ok answer, w')) :
    ∃ v, w'.storage = .ready { db with views := db.views ++ [v] } ∧ answer = v.toValue ∧
      v.id = "view" ++ "_" ++ s.token (w.tokens + 1) ∧ v.Means table filter sort := by
  obtain ⟨_, _, h⟩ := ok_of_query_bind hw h
  obtain ⟨⟨f, k⟩, w₁, hkept, h⟩ := ok_of_run_bind h
  obtain ⟨⟨hfilter, _⟩, hsort, _⟩ := compiles_of_keptConfigs hw hkept
  rw [world_of_keptConfigs hw hkept] at h
  obtain ⟨v, w₂, hmade, h⟩ := ok_of_run_bind
    (x := Catalog.createView (some table) name (if f.isNull then .dict [] else f)
      (if k.isNull then .list [] else k)) h
  obtain ⟨hanswer, rfl⟩ := Prod.mk.inj h
  obtain ⟨n, _, hmade⟩ := ok_of_lift_bind hmade
  obtain ⟨_, w₃, hid, hmade⟩ := ok_of_run_bind hmade
  obtain ⟨now, w₄, hnow, hmade⟩ := ok_of_run_bind hmade
  obtain ⟨hnew, rfl⟩ := Prod.mk.inj hid
  obtain ⟨_, rfl⟩ := Prod.mk.inj hnow
  obtain ⟨db', hview, rfl⟩ :=
    ok_of_transaction (w := { w with tokens := w.tokens + 1 }) hw hmade
  obtain ⟨f', hf, hview⟩ := ok_of_bind hview
  obtain ⟨k', hk, hview⟩ := ok_of_bind hview
  obtain ⟨_, htable, hview⟩ := ok_of_bind hview
  obtain ⟨rfl, rfl⟩ := Prod.mk.inj (Except.ok.inj hview)
  refine ⟨_, rfl, (Except.ok.inj hanswer).symm, (Except.ok.inj hnew).symm,
    (Except.ok.inj htable).symm, ?_, ?_⟩
  · rw [eq_of_storable hf]
    exact parse_orNull_keptFilter hfilter
  · rw [eq_of_storable hk]
    exact parseSort_orNull_keptSort hsort

/-- A view that is changed stays in its place, and so does what it means where nothing is given. -/
theorem exists_of_updateView (hw : w.storage = .ready db) (hv : Catalog.findView id db = .ok v)
    (h : updateView actor id name filter sort s w = (.ok answer, w')) :
    ∃ v' db', w'.storage = .ready db' ∧ Catalog.findView id db' = .ok v' ∧ v'.table = v.table ∧
      (filter = .null → v'.filter = v.filter) ∧ (sort = .null → v'.sort = v.sort) := by
  obtain ⟨found, hfound, h⟩ := ok_of_query_bind hw h
  obtain rfl := Except.ok.inj (hfound.symm.trans hv)
  obtain ⟨_, _, h⟩ := ok_of_query_bind hw h
  obtain ⟨⟨f, k⟩, w₁, hkept, h⟩ := ok_of_run_bind h
  obtain ⟨⟨hfilter, _⟩, hsort, _⟩ := compiles_of_keptConfigs hw hkept
  rw [world_of_keptConfigs hw hkept] at h
  obtain ⟨_, w₂, hmade, h⟩ := ok_of_run_bind (x := Catalog.updateView id name f k) h
  obtain ⟨_, rfl⟩ := Prod.mk.inj h
  obtain ⟨db', hview, rfl⟩ := ok_of_transaction hw hmade
  obtain ⟨old, hold, hview⟩ := ok_of_bind hview
  obtain rfl := Except.ok.inj (hold.symm.trans hv)
  obtain ⟨n, _, hview⟩ := ok_of_bind hview
  obtain ⟨f', hf, hview⟩ := ok_of_bind hview
  obtain ⟨k', hk, hview⟩ := ok_of_bind hview
  obtain ⟨_, rfl⟩ := Prod.mk.inj (Except.ok.inj hview)
  have hkeeps : ∀ {old new : Value}, Catalog.viewField old .null = .ok new →
      Catalog.keptField old new = old := fun hnew =>
    (eq_or_stored_of_viewField hnew).resolve_right fun hgiven => by cases hgiven.1
  refine ⟨_, _, rfl, Catalog.findView_map hv rfl, rfl, ?_, ?_⟩
  · rintro rfl
    obtain rfl := Except.ok.inj hfilter
    exact hkeeps hf
  · rintro rfl
    obtain rfl := Except.ok.inj hsort
    exact hkeeps hk

/-! ## Views mean what was saved -/

/-- A base of an actor with a table that has one column of numbers. -/
def numbersDatabase : Database :=
  { Database.empty with
    bases := [⟨"b", "B", "u", ⟨0⟩⟩], tables := [⟨"t", "b", "T", ⟨0⟩⟩]
    columns := [⟨"c", "t", "C", .number, 0, ⟨0⟩⟩] }

/-- A filter by the column, as a text. -/
def numbersFilter : Value :=
  .text ("\x7b\"conditions\": [\x7b\"columnId\": \"c\", \"operator\": \"greaterThan\", " ++
    "\"value\": 5\x7d]\x7d")

/-- A sort by the column, as a text. -/
def numbersSort : Value := .text "[\x7b\"columnId\": \"c\", \"direction\": \"desc\"\x7d]"

/-- What the view comes to keep of the two, which it can. -/
def keptNumbers : Except Failure Unit := do
  let f ← keptFilter numbersFilter
  let k ← keptSort numbersSort
  let _ ← Query.compile (some [("c", .number)]) f k
  let _ ← Catalog.storable (if f.isNull then .dict [] else f)
  let _ ← Catalog.storable (if k.isNull then .list [] else k)
  return ()

/-- A view of that filter and that sort is made. -/
theorem exists_createView_numbers (hw : w.storage = .ready numbersDatabase) :
    ∃ answer w', createView "u" "t" (.text "A") numbersFilter numbersSort s w = (.ok answer, w') := by
  have htypes : Catalog.typesOf "t" numbersDatabase = [("c", .number)] := by
    simp [Catalog.typesOf, Catalog.columnsOf, numbersDatabase]
  have hown : Catalog.ownedTable "u" "t" numbersDatabase = .ok ⟨"t", "b", "T", ⟨0⟩⟩ := rfl
  have hkept : keptNumbers.isOk = true := by decide +kernel
  rcases hrun : keptNumbers with why | _
  · rw [hrun] at hkept
    cases hkept
  · obtain ⟨f, hf, h⟩ := ok_of_bind hrun
    obtain ⟨k, hk, h⟩ := ok_of_bind h
    obtain ⟨plan, hplan, h⟩ := ok_of_bind h
    obtain ⟨f', hf', h⟩ := ok_of_bind h
    obtain ⟨k', hk', _⟩ := ok_of_bind h
    obtain ⟨_, _, h, _⟩ := run_createView (s := s) hw hown (nameOf_name .view) hf hk
      (htypes ▸ hplan) hf' hk'
    exact ⟨_, _, h⟩

end Workspace

end Tabula
