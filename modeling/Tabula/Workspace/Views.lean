import Tabula.Workspace.Rows

/-!
# Views of an actor's tables

A view keeps a filter and a sort in their read form. Both are compiled against the columns
of the table when the view is made or changed.
-/

namespace Tabula.Workspace

/-- The read form of a filter, null if there is none. -/
def keptFilter (filter : Value) : Except Failure Value :=
  if filter.isNull then .ok .null else (Query.Filter.parse filter).map Query.Filter.toValue

/-- The read form of a sort, null if there is none. -/
def keptSort (sort : Value) : Except Failure Value :=
  if sort.isNull then .ok .null else (Query.parseSort sort).map Query.sortValue

/-- The read forms of a filter and a sort, which must compile. -/
def keptConfigs (table : String) (filter sort : Value) : Action (Value × Value) := do
  let filter ← keptFilter filter
  let sort ← keptSort sort
  let types ← typesFor table
  let _ ← Query.compile types filter sort
  return (filter, sort)

def createView (actor table : String) (name filter sort : Value) : Action Value := do
  let _ ← Catalog.ensureOwner actor table
  let (filter, sort) ← keptConfigs table filter sort
  let filter := if filter.isNull then .dict [] else filter
  let sort := if sort.isNull then .list [] else sort
  return (← Catalog.createView table name filter sort).toValue

def listViews (actor table : String) : Action Value := do
  let _ ← Catalog.ensureOwner actor table
  return .list ((← Catalog.listViews table).map View.toValue)

def getView (actor id : String) : Action Value := do
  let view ← Catalog.getView id
  let _ ← Catalog.ensureOwner actor view.table
  return view.toValue

/-- Changes a view. Null leaves a field as it is. -/
def updateView (actor id : String) (name filter sort : Value) : Action Value := do
  let view ← Catalog.getView id
  let _ ← Catalog.ensureOwner actor view.table
  let (filter, sort) ← keptConfigs view.table filter sort
  return (← Catalog.updateView id name filter sort).toValue

/-- One page of the rows of the view's table by its filter and sort. -/
def listViewRows (settings : Settings) (actor id : String) (limit offset : Value) : Action Value := do
  let view ← Catalog.getView id
  let orNull (v : Value) : Value := if v.truthy then v else .null
  listRows settings actor view.table (orNull view.filter) (orNull view.sort) limit offset

end Tabula.Workspace
