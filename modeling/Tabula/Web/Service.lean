import Tabula.Ingest.Request
import Tabula.Web.Resource
import Tabula.Workspace.Columns
import Tabula.Workspace.Views

/-!
# Answers to requests

`answer` finds the resource and does what is asked of it on behalf of the acting user. What
was done is answered as an object that says so, a failure as one with the cause. A fault
below the operations is answered without it.

The body is read before the user is looked for, and the parameters after.
-/

namespace Tabula.Web

structure Response where
  status : Nat
  /-- The answer, null if it is no JSON. -/
  body : Value
  deriving Repr

namespace Response

/-- An answer without content. -/
def blank (status : Nat) : Response := ⟨status, .null⟩

/-- The answer that something was done. -/
def done (status : Nat) (entries : List (String × Value)) : Response :=
  ⟨status, .object (("success", .bool true) :: entries)⟩

/-- The answer that nothing was done. -/
def refused (status : Nat) (why : String) : Response :=
  ⟨status, .object [("success", .bool false), ("error", .text why)]⟩

/-- The answer with a list and its length. -/
def listed (name : String) (v : Value) : Response :=
  let count := match v with
    | .list xs => xs.length
    | _ => 0
  done 200 [("count", .int count), (name, v)]

/-- The answer to a failure. -/
def ofFailure (f : Failure) : Response :=
  if f.isAnswer then refused f.status f.message else refused 500 "Internal server error"

end Response

open Response

/-- What the root says about the service. -/
def overview : Value := .object [
  ("name", .text "gridbase API"),
  ("version", .text "1.0.0"),
  ("endpoints", .object [
    ("/health", .text "Health check"),
    ("/api/bases", .text "Create (POST) or list (GET) bases"),
    ("/api/tables", .text "Create table with default columns and sample rows (POST)"),
    ("/api/tables/<table_id>", .text "Get (GET) or delete (DELETE) a table"),
    ("/api/tables/<table_id>/columns", .text "Add column (POST)"),
    ("/api/columns/<column_id>", .text "Update (PATCH) or delete (DELETE) a column"),
    ("/api/tables/<table_id>/rows", .text "List rows (GET) or bulk insert (POST)"),
    ("/api/tables/<table_id>/rows/query", .text "List rows with filter/sort in the body (POST)"),
    ("/api/tables/<table_id>/count", .text "Count rows (GET)"),
    ("/api/rows/<row_id>", .text "Update a cell (PATCH) or delete (DELETE) a row"),
    ("/api/tables/<table_id>/views", .text "Create (POST) or list (GET) views"),
    ("/api/views/<view_id>", .text "Get (GET) or update (PATCH) a view"),
    ("/api/views/<view_id>/rows", .text "List rows through a view (GET)"),
    ("/api/search", .text "Global search (GET)"),
    ("/api/ingestion/jobs", .text "Start (POST) or list (GET) ingestion jobs"),
    ("/api/ingestion/jobs/<job_id>", .text "Ingestion job status (GET)")])]

/-- How the service is. -/
def healthReport : Action Response := do
  let reachable ← Action.isReachable
  let now ← Action.now
  return ⟨200, .object [
    ("status", .text (if reachable then "healthy" else "degraded")),
    ("timestamp", .text now.offsetText),
    ("database", .text (if reachable then "connected" else "disconnected"))]⟩

/-- The first of two entries of a body that counts as true, else the second. -/
def eitherEntry (body : Value) (first second : String) : Value :=
  if (body.get first).truthy then body.get first else body.get second

/-! ## What is got -/

def listRows (settings : Workspace.Settings) (r : Request) (table : String) : Action Response := do
  let actor ← r.actor
  let filter ← r.jsonParameter "filter"
  let sort ← r.jsonParameter "sort"
  return listed "rows" (← Workspace.listRows settings actor table filter sort
    (r.parameter "limit") (r.parameter "offset"))

def listViewRows (settings : Workspace.Settings) (r : Request) (view : String) :
    Action Response := do
  let actor ← r.actor
  return listed "rows"
    (← Workspace.listViewRows settings actor view (r.parameter "limit") (r.parameter "offset"))

def countRows (r : Request) (table : String) : Action Response := do
  let actor ← r.actor
  let filter ← r.jsonParameter "filter"
  return done 200 [("count", .int (← Workspace.countRows actor table filter))]

def listJobs (settings : Workspace.Settings) (r : Request) : Action Response := do
  match r.parameter? "table_id" with
  | none => throw (.invalid (.missingArgument "table_id"))
  | some table =>
    if table = "" then throw (.invalid (.missingArgument "table_id"))
    let (limit, _) ← Workspace.parsePage (r.parameter "limit") (.int 0) settings.limits
    let actor ← r.actor
    return listed "jobs" (← Ingestion.listJobs actor table limit)

def getJob (r : Request) (id : String) : Action Response := do
  let actor ← r.actor
  let job ← Ingestion.visibleJob id (some actor)
  return done 200 (job.statusEntries ++ [("job", job.toValue)])

/-- What is got of a resource. -/
def get (settings : Workspace.Settings) (r : Request) : Resource → Action Response
  | .root => return ⟨200, overview⟩
  | .health => healthReport
  | .bases => do return listed "bases" (← Workspace.listBases (← r.actor))
  | .table id => do return done 200 [("table", ← Workspace.getTable (← r.actor) id)]
  | .rows table => listRows settings r table
  | .rowCount table => countRows r table
  | .views table => do return listed "views" (← Workspace.listViews (← r.actor) table)
  | .view id => do return done 200 [("view", ← Workspace.getView (← r.actor) id)]
  | .viewRows id => listViewRows settings r id
  | .search => do
    return listed "rows"
      (← Workspace.search settings (← r.actor) (r.parameter "q") (r.parameter "limit"))
  | .jobs => listJobs settings r
  | .job id => getJob r id
  | .file => return refused 404 "Not found"
  | _ => return refused 405 "Method not allowed"

/-! ## What is made -/

def createTable (r : Request) (body : Value) : Action Response := do
  let base := eitherEntry body "base_id" "baseId"
  let actor ← r.actor
  match ← Workspace.createTable actor (← Catalog.idOf base) (body.get "name") with
  | .dict es => return ⟨201, .dict ((.text "success", .bool true) :: es)⟩
  | v => return ⟨201, v⟩

def insertRows (settings : Workspace.Settings) (r : Request) (table : String) (body : Value) :
    Action Response := do
  match body.get? "rows" with
  | none => throw (.invalid .bodyWithoutRows)
  | some rows =>
    let actor ← r.actor
    return done 201 [("inserted", .int (← Workspace.insertRows settings actor table rows))]

def startIngestion (r : Request) (body : Value) : Action Response := do
  let table := eitherEntry body "table_id" "tableId"
  let total := (body.get? "total_rows").getD (body.get "totalRows")
  if !table.truthy then throw (.invalid (.missingArgument "table_id"))
  let actor ← r.actor
  let _ ← Ledger.rowTotal "totalRows" total
  let id ← Ingestion.start (fun _ => return ()) actor (← Catalog.idOf table) total
  return done 202 [("jobId", .text id)]

/-- What is made in a resource. -/
def post (settings : Workspace.Settings) (r : Request) (resource : Resource) : Action Response := do
  let body ← r.content
  match resource with
  | .bases =>
    return done 201 [("base", ← Workspace.createBase (← r.actor) (body.get "name"))]
  | .tables => createTable r body
  | .columns table =>
    let type := (body.get? "type").getD (.text "TEXT")
    return done 201 [("column",
      ← Workspace.addColumn (← r.actor) table (body.get "name") type (body.get "order"))]
  | .rows table => insertRows settings r table body
  | .rowQuery table =>
    return listed "rows" (← Workspace.listRows settings (← r.actor) table (body.get "filter")
      (body.get "sort") (body.get "limit") (body.get "offset"))
  | .views table =>
    return done 201 [("view", ← Workspace.createView (← r.actor) table (body.get "name")
      (body.get "filter") (body.get "sort"))]
  | .jobs => startIngestion r body
  | _ => return refused 405 "Method not allowed"

/-! ## What is changed and deleted -/

def updateCell (r : Request) (row : String) (body : Value) : Action Response := do
  let column := eitherEntry body "column_id" "columnId"
  if !column.truthy then throw (.invalid (.missingArgument "column_id"))
  return done 200 [("row", ← Workspace.updateCell (← r.actor) row column (body.get "value"))]

/-- What is changed of a resource. -/
def patch (r : Request) (resource : Resource) : Action Response := do
  let body ← r.content
  match resource with
  | .column id =>
    return done 200 [("column", ← Workspace.updateColumn (← r.actor) id (body.get "name")
      (body.get "type") (body.get "order"))]
  | .row id => updateCell r id body
  | .view id =>
    return done 200 [("view", ← Workspace.updateView (← r.actor) id (body.get "name")
      (body.get "filter") (body.get "sort"))]
  | _ => return refused 405 "Method not allowed"

/-- Deletes a resource. -/
def delete (r : Request) : Resource → Action Response
  | .table id => do
    Workspace.deleteTable (← r.actor) id
    return done 200 []
  | .column id => do
    return done 200 [("rows_updated", .int (← Workspace.deleteColumn (← r.actor) id))]
  | .row id => do
    Workspace.deleteRow (← r.actor) id
    return done 200 []
  | _ => return refused 405 "Method not allowed"

/-- Does with a resource what is asked. -/
def handle (settings : Workspace.Settings) (r : Request) (resource : Resource) : Action Response :=
  if !resource.allows r.method then return refused 405 "Method not allowed"
  else match r.method with
    | .get | .head => get settings r resource
    | .post => post settings r resource
    | .patch => patch r resource
    | .delete => delete r resource
    | .options | .other => return blank 200

/-- Answers a request whose path names no resource : a path with doubled slashes is sent to
the one without. -/
def astray (r : Request) : Response :=
  let merged := Request.mergeSlashes r.plainPath
  match if merged = r.plainPath then none else Resource.ofPath merged with
  | some resource =>
    if resource.allows r.method then blank 308 else refused 405 "Method not allowed"
  | none => refused 404 "Not found"

/-- The answer to a request with its content. -/
def fullAnswer (settings : Workspace.Settings) (r : Request) : Action Response := do
  match Resource.ofPath r.plainPath with
  | none => return astray r
  | some resource =>
    match ← Action.attempt (handle settings r resource) with
    | .ok response => return response
    | .error f => return .ofFailure f

/-- Answers a request. The answer to a question for the head has no content. -/
def answer (settings : Workspace.Settings) (r : Request) : Action Response := do
  let response ← fullAnswer settings r
  return if r.method = .head then blank response.status else response

end Tabula.Web
