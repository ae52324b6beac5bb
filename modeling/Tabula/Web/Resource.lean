import Tabula.Web.Request

/-!
# Resources

The resources that requests can name by their paths, and the methods that each of them
has. A resource that can be got can also be asked for its head, and every resource for its
options.
-/

namespace Tabula.Web

inductive Resource where
  | root
  | health
  | bases
  | tables
  | table (id : String)
  | columns (table : String)
  | column (id : String)
  | rows (table : String)
  | rowQuery (table : String)
  | rowCount (table : String)
  | row (id : String)
  | views (table : String)
  | view (id : String)
  | viewRows (view : String)
  | search
  | jobs
  | job (id : String)
  /-- A file of the service, which has none. -/
  | file
  deriving DecidableEq, Repr

namespace Resource

/-- The resource under `/api` that the parts of a path name. -/
def ofApiSegments : List String → Option Resource
  | ["bases"] => some bases
  | ["tables"] => some tables
  | ["tables", id] => some (table id)
  | ["tables", id, "columns"] => some (columns id)
  | ["tables", id, "rows"] => some (rows id)
  | ["tables", id, "rows", "query"] => some (rowQuery id)
  | ["tables", id, "count"] => some (rowCount id)
  | ["tables", id, "views"] => some (views id)
  | ["columns", id] => some (column id)
  | ["rows", id] => some (row id)
  | ["views", id] => some (view id)
  | ["views", id, "rows"] => some (viewRows id)
  | ["search"] => some search
  | ["ingestion", "jobs"] => some jobs
  | ["ingestion", "jobs", id] => some (job id)
  | _ => none

/-- The resource that the parts of a path name, none of which may be blank but within the
name of a file. -/
def ofSegments : List String → Option Resource
  | [""] => some root
  | ["health"] => some health
  | "static" :: part :: _ => if part = "" then none else some file
  | "api" :: parts => if parts.contains "" then none else ofApiSegments parts
  | _ => none

/-- The resource that a path names. -/
def ofPath (path : List Char) : Option Resource :=
  ofSegments ((Request.segmentsOf path).map String.ofList)

/-- The methods of a resource besides those that follow from them. -/
def ownMethods : Resource → List Method
  | root | health | rowCount _ | viewRows _ | search | job _ | file => [.get]
  | bases | rows _ | views _ | jobs => [.get, .post]
  | tables | columns _ | rowQuery _ => [.post]
  | table _ => [.get, .delete]
  | column _ | row _ => [.patch, .delete]
  | view _ => [.get, .patch]

/-- Whether a resource has a method. -/
def allows (r : Resource) : Method → Bool
  | .options => true
  | .head => r.ownMethods.contains .get
  | m => r.ownMethods.contains m

end Resource

end Tabula.Web
