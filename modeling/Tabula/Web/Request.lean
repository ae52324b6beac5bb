import Tabula.Failure
import Tabula.Json.Nesting
import Tabula.Text.Case
import Tabula.Text.Percent

/-!
# Requests

A request has a method, a path, parameters, headers and a body. The acting user is named by
a header. A body is a JSON object and must be declared as JSON; no body is the empty object.
Of parameters with one name the first counts.
-/

namespace Tabula.Web

/-- What a request asks to be done with a resource. -/
inductive Method where
  | get
  | head
  | post
  | patch
  | delete
  | options
  | other
  deriving DecidableEq, Repr

/-- The method of a word in capitals or small letters. -/
def Method.ofWord (s : String) : Method :=
  match Text.asciiUpper s with
  | "GET" => get
  | "HEAD" => head
  | "POST" => post
  | "PATCH" => patch
  | "DELETE" => delete
  | "OPTIONS" => options
  | _ => other

structure Request where
  method : Method
  path : String
  parameters : List (String × String)
  headers : List (String × String)
  contentType : String
  body : List UInt8
  deriving Repr

namespace Request

/-! ## Paths -/

/-- The parts of a path between its slashes, slashes at the beginning aside. -/
def segmentsOf (path : List Char) : List (List Char) :=
  (path.dropWhile (· == '/')).splitOn '/'

/-- The path with every two neighbouring slashes made one. -/
def mergeSlashes : List Char → List Char
  | '/' :: '/' :: rest => '/' :: mergeSlashes rest
  | c :: rest => c :: mergeSlashes rest
  | [] => []

/-- The path as it is looked up. -/
def plainPath (r : Request) : List Char :=
  (Text.percentDecode (r.path.toList.takeWhile fun c => c != '?' && c != '#')).dropWhile (· == '/')

/-! ## Parameters and headers -/

/-- The first parameter with this name. -/
def parameter? (r : Request) (name : String) : Option String := r.parameters.lookup name

/-- A parameter as a value, null if it is missing. -/
def parameter (r : Request) (name : String) : Value :=
  match r.parameter? name with
  | some s => .text s
  | none => .null

/-- A parameter that holds JSON, null if it is missing or blank. -/
def jsonParameter (r : Request) (name : String) : Except Failure Value :=
  match r.parameter? name with
  | none => .ok .null
  | some s =>
    if Text.isBlankText s then .ok .null
    else if Json.isTooDeep s.toList then .error (.fault .tooDeep)
    else match Json.read s with
      | .ok v => .ok v
      | .error why => .error (.invalid (.parameterJson name why))

/-- The form of a header's name in which names are compared. -/
def headerKey (name : String) : String :=
  (Text.asciiUpper name).map fun c => if c == '-' then '_' else c

/-- The values of a header, joined by commas. -/
def header (r : Request) (name : String) : String :=
  ", ".intercalate ((r.headers.filter fun h => headerKey h.1 == headerKey name).map (·.2))

/-- The header that names the acting user. -/
def actorHeader : String := "X-Actor-Id"

/-- The acting user, who must be named. -/
def actor (r : Request) : Except Failure String :=
  let name := Text.trim (r.header actorHeader)
  if name = "" then .error .noActor else .ok name

/-! ## The body -/

/-- The declared type of the body without its options. -/
def mediaType (r : Request) : String :=
  let word := Text.trimChars Text.isBlank (r.contentType.toList.takeWhile (· != ';'))
  String.ofList (Text.lower word)

/-- Whether the body is declared as JSON. -/
def isJson (r : Request) : Bool :=
  let type := r.mediaType
  type == "application/json" || (type.startsWith "application/" && type.endsWith "+json")

/-- Whether the body is declared as a form, which leaves no plain body. -/
def isForm (r : Request) : Bool := r.mediaType == "application/x-www-form-urlencoded"

/-- The JSON object in the body. -/
def content (r : Request) : Except Failure Value :=
  if r.body.isEmpty || r.isForm then .ok (.dict [])
  else if !r.isJson then .error (.invalid .bodyNotObject)
  else if Json.areTooDeep r.body then .error (.fault .tooDeep)
  else match Json.readBytes r.body with
    | .ok (.dict es) => .ok (.dict es)
    | _ => .error (.invalid .bodyNotObject)

end Request

end Tabula.Web
