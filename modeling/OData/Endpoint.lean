import OData.Json.Basic
import OData.Text.Pieces

/-!
# Endpoints

Where a service is found.  Its path is its namespace with dots as slashes and the version after
an at sign; the route is that path below the mount point, and the URL is the route at the base.
-/

set_option autoImplicit false

namespace OData

structure Endpoint where
  mount : String
  space : String
  version : Option String
  baseUrl : String
  /-- The file of a metadata document that is returned as it is. -/
  metadataFile : Option String
  deriving DecidableEq, Repr

namespace Endpoint

def standard : Endpoint :=
  { mount := "odata", space := "Default", version := none, baseUrl := "http://localhost",
    metadataFile := none }

def isSlash (c : Char) : Bool := c == '/'

def path (e : Endpoint) : String :=
  let names := String.ofList (e.space.toList.map fun c => if c = '.' then '/' else c)
  match e.version with
  | some version => names ++ "@" ++ version
  | none => names

def route (e : Endpoint) : String :=
  let mount := String.ofList (Text.trim isSlash e.mount.toList)
  if mount.isEmpty then e.path else mount ++ "/" ++ e.path

def url (e : Endpoint) : String :=
  String.ofList (Text.trimEnd isSlash e.baseUrl.toList) ++ "/" ++ e.route

/-- Drops the URL of the service and the slashes after it. -/
def afterUrl (e : Endpoint) (cs : List Char) : List Char :=
  Text.trimStart isSlash ((Text.after? e.url.toList cs).getD cs)

/-- Whether a path ends, or its segment does. -/
def endsSegment : List Char → Bool
  | [] => true
  | c :: _ => c == '/'

/-- The path below the service root of a URL, a routed path or a path below the root. -/
def resourcePath (e : Endpoint) (path : String) : String :=
  let rest := e.afterUrl path.toList
  let rest := match Text.after? e.route.toList rest with
    | some below => if endsSegment below then below else rest
    | none => rest
  String.ofList (Text.trimStart isSlash rest)

/-- The text of a reference to an entity without the URL or the route before it. -/
def referenceText (e : Endpoint) (cs : List Char) : List Char :=
  let rest := e.afterUrl cs
  match Text.after? e.route.toList rest with
  | some below => Text.trimStart isSlash below
  | none => rest

def optionalString? : Json → Option (Option String)
  | .null => some none
  | json => json.asString?.map some

def fields : List String := ["prefix", "namespace", "version", "base_url", "cached_metadata_path"]

def setMember (e : Endpoint) (name : String) (value : Json) : Option Endpoint :=
  match name with
  | "prefix" => value.asString?.map fun s => { e with mount := s }
  | "namespace" => value.asString?.map fun s => { e with space := s }
  | "version" => (optionalString? value).map fun s => { e with version := s }
  | "base_url" => value.asString?.map fun s => { e with baseUrl := s }
  | "cached_metadata_path" => (optionalString? value).map fun s => { e with metadataFile := s }
  | _ => none

def setMembers (e : Endpoint) : Json.Members → Option Endpoint
  | [] => some e
  | (name, value) :: rest => do setMembers (← e.setMember name value) rest

/-- Reads an object, or an array of the settings in their order; what is left out keeps its standard
value. -/
def ofJson? (json : Json) : Option Endpoint := do
  setMembers standard (← json.asWholeRecord? fields)

def stringOrNull : Option String → Json
  | some s => .str s
  | none => .null

def toJson (e : Endpoint) : Json :=
  .object [("prefix", .str e.mount), ("namespace", .str e.space),
    ("version", stringOrNull e.version), ("base_url", .str e.baseUrl),
    ("cached_metadata_path", stringOrNull e.metadataFile)]

end Endpoint

end OData
