import OData.Endpoint
import OData.Json.Writer
import OData.Options.LimitsJson
import OData.Yaml.Reader
import OData.Yaml.Resolve

/-!
# Configuration

How large pages and options may be, and where the service is found.  A document gives the
settings that differ from the standard ones.
-/

set_option autoImplicit false

namespace OData

structure Pagination where
  /-- The size of a page when the request does not say how many entities it wants. -/
  defaultPageSize : Option Nat
  maxPageSize : Nat
  /-- How many records are fetched at a time. -/
  chunkSize : Nat
  deriving DecidableEq, Repr

structure Config where
  pagination : Pagination
  limits : QueryLimits
  endpoint : Endpoint
  deriving DecidableEq, Repr

namespace Pagination

def standard : Pagination := ⟨none, 1000, 1000⟩

def fields : List String := ["default_page_size", "max_page_size", "chunk_size"]

def setMember (p : Pagination) (name : String) (value : Json) : Option Pagination :=
  match name with
  | "default_page_size" =>
    if value.isNull then some { p with defaultPageSize := none }
    else value.asUnsigned?.map fun n => { p with defaultPageSize := some n }
  | "max_page_size" => value.asUnsigned?.map fun n => { p with maxPageSize := n }
  | "chunk_size" => value.asUnsigned?.map fun n => { p with chunkSize := n }
  | _ => none

def setMembers (p : Pagination) : Json.Members → Option Pagination
  | [] => some p
  | (name, value) :: rest => do setMembers (← p.setMember name value) rest

def toJson (p : Pagination) : Json :=
  .object [("default_page_size", (p.defaultPageSize.map fun n => Json.int n).getD .null),
    ("max_page_size", .int p.maxPageSize), ("chunk_size", .int p.chunkSize)]

end Pagination

namespace Config

def standard : Config := ⟨Pagination.standard, QueryLimits.standard, Endpoint.standard⟩

def invalid {α : Type} (message : String) : Result α :=
  .error (.configuration "invalid_config" message)

/-- Sizes are positive, and the standard page is no larger than the largest. -/
def validate (config : Config) : Result Unit :=
  let p := config.pagination
  if p.maxPageSize = 0 ∨ p.chunkSize = 0 then
    invalid "max_page_size and chunk_size must be positive"
  else match p.defaultPageSize with
    | none => .ok ()
    | some n =>
      if n = 0 ∨ p.maxPageSize < n then
        invalid ("default_page_size " ++ toString n ++ " must be within 1..="
          ++ toString p.maxPageSize)
      else .ok ()

def setMember (config : Config) (name : String) (value : Json) : Option Config :=
  match name with
  | "pagination" => do
    let members ← value.asRecord? Pagination.fields
    some { config with pagination := ← config.pagination.setMembers members }
  | "limits" => do
    let members ← value.asRecord? QueryLimits.fields
    some { config with limits := ← config.limits.setMembers members }
  | "endpoint" => do
    let members ← value.asRecord? Endpoint.fields
    some { config with endpoint := ← config.endpoint.setMembers members }
  | _ => none

def setMembers (config : Config) : Json.Members → Option Config
  | [] => some config
  | (name, value) :: rest => do setMembers (← config.setMember name value) rest

/-- The settings of a document, which may be empty. -/
def settings? (document : Yaml.Node) : Option Json.Members :=
  match document with
  | .scalar .plain "" => some []
  | _ => document.toJson.asObject?

/-- The standard settings with those of a document in place of them. -/
def ofText (text : String) : Result Config :=
  match (Yaml.ofText? .v1_1 text).bind fun document =>
      (settings? document).bind standard.setMembers with
  | some config => do
    config.validate
    pure config
  | none => invalid "invalid config"

/-- JSON is read as the document that it is. -/
def ofJson (json : Json) : Result Config := ofText json.compact

def fileMissing {α : Type} (path : String) : Result α :=
  .error (.configuration "config_not_found" ("config file does not exist: " ++ path))

def toJson (config : Config) : Json :=
  .object [("pagination", config.pagination.toJson), ("limits", config.limits.toJson),
    ("endpoint", config.endpoint.toJson)]

end Config

end OData
