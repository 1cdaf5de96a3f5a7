import OData.Json.Basic
import OData.Options.Reader
import OData.Text.Form
import OData.Text.Pieces

/-!
# Transactions

A request with its query options read.  The entities of an expansion are found by the same
request with the options of the expansion in place of its own.
-/

set_option autoImplicit false

namespace OData

inductive Method where
  | get
  | post
  | put
  | patch
  | delete
  | other (name : String)
  deriving DecidableEq, Repr

namespace Method

def name : Method → String
  | get => "GET"
  | post => "POST"
  | put => "PUT"
  | patch => "PATCH"
  | delete => "DELETE"
  | other name => name

def isTokenChar (c : Char) : Bool :=
  c.isAlphanum || "!#$%&'*+-.^_|~".toList.contains c || c == '\x60'

def ofName? (name : String) : Option Method :=
  match name with
  | "GET" => some get
  | "POST" => some post
  | "PUT" => some put
  | "PATCH" => some patch
  | "DELETE" => some delete
  | _ => if !name.isEmpty && name.toList.all isTokenChar then some (other name) else none

end Method

/-- What a request says apart from its query options. -/
structure Request where
  method : Method
  path : String
  /-- All parameters of the query string, decoded. -/
  parameters : List (String × String)
  body : Option Json

structure Transaction where
  request : Request
  options : QueryOptions
  /-- How many expansions lead here. -/
  depth : Nat
  /-- The guid that was drawn for an entity that comes without its key. -/
  drawn : Guid

namespace Request

/-- The first value of a parameter. -/
def parameter? (r : Request) (name : String) : Option String :=
  (r.parameters.find? (·.1 == name)).map (·.2)

def skipTokenName : String := "$skiptoken"

/-- The query string without a skip token. -/
def queryText (r : Request) : String :=
  Text.Form.encodePairs (r.parameters.filter (·.1 != skipTokenName))

end Request

namespace Transaction

/-- Splits at the first question mark. -/
def splitUri (uri : String) : String × String :=
  match Text.splitFirst? '?' uri.toList with
  | some (path, query) => (String.ofList path, String.ofList query)
  | none => (uri, "")

def ofUri (limits : QueryLimits) (method : Method) (uri : String) (body : Option Json)
    (drawn : Guid) : Result Transaction := do
  let (path, query) := splitUri uri
  let parameters := Text.Form.decodePairs query
  let options ← QueryOptions.ofPairs limits parameters
  pure ⟨⟨method, path, parameters, body⟩, options, 0, drawn⟩

/-- The transaction for the entities of an expansion. -/
def expand (t : Transaction) (item : Expansion) : Transaction :=
  { t with options := item.2, depth := t.depth + 1 }

end Transaction

end OData
