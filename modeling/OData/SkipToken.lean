import OData.Error
import OData.Json.Raw
import OData.Json.Writer
import OData.Text.Base64Url
import OData.Text.Characters
import OData.Text.Pieces

/-!
# Skip tokens

A skip token says where the next page of a query begins: how many records were consumed past the
skipped ones, how many more are wanted, and the fingerprint of the query.  Its text is a JSON
object in base 64.
-/

set_option autoImplicit false

namespace OData

structure SkipToken where
  offset : Nat
  remaining : Option Nat
  fingerprint : String
  deriving DecidableEq, Repr

namespace SkipToken

def version : Nat := 1

def toJson (t : SkipToken) : Json :=
  .object [("v", .int version), ("o", .int t.offset),
    ("r", (t.remaining.map fun n => Json.int n).getD .null), ("h", .str t.fingerprint)]

def encode (t : SkipToken) : String := Text.Base64Url.encode (Text.Utf8.encode t.toJson.compact)

def invalid {α : Type} (why : String) : Result α :=
  .error (.bad "invalid_skiptoken" ("invalid $skiptoken: " ++ why))

/-- A member that comes at most once. -/
def member? (members : List (String × Json.Raw.Bytes)) (name : String) : Option (Option Json) :=
  match members.filter (·.1 == name) with
  | [] => some none
  | [(_, value)] => (Json.Raw.read? value).map some
  | _ => none

def byte? (json : Json) : Option Nat := do
  let n ← json.asUnsigned?
  if n < 256 then some n else none

def optional? : Json → Option (Option Nat)
  | .null => some none
  | json => json.asUnsigned?.map some

/-- The version and the token of the members of an object.  Other members are passed over. -/
def ofMembers? (members : List (String × Json.Raw.Bytes)) : Option (Nat × SkipToken) := do
  let v ← byte? (← (← member? members "v"))
  let offset ← (← (← member? members "o")).asUnsigned?
  let remaining ← optional? ((← member? members "r").getD .null)
  let fingerprint ← (← (← member? members "h")).asString?
  some (v, ⟨offset, remaining, fingerprint⟩)

/-- The version and the token of an array. -/
def ofItems? : List Json → Option (Nat × SkipToken)
  | [v, o, r, h] => do some (← byte? v, ⟨← o.asUnsigned?, ← optional? r, ← h.asString?⟩)
  | _ => none

def ofBytes? (bytes : Json.Raw.Bytes) : Option (Nat × SkipToken) :=
  match Json.Raw.members? bytes with
  | some members => ofMembers? members
  | none => do ofItems? (← (← Json.Raw.items? bytes).mapM Json.Raw.read?)

/-- The token of a text.  What is wrong with a text that is none is told by the libraries that
read it, `fault`. -/
def decode (fault : String → String) (text : String) : Result SkipToken :=
  let payload := do
    let bytes ← Text.Base64Url.decode (String.ofList (Text.trim Text.isBlank text.toList))
    ofBytes? bytes
  match payload with
  | some (v, token) =>
    if v = version then .ok token else invalid ("unsupported version " ++ toString v)
  | none => invalid (fault text)

end SkipToken

end OData
