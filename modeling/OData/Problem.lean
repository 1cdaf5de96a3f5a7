import OData.Error
import OData.Json.Basic

/-!
# Problems

How a failed request is reported: a problem document, or the error body of the protocol.  What
went wrong in the storage is not told.
-/

set_option autoImplicit false

namespace OData

structure Problem where
  type : String
  title : String
  status : Nat
  detail : String
  /-- The path of the request. -/
  target : String
  code : String
  traceId : Option String
  /-- The place of a syntax error. -/
  offset : Option Nat
  deriving DecidableEq, Repr

namespace Problem

/-- What the problems of one kind have in common. -/
structure Kind where
  status : Nat
  title : String
  name : String

def badRequest : Kind := ⟨400, "Bad Request", "bad_request"⟩

def notFound : Kind := ⟨404, "Not Found", "not_found"⟩

def notImplemented : Kind := ⟨501, "Not Implemented", "not_implemented"⟩

def configuration : Kind := ⟨500, "Configuration Error", "configuration"⟩

def internal : Kind := ⟨500, "Internal Server Error", "internal"⟩

def Kind.type (kind : Kind) : String :=
  "https://docs.oasis-open.org/odata/odata/v4.01/errors#" ++ kind.name

def Kind.of : Error → Kind
  | .badRequest _ _ _ => badRequest
  | .notFound _ _ => notFound
  | .configuration _ _ => configuration
  | .notImplemented _ => notImplemented
  | .driver _ | .fault _ => internal

def detailOf : Error → String
  | .badRequest _ message _ => message
  | .notFound _ message => message
  | .configuration _ message => message
  | .notImplemented capability => "this entity set does not support " ++ capability.name
  | .driver _ | .fault _ => "an internal error occurred while processing the request"

def ofError (e : Error) (target : String) (traceId : Option String) : Problem :=
  let kind := Kind.of e
  { type := kind.type, title := kind.title, status := kind.status, detail := detailOf e, target,
    code := e.code, traceId, offset := e.offset? }

def toJson (p : Problem) : Json :=
  .object ([("type", .str p.type), ("title", .str p.title), ("status", .int p.status),
      ("detail", .str p.detail), ("instance", .str p.target), ("code", .str p.code),
      ("trace_id", (p.traceId.map Json.str).getD .null)]
    ++ match p.offset with
      | some n => [("offset", .int n)]
      | none => [])

/-- The error body: a problem without a code has its status for one. -/
def toErrorBody (p : Problem) : Json :=
  .object [("error", .object
    ([("code", .str (if p.code.isEmpty then toString p.status else p.code)),
        ("message", .str p.detail)]
      ++ if p.target.isEmpty then [] else [("target", .str p.target)]))]

def status? (json : Json) : Option Nat := do
  let n ← json.asUnsigned?
  if 100 ≤ n ∧ n < 1000 then some n else none

def optional {α : Type} (read : Json → Option α) : Option Json → Option (Option α)
  | none | some .null => some none
  | some json => (read json).map some

def fields : List String :=
  ["type", "title", "status", "detail", "instance", "code", "trace_id", "offset"]

/-- The members of a problem document.  An array has all of them in their order, but for the last
one. -/
def members? (json : Json) : Option Json.Members :=
  match json with
  | .array items => if items.length < 7 then none else json.asWholeRecord? fields
  | _ => json.asObject?

/-- Reads a problem document; members of other names do not matter. -/
def ofJson? (json : Json) : Option Problem := do
  let members ← members? json
  let text (name : String) : Option String := do (← members.get? name).asString?
  some
    { type := ← text "type", title := ← text "title",
      status := ← status? (← members.get? "status"), detail := ← text "detail",
      target := ← text "instance", code := ← text "code",
      traceId := ← optional Json.asString? (members.get? "trace_id"),
      offset := ← optional Json.asUnsigned? (members.get? "offset") }

end Problem

end OData
