import OData.Service.EntitySet

/-!
# References to entities

A request may name the target of a navigation property: by a key in the path, by the parameter
`$id` or `id`, or, unless it is a GET, by `@odata.id` in its body.  The first of these counts.
-/

set_option autoImplicit false

namespace OData

/-- Where a request names the target of a navigation property. -/
inductive TargetOrigin where
  | inlineKey
  | parameter
  | body
  deriving DecidableEq, Repr

namespace EntitySet

def invalidReference (reference reason : String) : Error :=
  .bad "navigation_reference_invalid"
    ("invalid entity reference '" ++ reference ++ "': " ++ reason)

/-- The key in a reference `Set(key)`, which may come after the URL or the route of the service. -/
def parseReference (ctx : Context) (target : EntitySet) (reference : String) : Result Key :=
  let text := ctx.config.endpoint.referenceText (Text.trim Text.isBlank reference.toList)
  match Text.splitFirst? '(' text with
  | none => .error (invalidReference reference "expected <set>(<key>)")
  | some (name, rest) =>
    match Text.beforeLast? ')' rest with
    | none => .error (invalidReference reference "unbalanced parentheses")
    | some key =>
      if String.ofList name = target.name.text then
        Key.parse target.entityType (String.ofList key)
      else .error (invalidReference reference
        ("expected an entity of '" ++ target.name.text ++ "'"))

def identityMember : String := "@odata.id"

/-- The reference in the body of a request. -/
def bodyReference? (request : Request) : Option String :=
  if request.method = .get then none
  else do (← (← request.body).get? identityMember).asString?

def parameterReference? (request : Request) : Option String :=
  (request.parameter? "$id").orElse fun _ => request.parameter? "id"

/-- The key of the target that a request names, and where. -/
def explicitTarget (ctx : Context) (request : Request) (target : EntitySet)
    (inlineKey : Option String) : Result (Option (Key × TargetOrigin)) :=
  match inlineKey, parameterReference? request, bodyReference? request with
  | some text, _, _ => do pure (some (← Key.parse target.entityType text, .inlineKey))
  | none, some reference, _ => do
    pure (some (← parseReference ctx target reference, .parameter))
  | none, none, some reference => do pure (some (← parseReference ctx target reference, .body))
  | none, none, none => .ok none

end EntitySet

end OData
