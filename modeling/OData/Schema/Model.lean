import OData.CapabilitySet
import OData.Json.Basic
import OData.Schema.EntityType

/-!
# Models

A model holds the entity types and entity sets of a service, both in the order of their names.
-/

set_option autoImplicit false

namespace OData

/-- A schema that the model refers to. -/
structure Reference where
  uri : String
  space : String
  alias? : Option String

def Reference.fields : List String := ["uri", "namespace", "alias"]

/-- Reads an object with no other members, or an array in the order of the fields; an alias may be
left out. -/
def Reference.ofJson? (json : Json) : Option Reference := do
  let members ← json.asWholeRecord? fields
  if members.all fun member => fields.contains member.1 then
    let text (name : String) : Option String := do (← members.get? name).asString?
    let alias? ← match members.get? "alias" with
      | none | some .null => some none
      | some json => json.asString?.map some
    some ⟨← text "uri", ← text "namespace", alias?⟩
  else none

def Reference.toText (r : Reference) : String :=
  match r.alias? with
  | some a => a ++ "=" ++ r.space
  | none => r.space

/-- Where the rows of a set are kept. -/
inductive Backing where
  /-- A table that takes the operations offered. -/
  | table (offered : CapabilitySet)
  /-- A table on a medium that fails after so many fetches and takes no writes. -/
  | failing (fetches : Nat)

def Backing.offered : Backing → CapabilitySet
  | table offered => offered
  | failing _ => CapabilitySet.all

structure EntitySetDef where
  name : Identifier
  entityType : EntityType
  /-- Target sets of navigation properties, in the order of the properties' names. -/
  bindings : List (Identifier × Identifier)
  backing : Backing
  capabilities : CapabilitySet
  chunkSize : Option Nat

structure Model where
  space : String
  alias? : Option String
  references : List Reference
  types : List EntityType
  sets : List EntitySetDef

/-- Puts an item before the first one whose name is greater, in place of one of the same name. -/
def insertNamed {α : Type} (name : α → String) (item : α) : List α → List α
  | [] => [item]
  | first :: rest =>
    if name item = name first then item :: rest
    else if name item < name first then item :: first :: rest
    else first :: insertNamed name item rest

namespace Model

def qualified (model : Model) (name : String) : String :=
  model.alias?.getD model.space ++ "." ++ name

def entityType? (model : Model) (name : String) : Option EntityType :=
  model.types.find? (·.name.text == name)

def entitySet? (model : Model) (name : String) : Option EntitySetDef :=
  model.sets.find? (·.name.text == name)

/-- The set that a navigation property of a set leads to: the bound one, else the only set of
the target type. -/
def bindingTarget (model : Model) (set : EntitySetDef) (navigation : NavigationProperty) :
    Result EntitySetDef :=
  match set.bindings.find? (·.1 == navigation.name) with
  | some (_, target) =>
    match model.entitySet? target.text with
    | some found => .ok found
    | none => .error (.configuration "unknown_entity_set"
        ("binding target '" ++ target.text ++ "' is not registered"))
  | none =>
    match model.sets.filter (·.entityType.name == navigation.target) with
    | [only] => .ok only
    | _ => .error (.configuration "missing_navigation_binding"
        ("'" ++ set.name.text ++ "' has no binding for navigation property '"
          ++ navigation.name.text ++ "'"))

end Model

end OData
