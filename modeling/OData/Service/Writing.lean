import OData.Service.Entity
import OData.Value.Json

/-!
# Creating, updating and deleting entities

A body gives values for properties of the entity; names with an at sign are annotations and do
not matter.  The key of an entity never changes.
-/

set_option autoImplicit false

namespace OData

/-- Whether the foreign key of a navigation property is kept with its source: the values that the
constraints refer to are the key of the target. -/
def NavigationProperty.keyOnSource (navigation : NavigationProperty) (target : EntityType) : Bool :=
  !navigation.constraints.isEmpty
    && navigation.constraints.all fun c => target.isKey c.referenced

namespace EntitySet

def isAnnotation (name : String) : Bool := name.toList.contains '@'

/-- The property that a member of a body names. -/
def bodyProperty (ty : EntityType) (name : String) : Result Property :=
  if (ty.navigation? name).isSome then
    .error (.bad "deep_insert_not_supported"
      ("navigation property '" ++ name ++ "' cannot be written inline"))
  else match ty.property? name with
    | some property => .ok property
    | none => .error (.bad "unknown_property"
        ("'" ++ name ++ "' is not a property of '" ++ ty.name.text ++ "'"))

/-- The value of a member of a body. -/
def bodyValue (property : Property) (json : Json) : Result Value := do
  let v ← Value.ofJson property.type json
  if v.isNull && !property.nullable then
    .error (.bad "null_not_allowed" ("property '" ++ property.name.text ++ "' is not nullable"))
  else pure v

def readBodyMembers (ty : EntityType) : Record → Json.Members → Result Record
  | record, [] => .ok record
  | record, (name, json) :: rest =>
    if isAnnotation name then readBodyMembers ty record rest
    else do
      let property ← bodyProperty ty name
      let v ← bodyValue property json
      readBodyMembers ty (record.insert property.name v) rest

def readBody (ty : EntityType) (body : Option Json) : Result Record :=
  match body.bind Json.asObject? with
  | some members => readBodyMembers ty [] members
  | none => .error (.bad "invalid_body" "request body must be a JSON object")

/-- The foreign key that a new entity takes from the source of its set. -/
def withSourceKey (set : EntitySet) (record : Record) : Record :=
  match set.source with
  | none => record
  | some source =>
    if source.navigation.keyOnSource set.entityType then record
    else source.navigation.constraints.foldl
      (fun acc c => acc.insert c.referenced (source.record.value c.property)) record

/-- Whether the store can make a key for a new entity. -/
def generatesKey (ty : EntityType) : Bool :=
  match ty.keyProperties with
  | [only] => only.type.isIntegral || only.type == .guid
  | _ => false

/-- Whether a record lacks a property that it must have. -/
def lacks (ty : EntityType) (record : Record) (property : Property) : Bool :=
  !record.has property.name && !property.nullable
    && !(generatesKey ty && ty.isKey property.name)

def checkComplete (ty : EntityType) (record : Record) : Result Unit :=
  match ty.properties.find? (lacks ty record) with
  | some property => .error (.bad "missing_property"
      ("required property '" ++ property.name.text ++ "' is missing"))
  | none => .ok ()

/-- Adds an entity with the values of a body. -/
def create (set : EntitySet) (drawn : Guid) (body : Option Json) (make : Maker) :
    Action Entity := do
  set.require .create
  let record ← readBody set.entityType body
  let record := set.withSourceKey record
  checkComplete set.entityType record
  let stored ← set.definition.create drawn record
  make none stored

/-- The changes without those of the key, which must not differ from it. -/
def withoutKey : List (Identifier × Value) → Record → Result Record
  | [], changes => .ok changes
  | (name, v) :: rest, changes =>
    match changes.get? name with
    | none => withoutKey rest changes
    | some changed =>
      if changed.compare v == some .eq then withoutKey rest (changes.erase name)
      else .error (.bad "key_immutable"
        ("key property '" ++ name.text ++ "' cannot be changed"))

/-- Changes an entity to have the values of a body. -/
def update (set : EntitySet) (key : Key) (body : Option Json) (make : Maker) : Action Entity := do
  set.require .update
  let changes ← readBody set.entityType body
  let _ ← set.readScoped key
  let changes ← withoutKey key.values changes
  let stored ← set.definition.update key changes
  make none stored

def delete (set : EntitySet) (key : Key) : Action Unit := do
  set.require .delete
  let _ ← set.readScoped key
  let _ ← set.definition.delete key
  pure ()

end EntitySet

end OData
