import OData.Service.Writing

/-!
# Linking entities

Two entities are linked by assigning the foreign key of the one that keeps it, and unlinked by
clearing it.  A link that cannot be cleared is required.
-/

set_option autoImplicit false

namespace OData

/-- A navigation property of one entity. -/
structure Relationship where
  sourceKey : Key
  source : Source
  target : EntitySet

namespace Relationship

def open? (ctx : Context) (set : EntitySet) (key : Key) (name : String) :
    Action Relationship := do
  let record ← set.readScoped key
  let target ← set.navigate ctx record name
  match target.source with
  | some source => pure ⟨key, source, target⟩
  | none => throw (.driver "navigation target lost its source")

def constraints (r : Relationship) : List ReferentialConstraint := r.source.navigation.constraints

def keyOnSource (r : Relationship) : Bool :=
  r.source.navigation.keyOnSource r.target.entityType

/-- Whether two values are there and equal. -/
def agree (a b : Option Value) : Bool :=
  match a, b with
  | some v, some w => v.compare w == some .eq
  | _, _ => false

/-- Whether a record is related to the source. -/
def relates (r : Relationship) (record : Record) : Bool :=
  r.constraints.all fun c => agree (r.source.record.get? c.property) (record.get? c.referenced)

/-- Whether a value may be cleared. -/
def isNullable (ty : EntityType) (name : Identifier) : Bool :=
  match ty.property? name.text with
  | some property => property.nullable
  | none => false

/-- Whether the foreign key may be cleared. -/
def isOptional (r : Relationship) : Bool :=
  if r.keyOnSource then r.constraints.all fun c => isNullable r.source.set.entityType c.property
  else r.constraints.all fun c => isNullable r.target.entityType c.referenced

/-- The foreign key that relates a record to the source, or nulls in its place. -/
def foreignKey (r : Relationship) (record : Record) (clear : Bool) : List (Identifier × Value) :=
  let value (from' : Record) (name : Identifier) : Value :=
    if clear then .null else from'.value name
  if r.keyOnSource then r.constraints.map fun c => (c.property, value record c.referenced)
  else r.constraints.map fun c => (c.referenced, value r.source.record c.property)

/-- The set and the key of the entity that keeps the foreign key. -/
def keeper (r : Relationship) (record : Record) : Result (EntitySetDef × Key) :=
  if r.keyOnSource then .ok (r.source.set, r.sourceKey)
  else do pure (r.target.definition, ← Key.ofRecord r.target.entityType record)

/-- Assigns or clears the foreign key. -/
def assign (r : Relationship) (record : Record) (clear : Bool) : Action Unit := do
  let (set, key) ← r.keeper record
  set.capabilities.require .link
  let _ ← set.assign key (r.foreignKey record clear)
  pure ()

end Relationship

namespace EntitySet

/-- Links an entity to the one that the request names. -/
def link (ctx : Context) (request : Request) (set : EntitySet) (key : Key) (navigation : String)
    (inlineKey : Option String) : Action Unit := do
  let r ← Relationship.open? ctx set key navigation
  match ← r.target.explicitTarget ctx request inlineKey with
  | none => throw (.bad "missing_reference"
      "no target entity given; supply $id or @odata.id")
  | some (targetKey, _) =>
    let record ← r.target.readRecord targetKey
    r.assign record false

/-- The record to unlink: the one that the request names, else the only related one. -/
def unlinkTarget (ctx : Context) (request : Request) (options : QueryOptions) (r : Relationship)
    (inlineKey : Option String) : Action (Option Record) := do
  match ← r.target.explicitTarget ctx request inlineKey with
  | some (key, _) => do pure (some (← r.target.readRecord key))
  | none =>
    if r.source.isCollection then
      throw (.bad "missing_reference" "unlinking from a collection requires $id")
    else
      let plan ← r.target.plan ctx options
      r.target.first ctx plan

def notRelated (set : EntitySet) (key : Key) (navigation : String) : Error :=
  .notFound "relationship_not_found"
    (set.name.text ++ key.toText ++ " is not related through '" ++ navigation ++ "'")

def required (navigation : String) : Error :=
  .bad "relationship_required"
    ("relationship '" ++ navigation ++ "' is required and cannot be removed")

/-- Unlinks an entity from another.  If they are not linked there is nothing to do, unless the
link is required. -/
def unlink (ctx : Context) (request : Request) (options : QueryOptions) (set : EntitySet)
    (key : Key) (navigation : String) (inlineKey : Option String) : Action Unit := do
  let r ← Relationship.open? ctx set key navigation
  match ← unlinkTarget ctx request options r inlineKey with
  | none => if r.isOptional then pure () else throw (set.notRelated key navigation)
  | some record =>
    match r.relates record, r.isOptional with
    | false, true => pure ()
    | false, false => throw (set.notRelated key navigation)
    | true, false => throw (required navigation)
    | true, true => r.assign record true

end EntitySet

end OData
