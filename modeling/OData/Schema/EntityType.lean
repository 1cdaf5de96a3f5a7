import OData.Identifier
import OData.PrimitiveType

/-!
# Entity types

An entity type has properties, a key of some of them, and navigation properties to related
entities.  Its names are declared once; `addProperty`, `markKey` and `addNavigation` declare them.
-/

set_option autoImplicit false

namespace OData

structure Property where
  name : Identifier
  type : PrimitiveType
  nullable : Bool
  deriving DecidableEq

/-- Related entities agree in `property` of the source and `referenced` of the target. -/
structure ReferentialConstraint where
  property : Identifier
  referenced : Identifier
  deriving DecidableEq

structure NavigationProperty where
  name : Identifier
  target : Identifier
  collection : Bool
  expandable : Bool
  nullable : Bool
  partner : Option Identifier
  constraints : List ReferentialConstraint
  deriving DecidableEq

structure EntityType where
  name : Identifier
  properties : List Property
  key : List Identifier
  navigationProperties : List NavigationProperty
  deriving DecidableEq

namespace EntityType

def empty (name : Identifier) : EntityType := ⟨name, [], [], []⟩

def property? (ty : EntityType) (name : String) : Option Property :=
  ty.properties.find? (·.name.text == name)

def navigation? (ty : EntityType) (name : String) : Option NavigationProperty :=
  ty.navigationProperties.find? (·.name.text == name)

def isKey (ty : EntityType) (name : Identifier) : Bool := ty.key.contains name

/-- The properties of the key, in its order. -/
def keyProperties (ty : EntityType) : List Property :=
  ty.key.filterMap fun name => ty.property? name.text

def requireUndeclared (ty : EntityType) (name : Identifier) : Result Unit :=
  if (ty.property? name.text).isSome || (ty.navigation? name.text).isSome then
    .error (.configuration "duplicate_property"
      ("'" ++ name.text ++ "' is declared twice on '" ++ ty.name.text ++ "'"))
  else .ok ()

def addProperty (ty : EntityType) (property : Property) : Result EntityType := do
  ty.requireUndeclared property.name
  pure { ty with properties := ty.properties ++ [property] }

def addNavigation (ty : EntityType) (navigation : NavigationProperty) : Result EntityType := do
  ty.requireUndeclared navigation.name
  pure { ty with navigationProperties := ty.navigationProperties ++ [navigation] }

/-- Makes the first property of a name required. -/
def requireProperty (name : Identifier) : List Property → List Property
  | [] => []
  | property :: rest =>
    if property.name = name then { property with nullable := false } :: rest
    else property :: requireProperty name rest

/-- Makes properties required one after the other, up to a name that is not declared. -/
def requireProperties (ty : EntityType) : List Identifier → EntityType × Result Unit
  | [] => (ty, .ok ())
  | name :: rest =>
    if (ty.property? name.text).isSome then
      requireProperties { ty with properties := requireProperty name ty.properties } rest
    else (ty, .error (.configuration "unknown_key_property"
      ("key property '" ++ name.text ++ "' is not declared on '" ++ ty.name.text ++ "'")))

/-- Chooses the key, whose properties become required.  If it fails the key stays as it was, but
the properties named before the failing one are required all the same. -/
def markKey (ty : EntityType) (names : List Identifier) : EntityType × Result Unit :=
  if names.isEmpty then
    (ty, .error (.configuration "empty_key"
      ("entity type '" ++ ty.name.text ++ "' declares an empty key")))
  else match requireProperties ty names with
    | (marked, .ok ()) => ({ marked with key := names }, .ok ())
    | failed => failed

def withKey (ty : EntityType) (names : List Identifier) : Result EntityType :=
  match ty.markKey names with
  | (marked, .ok ()) => .ok marked
  | (_, .error e) => .error e

end EntityType

/-- A navigation property to a type that has a key. -/
def NavigationProperty.to (name : Identifier) (target : EntityType) : Result NavigationProperty :=
  if target.key.isEmpty then
    .error (.configuration "missing_entity_type_key"
      ("navigation property '" ++ name.text ++ "' targets entity type '" ++ target.name.text
        ++ "' which has no key"))
  else .ok
    { name, target := target.name, collection := false, expandable := true, nullable := true,
      partner := none, constraints := [] }

end OData
