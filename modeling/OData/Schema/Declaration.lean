import OData.Schema.Model

/-!
# Declaring models

`ModelDeclaration.build` checks the declarations of a model one after the other and fails at the
first that breaks a rule.  Navigation properties are checked when all types are known.
-/

set_option autoImplicit false

namespace OData

structure EntitySetDeclaration where
  name : String
  entityType : String
  bindings : List (String × String)
  backing : Backing
  chunkSize : Option Nat
  /-- Operations that the set may offer at most. -/
  mask : Option CapabilitySet

structure ModelDeclaration where
  space : String
  alias? : Option String
  references : List Reference
  types : List EntityType
  sets : List EntitySetDeclaration

namespace ModelDeclaration

private def fail {α : Type} (code message : String) : Result α :=
  .error (.configuration code message)

/-- Adds types in the order of their names; each has a key and a name of its own. -/
def addTypes : List EntityType → List EntityType → Result (List EntityType)
  | added, [] => .ok added
  | added, ty :: rest =>
    if ty.key.isEmpty then
      fail "missing_entity_type_key"
        ("entity type '" ++ ty.name.text ++ "' declares no key")
    else if added.any (·.name == ty.name) then
      fail "duplicate_entity_type"
        ("entity type '" ++ ty.name.text ++ "' is registered twice")
    else addTypes (insertNamed (·.name.text) ty added) rest

/-- Whether a constraint joins properties of one type, or two integers. -/
def joins (source target : EntityType) (c : ReferentialConstraint) : Bool :=
  match source.property? c.property.text, target.property? c.referenced.text with
  | some p, some q => p.type == q.type || (p.type.isIntegral && q.type.isIntegral)
  | _, _ => false

def checkPartner (ty target : EntityType) (navigation : NavigationProperty) : Result Unit :=
  match navigation.partner with
  | none => .ok ()
  | some partner =>
    match target.navigation? partner.text with
    | some back =>
      if back.target = ty.name then .ok () else invalid partner
    | none => invalid partner
where
  invalid (partner : Identifier) : Result Unit :=
    fail "invalid_partner"
      ("partner '" ++ partner.text ++ "' of '" ++ ty.name.text ++ "." ++ navigation.name.text
        ++ "' is not a navigation property of '" ++ target.name.text ++ "' back to '"
        ++ ty.name.text ++ "'")

def checkConstraints (ty target : EntityType) (navigation : NavigationProperty) :
    List ReferentialConstraint → Result Unit
  | [] => .ok ()
  | c :: rest =>
    if joins ty target c then checkConstraints ty target navigation rest
    else fail "invalid_referential_constraint"
      ("constraint " ++ ty.name.text ++ "." ++ c.property.text ++ " -> " ++ target.name.text
        ++ "." ++ c.referenced.text ++ " on '" ++ navigation.name.text
        ++ "' does not join properties of one type")

def checkNavigation (types : List EntityType) (ty : EntityType)
    (navigation : NavigationProperty) : Result Unit :=
  match types.find? (·.name == navigation.target) with
  | none => fail "unknown_entity_type"
      ("navigation property '" ++ ty.name.text ++ "." ++ navigation.name.text
        ++ "' targets unregistered type '" ++ navigation.target.text ++ "'")
  | some target => do
    checkPartner ty target navigation
    checkConstraints ty target navigation navigation.constraints

def checkType (types : List EntityType) (ty : EntityType) : Result Unit :=
  ty.navigationProperties.forM (checkNavigation types ty)

/-- The entity type that the last declaration of a set's name gives it. -/
def declaredType? (sets : List EntitySetDeclaration) (name : String) : Option String :=
  (sets.reverse.find? (·.name == name)).map (·.entityType)

/-- Binds navigation properties of a type to sets of their target types. -/
def addBindings (sets : List EntitySetDeclaration) (name : Identifier) (ty : EntityType) :
    List (Identifier × Identifier) → List (String × String) →
      Result (List (Identifier × Identifier))
  | added, [] => .ok added
  | added, (navigation, target) :: rest =>
    match ty.navigation? navigation with
    | none => fail "unknown_navigation_property"
        ("'" ++ navigation ++ "' is not a navigation property of '" ++ ty.name.text ++ "'")
    | some property =>
      match declaredType? sets target with
      | none => fail "unknown_entity_set"
          ("binding target '" ++ target ++ "' of '" ++ name.text ++ "' is not registered")
      | some targetType =>
        if property.target.text = targetType then do
          let bound ← Identifier.ofText target
          addBindings sets name ty (insertNamed (·.1.text) (property.name, bound) added) rest
        else fail "invalid_navigation_binding"
          ("'" ++ name.text ++ "/" ++ navigation ++ "' targets '" ++ property.target.text
            ++ "' but '" ++ target ++ "' holds '" ++ targetType ++ "'")

/-- Every set can be read and queried. -/
def checkCapabilities (name : Identifier) (capabilities : CapabilitySet) :
    List Capability → Result Unit
  | [] => .ok ()
  | c :: rest =>
    if capabilities.contains c then checkCapabilities name capabilities rest
    else fail "missing_capability"
      ("driver of '" ++ name.text ++ "' does not support " ++ c.name)

def buildSet (types : List EntityType) (sets : List EntitySetDeclaration)
    (declaration : EntitySetDeclaration) : Result EntitySetDef := do
  let name ← Identifier.ofText declaration.name
  match types.find? (·.name.text == declaration.entityType) with
  | none =>
    fail "unknown_entity_type"
      ("entity set '" ++ name.text ++ "' uses unregistered type '" ++ declaration.entityType
        ++ "'")
  | some entityType =>
    let bindings ← addBindings sets name entityType [] declaration.bindings
    let offered := declaration.backing.offered
    let capabilities := match declaration.mask with
      | some mask => offered.inter mask
      | none => offered
    checkCapabilities name capabilities [.read, .query]
    pure { name, entityType, bindings, backing := declaration.backing, capabilities,
           chunkSize := declaration.chunkSize }

/-- Adds sets in the order of their names; each has a name of its own. -/
def addSets (types : List EntityType) (all : List EntitySetDeclaration) :
    List EntitySetDef → List EntitySetDeclaration → Result (List EntitySetDef)
  | added, [] => .ok added
  | added, declaration :: rest => do
    let set ← buildSet types all declaration
    if added.any (·.name == set.name) then
      fail "duplicate_entity_set"
        ("entity set '" ++ set.name.text ++ "' is registered twice")
    else addSets types all (insertNamed (·.name.text) set added) rest

def checkNamespace (space : String) : Result Unit :=
  if QualifiedName.isNamespace space then .ok ()
  else fail "invalid_namespace" ("'" ++ space ++ "' is not a valid namespace")

def checkAlias : Option String → Result Unit
  | some name => do let _ ← Identifier.ofText name
  | none => .ok ()

def build (declaration : ModelDeclaration) : Result Model := do
  checkNamespace declaration.space
  checkAlias declaration.alias?
  let types ← addTypes [] declaration.types
  types.forM (checkType types)
  let sets ← addSets types declaration.sets [] declaration.sets
  pure { space := declaration.space, alias? := declaration.alias?,
         references := declaration.references, types, sets }

end ModelDeclaration

end OData
