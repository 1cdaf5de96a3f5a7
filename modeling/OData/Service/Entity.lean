import OData.Service.Reference
import OData.Service.EntitySet

/-!
# Entities

The entity of a record has the values of the properties that are selected and the related
entities of the expansions.  Related entities of a collection are only found when the entity is
rendered.
-/

set_option autoImplicit false

namespace OData

/-- What a navigation property leads to. -/
inductive Related (α : Type) where
  | one (entity : Option α)
  | many (set : EntitySet)

structure Entity where
  set : Identifier
  key : Key
  values : List (Identifier × Value)
  /-- What each expansion leads to, in the order of the expansions. -/
  expansions : List (Identifier × Related Entity)

namespace Entity

/-- The name by which other entities refer to an entity. -/
def id (e : Entity) : String := e.set.text ++ e.key.toText

end Entity

namespace EntitySet

def isSelected (select : Option (List Identifier)) (property : Property) : Bool :=
  match select with
  | some names => names.contains property.name
  | none => true

/-- The values of the selected properties in the order of their declaration. -/
def selectedValues (set : EntitySet) (select : Option (List Identifier)) (record : Record) :
    List (Identifier × Value) :=
  (set.entityType.properties.filter (isSelected select)).map fun property =>
    (property.name, record.value property.name)

/-- How the entity of a record is made, given the names that are selected. -/
abbrev Maker := Option (List Identifier) → Record → Action Entity

/-- The first entity of a set. -/
def firstEntity (ctx : Context) (set : EntitySet) (options : QueryOptions) (make : Maker) :
    Action (Option Entity) := do
  let plan ← set.plan ctx options
  match ← set.first ctx plan with
  | some record => do pure (some (← make plan.select record))
  | none => pure none

/-- What a set holds when no target is named, or the named one is missing. -/
def resolveScoped (ctx : Context) (target : EntitySet) (options : QueryOptions) (make : Maker) :
    Action (Related Entity) := do
  match target.source with
  | some source =>
    if source.isCollection then pure (.many target)
    else do pure (.one (← target.firstEntity ctx options make))
  | none => do pure (.one (← target.firstEntity ctx options make))

/-- What a navigation property leads to: the target that the request names, else all related
entities or the only one. -/
def resolve (ctx : Context) (request : Request) (target : EntitySet) (inlineKey : Option String)
    (options : QueryOptions) (make : Maker) : Action (Related Entity) := do
  match ← target.explicitTarget ctx request inlineKey with
  | none => target.resolveScoped ctx options make
  | some (key, _) =>
    match ← target.read? key with
    | none => target.resolveScoped ctx options make
    | some record =>
      let plan ← target.plan ctx options
      pure (.one (some (← make plan.select record)))

def notExpandable (name : Identifier) : Error :=
  .bad "navigation_not_expandable"
    ("navigation property '" ++ name.text ++ "' cannot be expanded")

/-- The name of the navigation property that led to a set, if it may be expanded. -/
def expandedName (target : EntitySet) : Result Identifier :=
  match target.source with
  | some source =>
    if source.navigation.expandable then .ok source.navigation.name
    else .error (notExpandable source.navigation.name)
  | none => .error (.driver "navigation target lost its source")

mutual

/-- The entity of a record, `depth` expansions below the request. -/
def materialize (ctx : Context) (request : Request) (depth : Nat) (set : EntitySet) :
    QueryOptions → Maker
  | ⟨_, _, _, expand, _, _, _, _⟩, select, record => do
    let key ← Key.ofRecord set.entityType record
    let expansions ← expandAll ctx request (depth + 1) set record expand
    pure ⟨set.name, key, set.selectedValues select record, expansions⟩

/-- What each expansion of a record leads to. -/
def expandAll (ctx : Context) (request : Request) (depth : Nat) (set : EntitySet)
    (record : Record) : List Expansion → Action (List (Identifier × Related Entity))
  | [] => pure []
  | (name, options) :: rest => do
    ctx.config.limits.checkExpandDepth depth
    let target ← set.navigate ctx record name
    let property ← target.expandedName
    let related ← target.resolve ctx request none options fun select record =>
      materialize ctx request depth target options select record
    pure ((property, related) :: (← expandAll ctx request depth set record rest))

end

end EntitySet

end OData
