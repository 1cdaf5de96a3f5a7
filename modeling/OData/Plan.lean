import OData.Bound.Binder
import OData.Bound.Evaluate
import OData.Digest.Sha256
import OData.Schema.Model
import OData.Sorting

/-!
# Query plans

A plan is a bound filter, an order and a projection.  The order always ends with the properties
of the key, so that no two entities are equal in it.  `fingerprint` tells plans of different
filter or order apart.
-/

set_option autoImplicit false

namespace OData

structure OrderKey where
  property : Identifier
  type : PrimitiveType
  direction : Direction
  deriving DecidableEq

def OrderKey.compare (key : OrderKey) (a b : Record) : Ordering :=
  match key.direction with
  | .ascending => (a.value key.property).sortCompare (b.value key.property)
  | .descending => (b.value key.property).sortCompare (a.value key.property)

structure QueryPlan where
  filter : Option BoundExpr
  order : List OrderKey
  select : Option (List Identifier)

namespace QueryPlan

/-- Adds an order key unless its property is there already. -/
def addOrderKey (order : List OrderKey) (property : Property) (direction : Direction) :
    List OrderKey :=
  if order.any (·.property == property.name) then order
  else order ++ [⟨property.name, property.type, direction⟩]

def bindOrderItems (ty : EntityType) : List OrderKey → List OrderItem → Result (List OrderKey)
  | order, [] => .ok order
  | order, item :: rest => do
    let property ← ty.resolve item.path
    bindOrderItems ty (addOrderKey order property item.direction) rest

def bindOrder (ty : EntityType) (items : List OrderItem) : Result (List OrderKey) := do
  let order ← bindOrderItems ty [] items
  pure (ty.keyProperties.foldl (fun acc property => addOrderKey acc property .ascending) order)

def bindSelectPaths (ty : EntityType) :
    List Identifier → List PropertyPath → Result (List Identifier)
  | selected, [] => .ok selected
  | selected, path :: rest => do
    let property ← ty.resolve path
    bindSelectPaths ty
      (if selected.contains property.name then selected else selected ++ [property.name]) rest

/-- The selected properties, the key among them. -/
def bindSelect (ty : EntityType) : Option Select → Result (Option (List Identifier))
  | some (.properties paths) => do pure (some (← bindSelectPaths ty ty.key paths))
  | _ => .ok none

mutual

/-- Checks the options of an expansion against its target type. -/
def checkOptions (model : Model) (ty : EntityType) : QueryOptions → Result Unit
  | ⟨filter, orderBy, select, expand, _, _, _, _⟩ => do
    match filter with
    | some e => let _ ← BoundExpr.bindFilter ty e
    | none => pure ()
    let _ ← bindOrder ty orderBy
    let _ ← bindSelect ty select
    checkExpansions model ty expand

/-- Checks that navigation properties are there and may be expanded. -/
def checkExpansions (model : Model) (ty : EntityType) : List Expansion → Result Unit
  | [] => .ok ()
  | (name, options) :: rest => do
    match ty.navigation? name with
    | none => .error (.bad "unknown_navigation_property"
        ("'" ++ name ++ "' is not a navigation property of '" ++ ty.name.text ++ "'"))
    | some navigation =>
      if !navigation.expandable then
        .error (.bad "navigation_not_expandable"
          ("navigation property '" ++ navigation.name.text ++ "' cannot be expanded"))
      else match model.entityType? navigation.target.text with
        | none => .error (.configuration "unknown_entity_type"
            ("entity type '" ++ navigation.target.text ++ "' is not registered"))
        | some target =>
          checkOptions model target options
          checkExpansions model ty rest

end

def bindFilter? (ty : EntityType) : Option Expr → Result (Option BoundExpr)
  | some e => do pure (some (← BoundExpr.bindFilter ty e))
  | none => .ok none

/-- Binds the filter, the order, the projection and the expansions of some options. -/
def ofOptions (model : Model) (ty : EntityType) (o : QueryOptions) : Result QueryPlan := do
  let filter ← bindFilter? ty o.filter
  let order ← bindOrder ty o.orderBy
  let select ← bindSelect ty o.select
  checkExpansions model ty o.expand
  pure { filter, order, select }

/-- Whether a record satisfies the filter. -/
def admits (plan : QueryPlan) (record : Record) : Bool :=
  match plan.filter with
  | some filter => filter.holds record
  | none => true

def compareBy : List OrderKey → Record → Record → Ordering
  | [], _, _ => .eq
  | key :: rest, a, b => (key.compare a b).then (compareBy rest a b)

def compare (plan : QueryPlan) (a b : Record) : Ordering := compareBy plan.order a b

/-- Adds a condition to the filter. -/
def restrict (plan : QueryPlan) (scope : BoundExpr) : QueryPlan :=
  { plan with filter := BoundExpr.conjunction (plan.filter.toList ++ [scope]) }

/-- The records that the filter admits. -/
def matching (plan : QueryPlan) (records : List Record) : List Record := records.filter plan.admits

/-- The order is total on the records that the filter admits. -/
def Orders (plan : QueryPlan) (records : List Record) : Prop :=
  IsTotalOn plan.compare (plan.matching records)

/-- The records that the filter admits in an order that is total on them. -/
def arrange (plan : QueryPlan) (records : List Record) : List Record :=
  sortBy plan.compare (plan.matching records)

/-- The records that a plan selects, as they are sorted; none if the sort stops the program. -/
def run (plan : QueryPlan) (sorting : Sorting) (records : List Record) : Option (List Record) :=
  sorting.sort plan.compare (plan.matching records)

def unsortable : Error :=
  .fault "user-provided comparison function does not correctly implement a total order"

def directionSign : Direction → String
  | .ascending => "+"
  | .descending => "-"

/-- What is told apart by the fingerprint. -/
def fingerprintText (plan : QueryPlan) : String :=
  (plan.filter.map BoundExpr.toText).getD "" ++ "|"
    ++ String.join (plan.order.map fun key => directionSign key.direction ++ key.property.text
      ++ ",")

def fingerprint (plan : QueryPlan) : String :=
  String.ofList ((Digest.Sha256.hex plan.fingerprintText).toList.take 16)

end QueryPlan

end OData
