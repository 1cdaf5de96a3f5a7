import OData.Config
import OData.Store.Basic
import OData.Transaction

/-!
# Entity sets of a request

A set as a request addresses it: all of its entities, or those that are related to an entity from
which a navigation property led to the set.  Two entities are related if for each constraint of
the navigation property the value of the source equals the value of the target.
-/

set_option autoImplicit false

namespace OData

/-- What the libraries do that a service calls, where their documentation leaves it open. -/
structure Libraries where
  sorting : Sorting
  /-- What is said to be wrong with a text that is no skip token. -/
  tokenFault : String → String

/-- Libraries that keep to what is documented. -/
def Libraries.standard : Libraries := ⟨Sorting.standard, fun _ => "invalid token"⟩

/-- What the requests of a service have in common. -/
structure Context where
  model : Model
  config : Config
  /-- The metadata document that the endpoint names, if it can be read. -/
  document : Option String
  libraries : Libraries

/-- The entity from which a navigation property led to a set. -/
structure Source where
  set : EntitySetDef
  navigation : NavigationProperty
  record : Record

structure EntitySet where
  definition : EntitySetDef
  source : Option Source

namespace Source

/-- Whether the navigation property leads to many entities. -/
def isCollection (source : Source) : Bool := source.navigation.collection

def unknownProperty (name : Identifier) (target : EntityType) : Error :=
  .configuration "unknown_constraint_property"
    ("'" ++ name.text ++ "' is not a property of '" ++ target.name.text ++ "'")

/-- The conditions on a related entity; none if a value of the source is null, which relates to
nothing. -/
def conditions (source : Source) (target : EntityType) :
    List ReferentialConstraint → Result (Option (List BoundExpr))
  | [] => .ok (some [])
  | c :: rest =>
    match target.property? c.referenced.text with
    | none => .error (unknownProperty c.referenced target)
    | some property =>
      let v := source.record.value c.property
      if v.isNull then .ok none
      else do
        let others ← conditions source target rest
        pure (others.map (.compare .eq (.property property.name property.type) (.literal v) :: ·))

/-- The condition that holds of the related entities. -/
def scope (source : Source) (target : EntityType) : Result BoundExpr := do
  let found ← conditions source target source.navigation.constraints
  match found.map BoundExpr.conjunction with
  | none => pure (.literal (.bool false))
  | some (some condition) => pure condition
  | some none => .error (.configuration "missing_referential_constraint"
      ("navigation property '" ++ source.navigation.name.text
        ++ "' has no referential constraints"))

end Source

namespace EntitySet

/-- All entities of a set. -/
def root (definition : EntitySetDef) : EntitySet := ⟨definition, none⟩

def entityType (set : EntitySet) : EntityType := set.definition.entityType

def name (set : EntitySet) : Identifier := set.definition.name

/-- Whether the set holds the one entity that a navigation property leads to. -/
def isSingle (set : EntitySet) : Bool :=
  match set.source with
  | some source => !source.isCollection
  | none => false

def require (set : EntitySet) (c : Capability) : Result Unit :=
  set.definition.capabilities.require c

/-- The plan of some options for the entities of the set. -/
def plan (ctx : Context) (set : EntitySet) (options : QueryOptions) : Result QueryPlan := do
  let plan ← QueryPlan.ofOptions ctx.model set.entityType options
  match set.source with
  | some source => do pure (plan.restrict (← source.scope set.entityType))
  | none => pure plan

def count (set : EntitySet) (plan : QueryPlan) : Action Nat := do
  set.require .count
  set.definition.count plan

/-- The record with a key, if there is one. -/
def read? (set : EntitySet) (key : Key) : Action (Option Record) := do
  set.require .read
  set.definition.read key

/-- The record with a key, related or not. -/
def readRecord (set : EntitySet) (key : Key) : Action Record := do
  match ← set.read? key with
  | some record => pure record
  | none => throw (Table.missing set.name.text key)

def unrelated (set : EntitySet) (source : Source) (key : Key) : Error :=
  .notFound "entity_not_found" (set.name.text ++ key.toText ++ " is not related through '"
    ++ source.navigation.name.text ++ "'")

/-- The record with a key, if it is related to the source. -/
def readScoped (set : EntitySet) (key : Key) : Action Record := do
  let record ← set.readRecord key
  match set.source with
  | none => pure record
  | some source =>
    let scope ← source.scope set.entityType
    if scope.holds record then pure record else throw (set.unrelated source key)

/-- The set that a navigation property of a record leads to. -/
def navigate (ctx : Context) (set : EntitySet) (record : Record) (name : String) :
    Result EntitySet :=
  match set.entityType.navigation? name with
  | none => .error (.bad "unknown_navigation_property"
      ("'" ++ name ++ "' is not a navigation property of '" ++ set.entityType.name.text ++ "'"))
  | some navigation => do
    let target ← ctx.model.bindingTarget set.definition navigation
    pure ⟨target, some ⟨set.definition, navigation, record⟩⟩

/-- How many records are fetched at a time. -/
def chunkSize (ctx : Context) (set : EntitySet) : Nat :=
  max 1 (set.definition.chunkSize.getD ctx.config.pagination.chunkSize)

end EntitySet

/-! ## Streams of records

The records that a plan selects, fetched in chunks.  A stream ends after a chunk that is not
full, or when no more records are wanted. -/

structure Stream where
  plan : QueryPlan
  /-- Where the next chunk begins. -/
  offset : Nat
  /-- How many records are still to be fetched, if that is limited. -/
  remaining : Option Nat
  buffer : List Record
  drained : Bool

namespace Stream

/-- The records from an offset on, at most `limit` of them. -/
def start (set : EntitySet) (plan : QueryPlan) (offset : Nat) (limit : Option Nat) :
    Result Stream := do
  set.require .query
  pure ⟨plan, offset, limit, [], false⟩

def wanted (chunk : Nat) (s : Stream) : Nat :=
  match s.remaining with
  | some n => min n chunk
  | none => chunk

/-- Fetches a chunk. -/
def pull (sorting : Sorting) (set : EntitySet) (chunk : Nat) (s : Stream) : Action Stream := do
  let take := s.wanted chunk
  if take = 0 then pure { s with drained := true }
  else
    let records ← set.definition.fetch sorting s.plan s.offset take
    pure
      { s with offset := s.offset + records.length, buffer := s.buffer ++ records,
               remaining := s.remaining.map (· - records.length),
               drained := s.drained || decide (records.length < take) }

/-- A stream that has a record in its buffer, unless it is at its end. -/
def fill (sorting : Sorting) (set : EntitySet) (chunk : Nat) (s : Stream) : Action Stream :=
  if s.buffer.isEmpty && !s.drained then s.pull sorting set chunk else pure s

/-- The next record and the stream after it. -/
def next (sorting : Sorting) (set : EntitySet) (chunk : Nat) (s : Stream) :
    Action (Option Record × Stream) := do
  let s ← s.fill sorting set chunk
  match s.buffer with
  | [] => pure (none, s)
  | record :: rest => pure (some record, { s with buffer := rest })

/-- The first `count` records that are left. -/
def takeRecords (sorting : Sorting) (set : EntitySet) (chunk : Nat) :
    Nat → Stream → Action (List Record)
  | 0, _ => pure []
  | count + 1, s => do
    match ← s.next sorting set chunk with
    | (none, _) => pure []
    | (some record, s) => do pure (record :: (← takeRecords sorting set chunk count s))

/-- All records that are left; there are no more of them than rows. -/
def records (sorting : Sorting) (set : EntitySet) (chunk : Nat) (s : Stream) :
    Action (List Record) := do
  let table ← set.definition.table
  s.takeRecords sorting set chunk (table.length + 1)

end Stream

namespace EntitySet

/-- The first record that a plan selects. -/
def first (ctx : Context) (set : EntitySet) (plan : QueryPlan) : Action (Option Record) := do
  let s ← Stream.start set plan 0 (some 1)
  let (record, _) ← s.next ctx.libraries.sorting set (set.chunkSize ctx)
  pure record

end EntitySet

end OData
