import OData.Json.Writer
import OData.Schema.Declaration
import OData.Text.Characters
import OData.Yaml.Reader
import OData.Yaml.Resolve

/-!
# Model files

A model file lists entity types and entity sets.  `ofText` checks its form, with no entries but
the ones that are known; `build` declares what it lists.  All keys are declared before the first
navigation property, so that types may refer to each other in any order.
-/

set_option autoImplicit false

namespace OData.ModelFile

structure PropertyEntry where
  name : String
  type : PrimitiveType
  nullable : Bool

structure ConstraintEntry where
  property : String
  referenced : String

structure NavigationEntry where
  name : String
  target : String
  collection : Bool
  expandable : Bool
  nullable : Bool
  partner : Option String
  constraints : List ConstraintEntry

structure TypeEntry where
  name : String
  key : List String
  properties : List PropertyEntry
  navigationProperties : List NavigationEntry

structure SetEntry where
  name : String
  entityType : String
  bindings : List (String × String)
  offered : CapabilitySet
  chunkSize : Option Nat

end ModelFile

structure ModelFile where
  space : String
  alias? : Option String
  references : List Reference
  types : List ModelFile.TypeEntry
  sets : List ModelFile.SetEntry

namespace ModelFile

/-! ## Form -/

open Yaml (Node)

/-- The entries of a mapping that has none but the known ones, and none of them twice. -/
def entriesOf (known : List String) : Node → Option Yaml.Entries
  | .mapping entries =>
    if Yaml.keysDistinct entries && entries.all (fun entry => known.contains entry.1) then
      some entries
    else none
  | _ => none

def get? (entries : Yaml.Entries) (name : String) : Option Node :=
  (entries.find? (·.1 == name)).map (·.2)

/-- The text of a scalar that is not without a value. -/
def text? (node : Node) : Option String :=
  match node with
  | .scalar _ text => if node.isNull then none else some text
  | _ => none

def required {α : Type} (read : Node → Option α) (entries : Yaml.Entries) (name : String) :
    Option α := do
  read (← get? entries name)

def optional {α : Type} (read : Node → Option α) (entries : Yaml.Entries) (name : String) :
    Option (Option α) :=
  match get? entries name with
  | none => some none
  | some node => if node.isNull then some none else (read node).map some

def trueWords : List String := ["true", "yes", "y", "on"]

def falseWords : List String := ["false", "no", "n", "off"]

/-- A truth value, quoted or not. -/
def flag? : Node → Option Bool
  | .scalar _ text =>
    let word := String.ofList ((Text.trim Text.isBlank text.toList).map Char.toLower)
    if trueWords.contains word then some true
    else if falseWords.contains word then some false
    else none
  | _ => none

def flag (entries : Yaml.Entries) (name : String) (standard : Bool) : Option Bool :=
  match get? entries name with
  | none => some standard
  | some node => flag? node

/-- The base that the start of a number names, and its digits. -/
def baseOf : List Char → Nat × List Char
  | '0' :: 'x' :: digits | '0' :: 'X' :: digits => (16, digits)
  | '0' :: 'o' :: digits | '0' :: 'O' :: digits => (8, digits)
  | '0' :: 'b' :: digits | '0' :: 'B' :: digits => (2, digits)
  | digits => (10, digits)

/-- A number below `2 ^ 64`, quoted or not, in which underscores do not count. -/
def number? : Node → Option Nat
  | .scalar _ text => do
    let cs := Text.trim Text.isBlank text.toList
    let (base, digits) := baseOf (if cs.head? = some '+' then cs.drop 1 else cs)
    let n ← Yaml.natural? base (digits.filter (· != '_'))
    if n < 2 ^ 64 then some n else none
  | _ => none

/-- The items of a sequence; no value is an empty one. -/
def list? {α : Type} (entry : Node → Option α) (node : Node) : Option (List α) :=
  match node with
  | .sequence items => items.mapM entry
  | _ => if node.isNull then some [] else none

def optionalList {α : Type} (entry : Node → Option α) (entries : Yaml.Entries) (name : String) :
    Option (List α) :=
  match get? entries name with
  | none => some []
  | some node => list? entry node

/-- A word out of a choice: a scalar, or the key of a mapping with no other entry and no value. -/
def word? : Node → Option String
  | .scalar _ text => some text
  | .mapping [(key, value)] => if value.isNull then some key else none
  | _ => none

def reference (node : Node) : Option Reference := do
  let entries ← entriesOf Reference.fields node
  some ⟨← required text? entries "uri", ← required text? entries "namespace",
    ← optional text? entries "alias"⟩

def propertyEntry (node : Node) : Option PropertyEntry := do
  let entries ← entriesOf ["name", "type", "nullable"] node
  some ⟨← required text? entries "name",
    ← PrimitiveType.ofName? (← required word? entries "type"), ← flag entries "nullable" true⟩

def constraintEntry (node : Node) : Option ConstraintEntry := do
  let entries ← entriesOf ["property", "referenced_property"] node
  some ⟨← required text? entries "property", ← required text? entries "referenced_property"⟩

def navigationEntry (node : Node) : Option NavigationEntry := do
  let entries ← entriesOf
    ["name", "target", "collection", "expandable", "nullable", "partner", "constraints"] node
  some
    { name := ← required text? entries "name", target := ← required text? entries "target",
      collection := ← flag entries "collection" false,
      expandable := ← flag entries "expandable" true,
      nullable := ← flag entries "nullable" true, partner := ← optional text? entries "partner",
      constraints := ← optionalList constraintEntry entries "constraints" }

def typeEntry (node : Node) : Option TypeEntry := do
  let entries ← entriesOf ["name", "key", "properties", "navigation_properties"] node
  some
    { name := ← required text? entries "name", key := ← required (list? text?) entries "key",
      properties := ← required (list? propertyEntry) entries "properties",
      navigationProperties := ← optionalList navigationEntry entries "navigation_properties" }

/-- The bindings in the order of their names. -/
def bindings (entries : Yaml.Entries) : Option (List (String × String)) :=
  match get? entries "bindings" with
  | none => some []
  | some (.mapping pairs) => do
    let pairs ← pairs.mapM fun pair => (text? pair.2).map (pair.1, ·)
    if (pairs.map (·.1)).Nodup then
      some (pairs.foldl (fun acc pair => insertNamed (·.1) pair acc) [])
    else none
  | some node => if node.isNull then some [] else none

def strategy? : String → Option CapabilitySet
  | "memory" => some CapabilitySet.all
  | "memory_read_only" => some CapabilitySet.readOnly
  | _ => none

def offered (entries : Yaml.Entries) : Option CapabilitySet :=
  match get? entries "driver" with
  | none => some CapabilitySet.all
  | some node => do strategy? (← word? node)

def setEntry (node : Node) : Option SetEntry := do
  let entries ← entriesOf ["name", "entity_type", "bindings", "driver", "chunk_size"] node
  some
    { name := ← required text? entries "name", entityType := ← required text? entries "entity_type",
      bindings := ← bindings entries, offered := ← offered entries,
      chunkSize := ← optional number? entries "chunk_size" }

def ofNode? (node : Node) : Option ModelFile := do
  let entries ← entriesOf ["namespace", "alias", "references", "entity_types", "entity_sets"] node
  some
    { space := ← required text? entries "namespace", alias? := ← optional text? entries "alias",
      references := ← optionalList reference entries "references",
      types := ← required (list? typeEntry) entries "entity_types",
      sets := ← required (list? setEntry) entries "entity_sets" }

def ofText (text : String) : Result ModelFile :=
  match (Yaml.ofText? .v1_2 text).bind ofNode? with
  | some file => .ok file
  | none => .error (.configuration "invalid_model" "invalid model file")

/-- JSON is read as the document that it is. -/
def ofJson (json : Json) : Result ModelFile := ofText json.compact

/-! ## Declarations -/

def addProperties (ty : EntityType) : List PropertyEntry → Result EntityType
  | [] => .ok ty
  | entry :: rest => do
    let name ← Identifier.ofText entry.name
    addProperties (← ty.addProperty ⟨name, entry.type, entry.nullable⟩) rest

/-- An entity type with its properties and its key. -/
def TypeEntry.base (entry : TypeEntry) : Result EntityType := do
  let ty ← addProperties (EntityType.empty (← Identifier.ofText entry.name)) entry.properties
  ty.withKey (← entry.key.mapM Identifier.ofText)

def declareConstraint (entry : ConstraintEntry) : Result ReferentialConstraint := do
  let property ← Identifier.ofText entry.property
  pure ⟨property, ← Identifier.ofText entry.referenced⟩

def declarePartner : Option String → Result (Option Identifier)
  | some name => do pure (some (← Identifier.ofText name))
  | none => .ok none

/-- A type that was declared last under a name. -/
def lastNamed? (types : List EntityType) (name : String) : Option EntityType :=
  types.reverse.find? (·.name.text == name)

def NavigationEntry.declare (entry : NavigationEntry) (owner : String)
    (bases : List EntityType) : Result NavigationProperty :=
  match lastNamed? bases entry.target with
  | none => .error (.configuration "unknown_entity_type"
      ("navigation property '" ++ owner ++ "." ++ entry.name ++ "' targets unregistered type '"
        ++ entry.target ++ "'"))
  | some target => do
    let navigation ← NavigationProperty.to (← Identifier.ofText entry.name) target
    let partner ← declarePartner entry.partner
    let constraints ← entry.constraints.mapM declareConstraint
    pure { navigation with
      collection := entry.collection, expandable := entry.expandable, nullable := entry.nullable,
      partner, constraints }

def addNavigations (owner : String) (bases : List EntityType) (ty : EntityType) :
    List NavigationEntry → Result EntityType
  | [] => .ok ty
  | entry :: rest => do
    let navigation ← entry.declare owner bases
    addNavigations owner bases (← ty.addNavigation navigation) rest

/-- The base of a type's name with the navigation properties of the entry. -/
def TypeEntry.declare (entry : TypeEntry) (bases : List EntityType) : Result EntityType :=
  match lastNamed? bases entry.name with
  | some base => addNavigations entry.name bases base entry.navigationProperties
  | none => entry.base

def SetEntry.declare (entry : SetEntry) (types : List EntityType) :
    Result EntitySetDeclaration :=
  if (lastNamed? types entry.entityType).isSome then .ok
    { name := entry.name, entityType := entry.entityType, bindings := entry.bindings,
      backing := .table entry.offered, chunkSize := entry.chunkSize, mask := none }
  else .error (.configuration "unknown_entity_type"
    ("entity set '" ++ entry.name ++ "' uses unregistered type '" ++ entry.entityType ++ "'"))

def declare (file : ModelFile) : Result ModelDeclaration := do
  let bases ← file.types.mapM TypeEntry.base
  let types ← file.types.mapM fun entry => entry.declare bases
  let sets ← file.sets.mapM fun entry => entry.declare types
  pure { space := file.space, alias? := file.alias?, references := file.references, types, sets }

def build (file : ModelFile) : Result Model := do (← file.declare).build

end ModelFile

end OData
