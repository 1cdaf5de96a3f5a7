import OData.Json.Basic
import OData.Schema.Model

/-!
# Metadata document

The description of a model that a service returns under `$metadata`.
-/

set_option autoImplicit false

namespace OData.Metadata

def version : String := "4.0"

def containerName : String := "Container"

def names (ids : List Identifier) : Json := .array (ids.map fun i => .str i.text)

def text? (name : String) : Option String → Json.Members
  | some text => [(name, .str text)]
  | none => []

def reference (r : Reference) : Json :=
  .object ([("uri", .str r.uri), ("namespace", .str r.space)] ++ text? "alias" r.alias?)

def property (p : Property) : Json :=
  .object [("name", .str p.name.text), ("type", .str p.type.name), ("nullable", .bool p.nullable)]

def constraint (c : ReferentialConstraint) : Json :=
  .object [("property", .str c.property.text), ("referenced_property", .str c.referenced.text)]

def navigation (model : Model) (n : NavigationProperty) : Json :=
  let target := model.qualified n.target.text
  .object ([("name", .str n.name.text),
      ("type", .str (if n.collection then "Collection(" ++ target ++ ")" else target))]
    ++ (if n.collection then [] else [("nullable", .bool n.nullable)])
    ++ text? "partner" (n.partner.map Identifier.text)
    ++ [("referential_constraints", .array (n.constraints.map constraint))])

def entityType (model : Model) (ty : EntityType) : Json :=
  .object [("name", .str ty.name.text), ("key", names ty.key),
    ("properties", .array (ty.properties.map property)),
    ("navigation_properties", .array (ty.navigationProperties.map (navigation model)))]

def binding (b : Identifier × Identifier) : Json :=
  .object [("path", .str b.1.text), ("target", .str b.2.text)]

def entitySet (model : Model) (set : EntitySetDef) : Json :=
  .object [("name", .str set.name.text),
    ("entity_type", .str (model.qualified set.entityType.name.text)),
    ("navigation_bindings", .array (set.bindings.map binding))]

def schema (model : Model) : Json :=
  .object ([("namespace", .str model.space)] ++ text? "alias" model.alias?
    ++ [("entity_types", .array (model.types.map (entityType model))),
      ("entity_container", .object [("name", .str containerName),
        ("entity_sets", .array (model.sets.map (entitySet model)))])])

def document (model : Model) : Json :=
  .object [("version", .str version), ("references", .array (model.references.map reference)),
    ("schemas", .array [schema model])]

end OData.Metadata
