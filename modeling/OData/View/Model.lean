import OData.Schema.Metadata
import OData.View.Tree

/-!
# Views of models

A model with what its metadata does not tell: what the sets offer, and where their navigation
properties lead.
-/

set_option autoImplicit false

namespace OData

def CapabilitySet.view (s : CapabilitySet) : Json := Json.texts (s.toList.map Capability.name)

namespace Model

/-- Where the navigation properties of a set lead, in their order. -/
def targets (model : Model) (set : EntitySetDef) : List (Identifier × Result EntitySetDef) :=
  set.entityType.navigationProperties.map fun n => (n.name, model.bindingTarget set n)

def targetView (error : Error → Json) : Identifier × Result EntitySetDef → Json
  | (name, .ok target) => Json.texts [name.text, target.name.text]
  | (name, .error e) => .array [.str name.text, error e]

def setView (error : Error → Json) (model : Model) (set : EntitySetDef) : Json :=
  .object [("name", .str set.name.text), ("capabilities", set.capabilities.view),
    ("chunk_size", Json.orNull (fun n : Nat => .int n) set.chunkSize),
    ("targets", .array ((model.targets set).map (targetView error)))]

/-- A view of a model, in which `error` shows why a navigation property leads nowhere. -/
def view (error : Error → Json) (model : Model) : Json :=
  .object [("metadata", Metadata.document model),
    ("sets", .array (model.sets.map (setView error model))),
    ("references", Json.texts (model.references.map Reference.toText)),
    ("qualified", .str (model.qualified "X"))]

end Model

end OData
