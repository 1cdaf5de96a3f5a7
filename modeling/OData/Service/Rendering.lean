import OData.Service.Pager
import OData.Value.Json

/-!
# Rendering entities

An entity is an object of its values and expansions.  An expanded collection is shown as its
first page, with a link to the next one if there are more.
-/

set_option autoImplicit false

namespace OData

namespace EntitySet

/-- The address of an expanded collection after its first page: the navigation property of its
source, with the options of the expansion. -/
def nextLink (ctx : Context) (set : EntitySet) (options : QueryOptions) (token : String) :
    Result (Option String) :=
  match set.source with
  | none => .ok none
  | some source => do
    let key ← Key.ofRecord source.set.entityType source.record
    let query := Text.Form.encodePairs (options.toPairs ++ [(Request.skipTokenName, token)])
    pure (some (ctx.config.endpoint.url ++ "/" ++ source.set.name.text ++ key.toText ++ "/"
      ++ source.navigation.name.text ++ "?" ++ query))

end EntitySet

namespace Entity

open Json (Members)

def valueMembers (values : List (Identifier × Value)) : Members :=
  Members.ofList (values.map fun (name, v) => (name.text, v.toJson))

def insertIf (name : String) (value : Option Json) (members : Members) : Members :=
  match value with
  | some json => members.insert name json
  | none => members

/-- The members of an expanded collection: its count, the link to the next page, its items. -/
def collectionMembers (name : String) (page : Page) (items : List Json) (link : Option String)
    (members : Members) : Members :=
  (insertIf (name ++ "@odata.nextLink") (link.map Json.str)
    (insertIf (name ++ "@odata.count") (page.count.map fun n => Json.int n) members)).insert name
      (.array items)

/-- The link to the next page of an expanded collection, if there is one. -/
def pageLink (ctx : Context) (set : EntitySet) (options : QueryOptions) (page : Page) :
    Result (Option String) :=
  match page.skipToken with
  | some token => set.nextLink ctx options token
  | none => .ok none

mutual

/-- The object of an entity that was materialized with the same options. -/
def toJson (ctx : Context) (request : Request) (depth : Nat) : QueryOptions → Entity → Action Json
  | ⟨_, _, _, expand, _, _, _, _⟩, entity => do
    let members ← expandedMembers ctx request (depth + 1) expand entity.expansions
      (valueMembers entity.values)
    pure (.object members)

/-- Adds the members of each expansion. -/
def expandedMembers (ctx : Context) (request : Request) (depth : Nat) :
    List Expansion → List (Identifier × Related Entity) → Members → Action Members
  | (_, options) :: items, (name, related) :: rest, members => do
    let members ← match related with
      | .one none => pure (members.insert name.text .null)
      | .one (some entity) => do
        let json ← toJson ctx request depth options entity
        pure (members.insert name.text json)
      | .many set => do
        let page ← Pager.firstPage ctx set options
          (set.materialize ctx request depth options)
        let shown ← page.entities.mapM fun entity => toJson ctx request depth options entity
        let link ← pageLink ctx set options page
        pure (collectionMembers name.text page shown link members)
    expandedMembers ctx request depth items rest members
  | _, _, members => pure members

end

end Entity

end OData
