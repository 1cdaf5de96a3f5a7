import OData.Problem
import OData.ResourcePath
import OData.Schema.Metadata
import OData.Service.Linking
import OData.Service.Rendering

/-!
# Services

A service answers requests for the model, the entities and the links between them.  The path of a
request is walked segment by segment; the query options apply to the set that is reached.
-/

set_option autoImplicit false

namespace OData

inductive Body where
  | json (document : Json)
  | text (text : String)
  | empty

structure Response where
  status : Nat
  body : Body

def Response.ok (json : Json) : Response := ⟨200, .json json⟩

def Response.noContent : Response := ⟨204, .empty⟩

/-- The entity from which a set was reached. -/
structure Parent where
  set : EntitySet
  key : Key
  navigation : String

/-- Where a path leads: a set, and the text of a key after its name. -/
structure Place where
  set : EntitySet
  key : Option String
  parent : Option Parent

namespace Service

def methodNotAllowed (t : Transaction) : Error :=
  .bad "method_not_allowed" (t.request.method.name ++ " is not allowed on " ++ t.request.path)

def requireGet (t : Transaction) : Result Unit :=
  if t.request.method = .get then .ok () else .error (methodNotAllowed t)

/-! ## Paths -/

def keyRequired (set : EntitySet) : Error :=
  .bad "key_required"
    ("a key is required to address a single entity of '" ++ set.name.text ++ "'")

def noRelated (set : EntitySet) : Error :=
  .notFound "entity_not_found" ("no related entity in '" ++ set.name.text ++ "'")

/-- The key of the entity at a place: the one in the path, or that of the only related entity. -/
def keyOf (ctx : Context) (t : Transaction) (set : EntitySet) (text : Option String) :
    Action Key := do
  match text with
  | some text => Key.parse set.entityType text
  | none =>
    if set.isSingle then
      let plan ← set.plan ctx t.options
      match ← set.first ctx plan with
      | some record => Key.ofRecord set.entityType record
      | none => throw (noRelated set)
    else throw (keyRequired set)

/-- Follows a navigation property from the entity at a place. -/
def step (ctx : Context) (t : Transaction) (place : Place) (segment : Segment) :
    Action Place := do
  let key ← keyOf ctx t place.set place.key
  let record ← place.set.readScoped key
  let target ← place.set.navigate ctx record segment.name
  pure ⟨target, segment.key, some ⟨place.set, key, segment.name⟩⟩

def walkFrom (ctx : Context) (t : Transaction) : Place → List Segment → Action Place
  | place, [] => pure place
  | place, segment :: rest => do walkFrom ctx t (← step ctx t place segment) rest

def rootSet (ctx : Context) (name : String) : Result EntitySet :=
  match ctx.model.entitySet? name with
  | some definition => .ok (EntitySet.root definition)
  | none => .error (.notFound "entity_set_not_found"
      ("entity set '" ++ name ++ "' does not exist"))

/-- Where some segments lead. -/
def walk (ctx : Context) (t : Transaction) : List Segment → Action Place
  | [] => throw (.bad "invalid_path" "empty resource path")
  | segment :: rest => do
    let set ← rootSet ctx segment.name
    walkFrom ctx t ⟨set, segment.key, none⟩ rest

/-! ## Answers -/

def contextUrl (ctx : Context) (fragment : String) : String :=
  ctx.config.endpoint.url ++ "/$metadata#" ++ fragment

def entityUrl (ctx : Context) (entity : Entity) : String :=
  ctx.config.endpoint.url ++ "/" ++ entity.id

/-- The list of the sets. -/
def directory (ctx : Context) : Json :=
  .object [("@odata.context", .str (ctx.config.endpoint.url ++ "/$metadata")),
    ("value", .array (ctx.model.sets.map fun set =>
      .object [("name", .str set.name.text), ("kind", .str "EntitySet"),
        ("url", .str set.name.text)]))]

/-- The metadata document that the endpoint names, else that of the model. -/
def metadata (ctx : Context) : Result Response :=
  match ctx.config.endpoint.metadataFile, ctx.document with
  | some _, some text => .ok ⟨200, .text text⟩
  | some path, none => .error (.driver ("cannot read cached metadata " ++ path))
  | none, _ => .ok (Response.ok (Metadata.document ctx.model))

/-- An entity as the answer of a request. -/
def entityJson (ctx : Context) (t : Transaction) (entity : Entity) : Action Json := do
  let json ← entity.toJson ctx t.request t.depth t.options
  match json with
  | .object members =>
    let context := contextUrl ctx (entity.set.text ++ "/$entity")
    pure (.object (Json.Members.insert "@odata.id" (.str (entityUrl ctx entity))
      (Json.Members.insert "@odata.context" (.str context) members)))
  | json => pure json

/-- The address of the next page: the request again, with a skip token. -/
def nextLink (ctx : Context) (t : Transaction) (path : ResourcePath) (token : String) : String :=
  let query := t.request.queryText
  ctx.config.endpoint.url ++ "/" ++ path.toText ++ "?"
    ++ (if query.isEmpty then "" else query ++ "&")
    ++ Text.Form.encodePairs [(Request.skipTokenName, token)]

/-- How the entities that a request finds in a set are made. -/
def maker (ctx : Context) (t : Transaction) (set : EntitySet) : EntitySet.Maker :=
  set.materialize ctx t.request t.depth t.options

/-- The first page of a set. -/
def pageResponse (ctx : Context) (t : Transaction) (path : ResourcePath) (set : EntitySet)
    (fragment : String) (render : Entity → Action Json) : Action Response := do
  let page ← Pager.firstPage ctx set t.options (maker ctx t set)
  let shown ← page.entities.mapM render
  let members := [("@odata.context", Json.str (contextUrl ctx fragment))]
    ++ (page.count.map fun n => ("@odata.count", Json.int n)).toList
    ++ [("value", Json.array shown)]
    ++ (page.skipToken.map fun token =>
        ("@odata.nextLink", Json.str (nextLink ctx t path token))).toList
  pure (Response.ok (.object members))

def entityPage (ctx : Context) (t : Transaction) (path : ResourcePath) (set : EntitySet) :
    Action Response :=
  pageResponse ctx t path set set.name.text fun entity =>
    entity.toJson ctx t.request t.depth t.options

/-- The entity with a key. -/
def readEntity (ctx : Context) (t : Transaction) (set : EntitySet) (key : Key) :
    Action Entity := do
  let record ← set.readScoped key
  let plan ← set.plan ctx t.options
  maker ctx t set plan.select record

def entityResponse (ctx : Context) (t : Transaction) (status : Nat) (entity : Entity) :
    Action Response := do
  pure ⟨status, .json (← entityJson ctx t entity)⟩

/-! ## Requests -/

def getRequest (ctx : Context) (t : Transaction) (path : ResourcePath) (place : Place) :
    Action Response := do
  let set := place.set
  match place.key with
  | some text =>
    let key ← Key.parse set.entityType text
    entityResponse ctx t 200 (← readEntity ctx t set key)
  | none =>
    match set.source with
    | none => entityPage ctx t path set
    | some _ =>
      match ← set.resolve ctx t.request none t.options (maker ctx t set) with
      | .one (some entity) => entityResponse ctx t 200 entity
      | .one none => pure Response.noContent
      | .many target => entityPage ctx t path target

def entityRequest (ctx : Context) (t : Transaction) (path : ResourcePath) (place : Place) :
    Action Response := do
  let set := place.set
  match t.request.method with
  | .get => getRequest ctx t path place
  | .post =>
    if place.key.isSome || set.isSingle then throw (methodNotAllowed t)
    else entityResponse ctx t 201 (← set.create t.drawn t.request.body (maker ctx t set))
  | .patch | .put =>
    let key ← keyOf ctx t set place.key
    entityResponse ctx t 200 (← set.update key t.request.body (maker ctx t set))
  | .delete =>
    let key ← keyOf ctx t set place.key
    set.delete key
    pure Response.noContent
  | .other _ => throw (methodNotAllowed t)

def countRequest (ctx : Context) (t : Transaction) (place : Place) : Action Response := do
  requireGet t
  if place.key.isSome || place.set.isSingle then
    throw (.bad "invalid_count_target" "$count applies to collections only")
  else
    let plan ← place.set.plan ctx t.options
    let count ← place.set.count plan
    pure ⟨200, .text (toString count)⟩

def reference (ctx : Context) (entity : Entity) : Json.Members :=
  [("@odata.id", .str (entityUrl ctx entity))]

def getReference (ctx : Context) (t : Transaction) (path : ResourcePath) (place : Place) :
    Action Response := do
  let set := place.set
  if place.key.isSome || set.isSingle then
    let key ← keyOf ctx t set place.key
    let entity ← readEntity ctx t set key
    pure (Response.ok (.object ((reference ctx entity).insert "@odata.context"
      (.str (contextUrl ctx "$ref")))))
  else
    pageResponse ctx t path set "Collection($ref)" fun entity =>
      pure (.object (reference ctx entity))

def referenceRequest (ctx : Context) (t : Transaction) (path : ResourcePath) (place : Place) :
    Action Response := do
  match t.request.method, place.parent with
  | .get, _ => getReference ctx t path place
  | _, none =>
    throw (.bad "invalid_ref_target" "$ref must address a navigation property")
  | .post, some parent | .put, some parent =>
    parent.set.link ctx t.request parent.key parent.navigation place.key
    pure Response.noContent
  | .delete, some parent =>
    parent.set.unlink ctx t.request t.options parent.key parent.navigation place.key
    pure Response.noContent
  | _, some _ => throw (methodNotAllowed t)

/-- The answer of a request. -/
def execute (ctx : Context) (t : Transaction) : Action Response := do
  let path ← ResourcePath.parse (ctx.config.endpoint.resourcePath t.request.path)
  match path with
  | .service =>
    requireGet t
    pure (Response.ok (directory ctx))
  | .metadata =>
    requireGet t
    metadata ctx
  | .resource segments suffix =>
    let place ← walk ctx t segments
    match suffix with
    | none => entityRequest ctx t path place
    | some .count => countRequest ctx t place
    | some .ref => referenceRequest ctx t path place

/-- The answer of a request that is given by its address, or a problem; none if the program
stops. -/
def respond (ctx : Context) (method : Method) (uri : String) (body : Option Json) (drawn : Guid)
    (store : Store) : Option (Except Problem Response) × Store :=
  match Transaction.ofUri ctx.config.limits method uri body drawn with
  | .error e => (some (.error (Problem.ofError e uri none)), store)
  | .ok t =>
    match (execute ctx t).runOn store with
    | (.ok response, store) => (some (.ok response), store)
    | (.error (.fault _), store) => (none, store)
    | (.error e, store) => (some (.error (Problem.ofError e t.request.path none)), store)

end Service

end OData
