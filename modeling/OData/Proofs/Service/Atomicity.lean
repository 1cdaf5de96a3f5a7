import OData.Proofs.Schema.Integrity
import OData.Proofs.Service.Reads
import OData.Proofs.Service.Resolution
import OData.Proofs.Store.Rows

/-!
# What a failed request leaves behind

Deleting, linking and unlinking write last, so that they write nothing if they fail.  Creating and
updating an entity first store a record and then make an entity of it.  The first part writes
nothing if it fails, and the record that it stores has a key: `store?` is that part, and
`execute_error_tables` says that a failed request leaves just what it has written.
-/

set_option autoImplicit false

namespace OData

open OData.Action

/-! ## Records that are written -/

namespace EntitySet

variable (set : EntitySet) (drawn : Guid) (body : Option Json)

/-- The write of `create`, before an entity is made of its record. -/
def createRecord : Action Record := do
  set.require .create
  let record ← readBody set.entityType body
  let record := set.withSourceKey record
  checkComplete set.entityType record
  set.definition.create drawn record

/-- The write of `update`, before an entity is made of its record. -/
def updateRecord (key : Key) : Action Record := do
  set.require .update
  let changes ← readBody set.entityType body
  let _ ← set.readScoped key
  let changes ← withoutKey key.values changes
  set.definition.update key changes

theorem create_eq (make : Maker) :
    set.create drawn body make = set.createRecord drawn body >>= make none := by
  simp only [create, createRecord, bind_assoc]

theorem update_eq (key : Key) (make : Maker) :
    set.update key body make = set.updateRecord body key >>= make none := by
  simp only [update, updateRecord, bind_assoc]

theorem atomic_createRecord : Atomic (set.createRecord drawn body) :=
  (reads_lift _).bind_atomic fun _ => (reads_lift _).bind_atomic fun _ =>
    (reads_lift _).bind_atomic fun _ => EntitySetDef.atomic_write _ _ _

theorem atomic_updateRecord (key : Key) : Atomic (set.updateRecord body key) :=
  (reads_lift _).bind_atomic fun _ => (reads_lift _).bind_atomic fun _ =>
    (reads_readScoped set key).bind_atomic fun _ => (reads_lift _).bind_atomic fun _ =>
      EntitySetDef.atomic_write _ _ _

theorem atomic_delete (key : Key) : Atomic (set.delete key) :=
  (reads_lift _).bind_atomic fun _ => (reads_readScoped set key).bind_atomic fun _ =>
    (EntitySetDef.atomic_write _ _ _).map fun _ => ()

/-! ## What is stored -/

variable {set drawn body} {store stored : Store} {record : Record}

theorem createRecord_eq_ok
    (run : (set.createRecord drawn body).runOn store = (.ok record, stored)) :
    ∃ given table, readBody set.entityType body = .ok given ∧
      Table.create set.entityType set.name.text drawn (set.withSourceKey given)
        (store.rows set.name.text) = .ok (record, table) ∧
      stored = store.put set.name.text table := by
  obtain ⟨⟨⟩, _, run⟩ := runOn_lift_bind_ok_iff.mp run
  obtain ⟨given, read, run⟩ := runOn_lift_bind_ok_iff.mp run
  obtain ⟨⟨⟩, _, run⟩ := runOn_lift_bind_ok_iff.mp run
  obtain ⟨table, created, rfl⟩ := EntitySetDef.runOn_write_ok _ run
  exact ⟨given, table, read, created, rfl⟩

theorem updateRecord_eq_ok {key : Key}
    (run : (set.updateRecord body key).runOn store = (.ok record, stored)) :
    ∃ given changes table, readBody set.entityType body = .ok given ∧
      withoutKey key.values given = .ok changes ∧
      Table.update set.name.text key changes (store.rows set.name.text) = .ok (record, table) ∧
      stored.tables = (store.put set.name.text table).tables := by
  obtain ⟨⟨⟩, _, run⟩ := runOn_lift_bind_ok_iff.mp run
  obtain ⟨given, read, run⟩ := runOn_lift_bind_ok_iff.mp run
  obtain ⟨row, middle, found, run⟩ := runOn_bind_ok_iff.mp run
  obtain ⟨changes, checked, run⟩ := runOn_lift_bind_ok_iff.mp run
  obtain ⟨table, updated, rfl⟩ := EntitySetDef.runOn_write_ok _ run
  have same := (reads_readScoped set key).tables_eq found
  refine ⟨given, changes, table, read, checked, ?_, ?_⟩
  · rw [← Store.rows_congr same]
    exact updated
  · exact congrArg (Store.putTable _ table) same

theorem not_mem_of_get?_eq_none {changes : Record} {name : Identifier}
    (absent : changes.get? name = none) : name ∉ changes.map Prod.fst := by
  rw [Record.get?, Option.map_eq_none_iff, List.find?_eq_none] at absent
  rintro member
  obtain ⟨entry, among, rfl⟩ := List.mem_map.mp member
  exact absent entry among (by simp)

/-- Changes that were checked do not name the key. -/
theorem not_mem_of_withoutKey {values : List (Identifier × Value)} :
    ∀ {given changes : Record}, withoutKey values given = .ok changes →
      ∀ name ∈ changes.map Prod.fst, name ∈ given.map Prod.fst ∧ name ∉ values.map Prod.fst := by
  induction values with
  | nil =>
    intro given changes checked name member
    cases checked
    exact ⟨member, by simp⟩
  | cons entry rest ih =>
    obtain ⟨part, v⟩ := entry
    intro given changes checked name member
    rw [withoutKey] at checked
    rw [List.map_cons, List.mem_cons, not_or]
    split at checked
    next absent =>
      obtain ⟨among, outside⟩ := ih checked name member
      refine ⟨among, ?_, outside⟩
      rintro rfl
      exact not_mem_of_get?_eq_none absent among
    next changed found =>
      split at checked
      · obtain ⟨among, outside⟩ := ih checked name member
        obtain ⟨entry, kept, rfl⟩ := List.mem_map.mp among
        obtain ⟨before, other⟩ := List.mem_filter.mp kept
        exact ⟨List.mem_map_of_mem before, by simpa using other, outside⟩
      · cases checked

/-- An entity can be made of what was created. -/
theorem hasKey_of_createRecord
    (run : (set.createRecord drawn body).runOn store = (.ok record, stored)) :
    ∃ key, Key.ofRecord set.entityType record = .ok key := by
  obtain ⟨given, table, _, created, _⟩ := createRecord_eq_ok run
  obtain ⟨_, key, _, _, made, _⟩ := Table.create_eq_ok created
  exact ⟨key, made⟩

/-- An entity can be made of what was updated by a whole key. -/
theorem hasKey_of_updateRecord {key : Key} (names : key.names = set.entityType.key)
    (run : (set.updateRecord body key).runOn store = (.ok record, stored)) :
    ∃ key, Key.ofRecord set.entityType record = .ok key := by
  obtain ⟨given, changes, table, _, checked, updated, _⟩ := updateRecord_eq_ok run
  exact Table.hasKey_of_update updated names fun name member changed =>
    (not_mem_of_withoutKey checked name changed).2 member

end EntitySet

/-! ## Links -/

theorem Relationship.reads_open? (ctx : Context) (set : EntitySet) (key : Key) (name : String) :
    Reads (Relationship.open? ctx set key name) := by
  apply (EntitySet.reads_readScoped set key).bind
  intro record
  apply (reads_lift _).bind
  intro target
  cases target.source with
  | none => exact reads_throw _
  | some source => exact reads_pure _

theorem Relationship.atomic_assign (r : Relationship) (record : Record) (clear : Bool) :
    Atomic (r.assign record clear) :=
  (reads_lift _).bind_atomic fun _ => (reads_lift _).bind_atomic fun _ =>
    (EntitySetDef.atomic_write _ _ _).map fun _ => ()

namespace EntitySet

variable (ctx : Context) (request : Request) (set : EntitySet) (key : Key) (navigation : String)
  (inlineKey : Option String)

theorem atomic_link : Atomic (set.link ctx request key navigation inlineKey) := by
  apply (Relationship.reads_open? ctx set key navigation).bind_atomic
  intro r
  apply (reads_lift _).bind_atomic
  intro named
  cases named with
  | none => exact (reads_throw _).atomic
  | some target =>
    exact (reads_readRecord _ _).bind_atomic fun record => r.atomic_assign record false

theorem reads_unlinkTarget (options : QueryOptions) (r : Relationship) :
    Reads (unlinkTarget ctx request options r inlineKey) := by
  apply (reads_lift _).bind
  intro named
  cases named with
  | some target => exact (reads_readRecord _ _).bind fun _ => reads_pure _
  | none =>
    simp only
    split
    · exact reads_throw _
    · exact (reads_lift _).bind fun plan => reads_first ctx _ plan

theorem atomic_unlink (options : QueryOptions) :
    Atomic (set.unlink ctx request options key navigation inlineKey) := by
  apply (Relationship.reads_open? ctx set key navigation).bind_atomic
  intro r
  apply (reads_unlinkTarget ctx request inlineKey options r).bind_atomic
  intro found
  cases found with
  | none =>
    simp only
    split
    · exact (reads_pure _).atomic
    · exact (reads_throw _).atomic
  | some record =>
    simp only
    split
    · exact (reads_pure _).atomic
    · exact (reads_throw _).atomic
    · exact (reads_throw _).atomic
    · exact r.atomic_assign record true

end EntitySet

/-! ## Requests -/

namespace Service

variable (ctx : Context) (t : Transaction)

theorem atomic_referenceRequest (path : ResourcePath) (place : Place) :
    Atomic (referenceRequest ctx t path place) := by
  rw [referenceRequest]
  split
  · exact (reads_getReference ctx t path place).atomic
  · exact (reads_throw _).atomic
  · exact (EntitySet.atomic_link ctx _ _ _ _ _).map fun _ => Response.noContent
  · exact (EntitySet.atomic_link ctx _ _ _ _ _).map fun _ => Response.noContent
  · exact (EntitySet.atomic_unlink ctx _ _ _ _ _ _).map fun _ => Response.noContent
  · exact (reads_throw _).atomic

/-- The write of a request that creates or updates an entity. -/
def storeAt (place : Place) : Action Record := do
  match t.request.method with
  | .post =>
    if place.key.isSome || place.set.isSingle then throw (methodNotAllowed t)
    else place.set.createRecord t.drawn t.request.body
  | .patch | .put =>
    let key ← keyOf ctx t place.set place.key
    place.set.updateRecord t.request.body key
  | _ => throw (methodNotAllowed t)

/-- The answer of a request that has created or updated an entity. -/
def answer (place : Place) (record : Record) : Action Response := do
  let entity ← maker ctx t place.set none record
  entityResponse ctx t (if t.request.method = .post then 201 else 200) entity

/-- Whether a method creates or updates an entity. -/
def stores : Method → Bool
  | .post | .patch | .put => true
  | _ => false

theorem atomic_storeAt (place : Place) : Atomic (storeAt ctx t place) := by
  rw [storeAt]
  split
  · split
    · exact (reads_throw _).atomic
    · exact EntitySet.atomic_createRecord _ _ _
  · exact (reads_keyOf ctx t _ _).bind_atomic fun key => EntitySet.atomic_updateRecord _ _ key
  · exact (reads_keyOf ctx t _ _).bind_atomic fun key => EntitySet.atomic_updateRecord _ _ key
  · exact (reads_throw _).atomic

theorem reads_answer (place : Place) (record : Record) : Reads (answer ctx t place record) :=
  (reads_maker ctx t _ none record).bind fun entity => reads_entityResponse ctx t _ entity

/-- Requests that create or update an entity write first and answer then. -/
theorem entityRequest_of_stores (path : ResourcePath) (place : Place)
    (method : stores t.request.method = true) :
    entityRequest ctx t path place = storeAt ctx t place >>= answer ctx t place := by
  have answers : answer ctx t place = fun record => maker ctx t place.set none record >>=
      entityResponse ctx t (if t.request.method = .post then 201 else 200) := rfl
  rw [entityRequest, storeAt, answers]
  cases named : t.request.method with
  | get => rw [named] at method; cases method
  | delete => rw [named] at method; cases method
  | other name => rw [named] at method; cases method
  | post =>
    simp only [EntitySet.create_eq, if_true, bind_assoc]
    split
    · rfl
    · rfl
  | put =>
    simp only [EntitySet.update_eq, bind_assoc]
    rfl
  | patch =>
    simp only [EntitySet.update_eq, bind_assoc]
    rfl

theorem atomic_entityRequest (path : ResourcePath) (place : Place)
    (method : stores t.request.method = false) : Atomic (entityRequest ctx t path place) := by
  rw [entityRequest]
  cases named : t.request.method with
  | post => rw [named] at method; cases method
  | put => rw [named] at method; cases method
  | patch => rw [named] at method; cases method
  | get => exact (reads_getRequest ctx t path place).atomic
  | delete =>
    exact (reads_keyOf ctx t _ _).bind_atomic fun key =>
      (EntitySet.atomic_delete _ key).map fun _ => Response.noContent
  | other name => exact (reads_throw _).atomic

/-- The write of a request, if it creates or updates an entity. -/
def store? : Action (Place × Record) := do
  let path ← ResourcePath.parse (ctx.config.endpoint.resourcePath t.request.path)
  match path with
  | .resource segments none =>
    let place ← walk ctx t segments
    let record ← storeAt ctx t place
    pure (place, record)
  | _ => throw (methodNotAllowed t)

variable {ctx t}

/-- A request to create or update an entity stores it and answers then. -/
theorem execute_of_stores {segments : List Segment}
    (parsed : ResourcePath.parse (ctx.config.endpoint.resourcePath t.request.path) =
      .ok (.resource segments none))
    (method : stores t.request.method = true) :
    execute ctx t = store? ctx t >>= fun found => answer ctx t found.1 found.2 := by
  have writes (place : Place) : entityRequest ctx t (.resource segments none) place =
      storeAt ctx t place >>= answer ctx t place := entityRequest_of_stores ctx t _ place method
  rw [execute, store?, parsed]
  simp only [lift_ok_bind, bind_assoc, pure_bind, writes]

/-- Any other request that fails has written nothing. -/
theorem atomic_execute
    (other : ∀ segments, ResourcePath.parse (ctx.config.endpoint.resourcePath t.request.path) =
      .ok (.resource segments none) → stores t.request.method = false) :
    Atomic (execute ctx t) := by
  apply Atomic.lift_bind
  intro path parsed
  cases path with
  | service => exact (reads_lift _).bind_atomic fun _ => (reads_pure _).atomic
  | metadata => exact (reads_lift _).bind_atomic fun _ => (reads_lift _).atomic
  | resource segments suffix =>
    apply (reads_walk ctx t segments).bind_atomic
    intro place
    cases suffix with
    | none => exact atomic_entityRequest ctx t _ place (other segments parsed)
    | some suffix =>
      cases suffix with
      | count => exact (reads_countRequest ctx t place).atomic
      | ref => exact atomic_referenceRequest ctx t _ place

theorem atomic_store? : Atomic (store? ctx t) := by
  apply (reads_lift _).bind_atomic
  intro path
  split
  · exact (reads_walk ctx t _).bind_atomic fun place =>
      (atomic_storeAt ctx t place).map fun record => (place, record)
  · exact (reads_throw _).atomic

/-- The way to a write that comes through. -/
theorem store?_eq_ok {store stored : Store} {place : Place} {record : Record}
    (run : (store? ctx t).runOn store = (.ok (place, record), stored)) :
    ∃ segments middle,
      ResourcePath.parse (ctx.config.endpoint.resourcePath t.request.path) =
        .ok (.resource segments none) ∧
      (walk ctx t segments).runOn store = (.ok place, middle) ∧
      (storeAt ctx t place).runOn middle = (.ok record, stored) := by
  obtain ⟨path, first, parsed, run⟩ := runOn_bind_ok_iff.mp run
  rw [runOn_lift, Prod.mk.injEq] at parsed
  obtain ⟨parsed, rfl⟩ := parsed
  split at run
  next segments =>
    obtain ⟨reached, middle, walked, run⟩ := runOn_bind_ok_iff.mp run
    obtain ⟨made, last, written, result⟩ := runOn_bind_ok_iff.mp run
    cases result
    exact ⟨segments, middle, parsed, walked, written⟩
  next => cases run

theorem stores_of_storeAt {store stored : Store} {place : Place} {record : Record}
    (run : (storeAt ctx t place).runOn store = (.ok record, stored)) :
    stores t.request.method = true := by
  rw [storeAt] at run
  cases named : t.request.method with
  | post => rfl
  | put => rfl
  | patch => rfl
  | get => rw [named] at run; cases run
  | delete => rw [named] at run; cases run
  | other name => rw [named] at run; cases run

/-- A failed request leaves just what its write has stored. -/
theorem tables_of_error {store after : Store} {e : Error}
    (failed : (execute ctx t).runOn store = (.error e, after)) :
    after.tables = match (store? ctx t).runOn store with
      | (.ok _, stored) => stored.tables
      | (.error _, _) => store.tables := by
  rcases run : (store? ctx t).runOn store with ⟨failure | ⟨place, record⟩, stored⟩
  · by_cases writes : ∃ segments, ResourcePath.parse (ctx.config.endpoint.resourcePath
        t.request.path) = .ok (.resource segments none) ∧ stores t.request.method = true
    · obtain ⟨segments, parsed, method⟩ := writes
      rw [execute_of_stores parsed method, runOn_bind_of_error run] at failed
      cases failed
      exact atomic_store? store _ _ run
    · refine atomic_execute (fun segments parsed => ?_) store e after failed
      exact Bool.eq_false_iff.mpr fun method => writes ⟨segments, parsed, method⟩
  · obtain ⟨segments, middle, parsed, _, written⟩ := store?_eq_ok run
    rw [execute_of_stores parsed (stores_of_storeAt written), runOn_bind_of_ok run] at failed
    exact (reads_answer ctx t place record).tables_eq failed

/-! ## Requests without expansions -/

/-- A key that addresses an entity names the whole key of its type. -/
theorem names_keyOf {set : EntitySet} {text : Option String} {store after : Store} {key : Key}
    (known : ∀ name ∈ set.entityType.key, name ∈ set.entityType.names)
    (run : (keyOf ctx t set text).runOn store = (.ok key, after)) :
    key.names = set.entityType.key := by
  cases text with
  | some text =>
    have read : Key.parse set.entityType text = .ok key := congrArg Prod.fst run
    rw [Key.names_parse read, EntityType.map_name_keyProperties known]
  | none =>
    obtain ⟨plan, record, -, made⟩ := keyOf_none_eq_ok run
    exact Key.names_ofRecord made

theorem hasKey_of_storeAt {place : Place} {store stored : Store} {record : Record}
    (known : ∀ name ∈ place.set.entityType.key, name ∈ place.set.entityType.names)
    (run : (storeAt ctx t place).runOn store = (.ok record, stored)) :
    place.set.HasKey record := by
  rw [storeAt] at run
  split at run
  · split at run
    · cases run
    · exact EntitySet.hasKey_of_createRecord run
  · obtain ⟨key, middle, named, run⟩ := runOn_bind_ok_iff.mp run
    exact EntitySet.hasKey_of_updateRecord (names_keyOf known named) run
  · obtain ⟨key, middle, named, run⟩ := runOn_bind_ok_iff.mp run
    exact EntitySet.hasKey_of_updateRecord (names_keyOf known named) run
  · cases run

/-- Without expansions an entity is made of every record with a key, and shown. -/
theorem exists_answer {place : Place} {record : Record} (plain : t.options.expand = [])
    (complete : place.set.HasKey record) (store : Store) :
    ∃ response, ((answer ctx t place record).runOn store).1 = .ok response := by
  obtain ⟨key, found⟩ := complete
  have made : place.set.plainEntity none record =
      .ok ⟨place.set.name, key, place.set.selectedValues none record, []⟩ := by
    rw [EntitySet.plainEntity, found]
    rfl
  obtain ⟨middle, run, _⟩ :=
    EntitySet.yields_materialize ctx t.request t.depth store plain made
  rw [answer, maker, runOn_bind_of_ok run, entityResponse_of_plain ctx plain]
  exact ⟨_, rfl⟩

/-- What a failed request leaves behind is what its write has stored.  If the write came through,
then it was an expansion of the answer that failed. -/
theorem execute_error_tables {declaration : ModelDeclaration}
    (declared : ∀ ty ∈ declaration.types, ty.Declared)
    (built : declaration.build = .ok ctx.model) {store after : Store} {e : Error}
    (failed : (execute ctx t).runOn store = (.error e, after)) :
    (∀ found stored, (store? ctx t).runOn store = (.ok found, stored) →
      after.tables = stored.tables ∧ t.options.expand ≠ []) ∧
    (∀ failure middle, (store? ctx t).runOn store = (.error failure, middle) →
      after.tables = store.tables) := by
  have left := tables_of_error failed
  constructor
  · rintro ⟨place, record⟩ stored run
    rw [run] at left
    refine ⟨left, fun plain => ?_⟩
    obtain ⟨segments, middle, parsed, walked, written⟩ := store?_eq_ok run
    have member := ModelDeclaration.entityType_mem_of_build built _ (mem_sets_of_walk walked)
    have known := (declared _ member).key_subset
    obtain ⟨response, answered⟩ := exists_answer plain (hasKey_of_storeAt known written) stored
    rw [execute_of_stores parsed (stores_of_storeAt written), runOn_bind_of_ok run] at failed
    rw [failed] at answered
    cases answered
  · intro failure middle run
    rw [run] at left
    exact left

/-! Tags with a number and a label. -/

def tagNumber : Property := ⟨⟨"number", by decide⟩, .int64, false⟩

def tagLabel : Property := ⟨⟨"label", by decide⟩, .string, true⟩

def tag : EntityType := ⟨⟨"Tag", by decide⟩, [tagNumber, tagLabel], [tagNumber.name], []⟩

theorem declared_tag : tag.Declared := by
  have number : (EntityType.empty tag.name).addProperty tagNumber =
      .ok ⟨tag.name, [tagNumber], [], []⟩ := rfl
  have label : EntityType.addProperty ⟨tag.name, [tagNumber], [], []⟩ tagLabel =
      .ok ⟨tag.name, [tagNumber, tagLabel], [], []⟩ := rfl
  exact .key [tagNumber.name] (.property (.property (.empty tag.name) number) label)

def tagDeclaration : ModelDeclaration :=
  { space := "Shop", alias? := none, references := [], types := [tag],
    sets := [⟨"Tags", "Tag", [], .table .all, none, none⟩] }

def tagModel : Model :=
  { space := "Shop", alias? := none, references := [], types := [tag],
    sets := [⟨⟨"Tags", by decide⟩, tag, [], .table .all, .all, none⟩] }

/-- The request for a new tag, answered with an expansion that there is not. -/
def postTag : Transaction :=
  { request := ⟨.post, "/Tags", [], some (.object [("label", .str "new")])⟩,
    options := { QueryOptions.empty with expand := [("Maker", .empty)] },
    depth := 0,
    drawn := .nil }

def tagContext : Context := ⟨tagModel, Config.standard, none, .standard⟩

def oneTag : Store := ⟨[("Tags", [[(tagLabel.name, .string "new"), (tagNumber.name, .int 1)]])], []⟩

theorem execute_postTag : (execute tagContext postTag).runOn Store.empty =
    (.error (.bad "unknown_navigation_property" "'Maker' is not a navigation property of 'Tag'"),
      oneTag) := rfl

/-- The request for a new tag fails, but the tag stays. -/
theorem postTag_error_tables :
    oneTag.tables ≠ Store.empty.tables ∧
      (∀ found stored, (store? tagContext postTag).runOn Store.empty = (.ok found, stored) →
        oneTag.tables = stored.tables ∧ postTag.options.expand ≠ []) ∧
      (∀ failure middle, (store? tagContext postTag).runOn Store.empty = (.error failure, middle) →
        oneTag.tables = Store.empty.tables) := by
  have declared : ∀ ty ∈ tagDeclaration.types, ty.Declared := by
    intro ty member
    rw [List.mem_singleton.mp member]
    exact declared_tag
  have built : tagDeclaration.build = .ok tagContext.model := rfl
  exact ⟨by decide, execute_error_tables declared built execute_postTag⟩

end Service

end OData
