import OData.Proofs.Action
import OData.Service.Basic

/-!
# What only reads

Finding records, making entities of them and rendering them leave all tables as they are, and so
does the walk to the set that a request addresses.

If nothing is expanded, an entity is made of every record that has a key, and of nothing else than
this record.
-/

set_option autoImplicit false

namespace OData

open OData.Action

/-! ## Streams and records -/

namespace Stream

variable (sorting : Sorting) (set : EntitySet) (chunk : Nat)

theorem reads_pull (s : Stream) : Reads (s.pull sorting set chunk) := by
  rw [pull]
  split
  · exact reads_pure _
  · exact (EntitySetDef.reads_fetch _ _ _ _ _).bind fun _ => reads_pure _

theorem reads_fill (s : Stream) : Reads (s.fill sorting set chunk) := by
  rw [fill]
  split
  · exact reads_pull sorting set chunk s
  · exact reads_pure s

theorem reads_next (s : Stream) : Reads (s.next sorting set chunk) := by
  apply (reads_fill sorting set chunk s).bind
  intro t
  split
  · exact reads_pure _
  · exact reads_pure _

theorem reads_takeRecords (count : Nat) :
    ∀ s : Stream, Reads (s.takeRecords sorting set chunk count) := by
  induction count with
  | zero => exact fun _ => reads_pure []
  | succ count ih =>
    intro s
    apply (reads_next sorting set chunk s).bind
    intro next
    obtain ⟨record, t⟩ := next
    cases record with
    | none => exact reads_pure []
    | some record => exact (ih t).bind fun _ => reads_pure _

theorem reads_records (s : Stream) : Reads (s.records sorting set chunk) :=
  (EntitySetDef.reads_table _).bind fun _ => reads_takeRecords sorting set chunk _ s

end Stream

namespace EntitySet

variable (ctx : Context) (request : Request) (set : EntitySet)

theorem reads_first (plan : QueryPlan) : Reads (set.first ctx plan) :=
  (reads_lift _).bind fun _ => (Stream.reads_next _ set _ _).bind fun _ => reads_pure _

theorem reads_count (plan : QueryPlan) : Reads (set.count plan) :=
  (reads_lift _).bind fun _ => EntitySetDef.reads_count _ plan

theorem reads_read? (key : Key) : Reads (set.read? key) :=
  (reads_lift _).bind fun _ => EntitySetDef.reads_read _ key

theorem reads_readRecord (key : Key) : Reads (set.readRecord key) := by
  apply (reads_read? set key).bind
  intro found
  cases found with
  | none => exact reads_throw _
  | some record => exact reads_pure record

theorem reads_readScoped (key : Key) : Reads (set.readScoped key) := by
  apply (reads_readRecord set key).bind
  intro record
  cases set.source with
  | none => exact reads_pure record
  | some source =>
    apply (reads_lift _).bind
    intro scope
    split
    · exact reads_pure record
    · exact reads_throw _

variable {make : Maker} (makes : ∀ select record, Reads (make select record))

include makes

theorem reads_firstEntity (options : QueryOptions) : Reads (set.firstEntity ctx options make) := by
  apply (reads_lift _).bind
  intro plan
  apply (reads_first ctx set plan).bind
  intro found
  cases found with
  | none => exact reads_pure none
  | some record => exact (makes _ record).bind fun _ => reads_pure _

theorem reads_resolveScoped (options : QueryOptions) :
    Reads (set.resolveScoped ctx options make) := by
  have one : Reads (do pure (Related.one (← set.firstEntity ctx options make))) :=
    (reads_firstEntity ctx set makes options).bind fun _ => reads_pure _
  rw [resolveScoped]
  cases set.source with
  | none => exact one
  | some source =>
    simp only
    split
    · exact reads_pure _
    · exact one

theorem reads_resolve (inlineKey : Option String) (options : QueryOptions) :
    Reads (set.resolve ctx request inlineKey options make) := by
  apply (reads_lift _).bind
  intro named
  cases named with
  | none => exact reads_resolveScoped ctx set makes options
  | some target =>
    apply (reads_read? set target.1).bind
    intro found
    cases found with
    | none => exact reads_resolveScoped ctx set makes options
    | some record =>
      exact (reads_lift _).bind fun plan => (makes _ record).bind fun _ => reads_pure _

omit makes

mutual

theorem reads_materialize (depth : Nat) (set : EntitySet) : ∀ (options : QueryOptions)
    (select : Option (List Identifier)) (record : Record),
    Reads (set.materialize ctx request depth options select record)
  | ⟨_, _, _, expand, _, _, _, _⟩, select, record => by
    rw [materialize]
    exact (reads_lift _).bind fun key =>
      (reads_expandAll (depth + 1) set record expand).bind fun _ => reads_pure _

theorem reads_expandAll (depth : Nat) (set : EntitySet) (record : Record) :
    ∀ items : List Expansion, Reads (set.expandAll ctx request depth record items)
  | [] => by
    rw [expandAll]
    exact reads_pure []
  | (name, options) :: rest => by
    rw [expandAll]
    apply (reads_lift _).bind
    intro _
    apply (reads_lift _).bind
    intro target
    apply (reads_lift _).bind
    intro property
    refine (reads_resolve ctx request target
      (fun select record => reads_materialize depth target options select record) none
      options).bind fun related => ?_
    exact (reads_expandAll depth set record rest).bind fun _ => reads_pure _

end

end EntitySet

/-! ## Pages -/

namespace Pager

variable (ctx : Context) (set : EntitySet)

theorem reads_fetchRecords (plan : QueryPlan) (offset take : Nat) :
    Reads (fetchRecords ctx set plan offset take) := by
  rw [fetchRecords]
  split
  · exact reads_pure []
  · exact (reads_lift _).bind fun _ => (reads_lift _).bind fun stream =>
      Stream.reads_records _ set _ stream

theorem reads_countFor (options : QueryOptions) (plan : QueryPlan) :
    Reads (countFor set options plan) := by
  rw [countFor]
  split
  · exact (EntitySet.reads_count set plan).bind fun _ => reads_pure _
  · exact reads_pure none

theorem reads_nextRecords (options : QueryOptions) (pager : Pager) :
    Reads (pager.nextRecords ctx set options) := by
  rw [nextRecords]
  split
  · exact reads_pure none
  · exact (reads_countFor set options _).bind fun _ =>
      (reads_fetchRecords ctx set _ _ _).bind fun _ => reads_pure _
  · exact (reads_fetchRecords ctx set _ _ _).bind fun _ => reads_pure _

variable {make : EntitySet.Maker} (makes : ∀ select record, Reads (make select record))

include makes

theorem reads_next (options : QueryOptions) (pager : Pager) :
    Reads (pager.next ctx set options make) := by
  apply (reads_nextRecords ctx set options pager).bind
  intro found
  cases found with
  | none => exact reads_pure _
  | some found => exact (Reads.mapM (makes _) _).bind fun _ => reads_pure _

theorem reads_firstPage (options : QueryOptions) : Reads (firstPage ctx set options make) :=
  (reads_lift _).bind fun pager =>
    (reads_next ctx set makes options pager).bind fun _ => reads_pure _

end Pager

/-! ## Rendering -/

namespace Entity

variable (ctx : Context) (request : Request)

mutual

theorem reads_toJson (depth : Nat) : ∀ (options : QueryOptions) (entity : Entity),
    Reads (entity.toJson ctx request depth options)
  | ⟨_, _, _, expand, _, _, _, _⟩, entity => by
    rw [toJson]
    exact (reads_expandedMembers (depth + 1) expand _ _).bind fun _ => reads_pure _

theorem reads_expandedMembers (depth : Nat) : ∀ (items : List Expansion)
    (expansions : List (Identifier × Related Entity)) (members : Json.Members),
    Reads (expandedMembers ctx request depth items expansions members)
  | [], expansions, members => by
    rw [expandedMembers]
    · exact reads_pure members
    · simp
  | _ :: _, [], members => by
    rw [expandedMembers]
    · exact reads_pure members
    · simp
  | (item, options) :: items, (name, related) :: rest, members => by
    cases related with
    | one entity =>
      cases entity with
      | none =>
        rw [expandedMembers]
        exact (reads_pure _).bind fun _ => reads_expandedMembers depth items rest _
      | some entity =>
        rw [expandedMembers]
        exact (reads_toJson depth options entity).bind fun json =>
          (reads_pure _).bind fun _ => reads_expandedMembers depth items rest _
    | many set =>
      rw [expandedMembers]
      have page := Pager.reads_firstPage ctx set
        (EntitySet.reads_materialize ctx request depth set options) options
      have shown (entities : List Entity) :=
        Reads.mapM (fun entity => reads_toJson depth options entity) entities
      exact page.bind fun page => (shown page.entities).bind fun json =>
        (reads_lift _).bind fun link =>
          (reads_pure _).bind fun _ => reads_expandedMembers depth items rest _

end

end Entity

/-! ## Requests -/

namespace Service

variable (ctx : Context) (t : Transaction)

theorem reads_keyOf (set : EntitySet) (text : Option String) : Reads (keyOf ctx t set text) := by
  cases text with
  | some text => exact reads_lift _
  | none =>
    rw [keyOf]
    split
    · apply (reads_lift _).bind
      intro plan
      apply (EntitySet.reads_first ctx set plan).bind
      intro found
      cases found with
      | none => exact reads_throw _
      | some record => exact reads_lift _
    · exact reads_throw _

theorem reads_step (place : Place) (segment : Segment) : Reads (step ctx t place segment) :=
  (reads_keyOf ctx t _ _).bind fun key => (EntitySet.reads_readScoped _ key).bind fun _ =>
    (reads_lift _).bind fun _ => reads_pure _

theorem reads_walkFrom (segments : List Segment) :
    ∀ place : Place, Reads (walkFrom ctx t place segments) := by
  induction segments with
  | nil => exact fun place => reads_pure place
  | cons segment rest ih =>
    exact fun place => (reads_step ctx t place segment).bind fun next => ih next

theorem reads_walk (segments : List Segment) : Reads (walk ctx t segments) := by
  cases segments with
  | nil => exact reads_throw _
  | cons segment rest => exact (reads_lift _).bind fun set => reads_walkFrom ctx t rest _

theorem reads_maker (set : EntitySet) (select : Option (List Identifier)) (record : Record) :
    Reads (maker ctx t set select record) :=
  EntitySet.reads_materialize ctx t.request t.depth set t.options select record

theorem reads_entityJson (entity : Entity) : Reads (entityJson ctx t entity) := by
  apply (Entity.reads_toJson ctx t.request t.depth t.options entity).bind
  intro json
  cases json <;> exact reads_pure _

theorem reads_entityResponse (status : Nat) (entity : Entity) :
    Reads (entityResponse ctx t status entity) :=
  (reads_entityJson ctx t entity).bind fun _ => reads_pure _

theorem reads_pageResponse (path : ResourcePath) (set : EntitySet) (fragment : String)
    {render : Entity → Action Json} (renders : ∀ entity, Reads (render entity)) :
    Reads (pageResponse ctx t path set fragment render) :=
  (Pager.reads_firstPage ctx set (reads_maker ctx t set) t.options).bind fun page =>
    (Reads.mapM renders page.entities).bind fun _ => reads_pure _

theorem reads_entityPage (path : ResourcePath) (set : EntitySet) :
    Reads (entityPage ctx t path set) :=
  reads_pageResponse ctx t path set _ (Entity.reads_toJson ctx t.request t.depth t.options)

theorem reads_readEntity (set : EntitySet) (key : Key) : Reads (readEntity ctx t set key) :=
  (EntitySet.reads_readScoped set key).bind fun record => (reads_lift _).bind fun _ =>
    reads_maker ctx t set _ record

theorem reads_getRequest (path : ResourcePath) (place : Place) :
    Reads (getRequest ctx t path place) := by
  rw [getRequest]
  cases place.key with
  | some text =>
    exact (reads_lift _).bind fun key => (reads_readEntity ctx t _ key).bind fun entity =>
      reads_entityResponse ctx t 200 entity
  | none =>
    cases place.set.source with
    | none => exact reads_entityPage ctx t path _
    | some source =>
      refine (EntitySet.reads_resolve ctx t.request _ (reads_maker ctx t _) none _).bind
        fun found => ?_
      cases found with
      | many target => exact reads_entityPage ctx t path target
      | one entity =>
        cases entity with
        | none => exact reads_pure _
        | some entity => exact reads_entityResponse ctx t 200 entity

theorem reads_countRequest (place : Place) : Reads (countRequest ctx t place) := by
  apply (reads_lift _).bind
  intro _
  split
  · exact reads_throw _
  · exact (reads_lift _).bind fun plan =>
      (EntitySet.reads_count _ plan).bind fun _ => reads_pure _

theorem reads_getReference (path : ResourcePath) (place : Place) :
    Reads (getReference ctx t path place) := by
  rw [getReference]
  split
  · exact (reads_keyOf ctx t _ _).bind fun key => (reads_readEntity ctx t _ key).bind fun _ =>
      reads_pure _
  · exact reads_pageResponse ctx t path _ _ fun _ => reads_pure _

end Service

/-! ## Entities without expansions -/

namespace EntitySet

/-- The entity of a record if nothing is expanded. -/
def plainEntity (set : EntitySet) (select : Option (List Identifier)) (record : Record) :
    Result Entity := do
  pure ⟨set.name, ← Key.ofRecord set.entityType record, set.selectedValues select record, []⟩

/-- Whether a record has values for the whole key. -/
def HasKey (set : EntitySet) (record : Record) : Prop :=
  ∃ key, Key.ofRecord set.entityType record = .ok key

variable {set : EntitySet}

theorem materialize_of_plain (ctx : Context) (request : Request) (depth : Nat)
    {options : QueryOptions} (select : Option (List Identifier)) (record : Record)
    (plain : options.expand = []) :
    set.materialize ctx request depth options select record =
      liftM (set.plainEntity select record) := by
  cases options
  simp only at plain
  subst plain
  rw [materialize, expandAll, plainEntity]
  cases Key.ofRecord set.entityType record <;> rfl

theorem yields_materialize (ctx : Context) (request : Request) (depth : Nat) (store : Store)
    {options : QueryOptions} {select : Option (List Identifier)} {record : Record} {entity : Entity}
    (plain : options.expand = []) (made : set.plainEntity select record = .ok entity) :
    Yields (set.materialize ctx request depth options select record) store entity := by
  rw [materialize_of_plain ctx request depth select record plain, made]
  exact yields_lift entity store

theorem exists_mapM_plainEntity (select : Option (List Identifier)) (items : List Record)
    (complete : ∀ record ∈ items, set.HasKey record) :
    ∃ entities, items.mapM (set.plainEntity select) = .ok entities ∧
      entities.length = items.length := by
  induction items with
  | nil => exact ⟨[], rfl, rfl⟩
  | cons record rest ih =>
    obtain ⟨key, found⟩ := complete record List.mem_cons_self
    obtain ⟨entities, made, length⟩ := ih fun r member =>
      complete r (List.mem_cons_of_mem _ member)
    refine ⟨⟨set.name, key, set.selectedValues select record, []⟩ :: entities, ?_, ?_⟩
    · rw [List.mapM_cons, made, plainEntity, found]
      rfl
    · rw [List.length_cons, List.length_cons, length]

theorem yields_mapM_materialize (ctx : Context) (request : Request) (depth : Nat)
    {options : QueryOptions} (plain : options.expand = []) {select : Option (List Identifier)} :
    ∀ (items : List Record) (entities : List Entity) (store : Store),
      items.mapM (set.plainEntity select) = .ok entities →
      Yields (items.mapM (set.materialize ctx request depth options select)) store entities := by
  intro items
  induction items with
  | nil =>
    intro entities store made
    cases made
    exact yields_pure [] store
  | cons record rest ih =>
    intro entities store made
    rw [List.mapM_cons] at made ⊢
    cases first : set.plainEntity select record with
    | error e => rw [first] at made; cases made
    | ok entity =>
      rw [first] at made
      cases others : rest.mapM (set.plainEntity select) with
      | error e => rw [others] at made; cases made
      | ok found =>
        rw [others] at made
        cases made
        exact (yields_materialize ctx request depth store plain first).bind fun after _ =>
          (ih found after others).bind fun last _ => yields_pure _ last

end EntitySet

/-! ## Answers -/

theorem Entity.toJson_of_plain (ctx : Context) (request : Request) (depth : Nat)
    {options : QueryOptions} (entity : Entity) (plain : options.expand = []) :
    entity.toJson ctx request depth options = pure (.object (valueMembers entity.values)) := by
  cases options
  simp only at plain
  subst plain
  rw [toJson, expandedMembers]
  · rfl
  · simp

namespace Service

/-- An entity without expansions, as the answer of a request. -/
def plainJson (ctx : Context) (entity : Entity) : Json :=
  let context := contextUrl ctx (entity.set.text ++ "/$entity")
  .object (((Entity.valueMembers entity.values).insert "@odata.context" (.str context)).insert
    "@odata.id" (.str (entityUrl ctx entity)))

theorem entityResponse_of_plain (ctx : Context) {t : Transaction} (plain : t.options.expand = [])
    (status : Nat) (entity : Entity) :
    entityResponse ctx t status entity = pure ⟨status, .json (plainJson ctx entity)⟩ := by
  rw [entityResponse, entityJson, Entity.toJson_of_plain ctx t.request t.depth entity plain]
  rfl

end Service

end OData
