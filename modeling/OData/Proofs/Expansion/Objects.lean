import OData.Proofs.Expansion.Agreement

/-!
# Objects of records

The object of a record with some options is the same wherever it is shown: as the answer of a
request, on a page or inside an expansion.  Of each expansion it shows the related entity, or the
first page of the related entities and a link to the others.
-/

set_option autoImplicit false

namespace OData

open OData.Action

/-- A request that says nothing but that something is to be read. -/
def Request.bare : Request := ⟨.get, "", [], none⟩

theorem Request.plain_bare : Request.bare.Plain := ⟨rfl, rfl⟩

/-- The entity of a record, given the names that are selected. -/
def EntitySetDef.entity (ctx : Context) (store : Store) (definition : EntitySetDef)
    (options : QueryOptions) (select : Option (List Identifier)) (record : Record) :
    Result Entity :=
  (((EntitySet.root definition).materialize ctx .bare 0 options select record).runOn store).1

/-- The object of an entity. -/
def Entity.object (ctx : Context) (store : Store) (options : QueryOptions) (entity : Entity) :
    Result Json :=
  ((entity.toJson ctx .bare 0 options).runOn store).1

/-- The object of a record. -/
def EntitySetDef.object (ctx : Context) (store : Store) (definition : EntitySetDef)
    (options : QueryOptions) (record : Record) : Result Json := do
  let select ← QueryPlan.bindSelect definition.entityType options.select
  let entity ← definition.entity ctx store options select record
  entity.object ctx store options

variable {ctx : Context} {store : Store} {set : EntitySet} {request : Request}
  {options : QueryOptions} {depth : Nat}

/-! ## Objects wherever they are shown -/

namespace EntitySet

theorem expandAll_root (depth : Nat) (set : EntitySet) (record : Record) (items : List Expansion) :
    set.expandAll ctx request depth record items =
      (root set.definition).expandAll ctx request depth record items := by
  induction items with
  | nil => rw [expandAll, expandAll]
  | cons item rest ih =>
    obtain ⟨name, options⟩ := item
    rw [expandAll, expandAll, ih]
    rfl

/-- An entity does not depend on how its set was reached. -/
theorem materialize_root (depth : Nat) (set : EntitySet) (options : QueryOptions)
    (select : Option (List Identifier)) (record : Record) :
    set.materialize ctx request depth options select record =
      (root set.definition).materialize ctx request depth options select record := by
  obtain ⟨_, _, _, expand, _, _, _, _⟩ := options
  rw [materialize, materialize, expandAll_root]
  rfl

theorem agree_bare (stored : ctx.model.InMemory) (plain : request.Plain)
    (known : set.definition ∈ ctx.model.sets)
    (within : ctx.config.limits.checkList (depth + 1) options.expand = .ok ())
    (select : Option (List Identifier)) (record : Record) :
    Agree store (Entity.Known ctx.model) (set.materialize ctx request depth options select record)
      ((root set.definition).materialize ctx .bare 0 options select record) := by
  rw [materialize_root]
  have member : (root set.definition).definition ∈ ctx.model.sets := known
  exact agree_materialize stored plain Request.plain_bare member options within
    (QueryLimits.checkList_mono (Nat.le_add_left 1 depth) within) select record

theorem settles_materialize (stored : ctx.model.InMemory) (plain : request.Plain)
    (known : set.definition ∈ ctx.model.sets)
    (within : ctx.config.limits.checkList (depth + 1) options.expand = .ok ())
    (select : Option (List Identifier)) (record : Record) :
    Settles (set.materialize ctx request depth options select record) store
      (set.definition.entity ctx store options select record) :=
  (agree_bare stored plain known within select record).settles.1

end EntitySet

theorem Entity.known_of_entity (stored : ctx.model.InMemory) {definition : EntitySetDef}
    (known : definition ∈ ctx.model.sets)
    (within : ctx.config.limits.checkList 1 options.expand = .ok ())
    {select : Option (List Identifier)} {record : Record} {entity : Entity}
    (made : definition.entity ctx store options select record = .ok entity) :
    entity.Known ctx.model := by
  have member : (EntitySet.root definition).definition ∈ ctx.model.sets := known
  have agree : Agree store (Entity.Known ctx.model)
      ((EntitySet.root definition).materialize ctx .bare 0 options select record)
      ((EntitySet.root definition).materialize ctx .bare 0 options select record) :=
    EntitySet.agree_bare stored Request.plain_bare member within select record
  exact agree.settles.2 entity made

theorem Entity.settles_toJson (stored : ctx.model.InMemory) (plain : request.Plain)
    (within : ctx.config.limits.checkList (depth + 1) options.expand = .ok ()) {entity : Entity}
    (known : entity.Known ctx.model) :
    Settles (entity.toJson ctx request depth options) store (entity.object ctx store options) :=
  (Entity.agree_toJson stored plain Request.plain_bare options within
    (QueryLimits.checkList_mono (Nat.le_add_left 1 depth) within) entity known).settles.1

theorem EntitySet.materialize_resume (set : EntitySet) (options : QueryOptions)
    (token : Option String) (select : Option (List Identifier)) (record : Record) :
    set.materialize ctx request depth (Pager.resume options token) select record =
      set.materialize ctx request depth options select record := by
  cases options
  rw [Pager.resume, materialize, materialize]

theorem Entity.toJson_resume (options : QueryOptions) (token : Option String) :
    Entity.toJson ctx request depth (Pager.resume options token) =
      Entity.toJson ctx request depth options := by
  cases options
  funext entity
  rw [Pager.resume, toJson, toJson]

/-! ## Pages of objects -/

namespace Pager

variable {offered : CapabilitySet} {plan : QueryPlan} {make : EntitySet.Maker}
  {made : Option (List Identifier) → Record → Result Entity} {token : Option String}
  {consumed : Nat} {remaining : Option Nat} {selected : List Record}

/-- A page holds the entities of the first records that are left. -/
theorem settles_firstPage (table : set.definition.backing = .table offered)
    (large : ctx.config.pagination.maxPageSize + 1 < recordLimit)
    (accepted : set.plan ctx options = .ok plan)
    (begins : Begins ctx.libraries.tokenFault plan options token consumed remaining)
    (offers : Offers set options remaining)
    (sorted : Sorted ctx set store plan remaining selected)
    (makes : ∀ select record, Settles (make select record) store (made select record)) :
    let rows := store.rows set.definition.name.text
    let size := pageSizeOf ctx.config.pagination options.top
    let left := leftOf options selected consumed remaining
    Settles (firstPage ctx set (resume options token) make) store
      ((left.take size).mapM (made plan.select) >>= fun entities => .ok
        { entities, count := if options.count then some (rows.countP plan.admits) else none,
          skipToken := nextToken plan size consumed remaining left }) := by
  intro rows size left other same
  obtain ⟨middle, kept, run⟩ := runOn_firstPage make table large accepted begins offers sorted same
  have settles : Settles ((left.take size).mapM (make plan.select)) store
      ((left.take size).mapM (made plan.select)) :=
    Settles.mapM fun record _ => makes plan.select record
  obtain ⟨after, shown, last⟩ := settles middle kept
  refine ⟨after, run.trans ?_, last⟩
  cases outcome : (left.take size).mapM (made plan.select) with
  | error e =>
    rw [outcome] at shown
    exact runOn_bind_of_error shown
  | ok entities =>
    rw [outcome] at shown
    exact runOn_bind_of_ok shown

theorem resume_none (plain : options.skipToken = none) : resume options none = options := by
  cases options
  cases plain
  rfl

theorem open?_eq_opened (fresh : options.skipToken = none) {pager : Pager}
    (accepted : set.plan ctx options = .ok plan) (opens : open? ctx set options = .ok pager) :
    pager = opened plan options (pageSizeOf ctx.config.pagination options.top) 0 options.top := by
  have first := open?_resume accepted (begins_first _ plan options)
  rw [resume_none fresh, opens] at first
  exact Except.ok.inj first

/-- A first page needs a plan, what its options take, and rows that are sorted if it takes any. -/
theorem exists_plan_of_firstPage (table : set.definition.backing = .table offered)
    (plain : options.skipToken = none) {page : Page} {after : Store}
    (run : (firstPage ctx set options make).runOn store = (.ok page, after)) :
    ∃ plan, set.plan ctx options = .ok plan ∧ Offers set options options.top ∧
      ∃ selected, Sorted ctx set store plan options.top selected := by
  obtain ⟨pager, opens, run⟩ := runOn_lift_bind_ok_iff.mp run
  obtain ⟨plan, accepted, _⟩ := Result.bind_eq_ok.mp opens
  cases open?_eq_opened plain accepted opens
  obtain ⟨found, middle, next, _⟩ := runOn_bind_ok_iff.mp run
  obtain ⟨records, last, records_, _⟩ := runOn_bind_ok_iff.mp next
  obtain ⟨offers, sorted⟩ := offers_of_nextRecords (pageSizeOf_pos _ _) table records_
  exact ⟨plan, accepted, offers, sorted⟩

section Pages

variable {set : EntitySet} {options : QueryOptions} {plan : QueryPlan} {token : Option String}
  {consumed : Nat} {remaining : Option Nat} {selected : List Record}
  (stored : ctx.model.InMemory) (plain : request.Plain)
  (large : ctx.config.pagination.maxPageSize + 1 < recordLimit)
  (known : set.definition ∈ ctx.model.sets)
  (within : ctx.config.limits.checkList (depth + 1) options.expand = .ok ())
  (accepted : set.plan ctx options = .ok plan)
  (begins : Begins ctx.libraries.tokenFault plan options token consumed remaining)
  (offers : Offers set options remaining) (sorted : Sorted ctx set store plan remaining selected)

include stored plain large known within accepted begins offers sorted

/-- A page has the entities of the first records that are left. -/
theorem settles_page :
    let rows := store.rows set.definition.name.text
    let size := pageSizeOf ctx.config.pagination options.top
    let left := leftOf options selected consumed remaining
    Settles (firstPage ctx set (resume options token)
        (set.materialize ctx request depth (resume options token))) store
      ((left.take size).mapM (set.definition.entity ctx store options plan.select) >>=
        fun entities => .ok
          { entities, count := if options.count then some (rows.countP plan.admits) else none,
            skipToken := nextToken plan size consumed remaining left }) := by
  obtain ⟨offered, table⟩ := stored _ known
  have makes : ∀ select record, Settles
      (set.materialize ctx request depth (resume options token) select record) store
      (set.definition.entity ctx store options select record) := by
    intro select record
    rw [EntitySet.materialize_resume]
    exact EntitySet.settles_materialize stored plain known within select record
  exact settles_firstPage table large accepted begins offers sorted makes

omit large accepted begins offers sorted in
/-- The entities of some records are rendered as their objects. -/
theorem settles_rendered {entities : List Entity} {records : List Record}
    (made : records.mapM (set.definition.entity ctx store options plan.select) = .ok entities) :
    Settles (entities.mapM (Entity.toJson ctx request depth options)) store
      (entities.mapM (Entity.object ctx store options)) := by
  refine Settles.mapM fun entity member => ?_
  obtain ⟨record, _, found⟩ := Result.exists_of_mem_mapM made member
  exact Entity.settles_toJson stored plain within (Entity.known_of_entity stored known
    (QueryLimits.checkList_mono (Nat.le_add_left 1 depth) within) found)

omit stored plain large known within begins offers sorted in
theorem object_eq (record : Record) : set.definition.object ctx store options record =
    (set.definition.entity ctx store options plan.select record >>=
      Entity.object ctx store options) := by
  have selected := EntitySet.bindSelect_of_plan accepted
  rw [EntitySet.entityType] at selected
  rw [EntitySetDef.object, selected]
  rfl

/-- A page shows the objects of the first records that are left. -/
theorem objects_of_page {page : Page} {items : List Json} {other middle last : Store}
    (same : other.tables = store.tables)
    (paged : (firstPage ctx set (resume options token)
      (set.materialize ctx request depth (resume options token))).runOn other = (.ok page, middle))
    (renders : (page.entities.mapM
      (Entity.toJson ctx request depth (resume options token))).runOn middle = (.ok items, last)) :
    let rows := store.rows set.definition.name.text
    let size := pageSizeOf ctx.config.pagination options.top
    let left := leftOf options selected consumed remaining
    (left.take size).mapM (set.definition.object ctx store options) = .ok items ∧
      page.skipToken = nextToken plan size consumed remaining left ∧
      page.count = if options.count then some (rows.countP plan.admits) else none := by
  intro rows size left
  obtain ⟨after, outcome, kept⟩ :=
    settles_page stored plain large known within accepted begins offers sorted other same
  rw [paged, Prod.mk.injEq] at outcome
  obtain ⟨result, rfl⟩ := outcome
  obtain ⟨entities, made, page_eq⟩ := Result.bind_eq_ok.mp result.symm
  cases page_eq
  have shown := (settles_rendered stored plain known within made).runOn_eq kept
  rw [Entity.toJson_resume] at renders
  rw [renders] at shown
  refine ⟨?_, rfl, rfl⟩
  rw [funext (object_eq accepted), ← Result.mapM_bind_eq_ok]
  exact ⟨entities, made, shown.symm⟩

/-- If the records that are left have objects, a page shows them. -/
theorem exists_page_of_objects {items : List Json} {other : Store}
    (same : other.tables = store.tables)
    (objects : ((leftOf options selected consumed remaining).take
      (pageSizeOf ctx.config.pagination options.top)).mapM
        (set.definition.object ctx store options) = .ok items) :
    ∃ page middle last, (firstPage ctx set (resume options token)
        (set.materialize ctx request depth (resume options token))).runOn other =
          (.ok page, middle) ∧
      (page.entities.mapM (Entity.toJson ctx request depth (resume options token))).runOn middle =
        (.ok items, last) := by
  rw [funext (object_eq accepted), ← Result.mapM_bind_eq_ok] at objects
  obtain ⟨entities, made, shown⟩ := objects
  obtain ⟨middle, outcome, kept⟩ :=
    settles_page stored plain large known within accepted begins offers sorted other same
  obtain ⟨last, renders, _⟩ := settles_rendered stored plain known within made middle kept
  rw [shown] at renders
  rw [made] at outcome
  rw [Entity.toJson_resume]
  exact ⟨_, middle, last, outcome, renders⟩

end Pages

end Pager

end OData
