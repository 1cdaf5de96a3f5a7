import OData.Proofs.Expansion.Contents
import OData.Proofs.Service.Confinement

/-!
# The entities in an answer

The answer of a GET is an entity or a page of entities, and the objects of these contain those of
the related entities that they show.  Each object in the answer shows the expansions of a stored
record, with the options that led to it.
-/

set_option autoImplicit false

namespace OData

open OData.Action
open Json (Members)
open QueryOptions (Linkable)

/-- The objects in an object that is shown with some options, each with the options that it is
shown with. -/
inductive Contains : QueryOptions → Json → QueryOptions → Members → Prop
  | self {options : QueryOptions} {members : Members} :
      Contains options (.object members) options members
  | one {options item inner : QueryOptions} {name : String} {members found : Members}
      {json : Json} :
      (name, item) ∈ options.expand → members.get? name = some json →
      Contains item json inner found → Contains options (.object members) inner found
  | many {options item inner : QueryOptions} {name : String} {members found : Members}
      {items : List Json} {json : Json} :
      (name, item) ∈ options.expand → members.get? name = some (.array items) → json ∈ items →
      Contains item json inner found → Contains options (.object members) inner found

/-- The objects of entities in the answer of a request with some options.  The answer is an entity
if it has an identity, else a page. -/
inductive Answers (options : QueryOptions) : Json → QueryOptions → Members → Prop
  | entity {members found : Members} {inner : QueryOptions} {identity : Json} :
      members.get? "@odata.id" = some identity → Contains options (.object members) inner found →
      Answers options (.object members) inner found
  | page {members found : Members} {inner : QueryOptions} {items : List Json} {json : Json} :
      members.get? "@odata.id" = none → members.get? "value" = some (.array items) →
      json ∈ items → Contains options json inner found →
      Answers options (.object members) inner found

/-- The names of the members that the answer with one entity begins with. -/
def headerNames : List String := ["@odata.context", "@odata.id"]

/-- Members of the object of a stored record, which show its expansions. -/
structure ShowsRecord (ctx : Context) (store : Store) (options : QueryOptions)
    (definition : EntitySetDef) (record : Record) (members : Members) : Prop where
  known : definition ∈ ctx.model.sets
  stored : record ∈ store.rows definition.name.text
  object : ∃ own : Members, definition.object ctx store options record = .ok (.object own) ∧
    ∀ name ∉ headerNames, members.get? name = own.get? name
  shows : ∀ item ∈ options.expand, Shows ctx store definition record item (members.get? item.1)
    (members.get? (item.1 ++ "@odata.nextLink"))

variable {ctx : Context} {store : Store} {definition : EntitySetDef} {record : Record}
  {options : QueryOptions} {json : Json}

section Rendered

variable (stored : ctx.model.InMemory) (large : ctx.config.pagination.maxPageSize + 1 < recordLimit)

include stored large

theorem showsRecord_of_object (known : definition ∈ ctx.model.sets)
    (among : record ∈ store.rows definition.name.text)
    (linkable : Linkable ctx.config.limits options.expand)
    (object : definition.object ctx store options record = .ok json) :
    ∃ members, json = .object members ∧
      ShowsRecord ctx store options definition record members := by
  obtain ⟨members, same, shows⟩ := EntitySetDef.object_eq_ok stored large known linkable object
  rw [same] at object
  exact ⟨members, same, known, among, ⟨members, object, fun _ _ => rfl⟩, shows⟩

/-- An object in the object of a record shows a record, too. -/
theorem exists_record_of_contains {inner : QueryOptions} {found : Members}
    (contains : Contains options json inner found) :
    ∀ {definition : EntitySetDef} {record : Record} {members : Members},
      Linkable ctx.config.limits options.expand → json = .object members →
      ShowsRecord ctx store options definition record members →
      Linkable ctx.config.limits inner.expand ∧
        ∃ definition record, ShowsRecord ctx store inner definition record found := by
  induction contains with
  | self =>
    rintro definition record members linkable ⟨⟩ shown
    exact ⟨linkable, definition, record, shown⟩
  | one member value inside ih =>
    rintro definition record members linkable ⟨⟩ shown
    have shows := shown.shows _ member
    rw [value] at shows
    generalize Members.get? _ _ = link at shows
    cases shows with
    | none => cases inside
    | one leads stored' object =>
      obtain ⟨objects, same, shows⟩ := showsRecord_of_object stored large leads.known stored'
        (linkable.inside member) object
      exact ih (linkable.inside member) same shows
    | many => cases inside
  | many member value among inside ih =>
    rintro definition record members linkable ⟨⟩ shown
    have shows := shown.shows _ member
    rw [value] at shows
    generalize Members.get? _ _ = link at shows
    cases shows with
    | one leads stored' object =>
      obtain ⟨_, same, _⟩ := showsRecord_of_object stored large leads.known stored'
        (linkable.inside member) object
      cases same
    | many leads collects made page =>
      obtain ⟨row, left, object⟩ := Result.exists_of_mem_mapM page.shown among
      have stored' := page.sorted.mem_rows (List.mem_of_mem_take left)
      obtain ⟨objects, same, shows⟩ := showsRecord_of_object stored large leads.known stored'
        (linkable.inside member) object
      exact ih (linkable.inside member) same shows

end Rendered

/-! ## Answers with one entity -/

/-- Members about the answer do not hide what is shown. -/
theorem ShowsRecord.insert {members : Members} {name : String}
    (shown : ShowsRecord ctx store options definition record members)
    (linkable : Linkable ctx.config.limits options.expand) (value : Json)
    (header : name ∈ headerNames) :
    ShowsRecord ctx store options definition record (members.insert name value) := by
  have marked : ∀ name ∈ headerNames, '@' ∈ name.toList := by decide
  have short : ∀ name ∈ headerNames, name.length < "@odata.nextLink".length := by decide
  obtain ⟨own, object, same⟩ := shown.object
  refine ⟨shown.known, shown.stored, ⟨own, object, fun other apart => ?_⟩, fun item member => ?_⟩
  · rw [← same other apart]
    apply Members.get?_insert_of_ne
    rintro rfl
    exact apart header
  · have plain := Identifier.at_not_mem ⟨item.1, (linkable.fits item member).1⟩
    have other : item.1 ≠ name := by
      rintro rfl
      exact plain (marked _ header)
    have longer : item.1 ++ "@odata.nextLink" ≠ name := by
      rintro rfl
      have short := short _ header
      rw [String.length_append] at short
      omega
    rw [Members.get?_insert_of_ne other, Members.get?_insert_of_ne longer]
    exact shown.shows item member

theorem ShowsRecord.identified {members : Members}
    (shown : ShowsRecord ctx store options definition record members)
    (linkable : Linkable ctx.config.limits options.expand) (context identity : Json) :
    ShowsRecord ctx store options definition record
      ((members.insert "@odata.context" context).insert "@odata.id" identity) :=
  (shown.insert linkable context (by decide)).insert linkable identity (by decide)

/-! ## Answers with a page -/

namespace Pager

variable {set : EntitySet}

/-- A first page has the entities that are made of the records of its pager, which are rows. -/
theorem exists_recordPage_of_firstPage {make : EntitySet.Maker} {page : Page} {after : Store}
    (run : (firstPage ctx set options make).runOn store = (.ok page, after)) :
    ∃ plan pager found next middle entities,
      set.plan ctx options = .ok plan ∧ open? ctx set options = .ok pager ∧
      (pager.nextRecords ctx set options).runOn store = (.ok (some (found, next)), middle) ∧
      (∀ row ∈ found.records, row ∈ store.rows set.definition.name.text) ∧
      middle.tables = store.tables ∧
      (found.records.mapM (make plan.select)).runOn middle = (.ok entities, after) ∧
      page = ⟨entities, found.count, found.skipToken⟩ := by
  obtain ⟨pager, opens, run⟩ := runOn_lift_bind_ok_iff.mp run
  obtain ⟨plan, accepted, rest⟩ := Result.bind_eq_ok.mp opens
  obtain ⟨start, _, result⟩ := Result.bind_eq_ok.mp rest
  cases result
  obtain ⟨result, ending, run, shown⟩ := runOn_bind_ok_iff.mp run
  obtain ⟨found, middle, records, run⟩ := runOn_bind_ok_iff.mp run
  obtain ⟨kept, page, next, rfl, same, chosen, _⟩ :=
    ensures_nextRecords options rfl store found middle rfl records
  obtain ⟨entities, last, makes, result⟩ := runOn_bind_ok_iff.mp run
  cases result
  cases shown
  rw [same] at makes
  exact ⟨plan, _, page, next, middle, entities, accepted, opens, records,
    fun row member => (QueryPlan.mem_matching_iff.mp (chosen row member)).1, kept, makes, rfl⟩

end Pager

namespace Service

section Members

variable (ctx) (fragment : String) (count : Option Nat) (items : List Json) (link : Option String)

/-- A page is no entity. -/
theorem get?_pageMembers_id :
    (pageMembers ctx fragment count items link).get? "@odata.id" = none := by
  cases count <;> cases link <;> simp [pageMembers, Members.get?]

theorem get?_pageMembers_value :
    (pageMembers ctx fragment count items link).get? "value" = some (.array items) := by
  cases count <;> cases link <;> simp [pageMembers, Members.get?_cons]

theorem get?_pageMembers_link :
    (pageMembers ctx fragment count items link).get? "@odata.nextLink" = link.map Json.str := by
  cases count <;> cases link <;> simp [pageMembers, Members.get?]

end Members

variable {t : Transaction}

/-- A page is answered if its records are found and rendered. -/
theorem runOn_entityPage_eq_ok {path : ResourcePath} {set : EntitySet} {response : Response}
    {after : Store} : (entityPage ctx t path set).runOn store = (.ok response, after) ↔
      ∃ page middle items,
        (Pager.firstPage ctx set t.options (maker ctx t set)).runOn store = (.ok page, middle) ∧
        (page.entities.mapM (Entity.toJson ctx t.request t.depth t.options)).runOn middle =
          (.ok items, after) ∧
        response = .ok (.object (pageMembers ctx set.name.text page.count items
          (page.skipToken.map (nextLink ctx t path)))) := by
  have same (page : Page) : (page.skipToken.map fun token =>
      ("@odata.nextLink", Json.str (nextLink ctx t path token))) =
        (page.skipToken.map (nextLink ctx t path)).map fun text =>
          ("@odata.nextLink", Json.str text) := by
    rw [Option.map_map]
    rfl
  rw [entityPage, pageResponse, runOn_bind_ok_iff]
  simp only [same]
  constructor
  · rintro ⟨page, middle, paged, run⟩
    obtain ⟨items, last, renders, result⟩ := runOn_bind_ok_iff.mp run
    cases result
    exact ⟨page, middle, items, paged, renders, rfl⟩
  · rintro ⟨page, middle, items, paged, renders, rfl⟩
    exact ⟨page, middle, paged, runOn_bind_ok_iff.mpr ⟨items, after, renders, rfl⟩⟩

variable {inner : QueryOptions} {found : Members}

section Answering

variable (stored : ctx.model.InMemory) (large : ctx.config.pagination.maxPageSize + 1 < recordLimit)
  (plain : t.request.Plain) (top : t.depth = 0)
  (linkable : Linkable ctx.config.limits t.options.expand)

include stored plain top linkable

/-- The entity that a maker makes of a record has the object of the record. -/
theorem object_of_maker {set : EntitySet} (known : set.definition ∈ ctx.model.sets)
    {select : Option (List Identifier)}
    (selected : QueryPlan.bindSelect set.definition.entityType t.options.select = .ok select)
    {entity : Entity} {other middle after last : Store} (same : other.tables = store.tables)
    (makes : (maker ctx t set select record).runOn other = (.ok entity, middle))
    (kept : after.tables = store.tables)
    (renders : (entity.toJson ctx t.request t.depth t.options).runOn after = (.ok json, last)) :
    set.definition.object ctx store t.options record = .ok json := by
  rw [maker, top] at makes
  rw [top] at renders
  have made := (EntitySet.settles_materialize stored plain known linkable.within
    select record).runOn_eq same
  rw [makes] at made
  have object := (Entity.settles_toJson stored plain linkable.within
    (Entity.known_of_entity stored known linkable.within made.symm)).runOn_eq kept
  rw [renders] at object
  rw [EntitySetDef.object, selected]
  simp only [bind, Except.bind, ← made]
  exact object.symm

include large

theorem exists_record_of_entityResponse {set : EntitySet} (known : set.definition ∈ ctx.model.sets)
    (among : record ∈ store.rows set.definition.name.text) {select : Option (List Identifier)}
    (selected : QueryPlan.bindSelect set.definition.entityType t.options.select = .ok select)
    {entity : Entity} {other middle after last : Store} (same : other.tables = store.tables)
    (makes : (maker ctx t set select record).runOn other = (.ok entity, middle))
    (kept : after.tables = store.tables) {status code : Nat} {body : Json}
    (run : (entityResponse ctx t status entity).runOn after = (.ok ⟨code, .json body⟩, last))
    (answers : Answers t.options body inner found) :
    Linkable ctx.config.limits inner.expand ∧
      ∃ definition record, ShowsRecord ctx store inner definition record found := by
  obtain ⟨shownJson, ending, run, result⟩ := runOn_bind_ok_iff.mp run
  cases result
  obtain ⟨json, final, renders, run⟩ := runOn_bind_ok_iff.mp run
  have object := object_of_maker stored plain top linkable known selected same makes kept renders
  obtain ⟨members, rfl, shown⟩ := showsRecord_of_object stored large known among linkable object
  cases run
  cases answers with
  | entity _ contains =>
    exact exists_record_of_contains stored large contains linkable rfl
      (shown.identified linkable _ _)
  | page absent =>
    rw [Members.get?_insert_self] at absent
    cases absent

/-- The entities on a page show records. -/
theorem exists_record_of_entityPage {path : ResourcePath} {set : EntitySet}
    (known : set.definition ∈ ctx.model.sets) {other last : Store}
    (same : other.tables = store.tables) {code : Nat} {body : Json}
    (run : (entityPage ctx t path set).runOn other = (.ok ⟨code, .json body⟩, last))
    (answers : Answers t.options body inner found) :
    Linkable ctx.config.limits inner.expand ∧
      ∃ definition record, ShowsRecord ctx store inner definition record found := by
  obtain ⟨offered, table⟩ := stored _ known
  obtain ⟨page, middle, items, paged, renders, response⟩ := runOn_entityPage_eq_ok.mp run
  cases response
  have kept := (Pager.reads_firstPage ctx set (reads_maker ctx t set) t.options).tables_eq paged
  obtain ⟨plan, _, ⟨records, _, _⟩, _, start, entities, accepted, _, _, rows, begins, makes, rfl⟩ :=
    Pager.exists_recordPage_of_firstPage paged
  -- the entities are made of the records, and rendered as their objects
  rw [top] at renders
  have makers : (records.mapM (set.materialize ctx t.request 0 t.options plan.select)).runOn start =
      (.ok entities, middle) := by
    rw [← top]
    exact makes
  have settles : Settles (records.mapM (set.materialize ctx t.request 0 t.options plan.select))
      store (records.mapM (set.definition.entity ctx store t.options plan.select)) :=
    Settles.mapM fun record _ =>
      EntitySet.settles_materialize stored plain known linkable.within plan.select record
  have made := settles.runOn_eq (begins.trans same)
  rw [makers] at made
  have shown := (Pager.settles_rendered stored plain known linkable.within made.symm).runOn_eq
    (kept.trans same)
  rw [renders] at shown
  have objects : records.mapM (set.definition.object ctx store t.options) = .ok items := by
    rw [funext (Pager.object_eq accepted), ← Result.mapM_bind_eq_ok]
    exact ⟨entities, made.symm, shown.symm⟩
  cases answers with
  | entity identity =>
    rw [get?_pageMembers_id] at identity
    cases identity
  | page _ value among contains =>
    rw [get?_pageMembers_value] at value
    cases value
    obtain ⟨row, member, object⟩ := Result.exists_of_mem_mapM objects among
    have row_mem := rows row member
    rw [Store.rows_congr same] at row_mem
    obtain ⟨members, rfl, shown⟩ := showsRecord_of_object stored large known row_mem linkable object
    exact exists_record_of_contains stored large contains linkable rfl shown

/-- The answer to a GET of entities shows records. -/
theorem exists_record_of_getRequest {path : ResourcePath} {place : Place}
    (known : place.set.definition ∈ ctx.model.sets) {other last : Store}
    (same : other.tables = store.tables) {code : Nat} {body : Json}
    (run : (getRequest ctx t path place).runOn other = (.ok ⟨code, .json body⟩, last))
    (answers : Answers t.options body inner found) :
    Linkable ctx.config.limits inner.expand ∧
      ∃ definition record, ShowsRecord ctx store inner definition record found := by
  rw [getRequest] at run
  cases keyed : place.key with
  | some text =>
    simp only [keyed] at run
    obtain ⟨key, _, run⟩ := runOn_lift_bind_ok_iff.mp run
    obtain ⟨entity, middle, read, answer⟩ := runOn_bind_ok_iff.mp run
    have kept := (reads_readEntity ctx t place.set key).tables_eq read
    obtain ⟨row, between, related, read⟩ := runOn_bind_ok_iff.mp read
    obtain ⟨plan, accepted, makes⟩ := runOn_lift_bind_ok_iff.mp read
    obtain ⟨_, stored', rfl⟩ := EntitySet.runOn_readRecord_ok_iff.mp
      (EntitySet.readRecord_of_readScoped related)
    have member : row ∈ store.rows place.set.definition.name.text := by
      rw [← Store.rows_congr same]
      exact List.mem_of_find?_eq_some stored'
    exact exists_record_of_entityResponse stored large plain top linkable known member
      (EntitySet.bindSelect_of_plan accepted) same makes (kept.trans same) answer answers
  | none =>
    cases led : place.set.source with
    | none =>
      simp only [keyed, led] at run
      exact exists_record_of_entityPage stored large plain top linkable known same run answers
    | some source =>
      simp only [keyed, led] at run
      rw [EntitySet.resolve, EntitySet.explicitTarget_of_plain plain, lift_ok_bind] at run
      simp only [EntitySet.resolveScoped, led] at run
      cases collects : source.isCollection with
      | true =>
        simp only [collects, if_true, pure_bind] at run
        exact exists_record_of_entityPage stored large plain top linkable known same run answers
      | false =>
        simp only [collects, Bool.false_eq_true, if_false, bind_assoc, pure_bind] at run
        obtain ⟨entity, middle, first, run⟩ := runOn_bind_ok_iff.mp run
        have kept := (EntitySet.reads_firstEntity ctx place.set (reads_maker ctx t place.set)
          t.options).tables_eq first
        cases entity with
        | none => cases run
        | some entity =>
          obtain ⟨row, select, start, final, member, selected, tables, makes⟩ :=
            EntitySet.of_firstEntity same first entity rfl
          exact exists_record_of_entityResponse stored large plain top linkable known member
            selected tables makes (kept.trans same) run answers

/-- Every object in the answer to a GET of entities shows the expansions of a stored record. -/
theorem exists_record_of_execute {segments : List Segment}
    (path : ResourcePath.parse (ctx.config.endpoint.resourcePath t.request.path) =
      .ok (.resource segments none)) {after : Store} {code : Nat} {body : Json}
    (run : (execute ctx t).runOn store = (.ok ⟨code, .json body⟩, after))
    (answers : Answers t.options body inner found) :
    Linkable ctx.config.limits inner.expand ∧
      ∃ definition record, ShowsRecord ctx store inner definition record found := by
  rw [execute, path, lift_ok_bind] at run
  obtain ⟨place, middle, walked, run⟩ := runOn_bind_ok_iff.mp run
  simp only [entityRequest, plain.method] at run
  exact exists_record_of_getRequest stored large plain top linkable (mem_sets_of_walk walked)
    ((reads_walk ctx t segments).tables_eq walked) run answers

end Answering

end Service

end OData
