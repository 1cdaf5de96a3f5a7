import OData.Proofs.Expansion.Objects
import OData.Proofs.Options.Roundtrip
import OData.Proofs.ResourcePath
import OData.Proofs.Service.Selection

/-!
# What objects show of their expansions

Of a single-valued navigation property an object shows the related entity, and of a collection the
first page.  If that is not all, the object has a link to the rest beside the page.
-/

set_option autoImplicit false

namespace OData

open OData.Action

variable {ctx : Context} {store : Store} {definition : EntitySetDef} {record : Record}
  {request : Request} {depth : Nat}

/-! ## Where expansions lead -/

/-- What the entity of a record has for an expansion. -/
inductive Leads (ctx : Context) (store : Store) (definition : EntitySetDef) (record : Record) :
    Expansion → Identifier × Related Entity → Prop
  | many {name : String} {options : QueryOptions} {navigation : NavigationProperty}
      {target : EntitySetDef} (leads : definition.LeadsTo ctx name navigation target)
      (collects : navigation.collection = true) :
      Leads ctx store definition record (name, options)
        (navigation.name, .many (definition.related target navigation record))
  | none {name : String} {options : QueryOptions} {navigation : NavigationProperty}
      {target : EntitySetDef} (leads : definition.LeadsTo ctx name navigation target) :
      Leads ctx store definition record (name, options) (navigation.name, .one none)
  | one {name : String} {options : QueryOptions} {navigation : NavigationProperty}
      {target : EntitySetDef} {row : Record} {select : Option (List Identifier)} {entity : Entity}
      (leads : definition.LeadsTo ctx name navigation target)
      (stored : row ∈ store.rows target.name.text)
      (selected : QueryPlan.bindSelect target.entityType options.select = .ok select)
      (made : target.entity ctx store options select row = .ok entity) :
      Leads ctx store definition record (name, options) (navigation.name, .one (some entity))

namespace EntitySet

variable {set : EntitySet} {options : QueryOptions}

/-- The entity that a single-valued navigation property leads to is that of a row. -/
theorem of_firstEntity {make : Maker} {found : Option Entity} {other after : Store}
    (same : other.tables = store.tables)
    (run : (set.firstEntity ctx options make).runOn other = (.ok found, after)) :
    ∀ entity, found = some entity → ∃ row select middle last,
      row ∈ store.rows set.definition.name.text ∧
        QueryPlan.bindSelect set.entityType options.select = .ok select ∧
        middle.tables = store.tables ∧
        (make select row).runOn middle = (.ok entity, last) := by
  obtain ⟨plan, accepted, run⟩ := runOn_lift_bind_ok_iff.mp run
  obtain ⟨head, middle, first, run⟩ := runOn_bind_ok_iff.mp run
  obtain ⟨kept, chosen⟩ := ensures_first plan other head middle same first
  cases head with
  | none =>
    cases run
    exact fun _ same => by cases same
  | some row =>
    obtain ⟨made, last, makes, result⟩ := runOn_bind_ok_iff.mp run
    cases result
    rintro entity ⟨⟩
    have stored := List.mem_of_mem_filter (chosen row rfl)
    exact ⟨row, plan.select, middle, _, stored, bindSelect_of_plan accepted, kept, makes⟩

theorem leads_of_expandAll (stored : ctx.model.InMemory) (plain : request.Plain)
    {items : List Expansion} :
    ∀ {found : List (Identifier × Related Entity)} {other after : Store},
      ctx.config.limits.checkList depth items = .ok () → other.tables = store.tables →
      (set.expandAll ctx request depth record items).runOn other = (.ok found, after) →
      List.Forall₂ (Leads ctx store set.definition record) items found := by
  induction items with
  | nil =>
    intro found other after _ _ run
    rw [expandAll] at run
    cases run
    exact .nil
  | cons item rest ih =>
    obtain ⟨name, options⟩ := item
    intro found other after within same run
    rw [QueryLimits.checkList] at within
    obtain ⟨⟨⟩, here, others⟩ := Result.bind_eq_ok.mp within
    rw [expandAll] at run
    obtain ⟨⟨⟩, _, run⟩ := runOn_lift_bind_ok_iff.mp run
    obtain ⟨target, led, run⟩ := runOn_lift_bind_ok_iff.mp run
    obtain ⟨property, named, run⟩ := runOn_lift_bind_ok_iff.mp run
    obtain ⟨related, middle, resolved, run⟩ := runOn_bind_ok_iff.mp run
    obtain ⟨entries, last, later, result⟩ := runOn_bind_ok_iff.mp run
    cases result
    have kept := (reads_resolve ctx request target
      (fun select record => reads_materialize ctx request depth target options select record) none
      options).tables_eq resolved
    refine .cons ?_ (ih others (kept.trans same) later)
    obtain ⟨navigation, goal, declared, bound, rfl⟩ := navigate_eq_ok led
    have leads : set.definition.LeadsTo ctx name navigation goal := ⟨declared, bound⟩
    cases expandedName_eq_ok rfl named
    rw [resolve, explicitTarget_of_plain plain, lift_ok_bind] at resolved
    simp only [resolveScoped, Source.isCollection] at resolved
    cases collects : navigation.collection with
    | true =>
      simp only [collects, if_true] at resolved
      cases resolved
      exact .many leads collects
    | false =>
      simp only [collects, Bool.false_eq_true, if_false] at resolved
      obtain ⟨entity, final, first, result⟩ := runOn_bind_ok_iff.mp resolved
      cases result
      cases entity with
      | none => exact .none leads
      | some entity =>
        obtain ⟨row, select, start, last, member, selected, tables, makes⟩ :=
          of_firstEntity same first entity rfl
        have settles : Settles ((set.definition.related goal navigation record).materialize ctx
            request depth options select row) store (goal.entity ctx store options select row) :=
          settles_materialize stored plain leads.known (QueryLimits.checkList_of_check here) select
            row
        have made := settles.runOn_eq tables
        rw [EntitySetDef.related, makes] at made
        exact .one leads member selected made.symm

end EntitySet

/-- The entity of a record has its key, its selected values and what its expansions lead to. -/
theorem EntitySetDef.entity_eq_ok (stored : ctx.model.InMemory) {options : QueryOptions}
    (within : ctx.config.limits.checkList 1 options.expand = .ok ())
    {select : Option (List Identifier)} {entity : Entity}
    (made : definition.entity ctx store options select record = .ok entity) :
    Key.ofRecord definition.entityType record = .ok entity.key ∧
      entity.set = definition.name ∧
      entity.values = (EntitySet.root definition).selectedValues select record ∧
      List.Forall₂ (Leads ctx store definition record) options.expand entity.expansions := by
  obtain ⟨filter, orderBy, chosen, expand, top, skip, count, skipToken⟩ := options
  cases run : ((EntitySet.root definition).materialize ctx .bare 0
      ⟨filter, orderBy, chosen, expand, top, skip, count, skipToken⟩ select record).runOn store with
  | mk result after =>
    rw [EntitySetDef.entity, run] at made
    cases made
    rw [EntitySet.materialize] at run
    obtain ⟨key, keyed, run⟩ := runOn_lift_bind_ok_iff.mp run
    obtain ⟨found, middle, expands, result⟩ := runOn_bind_ok_iff.mp run
    cases result
    have leads : List.Forall₂ (Leads ctx store (EntitySet.root definition).definition record) expand
        found := EntitySet.leads_of_expandAll stored Request.plain_bare within rfl expands
    exact ⟨keyed, rfl, rfl, leads⟩

/-! ## Names of members -/

/-- The names of the members for an expansion. -/
def memberNames (name : String) : List String :=
  [name, name ++ "@odata.count", name ++ "@odata.nextLink"]

/-- The name of an expansion is that of its members up to the sign of an annotation. -/
theorem takeWhile_of_mem_memberNames {name member : String} (plain : '@' ∉ name.toList)
    (among : member ∈ memberNames name) : member.toList.takeWhile (· != '@') = name.toList := by
  have letters : ∀ c ∈ name.toList, (c != '@') = true := by
    intro c inside
    rw [bne_iff_ne]
    rintro rfl
    exact plain inside
  have annotated (cs : List Char) :
      (name.toList ++ '@' :: cs).takeWhile (· != '@') = name.toList := by
    rw [List.takeWhile_append_of_pos letters, List.takeWhile_cons_of_neg (by simp), List.append_nil]
  simp only [memberNames, List.mem_cons, List.not_mem_nil, or_false] at among
  rcases among with rfl | rfl | rfl
  · exact List.takeWhile_eq_self_iff.mpr letters
  · rw [String.toList_append]
    exact annotated _
  · rw [String.toList_append]
    exact annotated _

theorem not_mem_memberNames {name other member : String} (plain : '@' ∉ name.toList)
    (unmarked : '@' ∉ other.toList) (apart : name ≠ other) (among : member ∈ memberNames name) :
    member ∉ memberNames other := by
  intro both
  have same := (takeWhile_of_mem_memberNames plain among).symm.trans
    (takeWhile_of_mem_memberNames unmarked both)
  exact apart (String.toList_inj.mp same)

/-! ## Rendering -/

/-- The address of what is left of an expanded collection. -/
def linkText (ctx : Context) (definition : EntitySetDef) (key : Key)
    (navigation : NavigationProperty) (options : QueryOptions) (token : String) : String :=
  ctx.config.endpoint.url ++ "/" ++ definition.name.text ++ key.toText ++ "/" ++
    navigation.name.text ++ "?" ++
      Text.Form.encodePairs (options.toPairs ++ [(Request.skipTokenName, token)])

/-- The objects of the first entities that are left of a query. -/
structure ShowsPage (ctx : Context) (store : Store) (set : EntitySet) (options : QueryOptions)
    (plan : QueryPlan) (selected : List Record) (items : List Json) : Prop where
  accepted : set.plan ctx options = .ok plan
  offers : Pager.Offers set options options.top
  sorted : Pager.Sorted ctx set store plan options.top selected
  shown : ((Pager.leftOf options selected 0 options.top).take
    (Pager.pageSizeOf ctx.config.pagination options.top)).mapM
      (set.definition.object ctx store options) = .ok items

/-- The skip token of the first page. -/
def firstToken (ctx : Context) (options : QueryOptions) (plan : QueryPlan)
    (selected : List Record) : Option String :=
  Pager.nextToken plan (Pager.pageSizeOf ctx.config.pagination options.top) 0 options.top
    (Pager.leftOf options selected 0 options.top)

/-- What the object of a record shows of an expansion: a value, and a link to the rest. -/
inductive Shows (ctx : Context) (store : Store) (definition : EntitySetDef) (record : Record) :
    Expansion → Option Json → Option Json → Prop
  | none {name : String} {options : QueryOptions} :
      Shows ctx store definition record (name, options) (some .null) none
  | one {name : String} {options : QueryOptions} {navigation : NavigationProperty}
      {target : EntitySetDef} {row : Record} {json : Json}
      (leads : definition.LeadsTo ctx name navigation target)
      (stored : row ∈ store.rows target.name.text)
      (object : target.object ctx store options row = .ok json) :
      Shows ctx store definition record (name, options) (some json) none
  | many {name : String} {options : QueryOptions} {navigation : NavigationProperty}
      {target : EntitySetDef} {key : Key} {plan : QueryPlan} {selected : List Record}
      {items : List Json} (leads : definition.LeadsTo ctx name navigation target)
      (collects : navigation.collection = true)
      (made : Key.ofRecord definition.entityType record = .ok key)
      (page : ShowsPage ctx store (definition.related target navigation record) options plan
        selected items) :
      Shows ctx store definition record (name, options) (some (.array items))
        ((firstToken ctx options plan selected).map fun token =>
          .str (linkText ctx definition key navigation options token))

namespace Entity

open Json (Members)

theorem get?_collectionMembers_self (name : String) (page : Page) (items : List Json)
    (link : Option String) (members : Members) :
    (collectionMembers name page items link members).get? name = some (.array items) :=
  Members.get?_insert_self _ _ _

theorem get?_insertIf_of_ne {name other : String} {value : Option Json} {members : Members}
    (apart : other ≠ name) : (insertIf name value members).get? other = members.get? other := by
  cases value with
  | none => rfl
  | some json => exact Members.get?_insert_of_ne apart

theorem get?_insertIf_self (name : String) (value : Option Json) (members : Members) :
    (insertIf name value members).get? name = value.or (members.get? name) := by
  cases value with
  | none => rfl
  | some json => exact Members.get?_insert_self _ _ _

theorem get?_collectionMembers_of_not_mem {name other : String} (page : Page) (items : List Json)
    (link : Option String) (members : Members) (outside : other ∉ memberNames name) :
    (collectionMembers name page items link members).get? other = members.get? other := by
  simp only [memberNames, List.mem_cons, List.not_mem_nil, or_false, not_or] at outside
  rw [collectionMembers, Members.get?_insert_of_ne outside.1, get?_insertIf_of_ne outside.2.2,
    get?_insertIf_of_ne outside.2.1]

theorem append_link_ne (name : String) : name ++ "@odata.nextLink" ≠ name := by
  intro same
  have size := congrArg String.length same
  simp at size

theorem get?_collectionMembers_link {name : String} (page : Page) (items : List Json)
    (link : Option String) (members : Members)
    (fresh : members.get? (name ++ "@odata.nextLink") = none) :
    (collectionMembers name page items link members).get? (name ++ "@odata.nextLink") =
      link.map Json.str := by
  have other : name ++ "@odata.nextLink" ≠ name ++ "@odata.count" := by
    intro same
    have chars := congrArg String.toList same
    simp at chars
  rw [collectionMembers, Members.get?_insert_of_ne (append_link_ne name), get?_insertIf_self,
    get?_insertIf_of_ne other, fresh, Option.or_none]

theorem expandedMembers_nil (entries : List (Identifier × Related Entity)) (members : Members) :
    expandedMembers ctx request depth [] entries members = pure members := by
  rw [expandedMembers]
  simp

theorem expandedMembers_cons (item : Expansion) (items : List Expansion)
    (entry : Identifier × Related Entity) (entries : List (Identifier × Related Entity))
    (members : Members) :
    expandedMembers ctx request depth (item :: items) (entry :: entries) members =
      expandedMembers ctx request depth [item] [entry] members >>= fun members =>
        expandedMembers ctx request depth items entries members := by
  obtain ⟨name, related⟩ := entry
  cases related with
  | one found =>
    cases found with
    | none =>
      rw [expandedMembers, expandedMembers]
      simp only [expandedMembers_nil, pure_bind]
    | some entity =>
      rw [expandedMembers, expandedMembers]
      simp only [expandedMembers_nil, bind_assoc, pure_bind]
  | many set =>
    rw [expandedMembers, expandedMembers]
    simp only [expandedMembers_nil, bind_assoc, pure_bind]

theorem pageLink_eq {key : Key} (made : Key.ofRecord definition.entityType record = .ok key)
    (target : EntitySetDef) (navigation : NavigationProperty) (options : QueryOptions)
    (page : Page) : pageLink ctx (definition.related target navigation record) options page =
      .ok (page.skipToken.map (linkText ctx definition key navigation options)) := by
  cases token : page.skipToken with
  | none => rw [pageLink, token]; rfl
  | some token =>
    rw [pageLink, token]
    simp only [EntitySet.nextLink, EntitySetDef.related, made]
    rfl

/-- Only the members for one expansion change, and they show it. -/
structure ShowsMember (ctx : Context) (store : Store) (definition : EntitySetDef) (record : Record)
    (item : Expansion) (members shown : Members) : Prop where
  shows : Shows ctx store definition record item (shown.get? item.1)
    (shown.get? (item.1 ++ "@odata.nextLink"))
  others : ∀ name ∉ memberNames item.1, shown.get? name = members.get? name

/-- A single value is shown without a link. -/
theorem showsMember_insert {item : Expansion} {members : Members} {json : Json}
    (fresh : members.get? (item.1 ++ "@odata.nextLink") = none)
    (shows : Shows ctx store definition record item (some json) none) :
    ShowsMember ctx store definition record item members (members.insert item.1 json) := by
  constructor
  · rwa [Members.get?_insert_self, Members.get?_insert_of_ne (append_link_ne item.1), fresh]
  · intro name outside
    simp only [memberNames, List.mem_cons, not_or] at outside
    exact Members.get?_insert_of_ne outside.1

section Shown

variable (stored : ctx.model.InMemory) (plain : request.Plain)
  (large : ctx.config.pagination.maxPageSize + 1 < recordLimit)
  (known : definition ∈ ctx.model.sets) {key : Key}
  (made : Key.ofRecord definition.entityType record = .ok key)

include stored plain large known made

theorem showsMember_many {name : String} {options : QueryOptions} {navigation : NavigationProperty}
    {target : EntitySetDef} (leads : definition.LeadsTo ctx name navigation target)
    (collects : navigation.collection = true)
    (within : ctx.config.limits.checkList (depth + 1) options.expand = .ok ())
    (tokenless : options.skipToken = none) {members : Members} {page : Page} {items : List Json}
    {link : Option String} {other middle last : Store} (same : other.tables = store.tables)
    (fresh : members.get? (name ++ "@odata.nextLink") = none)
    (paged : (Pager.firstPage ctx (definition.related target navigation record) options
      ((definition.related target navigation record).materialize ctx request depth options)).runOn
        other = (.ok page, middle))
    (renders : (page.entities.mapM (toJson ctx request depth options)).runOn middle =
      (.ok items, last))
    (linked : pageLink ctx (definition.related target navigation record) options page = .ok link) :
    ShowsMember ctx store definition record (name, options) members
      (collectionMembers name page items link members) := by
  have reached := leads.reached known record
  obtain ⟨offered, table⟩ := stored _ reached.known
  obtain ⟨plan, accepted, offers, selected, sorted⟩ :=
    Pager.exists_plan_of_firstPage table tokenless paged
  replace sorted := sorted.of_tables same.symm
  have resumed : Pager.resume options none = options := Pager.resume_none tokenless
  rw [← resumed] at paged renders
  obtain ⟨objects, token, -⟩ := Pager.objects_of_page stored plain large reached.known within
    accepted (Pager.begins_first _ plan options) offers sorted same paged renders
  rw [pageLink_eq made] at linked
  cases linked
  constructor
  · rw [get?_collectionMembers_self, get?_collectionMembers_link _ _ _ _ fresh, token,
      Option.map_map]
    exact .many leads collects made ⟨accepted, offers, sorted, objects⟩
  · exact fun other outside => get?_collectionMembers_of_not_mem _ _ _ _ outside

/-- The members for one expansion show it. -/
theorem showsMember_expandedMember {item : Expansion} {entry : Identifier × Related Entity}
    (leads : Leads ctx store definition record item entry)
    (within : ctx.config.limits.check depth item.2 = .ok ()) (tokenless : item.2.skipToken = none)
    {members shown : Members} {other after : Store} (same : other.tables = store.tables)
    (fresh : members.get? (item.1 ++ "@odata.nextLink") = none)
    (run : (expandedMembers ctx request depth [item] [entry] members).runOn other =
      (.ok shown, after)) : ShowsMember ctx store definition record item members shown := by
  have inside := QueryLimits.checkList_of_check within
  cases leads with
  | none leads =>
    rw [expandedMembers, leads.name_eq] at run
    simp only [expandedMembers_nil, pure_bind] at run
    cases run
    exact showsMember_insert fresh .none
  | one leads member selected found =>
    rw [expandedMembers, leads.name_eq] at run
    simp only [expandedMembers_nil, pure_bind] at run
    obtain ⟨json, middle, renders, result⟩ := runOn_bind_ok_iff.mp run
    cases result
    have shallow := QueryLimits.checkList_mono (Nat.le_add_left 1 depth) inside
    have object := (settles_toJson stored plain inside
      (known_of_entity stored leads.known shallow found)).runOn_eq same
    rw [renders] at object
    refine showsMember_insert fresh (.one leads member ?_)
    rw [EntitySetDef.object, selected]
    simp only [bind, Except.bind, found]
    exact object.symm
  | many leads collects =>
    rw [expandedMembers, leads.name_eq] at run
    simp only [expandedMembers_nil, pure_bind] at run
    obtain ⟨page, middle, paged, run⟩ := runOn_bind_ok_iff.mp run
    obtain ⟨items, last, renders, run⟩ := runOn_bind_ok_iff.mp run
    obtain ⟨link, linked, result⟩ := runOn_lift_bind_ok_iff.mp run
    cases result
    exact showsMember_many stored plain large known made leads collects inside tokenless same fresh
      paged renders linked

/-- If every navigation property is named once, the members show all expansions. -/
theorem shows_expandedMembers {items : List Expansion}
    {entries : List (Identifier × Related Entity)}
    (leads : List.Forall₂ (Leads ctx store definition record) items entries)
    (once : (items.map Prod.fst).Nodup) (plainNames : ∀ item ∈ items, '@' ∉ item.1.toList)
    (tokenless : ∀ item ∈ items, item.2.skipToken = none)
    (within : ctx.config.limits.checkList depth items = .ok ()) :
    ∀ {members shown : Members} {other after : Store}, other.tables = store.tables →
      (∀ item ∈ items, members.get? (item.1 ++ "@odata.nextLink") = none) →
      (expandedMembers ctx request depth items entries members).runOn other = (.ok shown, after) →
      (∀ item ∈ items, Shows ctx store definition record item (shown.get? item.1)
        (shown.get? (item.1 ++ "@odata.nextLink"))) ∧
      ∀ name, (∀ item ∈ items, name ∉ memberNames item.1) →
        shown.get? name = members.get? name := by
  induction leads with
  | nil =>
    intro members shown other after _ _ run
    rw [expandedMembers_nil] at run
    cases run
    exact ⟨by simp, fun _ _ => rfl⟩
  | @cons item entry items entries first _ ih =>
    intro members shown other after same fresh run
    obtain ⟨name, options⟩ := item
    rw [QueryLimits.checkList] at within
    obtain ⟨⟨⟩, here, later⟩ := Result.bind_eq_ok.mp within
    rw [List.map_cons, List.nodup_cons] at once
    rw [expandedMembers_cons] at run
    obtain ⟨middle, between, head, run⟩ := runOn_bind_ok_iff.mp run
    have kept :=
      (reads_expandedMembers ctx request depth [(name, options)] [entry] members).tables_eq head
    have one := showsMember_expandedMember stored plain large known made first here
      (tokenless _ List.mem_cons_self) same (fresh _ List.mem_cons_self) head
    -- the names of the other expansions are apart from this one
    have apart : ∀ item ∈ items, ∀ member ∈ memberNames name, member ∉ memberNames item.1 := by
      intro item among member inside
      refine not_mem_memberNames (plainNames _ List.mem_cons_self)
        (plainNames item (List.mem_cons_of_mem _ among)) ?_ inside
      rintro rfl
      exact once.1 (List.mem_map.mpr ⟨item, among, rfl⟩)
    have itself (name : String) : name ∈ memberNames name := List.mem_cons_self
    have link (name : String) : name ++ "@odata.nextLink" ∈ memberNames name := by
      simp [memberNames]
    have still : ∀ item ∈ items, middle.get? (item.1 ++ "@odata.nextLink") = none := by
      intro item among
      rw [one.others _ fun inside => apart item among _ inside (link item.1)]
      exact fresh item (List.mem_cons_of_mem _ among)
    obtain ⟨shows, frame⟩ := ih once.2
      (fun item among => plainNames item (List.mem_cons_of_mem _ among))
      (fun item among => tokenless item (List.mem_cons_of_mem _ among))
      later (kept.trans same) still run
    constructor
    · intro item among
      rcases List.mem_cons.mp among with rfl | among
      · rw [frame name fun item among => apart item among name (itself name),
          frame _ fun item among => apart item among _ (link name)]
        exact one.shows
      · exact shows item among
    · intro other outside
      rw [frame other fun item among => outside item (List.mem_cons_of_mem _ among),
        one.others other (outside _ List.mem_cons_self)]

end Shown

theorem get?_valueMembers_of_at {name : String} (marked : '@' ∈ name.toList)
    (values : List (Identifier × Value)) : (valueMembers values).get? name = none := by
  apply Members.get?_ofList_of_not_mem
  rw [List.map_map]
  intro member
  obtain ⟨entry, _, rfl⟩ := List.mem_map.mp member
  exact entry.1.at_not_mem marked

end Entity

/-- The object of a record shows each of its expansions. -/
theorem EntitySetDef.object_eq_ok (stored : ctx.model.InMemory)
    (large : ctx.config.pagination.maxPageSize + 1 < recordLimit)
    (known : definition ∈ ctx.model.sets) {options : QueryOptions}
    (linkable : QueryOptions.Linkable ctx.config.limits options.expand) {json : Json}
    (object : definition.object ctx store options record = .ok json) :
    ∃ members : Json.Members, json = .object members ∧ ∀ item ∈ options.expand,
      Shows ctx store definition record item (members.get? item.1)
        (members.get? (item.1 ++ "@odata.nextLink")) := by
  obtain ⟨select, _, object⟩ := Result.bind_eq_ok.mp object
  obtain ⟨entity, made, object⟩ := Result.bind_eq_ok.mp object
  obtain ⟨keyed, _, _, leads⟩ := EntitySetDef.entity_eq_ok stored linkable.within made
  have plainNames : ∀ item ∈ options.expand, '@' ∉ item.1.toList := fun item member =>
    Identifier.at_not_mem ⟨item.1, (linkable.fits item member).1⟩
  have tokenless : ∀ item ∈ options.expand, item.2.skipToken = none := fun item member =>
    (linkable.options member).skipToken
  obtain ⟨filter, orderBy, chosen, expand, top, skip, count, skipToken⟩ := options
  rw [Entity.object, Entity.toJson] at object
  cases run : (Entity.expandedMembers ctx .bare 1 expand entity.expansions
      (Entity.valueMembers entity.values)).runOn store with
  | mk result after =>
    cases result with
    | error e =>
      rw [runOn_bind_of_error run] at object
      cases object
    | ok members =>
      rw [runOn_bind_of_ok run] at object
      cases object
      refine ⟨members, rfl, (Entity.shows_expandedMembers stored Request.plain_bare large known
        keyed leads linkable.once plainNames tokenless linkable.within rfl ?_ run).1⟩
      intro item member
      exact Entity.get?_valueMembers_of_at (by simp) _

end OData
