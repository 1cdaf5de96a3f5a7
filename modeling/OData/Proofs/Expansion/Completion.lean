import OData.Proofs.Expansion.Links

/-!
# Completing expansions

A client that follows the link beside an expanded collection, and then the link on each page, gets
the related entities that the expansion does not show.  The pages come to an end if each of the
related entities has an object.
-/

set_option autoImplicit false

namespace OData

open OData.Action
open Json (Members)
open QueryOptions (Linkable)
open Pager (leftOf nextToken pageSizeOf GoesOn)

/-- The items on the pages that are got by following a link and then the link on each page, each in
a store of its own, up to a page without a link. -/
inductive Follows (ctx : Context) : (Nat → Store) → String → List (List Json) → Prop
  | last {stores : Nat → Store} {link : String} {drawn : Guid} {members : Members}
      {items : List Json} :
      (Service.respond ctx .get link none drawn (stores 0)).1 =
        some (.ok ⟨200, .json (.object members)⟩) →
      members.get? "value" = some (.array items) → members.get? "@odata.nextLink" = none →
      Follows ctx stores link [items]
  | step {stores : Nat → Store} {link next : String} {drawn : Guid} {members : Members}
      {items : List Json} {pages : List (List Json)} :
      (Service.respond ctx .get link none drawn (stores 0)).1 =
        some (.ok ⟨200, .json (.object members)⟩) →
      members.get? "value" = some (.array items) →
      members.get? "@odata.nextLink" = some (.str next) →
      Follows ctx (fun i => stores (i + 1)) next pages → Follows ctx stores link (items :: pages)

/-- Following a link completes what is shown: the pages hold the rest of some objects, and they come
to an end if all the objects are there. -/
structure Completes (ctx : Context) (stores : Nat → Store) (link : String) (shown : List Json)
    (objects : Result (List Json)) : Prop where
  all : ∀ pages, Follows ctx stores link pages → objects = .ok (shown ++ pages.flatten)
  ends : (∃ pages, Follows ctx stores link pages) ↔ ∃ all, objects = .ok all

variable {ctx : Context} {store : Store} {definition target : EntitySetDef} {record : Record}
  {navigation : NavigationProperty} {key : Key} {options : QueryOptions} {token : String}

namespace Service

theorem nextToken_eq_none_iff {plan : QueryPlan} {size consumed : Nat} {remaining : Option Nat}
    {left : List Record} : nextToken plan size consumed remaining left = none ↔
      left.length ≤ size := by
  rw [nextToken]
  split <;> simp_all

section Pages

variable (stored : ctx.model.InMemory) (large : ctx.config.pagination.maxPageSize + 1 < recordLimit)
  (intact : ctx.model.Intact) {items : List Expansion} {name : String}
  (linkable : Linkable ctx.config.limits items) (member : (name, options) ∈ items)
  (followable : Followable ctx store definition record key navigation target)
  {plan : QueryPlan}
  (accepted : (definition.related target navigation record).plan ctx options = .ok plan)
  {selected : List Record}
  (sorts : plan.run ctx.libraries.sorting (store.rows target.name.text) = some selected)
  (few : selected.length < recordLimit)

include stored large intact linkable member followable accepted sorts few

/-- The pages that are got with the link to what is left hold the objects of the records that are
left. -/
theorem objects_of_follows {stores : Nat → Store} {link : String} {pages : List (List Json)}
    (follows : Follows ctx stores link pages) :
    ∀ {token : String} {consumed : Nat} {remaining : Option Nat},
      link = linkText ctx definition key navigation options token →
      (∀ i, (stores i).tables = store.tables) →
      GoesOn ctx.libraries.tokenFault (definition.related target navigation record) plan options
        (some token) consumed remaining →
      (leftOf options selected consumed remaining).mapM
        (target.object ctx store options) = .ok pages.flatten := by
  induction follows with
  | @last stores link drawn members items run value ends =>
    rintro token consumed remaining rfl same goesOn
    obtain ⟨shown, made, response⟩ := (respond_linkText_eq_ok stored large intact linkable member
      followable accepted goesOn.begins goesOn.offers (fun _ => sorts) _ (same 0)).mp run
    cases response
    rw [get?_pageMembers_value] at value
    rw [get?_pageMembers_link, Option.map_eq_none_iff, Option.map_eq_none_iff,
      nextToken_eq_none_iff] at ends
    rw [List.take_of_length_le ends] at made
    cases value
    simpa using made
  | @step stores link next drawn members items pages run value more _ ih =>
    rintro token consumed remaining rfl same goesOn
    obtain ⟨shown, made, response⟩ := (respond_linkText_eq_ok stored large intact linkable member
      followable accepted goesOn.begins goesOn.offers (fun _ => sorts) _ (same 0)).mp run
    cases response
    rw [get?_pageMembers_value] at value
    cases value
    rw [get?_pageMembers_link] at more
    obtain ⟨text, linked, same_text⟩ := Option.map_eq_some_iff.mp more
    cases same_text
    obtain ⟨following, token', rfl⟩ := Option.map_eq_some_iff.mp linked
    have rest := ih rfl (fun i => same (i + 1)) (goesOn.next few token').2
    rw [Pager.leftOf_drop] at rest
    rw [← List.take_append_drop (pageSizeOf ctx.config.pagination options.top)
      (leftOf options selected consumed remaining), List.mapM_append,
      made, rest]
    rfl

/-- If the records that are left have objects, the pages come to an end.  The induction is on how
many are left; each page takes a positive number of records off them. -/
theorem exists_follows (length : Nat) :
    ∀ {stores : Nat → Store} {token : String} {consumed : Nat} {remaining : Option Nat}
      {objects : List Json},
      (leftOf options selected consumed remaining).length = length →
      (∀ i, (stores i).tables = store.tables) →
      GoesOn ctx.libraries.tokenFault (definition.related target navigation record) plan options
        (some token) consumed remaining →
      (leftOf options selected consumed remaining).mapM
        (target.object ctx store options) = .ok objects →
      ∃ pages, Follows ctx stores (linkText ctx definition key navigation options token) pages := by
  have positive := Pager.pageSizeOf_pos ctx.config.pagination options.top
  induction length using Nat.strongRecOn with
  | ind length ih =>
    intro stores token consumed remaining objects long same goesOn made
    rw [← List.take_append_drop (pageSizeOf ctx.config.pagination options.top)
      (leftOf options selected consumed remaining),
      List.mapM_append] at made
    obtain ⟨shown, first, made⟩ := Result.bind_eq_ok.mp made
    obtain ⟨others, later, _⟩ := Result.bind_eq_ok.mp made
    have run := (respond_linkText_eq_ok stored large intact linkable member followable accepted
      goesOn.begins goesOn.offers (fun _ => sorts) .nil (same 0)).mpr ⟨shown, first, rfl⟩
    have value := get?_pageMembers_value ctx target.name.text
    have link := get?_pageMembers_link ctx target.name.text
    cases more : nextToken plan (pageSizeOf ctx.config.pagination options.top) consumed remaining
        (leftOf options selected consumed remaining) with
    | none =>
      rw [more] at run
      exact ⟨_, .last run (value _ _ _) (link _ _ _)⟩
    | some next =>
      rw [more] at run
      obtain ⟨long', rest⟩ := goesOn.next few more
      rw [← Pager.leftOf_drop] at later
      obtain ⟨pages, follows⟩ := ih _ (by rw [Pager.leftOf_drop, List.length_drop]; omega) rfl
        (fun i => same (i + 1)) rest later
      exact ⟨_, .step run (value _ _ _) (link _ _ _) follows⟩

/-- A link beside the first page completes it. -/
theorem completes_linkText {shown : List Json}
    (page : ShowsPage ctx store (definition.related target navigation record) options plan selected
      shown) (first : firstToken ctx options plan selected = some token) {stores : Nat → Store}
    (same : ∀ i, (stores i).tables = store.tables) :
    Completes ctx stores (linkText ctx definition key navigation options token) shown
      ((leftOf options selected 0 options.top).mapM
        (target.object ctx store options)) := by
  have start := Pager.goesOn_first ctx.libraries.tokenFault plan page.offers
    (linkable.options member).top
  obtain ⟨_, rest⟩ := start.next few first
  have objects : ∀ pages, Follows ctx stores
      (linkText ctx definition key navigation options token) pages →
        (leftOf options selected 0 options.top).mapM
          (target.object ctx store options) = .ok (shown ++ pages.flatten) := by
    intro pages follows
    have left := objects_of_follows stored large intact linkable member followable accepted sorts
      few follows rfl same rest
    rw [Pager.leftOf_drop] at left
    rw [← List.take_append_drop (pageSizeOf ctx.config.pagination options.top)
      (leftOf options selected 0 options.top), List.mapM_append]
    refine Result.bind_eq_ok.mpr ⟨shown, page.shown, ?_⟩
    exact Result.bind_eq_ok.mpr ⟨pages.flatten, left, rfl⟩
  refine ⟨objects, fun ⟨pages, follows⟩ => ⟨_, objects pages follows⟩, fun ⟨whole, made⟩ => ?_⟩
  rw [← List.take_append_drop (pageSizeOf ctx.config.pagination options.top)
    (leftOf options selected 0 options.top), List.mapM_append] at made
  obtain ⟨_, _, made⟩ := Result.bind_eq_ok.mp made
  obtain ⟨others, left, _⟩ := Result.bind_eq_ok.mp made
  rw [← Pager.leftOf_drop] at left
  exact exists_follows stored large intact linkable member followable accepted sorts few _ rfl same
    rest left

end Pages

end Service

/-! ## Truncated expansions -/

/-- The records that are related to one, as an expansion selects, orders, skips and limits them;
none if they cannot be sorted. -/
def EntitySetDef.relatedRecords (sorting : Sorting) (target : EntitySetDef) (store : Store)
    (navigation : NavigationProperty) (record : Record) (plan : QueryPlan)
    (options : QueryOptions) : Option (List Record) :=
  (plan.run sorting ((store.rows target.name.text).filter (navigation.relates record))).map
    fun selected => limited options.top (selected.drop (options.skip.getD 0))

/-- An expanded collection in the object of a record, with the link beside it. -/
structure Truncated (ctx : Context) (store : Store) (inner : QueryOptions) (found : Members)
    (name : String) (options : QueryOptions) (definition : EntitySetDef) (record : Record)
    (key : Key) (navigation : NavigationProperty) (target : EntitySetDef) (shown : List Json) :
    Prop where
  source : ShowsRecord ctx store inner definition record found
  made : Key.ofRecord definition.entityType record = .ok key
  leads : definition.LeadsTo ctx name navigation target
  collects : navigation.collection = true
  value : found.get? name = some (.array shown)

/-- An expanded collection with a link shows the first page. -/
theorem ShowsRecord.truncated {inner : QueryOptions} {found : Members} {name link : String}
    (shown : ShowsRecord ctx store inner definition record found)
    (item : (name, options) ∈ inner.expand)
    (linked : found.get? (name ++ "@odata.nextLink") = some (.str link)) :
    ∃ navigation target key plan selected items token,
      Truncated ctx store inner found name options definition record key navigation target items ∧
        ShowsPage ctx store (definition.related target navigation record) options plan selected
          items ∧
        firstToken ctx options plan selected = some token ∧
        link = linkText ctx definition key navigation options token := by
  have shows := shown.shows _ item
  rw [linked] at shows
  generalize value : found.get? name = json at shows
  generalize link_eq : some (Json.str link) = text at shows
  cases shows with
  | none => exact absurd link_eq (Option.some_ne_none _)
  | one => exact absurd link_eq (Option.some_ne_none _)
  | many leads collects made page =>
    obtain ⟨token, first, same⟩ := Option.map_eq_some_iff.mp link_eq.symm
    obtain rfl := Json.str.inj same
    exact ⟨_, _, _, _, _, _, token, ⟨shown, made, leads, collects, value⟩, page, first, rfl⟩

theorem Transaction.of_ofUri {limits : QueryLimits} {method : Method} {uri : String}
    {body : Option Json} {drawn : Guid} {t : Transaction}
    (sent : ofUri limits method uri body drawn = .ok t) :
    t.request.method = method ∧ t.depth = 0 ∧
      ∃ parameters, QueryOptions.ofPairs limits parameters = .ok t.options := by
  obtain ⟨request, depth, read⟩ := ofUri_spec sent
  exact ⟨by rw [request], depth, _, read⟩

namespace Service

/-- A plain key has no question mark in it, so that none cuts the address of what it leads to. -/
theorem queryless_navigationPath (queryless : '?' ∉ ctx.config.endpoint.url.toList)
    (plain : '?' ∉ key.innerText.toList) :
    '?' ∉ (ctx.config.endpoint.url ++ "/" ++
      (navigationPath definition key navigation).toText).toList := by
  have names (name : Identifier) : '?' ∉ name.text.toList := name.not_mem_text (by decide)
  rw [toText_navigationPath, Key.toText_eq]
  simp [queryless, plain, names]

/-- The link beside an expanded collection leads to its remaining entities: the pages that are got
by following it hold, after the entities that are shown, those that the expansion selects, orders,
skips and limits of the related ones, and they come to an end if each of these has an object. -/
theorem completes_expansion {declaration : ModelDeclaration}
    (declared : ∀ ty ∈ declaration.types, ty.Declared)
    (built : declaration.build = .ok ctx.model) (stored : ctx.model.InMemory)
    (large : ctx.config.pagination.maxPageSize + 1 < recordLimit)
    (queryless : '?' ∉ ctx.config.endpoint.url.toList)
    (distinct : ∀ set ∈ ctx.model.sets,
      Table.HasDistinctKeys set.entityType (store.rows set.name.text))
    (few : ∀ set ∈ ctx.model.sets, (store.rows set.name.text).length < recordLimit)
    {uri : String} {body : Option Json} {drawn : Guid} {t : Transaction}
    (sent : Transaction.ofUri ctx.config.limits .get uri body drawn = .ok t)
    (noReference : EntitySet.parameterReference? t.request = none)
    (once : t.options.namesOnce = true)
    (kept : ∀ e ∈ QueryOptions.filtersOfList t.options.expand, e.isKept = true)
    {segments : List Segment}
    (path : ResourcePath.parse (ctx.config.endpoint.resourcePath t.request.path) =
      .ok (.resource segments none)) {code : Nat} {answer : Json} {after : Store}
    (run : (execute ctx t).runOn store = (.ok ⟨code, .json answer⟩, after))
    {inner : QueryOptions} {found : Members} {name link : String}
    (answers : Answers t.options answer inner found) (item : (name, options) ∈ inner.expand)
    (linked : found.get? (name ++ "@odata.nextLink") = some (.str link)) :
    ∃ definition record key navigation target shown whole records,
      Truncated ctx store inner found name options definition record key navigation target shown ∧
      QueryPlan.ofOptions ctx.model target.entityType options = .ok whole ∧
      target.relatedRecords ctx.libraries.sorting store navigation record whole options =
        some records ∧
      (Key.HasPlainKey definition.entityType record →
        ctx.config.endpoint.isRouted (navigationPath definition key navigation).toText = false →
        ∀ stores : Nat → Store, (∀ i, (stores i).tables = store.tables) →
          Completes ctx stores link shown (records.mapM (target.object ctx store options))) := by
  have intact := ModelDeclaration.intact_of_build built
  obtain ⟨method, top, parameters, read⟩ := Transaction.of_ofUri sent
  have linkable := QueryOptions.linkable_of_ofPairs read once kept
  obtain ⟨inside, definition, record, source⟩ := exists_record_of_execute stored large
    ⟨method, noReference⟩ top linkable path run answers
  obtain ⟨navigation, target, key, plan, selected, shown, token, truncated, page, first, rfl⟩ :=
    source.truncated item linked
  have long : pageSizeOf ctx.config.pagination options.top <
      (leftOf options selected 0 options.top).length :=
    Nat.lt_of_not_le fun short => by
      rw [firstToken, nextToken_eq_none_iff.mpr short] at first
      cases first
  have sorts : plan.run ctx.libraries.sorting (store.rows target.name.text) = some selected :=
    page.sorted.run_of_lt long
  have leads : definition.LeadsTo ctx navigation.name.text navigation target := by
    rw [truncated.leads.name_eq]
    exact truncated.leads
  obtain ⟨whole, bound, same⟩ := truncated.leads.exists_plan intact source.known page.accepted
  have records : target.relatedRecords ctx.libraries.sorting store navigation record whole options =
      some (leftOf options selected 0 options.top) := by
    rw [EntitySetDef.relatedRecords, ← same, sorts]
    rfl
  refine ⟨definition, record, key, navigation, target, shown, whole, _, truncated, bound, records,
    ?_⟩
  intro plain routed stores kept
  have subset := (declared _ (ModelDeclaration.entityType_mem_of_build built definition
    source.known)).key_subset
  have nonempty := ModelDeclaration.key_ne_nil_of_build built _
    (intact.known definition source.known)
  have followable : Followable ctx store definition record key navigation target :=
    { known := source.known
      leads
      collects := truncated.collects
      readable := readable_entitySegment
        (Key.hasLiteral_of_mem_values truncated.made subset plain.readable)
      found := Table.exists_read_innerText subset nonempty truncated.made plain.readable
        (distinct definition source.known) source.stored fun other _ => plain.exact other
      queryless := queryless_navigationPath queryless (plain.queryless truncated.made subset)
      routed }
  have within : selected.length < recordLimit := by
    rw [QueryPlan.length_of_run sorts]
    exact Nat.lt_of_le_of_lt List.countP_le_length (few target leads.known)
  exact completes_linkText stored large intact inside item followable page.accepted sorts within
    page first kept

/-! A customer with two orders, on pages of one. -/

section Orders

open EntitySet (customer customerId customers firstCustomer idKey order orderDeclaration orderModel
  orderRow orders ordersOfCustomer)

def singlesContext : Context :=
  ⟨orderModel, { Config.standard with pagination := ⟨none, 1, 1000⟩ }, none, .standard⟩

def customerOptions : QueryOptions := { QueryOptions.empty with expand := [("Orders", .empty)] }

def customerRequest : Transaction :=
  ⟨⟨.get, "/Customers(1)", [("$expand", "Orders")], none⟩, customerOptions, 0, .nil⟩

def ordersStore : Store :=
  ⟨[("Customers", [firstCustomer]),
    ("Orders", [orderRow (.int 5) (.int 1), orderRow (.int 6) (.int 1)])], []⟩

def orderJson (id : Value) : Json := .object (Entity.valueMembers (orderRow id (.int 1)))

def customerOrders : EntitySet := customers.related orders ordersOfCustomer firstCustomer

theorem ofUri_customerRequest : Transaction.ofUri singlesContext.config.limits .get
    "/Customers(1)?$expand=Orders" none .nil = .ok customerRequest := by
  have cut : Transaction.splitUri "/Customers(1)?$expand=Orders" =
      ("/Customers(1)", "$expand=Orders") := by rfl
  have pairs : Text.Form.decodePairs "$expand=Orders" = [("$expand", "Orders")] := by
    decide +kernel
  have options : QueryOptions.ofPairs singlesContext.config.limits [("$expand", "Orders")] =
      .ok customerOptions := by rfl
  rw [Transaction.ofUri, cut]
  simp only [pairs, options]
  rfl

theorem parse_customerPath :
    ResourcePath.parse (singlesContext.config.endpoint.resourcePath "/Customers(1)") =
      .ok (.resource [⟨"Customers", some "1"⟩] none) := by rfl

theorem inMemory_orderModel : singlesContext.model.InMemory := by
  intro set member
  simp only [singlesContext, orderModel, List.mem_cons, List.not_mem_nil, or_false] at member
  rcases member with rfl | rfl
  · exact ⟨_, rfl⟩
  · exact ⟨_, rfl⟩

theorem exists_orderPlan : ∃ plan, customerOrders.plan singlesContext .empty = .ok plan ∧
    plan.run .standard (ordersStore.rows "Orders") = some (ordersStore.rows "Orders") :=
  ⟨_, rfl, by decide +kernel⟩

theorem relatedRecords_orders {whole : QueryPlan}
    (bound : QueryPlan.ofOptions orderModel order .empty = .ok whole) :
    orders.relatedRecords .standard ordersStore ordersOfCustomer firstCustomer whole .empty =
      some (ordersStore.rows "Orders") := by
  cases bound
  decide +kernel

/-- The orders of the customer are shown as a page of one, with a link. -/
theorem exists_ordersMember (members : Members)
    (fresh : members.get? "Orders@odata.nextLink" = none) :
    ∃ shown after link,
      (Entity.expandedMembers singlesContext customerRequest.request 1 [("Orders", .empty)]
        [(ordersOfCustomer.name, .many customerOrders)] members).runOn ordersStore =
          (.ok shown, after) ∧
      shown.get? "Orders" = some (.array [orderJson (.int 5)]) ∧
      shown.get? "Orders@odata.nextLink" = some (.str link) := by
  obtain ⟨plan, accepted, sorts⟩ := exists_orderPlan
  let selected := ordersStore.rows "Orders"
  have known : customerOrders.definition ∈ singlesContext.model.sets := .tail _ (.head _)
  have large : singlesContext.config.pagination.maxPageSize + 1 < recordLimit := by decide
  have within : singlesContext.config.limits.checkList 2 [] = .ok () := rfl
  have offers : Pager.Offers customerOrders .empty none := ⟨fun _ => rfl, fun _ => rfl⟩
  have made : Key.ofRecord customers.entityType firstCustomer = .ok (idKey (.int 1)) := rfl
  have objects : ((leftOf .empty selected 0 none).take 1).mapM
      (orders.object singlesContext ordersStore .empty) = .ok [orderJson (.int 5)] := rfl
  have plain : customerRequest.request.Plain := ⟨rfl, rfl⟩
  have begins := Pager.begins_first Libraries.standard.tokenFault plan .empty
  have sorted : Pager.Sorted singlesContext customerOrders ordersStore plan none selected :=
    fun _ => sorts
  have same : ordersStore.tables = ordersStore.tables := rfl
  obtain ⟨page, middle, last, paged, renders⟩ := Pager.exists_page_of_objects inMemory_orderModel
    plain large known within accepted begins offers sorted same objects
  obtain ⟨_, more, _⟩ := Pager.objects_of_page inMemory_orderModel plain large known within accepted
    begins offers sorted same paged renders
  have long : ¬(leftOf .empty selected 0 none).length ≤ 1 := by decide
  have next : ∃ token, page.skipToken = some token := ⟨_, more.trans (if_neg long)⟩
  obtain ⟨token, next⟩ := next
  refine ⟨_, last, linkText singlesContext customers (idKey (.int 1)) ordersOfCustomer .empty token,
    ?_, Entity.get?_collectionMembers_self _ page _ _ members,
    Entity.get?_collectionMembers_link page _ (some _) members fresh⟩
  rw [Entity.expandedMembers]
  simp only [Entity.expandedMembers_nil, pure_bind]
  refine runOn_bind_ok_iff.mpr ⟨page, middle, paged, ?_⟩
  refine runOn_bind_ok_iff.mpr ⟨_, last, renders, ?_⟩
  rw [customerOrders, Entity.pageLink_eq made, next]
  rfl

/-- The customer is answered with the link beside the orders. -/
theorem exists_customerAnswer : ∃ (members : Members) (after : Store) (link : String),
    (execute singlesContext customerRequest).runOn ordersStore =
      (.ok ⟨200, .json (.object members)⟩, after) ∧
    (∃ identity, members.get? "@odata.id" = some identity) ∧
    members.get? "Orders" = some (.array [orderJson (.int 5)]) ∧
    members.get? "Orders@odata.nextLink" = some (.str link) := by
  let entity : Entity := ⟨customers.name, idKey (.int 1), firstCustomer,
    [(ordersOfCustomer.name, .many customerOrders)]⟩
  let place : Place := ⟨EntitySet.root customers, some "1", none⟩
  obtain ⟨shown, after, link, run, items, linked⟩ :=
    exists_ordersMember (Entity.valueMembers firstCustomer) (by decide)
  have walked : (walk singlesContext customerRequest [⟨"Customers", some "1"⟩]).runOn ordersStore =
      (.ok place, ordersStore) := rfl
  have keyed : Key.parse place.set.entityType "1" = .ok (idKey (.int 1)) := rfl
  have read : (readEntity singlesContext customerRequest place.set (idKey (.int 1))).runOn
      ordersStore = (.ok entity, ordersStore) := rfl
  have renders : (entity.toJson singlesContext customerRequest.request 0 customerOptions).runOn
      ordersStore = (.ok (.object shown), after) := by
    rw [customerOptions, QueryOptions.empty, Entity.toJson]
    exact runOn_bind_ok_iff.mpr ⟨shown, after, run, rfl⟩
  have method : customerRequest.request.method = .get := rfl
  let context := contextUrl singlesContext "Customers/$entity"
  refine ⟨(shown.insert "@odata.context" (.str context)).insert "@odata.id"
    (.str (entityUrl singlesContext entity)), after, link, ?_,
    ⟨_, Members.get?_insert_self _ _ _⟩, ?_, ?_⟩
  · rw [execute, customerRequest, parse_customerPath, lift_ok_bind, ← customerRequest,
      runOn_bind_of_ok walked]
    simp only [place, entityRequest, method, getRequest]
    rw [keyed, lift_ok_bind, runOn_bind_of_ok read, entityResponse, entityJson, bind_assoc]
    exact runOn_bind_ok_iff.mpr ⟨_, after, renders, rfl⟩
  · rw [Members.get?_insert_of_ne (by decide), Members.get?_insert_of_ne (by decide), items]
  · rw [Members.get?_insert_of_ne (by decide), Members.get?_insert_of_ne (by decide), linked]

/-- Following the link completes the orders of the customer. -/
theorem completes_expansion_orders : ∃ (members : Members) (after : Store) (link : String),
    (execute singlesContext customerRequest).runOn ordersStore =
      (.ok ⟨200, .json (.object members)⟩, after) ∧
    members.get? "Orders@odata.nextLink" = some (.str link) ∧
    ∀ stores : Nat → Store, (∀ i, (stores i).tables = ordersStore.tables) →
      Completes singlesContext stores link [orderJson (.int 5)]
        (.ok [orderJson (.int 5), orderJson (.int 6)]) := by
  obtain ⟨members, after, link, run, ⟨_, identity⟩, items, linked⟩ := exists_customerAnswer
  refine ⟨members, after, link, run, linked, ?_⟩
  have distinct : ∀ set ∈ singlesContext.model.sets,
      Table.HasDistinctKeys set.entityType (ordersStore.rows set.name.text) := by
    intro set member
    simp only [singlesContext, orderModel, List.mem_cons, List.not_mem_nil, or_false] at member
    rcases member with rfl | rfl
    · exact List.pairwise_singleton _ _
    · refine List.pairwise_pair.mpr fun same => ?_
      exact absurd (same customerId.name List.mem_cons_self) (by decide)
  have few : ∀ set ∈ singlesContext.model.sets,
      (ordersStore.rows set.name.text).length < recordLimit := by decide
  have item : ("Orders", QueryOptions.empty) ∈ customerRequest.options.expand := List.mem_cons_self
  obtain ⟨definition, record, key, navigation, target, shown, whole, records, truncated, bound,
    related, completes⟩ :=
    completes_expansion declared_order EntitySet.build_orderDeclaration inMemory_orderModel
      (by decide) (by decide +kernel) distinct few ofUri_customerRequest rfl (by decide) (by decide)
      parse_customerPath run (.entity identity .self) item linked
  have declares : ∀ set ∈ singlesContext.model.sets, ∀ leads,
      set.entityType.navigation? "Orders" = some leads →
        set = customers ∧ leads = ordersOfCustomer := by
    intro set member leads found
    simp only [singlesContext, orderModel, List.mem_cons, List.not_mem_nil, or_false] at member
    rcases member with rfl | rfl
    · cases found
      exact ⟨rfl, rfl⟩
    · cases found
  obtain ⟨rfl, rfl⟩ := declares _ truncated.source.known _ truncated.leads.declared
  obtain rfl : firstCustomer = record := (List.mem_singleton.mp truncated.source.stored).symm
  cases truncated.leads.bound
  cases truncated.made
  cases items.symm.trans truncated.value
  have plain : Key.HasPlainKey customer firstCustomer := by
    intro property member
    rw [List.mem_singleton.mp member]
    decide
  intro stores same
  have completed := completes plain (by decide +kernel) stores same
  cases (relatedRecords_orders bound).symm.trans related
  exact completed

end Orders

end Service

end OData
