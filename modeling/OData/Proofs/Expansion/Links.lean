import OData.Proofs.Expansion.Answers
import OData.Proofs.Service.Identity
import OData.Proofs.Transaction

/-!
# Following the link of an expansion

The link beside an expanded collection names the source, the navigation property, the options of the
expansion and a skip token.  A request with this link gets the page of the related entities that the
token begins, and the link on that page differs in the token only.
-/

set_option autoImplicit false

namespace OData

open OData.Action
open Json (Members)
open QueryOptions (Linkable)

variable {ctx : Context} {store : Store} {definition target : EntitySetDef} {record : Record}
  {navigation : NavigationProperty} {key : Key} {options : QueryOptions} {token : String}

/-! ## Related records -/

theorem BoundExpr.exists_conjunction (filters : List BoundExpr) (scope : BoundExpr) :
    ∃ condition, conjunction (filters ++ [scope]) = some condition := by
  cases filters with
  | nil => exact ⟨_, rfl⟩
  | cons first rest => exact ⟨_, rfl⟩

/-- A plan with a condition selects of the records that satisfy it. -/
theorem QueryPlan.run_restrict (plan : QueryPlan) (scope : BoundExpr) (sorting : Sorting)
    (rows : List Record) :
    (plan.restrict scope).run sorting rows = plan.run sorting (rows.filter scope.holds) := by
  have admits (row : Record) :
      (plan.restrict scope).admits row = (plan.admits row && scope.holds row) := by
    obtain ⟨condition, joined⟩ := BoundExpr.exists_conjunction plan.filter.toList scope
    rw [QueryPlan.admits, QueryPlan.restrict, joined]
    simp only
    rw [BoundExpr.holds_conjunction joined, List.all_append, QueryPlan.admits]
    cases plan.filter <;> simp
  rw [run, run, matching, matching, List.filter_filter]
  exact congrArg (sorting.sort plan.compare) (List.filter_congr fun row _ => admits row)

/-- The related entities of a query are selected from the rows to which the navigation property
leads. -/
theorem EntitySetDef.LeadsTo.exists_plan (intact : ctx.model.Intact)
    (known : definition ∈ ctx.model.sets) {name : String}
    (leads : definition.LeadsTo ctx name navigation target) {plan : QueryPlan}
    (accepted : (definition.related target navigation record).plan ctx options = .ok plan) :
    ∃ whole, QueryPlan.ofOptions ctx.model target.entityType options = .ok whole ∧
      ∀ sorting rows,
        plan.run sorting rows = whole.run sorting (rows.filter (navigation.relates record)) := by
  obtain ⟨whole, bound, accepted⟩ := Result.bind_eq_ok.mp accepted
  obtain ⟨scope, made, result⟩ := Result.bind_eq_ok.mp accepted
  cases result
  have declared : definition.entityType.navigation? navigation.name.text = some navigation := by
    rw [leads.name_eq]
    exact leads.declared
  have joined : ∀ c ∈ navigation.constraints,
      (target.entityType.property? c.referenced.text).isSome = true := fun c among =>
    ModelDeclaration.isSome_of_joins (intact.joins known declared leads.bound c among)
  refine ⟨whole, bound, fun sorting rows => ?_⟩
  rcases (Source.mk definition navigation record).scope_eq joined with
    ⟨_, failure, failed⟩ | ⟨other, same, holds⟩
  · cases failed.symm.trans made
  · cases same.symm.trans made
    rw [QueryPlan.run_restrict, funext holds]

/-! ## The request of a link -/

/-- The path of a navigation property from an entity. -/
def navigationPath (definition : EntitySetDef) (key : Key) (navigation : NavigationProperty) :
    ResourcePath :=
  .resource [Service.entitySegment definition key, ⟨navigation.name.text, none⟩] none

/-- A navigation property of a record whose key is read back, at an address that no question mark
cuts and from which the route is not taken off twice. -/
structure Followable (ctx : Context) (store : Store) (definition : EntitySetDef) (record : Record)
    (key : Key) (navigation : NavigationProperty) (target : EntitySetDef) : Prop where
  known : definition ∈ ctx.model.sets
  leads : definition.LeadsTo ctx navigation.name.text navigation target
  collects : navigation.collection = true
  readable : (Service.entitySegment definition key).Readable
  found : ∃ read, Key.parse definition.entityType key.innerText = .ok read ∧
    (store.rows definition.name.text).read read = some record
  queryless : '?' ∉ (ctx.config.endpoint.url ++ "/" ++
    (navigationPath definition key navigation).toText).toList
  routed : ctx.config.endpoint.isRouted (navigationPath definition key navigation).toText = false

/-- The parameters of a request for the rest of an expansion. -/
def restParameters (options : QueryOptions) (token : String) : List (String × String) :=
  options.toPairs ++ [(Request.skipTokenName, token)]

theorem toText_navigationPath (definition : EntitySetDef) (key : Key)
    (navigation : NavigationProperty) : (navigationPath definition key navigation).toText =
      definition.name.text ++ key.toText ++ "/" ++ navigation.name.text := by
  rw [navigationPath, ResourcePath.toText, Key.toText_eq, ← String.toList_inj]
  simp [Service.entitySegment, Segment.toText]

theorem linkText_eq : linkText ctx definition key navigation options token =
    ctx.config.endpoint.url ++ "/" ++ (navigationPath definition key navigation).toText ++ "?"
      ++ Text.Form.encodePairs (restParameters options token) := by
  rw [toText_navigationPath, linkText, restParameters]
  simp only [String.append_assoc]

/-- The request for the rest of an expansion. -/
def restRequest (ctx : Context) (definition : EntitySetDef) (key : Key)
    (navigation : NavigationProperty) (options : QueryOptions) (token : String) : Request :=
  ⟨.get, ctx.config.endpoint.url ++ "/" ++ (navigationPath definition key navigation).toText,
    restParameters options token, none⟩

theorem plain_restRequest :
    (restRequest ctx definition key navigation options token).Plain := by
  have absent {name : String} (other : name ∉ QueryOptions.writtenNames)
      (apart : Request.skipTokenName ≠ name) :
      (restRequest ctx definition key navigation options token).parameter? name = none := by
    rw [Request.parameter?, Option.map_eq_none_iff, List.find?_eq_none]
    intro pair member same
    have named : pair.1 = name := beq_iff_eq.mp same
    rcases List.mem_append.mp member with written | last
    · exact other (named ▸ QueryOptions.mem_writtenNames written)
    · rw [List.mem_singleton.mp last] at named
      exact apart named
  refine ⟨rfl, ?_⟩
  rw [EntitySet.parameterReference?, absent (by decide) (by decide), absent (by decide) (by decide)]
  rfl

/-- The link is read as the request for the rest. -/
theorem ofUri_linkText {limits : QueryLimits} {items : List Expansion} {name : String}
    (drawn : Guid) (linkable : Linkable limits items) (member : (name, options) ∈ items)
    (queryless : '?' ∉ (ctx.config.endpoint.url ++ "/" ++
      (navigationPath definition key navigation).toText).toList) :
    Transaction.ofUri limits .get (linkText ctx definition key navigation options token) none
        drawn = .ok ⟨restRequest ctx definition key navigation options token,
          Pager.resume options (some token), 0, drawn⟩ := by
  have read : QueryOptions.ofPairs limits (restParameters options token) =
      .ok (Pager.resume options (some token)) := linkable.ofPairs_toPairs member token
  rw [linkText_eq]
  exact Transaction.ofUri_encodePairs .get none drawn queryless read

/-- The link on a page of the rest is that of the expansion, with the token of the page. -/
theorem nextLink_restRequest (depth : Nat) (drawn : Guid) (next : String) :
    Service.nextLink ctx ⟨restRequest ctx definition key navigation options token,
        Pager.resume options (some token), depth, drawn⟩
        (navigationPath definition key navigation) next =
      linkText ctx definition key navigation options next := by
  have kept : options.toPairs.filter (·.1 != Request.skipTokenName) = options.toPairs := by
    rw [List.filter_eq_self]
    intro pair member
    have apart : ∀ name ∈ QueryOptions.writtenNames, (name != Request.skipTokenName) = true := by
      decide
    exact apart pair.1 (QueryOptions.mem_writtenNames member)
  rw [Service.nextLink_eq, linkText_eq, Service.nextParameters, restRequest, restParameters,
    List.filter_append, kept]
  simp [restParameters]

/-! ## The answer -/

namespace Service

variable {drawn : Guid} {t : Transaction} {other after : Store} {response : Response}

theorem respond_eq_ok_iff {uri : String}
    (sent : Transaction.ofUri ctx.config.limits .get uri none drawn = .ok t) :
    (respond ctx .get uri none drawn store).1 = some (.ok response) ↔
      ∃ after, (execute ctx t).runOn store = (.ok response, after) := by
  rw [respond, sent]
  simp only
  rcases run : (execute ctx t).runOn store with ⟨e | found, last⟩
  · cases e <;> simp
  · simp

/-- The path of a navigation property leads to the entities that are related to the source. -/
theorem runOn_walk_navigationPath (intact : ctx.model.Intact)
    (followable : Followable ctx store definition record key navigation target)
    (same : other.tables = store.tables) :
    ∃ parent,
      (walk ctx t [entitySegment definition key, ⟨navigation.name.text, none⟩]).runOn other =
        (.ok ⟨definition.related target navigation record, none, parent⟩, other) := by
  obtain ⟨read, parsed, found⟩ := followable.found
  have reads : ((EntitySet.root definition).readScoped read).runOn other = (.ok record, other) :=
    (EntitySet.runOn_readScoped_root_ok_iff rfl).mpr
      ⟨intact.readable definition followable.known, by rw [Store.rows_congr same]; exact found, rfl⟩
  exact ⟨_, walk_pair_ok_iff.mpr ⟨⟨definition, navigation, record⟩, read, target,
    intact.entitySet?_name followable.known, parsed, reads, followable.leads.declared,
    followable.leads.bound, rfl⟩⟩

/-- A request for the rest of an expansion is answered with a page of the related entities. -/
theorem runOn_execute_navigationPath (intact : ctx.model.Intact)
    (followable : Followable ctx store definition record key navigation target)
    (same : other.tables = store.tables) (plain : t.request.Plain)
    (path : t.request.path = ctx.config.endpoint.url ++ "/" ++
      (navigationPath definition key navigation).toText) :
    (execute ctx t).runOn other =
      (entityPage ctx t (navigationPath definition key navigation)
        (definition.related target navigation record)).runOn other := by
  have named : ∀ s ∈ [(⟨navigation.name.text, none⟩ : Segment)], s.Readable := by
    intro s member
    rw [List.mem_singleton.mp member]
    exact ⟨navigation.name.isIdentifier, by simp⟩
  have parses : ResourcePath.parse (ctx.config.endpoint.resourcePath t.request.path) =
      .ok (navigationPath definition key navigation) := by
    rw [path, Endpoint.resourcePath_url followable.routed
      (ResourcePath.not_slash_of_head? followable.readable _)]
    exact ResourcePath.parse_segments followable.readable named
  obtain ⟨parent, walked⟩ := runOn_walk_navigationPath (t := t) intact followable same
  rw [execute, parses, lift_ok_bind, navigationPath]
  simp only
  rw [runOn_bind_of_ok walked]
  simp only [entityRequest, plain.method, getRequest, EntitySetDef.related, EntitySet.resolve]
  rw [EntitySet.explicitTarget_of_plain plain, lift_ok_bind]
  simp only [EntitySet.resolveScoped, Source.isCollection, followable.collects, if_true, pure_bind]

section Pages

variable (stored : ctx.model.InMemory) (large : ctx.config.pagination.maxPageSize + 1 < recordLimit)
  (intact : ctx.model.Intact) {items : List Expansion} {name : String}
  (linkable : Linkable ctx.config.limits items) (member : (name, options) ∈ items)
  (followable : Followable ctx store definition record key navigation target)
  {plan : QueryPlan}
  (accepted : (definition.related target navigation record).plan ctx options = .ok plan)
  {selected : List Record}
  {consumed : Nat} {remaining : Option Nat}
  (begins : Pager.Begins ctx.libraries.tokenFault plan options (some token) consumed remaining)
  (offers : Pager.Offers (definition.related target navigation record) options remaining)
  (sorted : Pager.Sorted ctx (definition.related target navigation record) store plan remaining
    selected)

include stored large intact linkable member followable accepted begins offers sorted

/-- A link is answered if the next records that are left have objects, and then with these and the
link to what is left after them. -/
theorem respond_linkText_eq_ok (drawn : Guid) (same : other.tables = store.tables) :
    let rows := store.rows target.name.text
    let size := Pager.pageSizeOf ctx.config.pagination options.top
    let left := Pager.leftOf options selected consumed remaining
    (respond ctx .get (linkText ctx definition key navigation options token) none drawn other).1 =
        some (.ok response) ↔
      ∃ shown, (left.take size).mapM (target.object ctx store options) = .ok shown ∧
        response = .ok (.object (pageMembers ctx target.name.text
          (if options.count then some (rows.countP plan.admits) else none) shown
          ((Pager.nextToken plan size consumed remaining left).map
            (linkText ctx definition key navigation options)))) := by
  intro rows size left
  have known : (definition.related target navigation record).definition ∈ ctx.model.sets :=
    followable.leads.known
  have inside : ctx.config.limits.checkList 1 options.expand = .ok () :=
    (linkable.inside member).within
  let t : Transaction := ⟨restRequest ctx definition key navigation options token,
    Pager.resume options (some token), 0, drawn⟩
  have objects {page : Page} {shown : List Json} {middle last : Store}
      (paged : (Pager.firstPage ctx (definition.related target navigation record) t.options
        (maker ctx t (definition.related target navigation record))).runOn other =
          (.ok page, middle))
      (renders : (page.entities.mapM (Entity.toJson ctx t.request t.depth t.options)).runOn middle =
        (.ok shown, last)) := Pager.objects_of_page stored plain_restRequest large known inside
    accepted begins offers sorted same paged renders
  have links : nextLink ctx t (navigationPath definition key navigation) =
      linkText ctx definition key navigation options := funext (nextLink_restRequest 0 drawn)
  have answer := runOn_execute_navigationPath (t := t) intact followable same plain_restRequest rfl
  rw [respond_eq_ok_iff (ofUri_linkText drawn linkable member followable.queryless)]
  simp only [t, answer, runOn_entityPage_eq_ok]
  constructor
  · rintro ⟨after, page, middle, shown, paged, renders, rfl⟩
    obtain ⟨made, next, count⟩ := objects paged renders
    refine ⟨shown, made, ?_⟩
    rw [links, next, count]
    rfl
  · rintro ⟨shown, made, rfl⟩
    obtain ⟨page, middle, last, paged, renders⟩ := Pager.exists_page_of_objects stored
      plain_restRequest large known inside accepted begins offers sorted same made
    obtain ⟨_, next, count⟩ := objects paged renders
    refine ⟨last, page, middle, shown, paged, renders, ?_⟩
    rw [links, next, count]
    rfl

end Pages

end Service

end OData
