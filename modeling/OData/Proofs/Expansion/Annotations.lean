import OData.Proofs.Expansion.Completion

/-!
# Annotations of expansions

An expansion is rendered as a value and, where it has them, a count and a link to the rest.  They
are put among the members of an object one expansion after the other.  If a navigation property is
expanded more than once, the value of the last expansion is shown, but an annotation that it does
not write is the one that an earlier expansion has left.
-/

set_option autoImplicit false

namespace OData

open OData.Action
open Json (Members)
open Pager (leftOf nextToken pageSizeOf pageAt GoesOn Walk)

variable {ctx : Context} {store : Store} {request : Request} {depth : Nat}

/-! ## Pages and what they leave -/

namespace Pager

variable {set : EntitySet} {options : QueryOptions} {plan : QueryPlan} {offered : CapabilitySet}
  {selected : List Record} {token : Option String} {consumed : Nat} {remaining : Option Nat}

/-- Whether some entities are made of some records, one of each and in their order. -/
def Makes (ctx : Context) (store : Store) (request : Request) (depth : Nat) (set : EntitySet)
    (options : QueryOptions) (select : Option (List Identifier)) :
    List Record → List Entity → Prop :=
  List.Forall₂ fun record entity =>
    Gives store (set.materialize ctx request depth options select record) entity

/-- Whether a record has an entity in each store with the tables of one. -/
def Makeable (ctx : Context) (store : Store) (request : Request) (depth : Nat) (set : EntitySet)
    (options : QueryOptions) (select : Option (List Identifier)) (record : Record) : Prop :=
  ∀ other : Store, other.tables = store.tables → ∃ entity after,
    (set.materialize ctx request depth options select record).runOn other = (.ok entity, after)

/-- The pages from a token on hold the entities of some records, and they come to an end if each of
the records has an entity. -/
structure Continues (ctx : Context) (store : Store) (set : EntitySet) (options : QueryOptions)
    (select : Option (List Identifier)) (token : String) (records : List Record) : Prop where
  all : ∀ (request : Request) (depth : Nat) (stores : Nat → Store) (pages : List Page),
    (∀ i, (stores i).tables = store.tables) →
      Walk (pageAt ctx set request depth options) stores (some token) pages →
        Makes ctx store request depth set options select records (pages.flatMap (·.entities))
  ends : ∀ (request : Request) (depth : Nat) (stores : Nat → Store),
    (∀ i, (stores i).tables = store.tables) →
      (∀ record ∈ records, Makeable ctx store request depth set options select record) →
        ∃ pages, Walk (pageAt ctx set request depth options) stores (some token) pages

section Pages

variable (table : set.definition.backing = .table offered)
  (large : ctx.config.pagination.maxPageSize + 1 < recordLimit)
  (accepted : set.plan ctx options = .ok plan)

include table large accepted

/-- A request for a page makes the entities of the first records that are left. -/
theorem runOn_pageAt
    (begins : Begins ctx.libraries.tokenFault plan options token consumed remaining)
    (offers : Offers set options remaining)
    (sorted : Sorted ctx set store plan remaining selected) {other : Store}
    (same : other.tables = store.tables) :
    let rows := store.rows set.definition.name.text
    let size := pageSizeOf ctx.config.pagination options.top
    let left := leftOf options selected consumed remaining
    ∃ middle : Store, middle.tables = store.tables ∧
      (pageAt ctx set request depth options token).runOn other =
        ((left.take size).mapM (set.materialize ctx request depth options plan.select) >>=
          fun entities => pure
            { entities, count := if options.count then some (rows.countP plan.admits) else none,
              skipToken := nextToken plan size consumed remaining left }).runOn middle := by
  intro rows size left
  obtain ⟨middle, kept, run⟩ := runOn_firstPage
    (set.materialize ctx request depth (resume options token)) table large accepted begins offers
    sorted same
  rw [funext (EntitySet.materialize_resume set options token plan.select)] at run
  exact ⟨middle, kept, run⟩

/-- A page that is answered has the entities of the first records that are left. -/
theorem makes_of_pageAt
    (begins : Begins ctx.libraries.tokenFault plan options token consumed remaining)
    (offers : Offers set options remaining)
    (sorted : Sorted ctx set store plan remaining selected) {page : Page}
    (gives : Gives store (pageAt ctx set request depth options token) page) :
    let rows := store.rows set.definition.name.text
    let size := pageSizeOf ctx.config.pagination options.top
    let left := leftOf options selected consumed remaining
    Makes ctx store request depth set options plan.select (left.take size) page.entities ∧
      page.count = (if options.count then some (rows.countP plan.admits) else none) ∧
      page.skipToken = nextToken plan size consumed remaining left := by
  intro rows size left
  obtain ⟨other, after, same, run⟩ := gives
  obtain ⟨middle, kept, made⟩ := runOn_pageAt table large accepted begins offers sorted same
  rw [made] at run
  have reads (record : Record) :=
    EntitySet.reads_materialize ctx request depth set options plan.select record
  obtain ⟨entities, entered, result⟩ :=
    (Reads.mapM reads (left.take size)).gives_bind ⟨middle, after, kept, run⟩
  rw [gives_pure result]
  exact ⟨Reads.gives_mapM reads entered, rfl, rfl⟩

/-- A page is answered if the records that are left have entities. -/
theorem exists_pageAt
    (begins : Begins ctx.libraries.tokenFault plan options token consumed remaining)
    (offers : Offers set options remaining)
    (sorted : Sorted ctx set store plan remaining selected)
    (makeable : ∀ record ∈ leftOf options selected consumed remaining,
      Makeable ctx store request depth set options plan.select record)
    {other : Store} (same : other.tables = store.tables) :
    ∃ page after, (pageAt ctx set request depth options token).runOn other = (.ok page, after) := by
  obtain ⟨middle, kept, made⟩ := runOn_pageAt table large accepted begins offers sorted same
  obtain ⟨entities, after, entered⟩ := exists_mapM
    (fun record => EntitySet.reads_materialize ctx request depth set options plan.select record)
    (fun record member => makeable record (List.mem_of_mem_take member)) kept
  exact ⟨_, after, made.trans (runOn_bind_of_ok entered)⟩

section Walks

variable
  (sorts : plan.run ctx.libraries.sorting (store.rows set.definition.name.text) = some selected)
  (few : selected.length < recordLimit)

include sorts few

/-- The pages from a token on hold the entities of the records that are left. -/
theorem makes_of_walk {stores : Nat → Store} {pages : List Page}
    (walk : Walk (pageAt ctx set request depth options) stores token pages) :
    ∀ {consumed : Nat} {remaining : Option Nat}, (∀ i, (stores i).tables = store.tables) →
      GoesOn ctx.libraries.tokenFault set plan options token consumed remaining →
      Makes ctx store request depth set options plan.select
        (leftOf options selected consumed remaining)
        (pages.flatMap (·.entities)) := by
  induction walk with
  | @last stores token page run ends =>
    intro consumed remaining same goesOn
    obtain ⟨made, _, next⟩ := makes_of_pageAt table large accepted goesOn.begins goesOn.offers
      (fun _ => sorts) ⟨stores 0, _, same 0, Prod.ext run rfl⟩
    rw [ends] at next
    rw [List.take_of_length_le (Service.nextToken_eq_none_iff.mp next.symm)] at made
    simpa using made
  | @step stores token page following pages run more _ ih =>
    intro consumed remaining same goesOn
    obtain ⟨made, _, next⟩ := makes_of_pageAt table large accepted goesOn.begins goesOn.offers
      (fun _ => sorts) ⟨stores 0, _, same 0, Prod.ext run rfl⟩
    rw [more] at next
    have rest := ih (fun i => same (i + 1)) (goesOn.next few next.symm).2
    rw [leftOf_drop] at rest
    rw [List.flatMap_cons, ← List.take_append_drop (pageSizeOf ctx.config.pagination options.top)
      (leftOf options selected consumed remaining)]
    exact List.rel_append made rest

/-- If the records that are left have entities, the pages come to an end.  The induction is on how
many are left; each page takes a positive number of records off them. -/
theorem exists_walk_of_makeable (length : Nat) :
    ∀ {stores : Nat → Store} {token : Option String} {consumed : Nat} {remaining : Option Nat},
      (leftOf options selected consumed remaining).length =
        length →
      (∀ i, (stores i).tables = store.tables) →
      GoesOn ctx.libraries.tokenFault set plan options token consumed remaining →
      (∀ record ∈ leftOf options selected consumed remaining,
        Makeable ctx store request depth set options plan.select record) →
      ∃ pages, Walk (pageAt ctx set request depth options) stores token pages := by
  have positive := pageSizeOf_pos ctx.config.pagination options.top
  induction length using Nat.strongRecOn with
  | ind length ih =>
    intro stores token consumed remaining long same goesOn makeable
    obtain ⟨page, after, run⟩ := exists_pageAt table large accepted goesOn.begins goesOn.offers
      (fun _ => sorts) makeable (same 0)
    obtain ⟨_, _, next⟩ := makes_of_pageAt table large accepted goesOn.begins goesOn.offers
      (fun _ => sorts) ⟨stores 0, after, same 0, run⟩
    have answered := congrArg Prod.fst run
    cases more : page.skipToken with
    | none => exact ⟨_, .last answered more⟩
    | some following =>
      obtain ⟨longer, rest⟩ := goesOn.next few (next.symm.trans more)
      obtain ⟨pages, walk⟩ := ih _ (by rw [leftOf_drop, List.length_drop]; omega) rfl
        (fun i => same (i + 1)) rest fun record member => by
          rw [leftOf_drop] at member
          exact makeable record (List.mem_of_mem_drop member)
      exact ⟨_, .step answered more walk⟩

/-- A token with which a query goes on leads to the records that are left. -/
theorem GoesOn.continues {token : String} {consumed : Nat} {remaining : Option Nat}
    (goesOn : GoesOn ctx.libraries.tokenFault set plan options (some token) consumed remaining) :
    Continues ctx store set options plan.select token
      (leftOf options selected consumed remaining) where
  all _ _ _ _ same walk := makes_of_walk table large accepted sorts few walk same goesOn
  ends _ _ _ same makeable :=
    exists_walk_of_makeable table large accepted sorts few _ rfl same goesOn makeable

end Walks

end Pages

/-- The records that the query of a collection skips to and limits, of those that it selects. -/
def wanted (options : QueryOptions) (selected : List Record) : List Record :=
  leftOf options selected 0 options.top

end Pager

namespace Entity

/-! ## Renderings -/

/-- The annotations beside an expanded navigation property. -/
inductive Note where
  | count
  | nextLink

/-- The name of the member that an annotation of a property is. -/
def Note.member (name : Identifier) : Note → String
  | .count => name.text ++ "@odata.count"
  | .nextLink => name.text ++ "@odata.nextLink"

/-- What an expansion writes into the object of its entity. -/
structure Rendering where
  name : Identifier
  value : Json
  count : Option Nat
  link : Option String

namespace Rendering

def note (r : Rendering) : Note → Option Json
  | .count => r.count.map fun n => .int n
  | .nextLink => r.link.map .str

def addTo (members : Members) (r : Rendering) : Members :=
  (insertIf (Note.nextLink.member r.name) (r.note .nextLink)
    (insertIf (Note.count.member r.name) (r.note .count) members)).insert r.name.text r.value

end Rendering

/-- The rendering of what an expansion leads to. -/
def renderExpansion (ctx : Context) (request : Request) (depth : Nat) (options : QueryOptions) :
    Identifier × Related Entity → Action Rendering
  | (name, .one none) => pure ⟨name, .null, none, none⟩
  | (name, .one (some entity)) => do
    let json ← toJson ctx request depth options entity
    pure ⟨name, json, none, none⟩
  | (name, .many set) => do
    let page ← Pager.firstPage ctx set options (set.materialize ctx request depth options)
    let items ← page.entities.mapM fun entity => toJson ctx request depth options entity
    let link ← pageLink ctx set options page
    pure ⟨name, .array items, page.count, link⟩

theorem expandedMember_eq (item : Expansion) (entry : Identifier × Related Entity)
    (members : Members) : expandedMembers ctx request depth [item] [entry] members =
      renderExpansion ctx request depth item.2 entry >>= fun r => pure (r.addTo members) := by
  obtain ⟨name, related⟩ := entry
  cases related with
  | one found =>
    cases found with
    | none =>
      rw [expandedMembers, renderExpansion]
      simp only [expandedMembers_nil, pure_bind]
      rfl
    | some entity =>
      rw [expandedMembers, renderExpansion]
      simp only [expandedMembers_nil, bind_assoc, pure_bind]
      rfl
  | many set =>
    rw [expandedMembers, renderExpansion]
    simp only [expandedMembers_nil, bind_assoc, pure_bind]
    rfl

/-- The members of the expansions are put in one rendering after the other. -/
theorem expandedMembers_eq (items : List Expansion) :
    ∀ (entries : List (Identifier × Related Entity)) (members : Members),
      expandedMembers ctx request depth items entries members =
        (items.zip entries).mapM (fun pair => renderExpansion ctx request depth pair.1.2 pair.2)
          >>= fun renderings => pure (renderings.foldl Rendering.addTo members) := by
  induction items with
  | nil =>
    intro entries members
    rw [expandedMembers_nil]
    rfl
  | cons item items ih =>
    intro entries members
    cases entries with
    | nil =>
      rw [expandedMembers]
      · rfl
      · simp
    | cons entry entries =>
      rw [expandedMembers_cons, expandedMember_eq, List.zip_cons_cons, List.mapM_cons]
      simp only [ih, bind_assoc, pure_bind, List.foldl_cons]

theorem reads_renderExpansion (options : QueryOptions) (entry : Identifier × Related Entity) :
    Reads (renderExpansion ctx request depth options entry) := by
  obtain ⟨name, related⟩ := entry
  cases related with
  | one found =>
    cases found with
    | none => exact reads_pure _
    | some entity =>
      exact (reads_toJson ctx request depth options entity).bind fun _ => reads_pure _
  | many set =>
    have page := Pager.reads_firstPage ctx set
      (EntitySet.reads_materialize ctx request depth set options) options
    have shown (entities : List Entity) :=
      Reads.mapM (reads_toJson ctx request depth options) entities
    exact page.bind fun page => (shown page.entities).bind fun items =>
      (reads_lift _).bind fun _ => reads_pure _

/-! ## What is left of earlier renderings -/

theorem Note.at_mem_member (a : Note) (name : Identifier) : '@' ∈ (a.member name).toList := by
  cases a <;> simp [member]

theorem Note.member_mem (a : Note) (name : Identifier) : a.member name ∈ memberNames name.text := by
  cases a <;> simp [member, memberNames]

theorem Note.member_ne (a : Note) (name other : Identifier) : a.member name ≠ other.text := by
  intro same
  exact other.at_not_mem (same ▸ a.at_mem_member name)

theorem Note.nextLink_ne_count (name : Identifier) :
    nextLink.member name ≠ count.member name := by
  intro same
  have chars := congrArg String.toList same
  simp [member] at chars

namespace Rendering

variable {r : Rendering} {members : Members} {name : Identifier} {member : String}

theorem get?_addTo_of_ne (apart : r.name ≠ name) (among : member ∈ memberNames name.text) :
    (addTo members r).get? member = members.get? member := by
  have outside : member ∉ memberNames r.name.text :=
    not_mem_memberNames name.at_not_mem r.name.at_not_mem
      (fun same => apart (EntityType.Identifier.eq_of_text same.symm)) among
  simp only [memberNames, List.mem_cons, List.not_mem_nil, or_false, not_or] at outside
  rw [addTo, Members.get?_insert_of_ne outside.1]
  exact (get?_insertIf_of_ne outside.2.2).trans (get?_insertIf_of_ne outside.2.1)

/-- An annotation that a rendering does not write is the one that was there. -/
theorem get?_addTo_note (a : Note) :
    (addTo members r).get? (a.member r.name) = (r.note a).or (members.get? (a.member r.name)) := by
  rw [addTo, Members.get?_insert_of_ne (a.member_ne r.name r.name)]
  cases a with
  | count =>
    rw [get?_insertIf_of_ne (Note.nextLink_ne_count r.name).symm, get?_insertIf_self]
  | nextLink =>
    rw [get?_insertIf_self, get?_insertIf_of_ne (Note.nextLink_ne_count r.name)]

theorem get?_foldl_of_ne {renderings : List Rendering} (among : member ∈ memberNames name.text) :
    ∀ {members : Members}, (∀ r ∈ renderings, r.name ≠ name) →
      (renderings.foldl addTo members).get? member = members.get? member := by
  induction renderings with
  | nil => exact fun _ => rfl
  | cons r rest ih =>
    intro members apart
    rw [List.foldl_cons, ih fun other later => apart other (List.mem_cons_of_mem _ later),
      get?_addTo_of_ne (apart r List.mem_cons_self) among]

/-- The value of the last rendering of a property is shown. -/
theorem get?_foldl_value {before later : List Rendering}
    (last : ∀ other ∈ later, other.name ≠ r.name) :
    ((before ++ r :: later).foldl addTo members).get? r.name.text = some r.value := by
  have named : r.name.text ∈ memberNames r.name.text := List.mem_cons_self
  rw [List.foldl_append, List.foldl_cons, get?_foldl_of_ne named last]
  exact Members.get?_insert_self _ _ _

/-- An annotation is absent if it was, and no rendering of its property writes it. -/
theorem get?_foldl_eq_none_iff (a : Note) (renderings : List Rendering) :
    ∀ {members : Members}, (renderings.foldl addTo members).get? (a.member name) = none ↔
      members.get? (a.member name) = none ∧
        ∀ r ∈ renderings, r.name = name → r.note a = none := by
  induction renderings with
  | nil => simp
  | cons r rest ih =>
    intro members
    rw [List.foldl_cons, ih, List.forall_mem_cons]
    by_cases same : r.name = name
    · subst same
      rw [get?_addTo_note, Option.or_eq_none_iff]
      simp only [forall_const]
      tauto
    · rw [get?_addTo_of_ne same (a.member_mem name)]
      simp [same]

/-- The members after the renderings of some expansions are those of one of them if it is the last
of its property and no earlier one of its property has an annotation that it has not. -/
theorem notes_foldl_iff {before later : List Rendering}
    (fresh : ∀ a : Note, members.get? (a.member r.name) = none)
    (last : ∀ other ∈ later, other.name ≠ r.name) :
    (∀ a : Note, ((before ++ r :: later).foldl addTo members).get? (a.member r.name) = r.note a) ↔
      ∀ earlier ∈ before, earlier.name = r.name →
        ∀ a, r.note a = none → earlier.note a = none := by
  have shown (a : Note) :
      ((before ++ r :: later).foldl addTo members).get? (a.member r.name) =
        (r.note a).or ((before.foldl addTo members).get? (a.member r.name)) := by
    rw [List.foldl_append, List.foldl_cons, get?_foldl_of_ne (a.member_mem r.name) last,
      get?_addTo_note]
  have left (a : Note) : (r.note a).or
      ((before.foldl addTo members).get? (a.member r.name)) = r.note a ↔
        (r.note a = none → ∀ earlier ∈ before, earlier.name = r.name →
          earlier.note a = none) := by
    cases written : r.note a with
    | none => simp [get?_foldl_eq_none_iff, fresh]
    | some json => simp
  simp only [shown, left]
  constructor
  · exact fun each earlier member same a absent => each a absent earlier member same
  · exact fun each a absent earlier member same => each earlier member same a absent

end Rendering

/-! ## What a rendering shows -/

/-- A collection is shown by the objects of the first of its records, and how many there are if that
is asked for.  If more are left there is a link, from which on the pages hold these. -/
structure ShowsFirst (ctx : Context) (store : Store) (request : Request) (depth : Nat)
    (set : EntitySet) (options : QueryOptions) (items : List Json) (count : Option Nat)
    (link : Option String) (plan : QueryPlan) (selected : List Record) (entities : List Entity)
    (size : Nat) : Prop where
  accepted : set.plan ctx options = .ok plan
  sorted : Pager.Sorted ctx set store plan options.top selected
  sized : size = pageSizeOf ctx.config.pagination options.top
  made : Pager.Makes ctx store request depth set options plan.select
    ((Pager.wanted options selected).take size) entities
  shown : List.Forall₂
    (fun entity json => Gives store (toJson ctx request depth options entity) json) entities items
  counted : count = if options.count then
    some ((store.rows set.definition.name.text).countP plan.admits) else none
  whole : (Pager.wanted options selected).length ≤ size → link = none
  truncated : size < (Pager.wanted options selected).length →
    ∃ token, set.nextLink ctx options token = .ok link ∧
      Pager.Continues ctx store set options plan.select token
        ((Pager.wanted options selected).drop size)

/-- What a rendering shows of that to which an expansion leads. -/
inductive Renders (ctx : Context) (store : Store) (request : Request) (depth : Nat) :
    Expansion × (Identifier × Related Entity) → Rendering → Prop
  | none {label : String} {options : QueryOptions} {name : Identifier} :
      Renders ctx store request depth ((label, options), (name, .one none))
        ⟨name, .null, none, none⟩
  | one {label : String} {options : QueryOptions} {name : Identifier} {entity : Entity}
      {json : Json}
      (object : Gives store (toJson ctx request depth options entity) json) :
      Renders ctx store request depth ((label, options), (name, .one (some entity)))
        ⟨name, json, none, none⟩
  | many {label : String} {options : QueryOptions} {name : Identifier} {set : EntitySet}
      {items : List Json} {count : Option Nat} {link : Option String} {plan : QueryPlan}
      {selected : List Record} {entities : List Entity} {size : Nat}
      (first : ShowsFirst ctx store request depth set options items count link plan selected
        entities size) :
      Renders ctx store request depth ((label, options), (name, .many set))
        ⟨name, .array items, count, link⟩

/-- Tables of which pages can be made: they are in memory, and their rows and those of a page are
counted in 64 bits. -/
structure Pageable (ctx : Context) (store : Store) : Prop where
  stored : ctx.model.InMemory
  large : ctx.config.pagination.maxPageSize + 1 < recordLimit
  few : ∀ set ∈ ctx.model.sets, (store.rows set.name.text).length < recordLimit

/-- Options of an expansion as they are read: they have no skip token, and their limit is of 64
bits. -/
structure Unpaged (options : QueryOptions) : Prop where
  tokenless : options.skipToken = none
  budget : ∀ n ∈ options.top, n < recordLimit

theorem unpaged_of_expandFits {good : Nat → Expr → Prop} {nesting : Nat} {items : List Expansion}
    (fits : QueryOptions.ExpandFits good nesting items) : ∀ item ∈ items, Unpaged item.2 := by
  intro item member
  cases nesting with
  | zero =>
    rw [(fits item member).2]
    exact ⟨rfl, fun n limit => by cases limit⟩
  | succ nesting =>
    have fits := (fits item member).2.1
    exact ⟨fits.skipToken, fits.top⟩

theorem Pageable.showsFirst {set : EntitySet} {options : QueryOptions} {page : Page}
    {items : List Json} {link : Option String} (pageable : Pageable ctx store)
    (known : set.definition ∈ ctx.model.sets) (unpaged : Unpaged options)
    (paged : Gives store (Pager.firstPage ctx set options
      (set.materialize ctx request depth options)) page)
    (shown : Gives store (page.entities.mapM (toJson ctx request depth options)) items)
    (linked : pageLink ctx set options page = .ok link) :
    ∃ plan selected size, ShowsFirst ctx store request depth set options items page.count link plan
      selected page.entities size := by
  obtain ⟨offered, table⟩ := pageable.stored _ known
  obtain ⟨other, after, same, run⟩ := paged
  obtain ⟨plan, accepted, offers, selected, started⟩ :=
    Pager.exists_plan_of_firstPage table unpaged.tokenless run
  have sorted : Pager.Sorted ctx set store plan options.top selected :=
    started.of_tables same.symm
  have first : Gives store (pageAt ctx set request depth options none) page := by
    rw [pageAt, Pager.resume_none unpaged.tokenless]
    exact ⟨other, after, same, run⟩
  obtain ⟨made, counted, next⟩ := Pager.makes_of_pageAt table pageable.large accepted
    (Pager.begins_first _ plan options) offers sorted first
  refine ⟨plan, selected, _, accepted, sorted, rfl, made,
    Reads.gives_mapM (reads_toJson ctx request depth options) shown, counted, ?_, ?_⟩
  · intro short
    have ends := next.trans (if_pos short)
    rw [pageLink, ends] at linked
    cases linked
    rfl
  · intro long
    have more := next.trans (if_neg (Nat.not_le_of_lt long))
    rw [pageLink, more] at linked
    have sorts := sorted.run_of_lt long
    have few : selected.length < recordLimit := by
      rw [QueryPlan.length_of_run sorts]
      exact Nat.lt_of_le_of_lt List.countP_le_length (pageable.few _ known)
    have start := Pager.goesOn_first ctx.libraries.tokenFault plan offers unpaged.budget
    have goesOn := (start.next few (next.symm.trans more)).2
    have rest := goesOn.continues table pageable.large accepted sorts few
    rw [Pager.leftOf_drop] at rest
    exact ⟨_, linked, rest⟩

theorem Pageable.renders (pageable : Pageable ctx store) {item : Expansion}
    {entry : Identifier × Related Entity} (known : entry.2.Known ctx.model)
    (unpaged : Unpaged item.2) {r : Rendering}
    (gives : Gives store (renderExpansion ctx request depth item.2 entry) r) :
    Renders ctx store request depth (item, entry) r := by
  obtain ⟨name, related⟩ := entry
  cases related with
  | one found =>
    cases found with
    | none =>
      rw [renderExpansion] at gives
      rw [gives_pure gives]
      exact .none
    | some entity =>
      rw [renderExpansion] at gives
      obtain ⟨json, object, gives⟩ :=
        (reads_toJson ctx request depth item.2 entity).gives_bind gives
      rw [gives_pure gives]
      exact .one object
  | many set =>
    rw [renderExpansion] at gives
    obtain ⟨page, paged, gives⟩ := (Pager.reads_firstPage ctx set
      (EntitySet.reads_materialize ctx request depth set item.2) item.2).gives_bind gives
    obtain ⟨items, shown, gives⟩ :=
      (Reads.mapM (reads_toJson ctx request depth item.2) page.entities).gives_bind gives
    obtain ⟨link, linked, gives⟩ := gives_lift_bind gives
    rw [gives_pure gives]
    obtain ⟨plan, selected, size, first⟩ :=
      pageable.showsFirst known.known unpaged paged shown linked
    exact .many first

/-- The members of an expanded navigation property are those of its last expansion if and only if
no earlier expansion of it has an annotation that the last one has not.  The value always is the
last one's, and each expansion has a link only if its list is truncated, to what is left of it. -/
theorem annotations_of_last_iff {options : QueryOptions} {entity : Entity} {json : Json}
    {after : Store}
    (run : (toJson ctx request depth options entity).runOn store = (.ok json, after)) :
    ∃ (renderings : List Rendering) (members : Members), json = .object members ∧
      List.Forall₂ (fun pair r => Gives store
        (renderExpansion ctx request (depth + 1) pair.1.2 pair.2) r)
          (options.expand.zip entity.expansions) renderings ∧
      (Pageable ctx store → entity.Known ctx.model → (∀ item ∈ options.expand, Unpaged item.2) →
        List.Forall₂ (Renders ctx store request (depth + 1))
          (options.expand.zip entity.expansions) renderings) ∧
      ∀ before r later, renderings = before ++ r :: later →
        (∀ other ∈ later, other.name ≠ r.name) →
          members.get? r.name.text = some r.value ∧
          ((∀ a : Note, members.get? (a.member r.name) = r.note a) ↔
            ∀ earlier ∈ before, earlier.name = r.name →
              ∀ a, r.note a = none → earlier.note a = none) := by
  obtain ⟨filter, orderBy, select, expand, top, skip, count, skipToken⟩ := options
  rw [toJson, expandedMembers_eq, bind_assoc] at run
  simp only [pure_bind] at run
  obtain ⟨renderings, middle, rendered, result⟩ := runOn_bind_ok_iff.mp run
  cases result
  have each : List.Forall₂ (fun pair r => Gives store
      (renderExpansion ctx request (depth + 1) pair.1.2 pair.2) r)
        (expand.zip entity.expansions) renderings :=
    Reads.gives_mapM (fun _ => reads_renderExpansion _ _) ⟨store, _, rfl, rendered⟩
  refine ⟨renderings, _, rfl, each, ?_, ?_⟩
  · intro pageable known unpaged
    obtain ⟨length, each⟩ := List.forall₂_iff_zip.mp each
    refine List.forall₂_iff_zip.mpr ⟨length, fun {pair r} member => ?_⟩
    obtain ⟨item, entry⟩ := List.of_mem_zip (List.of_mem_zip member).1
    exact pageable.renders (Entity.known_iff.mp known _ entry) (unpaged _ item) (each member)
  · rintro before r later rfl last
    have fresh (a : Note) : (valueMembers entity.values).get? (a.member r.name) = none :=
      get?_valueMembers_of_at (a.at_mem_member r.name) entity.values
    exact ⟨Rendering.get?_foldl_value last, Rendering.notes_foldl_iff fresh last⟩

/-! A customer whose orders are expanded twice, on pages of one: all of them, and those after the
first. -/

section Orders

open EntitySet (customers firstCustomer idKey ordersOfCustomer)
open Service (customerOrders inMemory_orderModel orderJson ordersStore singlesContext)

def laterOrders : QueryOptions := { QueryOptions.empty with skip := some 1 }

def twiceOptions : QueryOptions :=
  { QueryOptions.empty with expand := [("Orders", .empty), ("Orders", laterOrders)] }

def customerTwice : Entity :=
  ⟨customers.name, idKey (.int 1), firstCustomer,
    [(ordersOfCustomer.name, .many customerOrders), (ordersOfCustomer.name, .many customerOrders)]⟩

theorem pageable_orders : Pageable singlesContext ordersStore :=
  ⟨inMemory_orderModel, by decide, by decide⟩

theorem known_customerTwice : customerTwice.Known singlesContext.model := by
  have led : (EntitySet.root customers).navigate singlesContext firstCustomer "Orders" =
      .ok customerOrders := rfl
  have reached := EntitySet.reached_of_navigate (.head _) led
  refine known_iff.mpr fun entry member => ?_
  simp only [customerTwice, List.mem_cons, List.not_mem_nil, or_false, or_self] at member
  rw [member]
  exact reached

theorem length_wanted_laterOrders {plan : QueryPlan} {selected : List Record}
    (accepted : customerOrders.plan singlesContext laterOrders = .ok plan)
    (sorted : Pager.Sorted singlesContext customerOrders ordersStore plan none selected) :
    (Pager.wanted laterOrders selected).length ≤ 1 := by
  cases accepted
  have two : selected.length = 2 :=
    (QueryPlan.length_of_run (sorted (by decide))).trans (by decide +kernel)
  have skipped : Pager.wanted laterOrders selected = selected.drop 1 := rfl
  rw [skipped, List.length_drop, two]

/-- The orders after the first are shown, and beside them the link to them. -/
theorem annotations_of_last_iff_ordersTwice : ∃ (members : Members) (after : Store)
    (first last : Rendering) (link : String),
    QueryOptions.parseExpand "Orders,Orders($skip=1)" = .ok twiceOptions.expand ∧
    (toJson singlesContext .bare 0 twiceOptions customerTwice).runOn ordersStore =
      (.ok (.object members), after) ∧
    members.get? "Orders" = some (.array [orderJson (.int 6)]) ∧
    members.get? "Orders@odata.nextLink" = some (.str link) ∧
    last.value = .array [orderJson (.int 6)] ∧ last.link = none ∧
    first.name = last.name ∧
    ¬∀ a : Note, last.note a = none → first.note a = none := by
  have run : ∃ (members : Members) (after : Store) (link : String),
      (toJson singlesContext .bare 0 twiceOptions customerTwice).runOn ordersStore =
        (.ok (.object members), after) ∧
      members.get? "Orders" = some (.array [orderJson (.int 6)]) ∧
      members.get? "Orders@odata.nextLink" = some (.str link) := ⟨_, _, _, rfl, rfl, rfl⟩
  obtain ⟨members, after, link, run, shown, linked⟩ := run
  obtain ⟨renderings, _, ⟨⟩, _, renders, iff⟩ := annotations_of_last_iff run
  have read : QueryOptions.parseExpand "Orders,Orders($skip=1)" = .ok twiceOptions.expand := rfl
  have unpaged := unpaged_of_expandFits (QueryOptions.expandFits_of_parseExpand read)
  have each := renders pageable_orders known_customerTwice unpaged
  obtain ⟨first, last, rfl⟩ := List.length_eq_two.mp each.length_eq.symm
  obtain ⟨one, two⟩ := List.forall₂_cons.mp each
  replace two := (List.forall₂_cons.mp two).1
  have whole : last.link = none := by
    cases two with
    | many rest =>
      exact rest.whole (rest.sized ▸ length_wanted_laterOrders rest.accepted rest.sorted)
  have firstName : first.name = ordersOfCustomer.name := by cases one; rfl
  have lastName : last.name = ordersOfCustomer.name := by cases two; rfl
  obtain ⟨value, covered⟩ := iff [first] last [] rfl (by simp)
  have stale : ¬∀ a : Note, members.get? (a.member last.name) = last.note a := by
    intro all
    have unlinked := all .nextLink
    rw [lastName, Rendering.note, whole] at unlinked
    cases linked.symm.trans unlinked
  refine ⟨members, after, first, last, link, read, run, shown, linked, ?_, whole,
    firstName.trans lastName.symm, fun covers => stale (covered.mpr fun earlier member _ => ?_)⟩
  · rw [lastName] at value
    exact Option.some.inj (value.symm.trans shown)
  · rw [List.mem_singleton.mp member]
    exact covers

end Orders

end Entity

end OData
