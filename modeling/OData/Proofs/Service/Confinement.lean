import OData.Proofs.Service.Atomicity
import OData.Proofs.Service.Linking
import OData.Proofs.Service.Presentation
import OData.Proofs.Service.Resolution

/-!
# Requests stay within their scope

A path through a navigation property leads to the entities that are related to the one before it.
A GET shows and counts no others, and a PATCH, a PUT or a DELETE changes no other; the expansions of
what is shown are related to it in turn.
-/

set_option autoImplicit false

namespace OData

open OData.Action
open Json (Members)

variable {ctx : Context} {t : Transaction} {store : Store} {set : EntitySet}

/-! ## Reading -/

namespace EntitySet

/-- What is read within the scope of a set is the row with the key, and related. -/
theorem ensures_readScoped (intact : ctx.model.Intact) (reached : set.Reached ctx.model)
    (key : Key) :
    Ensures store (fun row => (store.rows set.definition.name.text).read key = some row ∧
        set.includes row = true) (set.readScoped key) := by
  refine (reads_readScoped set key).ensures fun other row after same run => ?_
  rw [← Store.rows_congr same, includes]
  cases led : set.source with
  | none => exact ⟨((runOn_readScoped_root_ok_iff led).mp run).2.1, rfl⟩
  | some source =>
    obtain ⟨-, found, related, -⟩ :=
      (runOn_readScoped_ok_iff led (reached.isSome_property? intact led)).mp run
    exact ⟨found, related⟩

theorem holds_of_read {key : Key} {row : Record}
    (read : (store.rows set.definition.name.text).read key = some row)
    (related : set.includes row = true) : set.Holds store row :=
  ⟨List.mem_of_find?_eq_some read, related⟩

/-- The rows of a set that a plan for some options admits, of those that are related. -/
def countOf (store : Store) (set : EntitySet) (whole : QueryPlan) : Nat :=
  (store.rows set.definition.name.text).countP fun row => whole.admits row && set.includes row

theorem countP_of_plan (store : Store) (intact : ctx.model.Intact) (reached : set.Reached ctx.model)
    {options : QueryOptions} {plan : QueryPlan} (accepted : set.plan ctx options = .ok plan) :
    ∃ whole, QueryPlan.ofOptions ctx.model set.entityType options = .ok whole ∧
      (store.rows set.definition.name.text).countP plan.admits = set.countOf store whole := by
  obtain ⟨whole, bound, spec⟩ := admits_of_plan intact reached accepted
  refine ⟨whole, bound, ?_⟩
  rw [countOf, funext spec]

end EntitySet

namespace Service

/-- The members of a page. -/
def pageMembers (ctx : Context) (fragment : String) (count : Option Nat) (items : List Json)
    (link : Option String) : Members :=
  [("@odata.context", Json.str (contextUrl ctx fragment))]
    ++ (count.map fun n => ("@odata.count", Json.int n)).toList
    ++ [("value", Json.array items)]
    ++ (link.map fun text => ("@odata.nextLink", Json.str text)).toList

/-- Whether an answer shows and counts nothing but entities of a set: one, a page, or how many. -/
inductive ShowsOnly (ctx : Context) (t : Transaction) (store : Store) (set : EntitySet) :
    Response → Prop
  | none : ShowsOnly ctx t store set Response.noContent
  | entity {row : Record} {json : Json} (holds : set.Holds store row)
      (presents : Json.Presents ctx store set.definition t.options row json) :
      ShowsOnly ctx t store set (.ok json)
  | page {fragment : String} {whole : QueryPlan} {items : List Json} {link : Option String}
      (bound : QueryPlan.ofOptions ctx.model set.entityType t.options = .ok whole)
      (presents : ∀ json ∈ items, ∃ row, set.Holds store row ∧
        Json.Presents ctx store set.definition t.options row json) :
      ShowsOnly ctx t store set (.ok (.object (pageMembers ctx fragment
        (if t.options.count then some (set.countOf store whole) else Option.none) items link)))
  | count {whole : QueryPlan}
      (bound : QueryPlan.ofOptions ctx.model set.entityType t.options = .ok whole) :
      ShowsOnly ctx t store set ⟨200, .text (toString (set.countOf store whole))⟩

section Reading

variable (intact : ctx.model.Intact) (declared : ∀ ty ∈ ctx.model.types, ty.Declared)
  (plain : t.request.Plain) (reached : set.Reached ctx.model)

include intact declared plain reached

theorem ensures_maker {select : Option (List Identifier)} {row : Record}
    (selected : QueryPlan.bindSelect set.entityType t.options.select = .ok select) :
    Ensures store (Entity.MadeOf ctx store set.definition t.options row)
      (maker ctx t set select row) :=
  EntitySet.ensures_materialize intact declared plain t.depth reached.known t.options select row
    selected

theorem ensures_entityResponse {entity : Entity} {row : Record} (holds : set.Holds store row)
    (is_made : entity.MadeOf ctx store set.definition t.options row) :
    Ensures store (ShowsOnly ctx t store set) (entityResponse ctx t 200 entity) := by
  rw [entityResponse, entityJson, bind_assoc]
  refine (Entity.ensures_toJson intact declared plain t.depth reached.known t.options row entity
    is_made).bind fun json presents => ?_
  obtain ⟨members, rfl⟩ := presents.exists_members
  exact ensures_pure (.entity holds ((presents.annotate (by decide) _).annotate (by decide) _))

theorem ensures_entityPage (path : ResourcePath) :
    Ensures store (ShowsOnly ctx t store set) (entityPage ctx t path set) := by
  refine (Pager.ensures_firstPage fun plan accepted row _ => ensures_maker intact declared plain
    reached (EntitySet.bindSelect_of_plan accepted)).bind fun page paged => ?_
  obtain ⟨plan, accepted, of_rows, counted⟩ := paged
  refine (Ensures.mapM (fun entity json => ∃ row, set.Holds store row ∧
    Json.Presents ctx store set.definition t.options row json) fun entity member => ?_).map
      fun items presents => ?_
  · obtain ⟨row, selected, is_made⟩ := of_rows entity member
    exact (Entity.ensures_toJson intact declared plain t.depth reached.known t.options row entity
      is_made).mono fun json presents =>
        ⟨row, EntitySet.holds_of_plan intact reached accepted selected, presents⟩
  · obtain ⟨whole, bound, same⟩ := EntitySet.countP_of_plan store intact reached accepted
    rw [counted, same]
    have links : (page.skipToken.map fun token =>
        ("@odata.nextLink", Json.str (nextLink ctx t path token))) =
          (page.skipToken.map (nextLink ctx t path)).map fun text =>
            ("@odata.nextLink", Json.str text) := by
      rw [Option.map_map]
      rfl
    rw [links]
    refine .page bound fun json member => ?_
    obtain ⟨_, _, shows⟩ := presents json member
    exact shows

theorem ensures_readEntity (key : Key) :
    Ensures store (fun entity => ∃ row, set.Holds store row ∧
        entity.MadeOf ctx store set.definition t.options row)
      (readEntity ctx t set key) := by
  refine (EntitySet.ensures_readScoped intact reached key).bind fun row found => ?_
  refine Ensures.lift_bind fun plan accepted => ?_
  exact (ensures_maker intact declared plain reached
    (EntitySet.bindSelect_of_plan accepted)).mono fun entity is_made =>
      ⟨row, EntitySet.holds_of_read found.1 found.2, is_made⟩

omit reached in
/-- The answer to a GET shows entities of the set at its place. -/
theorem ensures_getRequest {place : Place} (reached : place.set.Reached ctx.model)
    (path : ResourcePath) :
    Ensures store (ShowsOnly ctx t store place.set) (getRequest ctx t path place) := by
  rw [getRequest]
  cases place.key with
  | some text =>
    refine Ensures.lift_bind fun key _ => ?_
    refine (ensures_readEntity intact declared plain reached key).bind fun entity found => ?_
    obtain ⟨row, holds, is_made⟩ := found
    exact ensures_entityResponse intact declared plain reached holds is_made
  | none =>
    cases led : place.set.source with
    | none =>
      simp only
      exact ensures_entityPage intact declared plain reached path
    | some source =>
      simp only
      refine (EntitySet.ensures_resolve intact plain reached led fun select row selected _ =>
        ensures_maker intact declared plain reached selected).bind fun related found => ?_
      cases related with
      | many other =>
        cases found
        exact ensures_entityPage intact declared plain reached path
      | one entity =>
        cases entity with
        | none => exact ensures_pure .none
        | some entity =>
          obtain ⟨row, holds, is_made⟩ := found
          exact ensures_entityResponse intact declared plain reached holds is_made

omit declared plain reached in
theorem ensures_countRequest {place : Place} (reached : place.set.Reached ctx.model) :
    Ensures store (ShowsOnly ctx t store place.set) (countRequest ctx t place) := by
  refine Ensures.lift_bind fun _ _ => ?_
  split
  · exact ensures_throw _
  · refine Ensures.lift_bind fun plan accepted => ?_
    refine (EntitySet.ensures_count plan).map fun n counted => ?_
    obtain ⟨whole, bound, same⟩ := EntitySet.countP_of_plan store intact reached accepted
    rw [counted, same]
    exact .count bound

end Reading

/-! ## Writing -/

/-- Whether one entity of a set has changed or is gone, and nothing else. -/
structure AltersOne (store : Store) (set : EntitySet) (after : Store) : Prop where
  others : ∀ name, name ≠ set.definition.name.text → after.rows name = store.rows name
  one : ∃ (before rest : List Record) (row : Record) (changed : Option Record),
    set.Holds store row ∧ store.rows set.definition.name.text = before ++ row :: rest ∧
      after.rows set.definition.name.text = before ++ changed.toList ++ rest

/-- Whether an action changes one entity of a set at most, whatever its outcome. -/
def AltersAtMostOne {α : Type} (store : Store) (set : EntitySet) (action : Action α) : Prop :=
  ∀ other result after, other.tables = store.tables → runOn action other = (result, after) →
    after.tables = store.tables ∨ AltersOne store set after

section Altering

variable {α β : Type}

theorem AltersOne.congr {after last : Store} (alters : AltersOne store set after)
    (same : last.tables = after.tables) : AltersOne store set last := by
  obtain ⟨others, before, rest, row, changed, holds, was, is⟩ := alters
  refine ⟨fun name apart => ?_, before, rest, row, changed, holds, was, ?_⟩
  · rw [Store.rows_congr same, others name apart]
  · rw [Store.rows_congr same, is]

/-- What only reads may come before. -/
theorem AltersAtMostOne.after {x : Action α} {f : α → Action β} {good : α → Prop} (reads : Reads x)
    (first : Ensures store good x) (second : ∀ a, good a → AltersAtMostOne store set (f a)) :
    AltersAtMostOne store set (x >>= f) := by
  intro other result after same run
  rcases head : runOn x other with ⟨failure | a, middle⟩
  · rw [runOn_bind_of_error head] at run
    cases run
    exact .inl ((reads.tables_eq head).trans same)
  · rw [runOn_bind_of_ok head] at run
    obtain ⟨kept, holds⟩ := first other a middle same head
    exact second a holds middle result after kept run

theorem AltersAtMostOne.after_reads {x : Action α} {f : α → Action β} (reads : Reads x)
    (second : ∀ a, AltersAtMostOne store set (f a)) : AltersAtMostOne store set (x >>= f) := by
  have first : Ensures store (fun _ => True) x := reads.ensures fun _ _ _ _ _ => trivial
  exact AltersAtMostOne.after reads first fun a _ => second a

/-- What only reads may come after. -/
theorem AltersAtMostOne.bind_reads {x : Action α} {f : α → Action β}
    (first : AltersAtMostOne store set x) (second : ∀ a, Reads (f a)) :
    AltersAtMostOne store set (x >>= f) := by
  intro other result after same run
  rcases head : runOn x other with ⟨failure | a, middle⟩
  · rw [runOn_bind_of_error head] at run
    cases run
    exact first other _ _ same head
  · rw [runOn_bind_of_ok head] at run
    have kept := (second a).tables_eq run
    exact (first other _ middle same head).imp (kept.trans ·) (·.congr kept)

/-- The row that is read within the scope is the one that a write with the same key changes. -/
theorem altersAtMostOne_write {key : Key} {kind : Capability}
    {operation : Table → Result (α × Table)} {row : Record}
    (read : (store.rows set.definition.name.text).read key = some row)
    (related : set.includes row = true)
    (changes : ∀ table answer written, operation table = .ok (answer, written) →
      ∃ before rest found, ∃ changed : Option Record, table.read key = some found ∧
        table = before ++ found :: rest ∧ written = before ++ changed.toList ++ rest) :
    AltersAtMostOne store set (set.definition.write kind operation) := by
  intro other result after same run
  cases result with
  | error e =>
    exact .inl ((EntitySetDef.atomic_write _ kind operation other e after run).trans same)
  | ok answer =>
    obtain ⟨table, done, rfl⟩ := EntitySetDef.runOn_write_ok _ run
    rw [Store.rows_congr same] at done
    obtain ⟨before, rest, found, changed, reads, was, is⟩ := changes _ answer table done
    cases read.symm.trans reads
    refine .inr ⟨fun name apart => ?_, before, rest, row, changed,
      EntitySet.holds_of_read read related, was, ?_⟩
    · rw [Store.rows_put_of_ne _ _ apart, Store.rows_congr same]
    · rw [Store.rows_put_self, is]

section Writing

variable (intact : ctx.model.Intact) (reached : set.Reached ctx.model)

include intact reached

theorem altersAtMostOne_updateRecord (body : Option Json) (key : Key) :
    AltersAtMostOne store set (set.updateRecord body key) := by
  refine AltersAtMostOne.after_reads (reads_lift _) fun _ =>
    AltersAtMostOne.after_reads (reads_lift _) fun given => ?_
  refine AltersAtMostOne.after (EntitySet.reads_readScoped set key)
    (EntitySet.ensures_readScoped intact reached key) fun row found => ?_
  refine AltersAtMostOne.after_reads (reads_lift _) fun changes => ?_
  refine altersAtMostOne_write found.1 found.2 fun table stored written updated => ?_
  obtain ⟨before, other, rest, was, -, read, -, -, is⟩ := Table.update_eq_ok updated
  exact ⟨before, rest, other, some (other.insertAll changes), read, was, by simpa using is⟩

theorem altersAtMostOne_delete (key : Key) : AltersAtMostOne store set (set.delete key) := by
  refine AltersAtMostOne.after_reads (reads_lift _) fun _ => ?_
  refine AltersAtMostOne.after (EntitySet.reads_readScoped set key)
    (EntitySet.ensures_readScoped intact reached key) fun row found => ?_
  refine AltersAtMostOne.bind_reads ?_ fun _ => reads_pure ()
  refine altersAtMostOne_write found.1 found.2 fun table stored written deleted => ?_
  obtain ⟨before, rest, was, read, -, is⟩ := Table.delete_eq_ok deleted
  exact ⟨before, rest, stored, none, read, was, by simpa using is⟩

end Writing

/-- A request to change or delete an entity does so within the set at its place. -/
theorem altersAtMostOne_entityRequest (intact : ctx.model.Intact) {place : Place}
    (reached : place.set.Reached ctx.model) (path : ResourcePath)
    (method : t.request.method ∈ [Method.patch, .put, .delete]) :
    AltersAtMostOne store place.set (entityRequest ctx t path place) := by
  have updates (key : Key) : AltersAtMostOne store place.set
      (place.set.update key t.request.body (maker ctx t place.set)) := by
    rw [EntitySet.update_eq]
    exact (altersAtMostOne_updateRecord intact reached _ key).bind_reads fun row =>
      reads_maker ctx t place.set none row
  have responds (key : Key) := (updates key).bind_reads fun entity =>
    reads_entityResponse ctx t 200 entity
  rw [entityRequest]
  cases named : t.request.method with
  | patch => exact AltersAtMostOne.after_reads (reads_keyOf ctx t _ _) responds
  | put => exact AltersAtMostOne.after_reads (reads_keyOf ctx t _ _) responds
  | delete =>
    exact AltersAtMostOne.after_reads (reads_keyOf ctx t _ _) fun key =>
      (altersAtMostOne_delete intact reached key).bind_reads fun _ => reads_pure _
  | get => simp [named] at method
  | post => simp [named] at method
  | other name => simp [named] at method

end Altering

/-! ## Paths -/

theorem walkFrom_append (segments : List Segment) (last : Segment) : ∀ place : Place,
    walkFrom ctx t place (segments ++ [last]) =
      walkFrom ctx t place segments >>= fun parent => step ctx t parent last := by
  induction segments with
  | nil =>
    intro place
    rw [List.nil_append, walkFrom, walkFrom, pure_bind]
    simp only [walkFrom, bind_pure]
  | cons segment rest ih =>
    intro place
    rw [List.cons_append, walkFrom, walkFrom, bind_assoc]
    exact congrArg _ (funext ih)

theorem walk_append {segments : List Segment} (last : Segment) (some : segments ≠ []) :
    walk ctx t (segments ++ [last]) =
      walk ctx t segments >>= fun parent => step ctx t parent last := by
  cases segments with
  | nil => exact absurd rfl some
  | cons segment rest =>
    rw [List.cons_append, walk, walk, bind_assoc]
    exact congrArg _ (funext fun set => walkFrom_append rest last _)

/-- Where a path leads: if it has more than one segment, along the navigation property that the last
segment names, from the entity that the segments before lead to. -/
structure Addresses (ctx : Context) (t : Transaction) (store : Store) (segments : List Segment)
    (place : Place) : Prop where
  walked : ∃ after, (walk ctx t segments).runOn store = (.ok place, after)
  led : ∀ before last, before ≠ [] → segments = before ++ [last] →
    ∃ parent middle key source after navigation,
      (walk ctx t before).runOn store = (.ok parent, middle) ∧
      (entityAt ctx t parent).runOn middle = (.ok (key, source), after) ∧
      source ∈ store.rows parent.set.definition.name.text ∧
      parent.set.definition.LeadsTo ctx last.name navigation place.set.definition ∧
      place.set.source = some ⟨parent.set.definition, navigation, source⟩

theorem addresses_of_walk {segments : List Segment} {place : Place} {after : Store}
    (walked : (walk ctx t segments).runOn store = (.ok place, after)) :
    Addresses ctx t store segments place := by
  refine ⟨⟨after, walked⟩, ?_⟩
  rintro before last some rfl
  rw [walk_append last some] at walked
  obtain ⟨parent, middle, first, run⟩ := runOn_bind_ok_iff.mp walked
  rw [step_eq] at run
  obtain ⟨⟨key, source⟩, final, found, run⟩ := runOn_bind_ok_iff.mp run
  obtain ⟨target, led, result⟩ := Result.bind_eq_ok.mp (congrArg Prod.fst run)
  cases result
  obtain ⟨navigation, definition, declared, bound, rfl⟩ := EntitySet.navigate_eq_ok led
  refine ⟨parent, middle, key, source, final, navigation, first, found, ?_, ⟨declared, bound⟩, rfl⟩
  obtain ⟨_, between, named, read⟩ := runOn_bind_ok_iff.mp found
  obtain ⟨record, ending, read, result⟩ := runOn_bind_ok_iff.mp read
  cases result
  have kept := (reads_keyOf ctx t parent.set parent.key).tables_eq named
  obtain ⟨-, stored, -⟩ :=
    EntitySet.runOn_readRecord_ok_iff.mp (EntitySet.readRecord_of_readScoped read)
  rw [Store.rows_congr kept, Store.rows_congr ((reads_walk ctx t before).tables_eq first)] at stored
  exact List.mem_of_find?_eq_some stored

/-- A request that names no target in its parameters stays within the set that its path leads to,
and that is the set of the entities that are related to the one before the last segment. -/
theorem execute_confined {declaration : ModelDeclaration}
    (built : declaration.build = .ok ctx.model) (declared : ∀ ty ∈ ctx.model.types, ty.Declared)
    (noReference : EntitySet.parameterReference? t.request = none)
    {segments : List Segment} {suffix : Option Suffix} (noRef : suffix ≠ some .ref)
    (path : ResourcePath.parse (ctx.config.endpoint.resourcePath t.request.path) =
      .ok (.resource segments suffix))
    {result : Result Response} {after : Store}
    (run : (execute ctx t).runOn store = (result, after)) :
    (t.request.method = .get → ∀ response, result = .ok response →
      ∃ place, Addresses ctx t store segments place ∧ ShowsOnly ctx t store place.set response) ∧
    (t.request.method ∈ [Method.patch, .put, .delete] →
      after.tables = store.tables ∨
        ∃ place, Addresses ctx t store segments place ∧ AltersOne store place.set after) := by
  have intact := ModelDeclaration.intact_of_build built
  rw [execute, path, lift_ok_bind] at run
  rcases walked : (walk ctx t segments).runOn store with ⟨failure | place, middle⟩
  · rw [runOn_bind_of_error walked] at run
    cases run
    exact ⟨fun _ _ same => absurd same (by simp),
      fun _ => .inl ((reads_walk ctx t segments).tables_eq walked)⟩
  · rw [runOn_bind_of_ok walked] at run
    have kept := (reads_walk ctx t segments).tables_eq walked
    have reached := (reached_of_walk walked).set
    have addresses := addresses_of_walk walked
    constructor
    · rintro get response rfl
      refine ⟨place, addresses, ?_⟩
      have plain : t.request.Plain := ⟨get, noReference⟩
      cases suffix with
      | none =>
        rw [entityRequest, get] at run
        exact (ensures_getRequest intact declared plain reached _ middle response after kept run).2
      | some suffix =>
        cases suffix with
        | ref => exact absurd rfl noRef
        | count => exact (ensures_countRequest intact reached middle response after kept run).2
    · intro method
      cases suffix with
      | none =>
        have altered :=
          altersAtMostOne_entityRequest intact reached _ method middle result after kept run
        exact altered.imp_right fun alters => ⟨place, addresses, alters⟩
      | some suffix =>
        cases suffix with
        | ref => exact absurd rfl noRef
        | count => exact .inl (((reads_countRequest ctx t place).tables_eq run).trans kept)

/-! The orders of a customer. -/

section Orders

open EntitySet (customer customerId customers firstCustomer idKey order orderContext
  orderDeclaration orderRow orders ordersOfCustomer unassignedStore)

def orderRequest (method : Method) : Transaction :=
  { request := ⟨method, "/Customers(1)/Orders(6)", [], none⟩,
    options := .empty,
    depth := 0,
    drawn := .nil }

def orderSegments : List Segment := [⟨"Customers", some "1"⟩, ⟨"Orders", some "6"⟩]

def sixthOrder : Entity := ⟨orders.name, idKey (.int 6), orderRow (.int 6) (.int 1), []⟩

/-- The order of nobody is left. -/
def fewerOrders : Store :=
  ⟨[("Customers", [firstCustomer]), ("Orders", [orderRow (.int 5) .null])], []⟩

theorem declared_order : ∀ ty ∈ orderDeclaration.types, ty.Declared := by
  have id (name : Identifier) : (EntityType.empty name).addProperty customerId =
      .ok ⟨name, [customerId], [], []⟩ := rfl
  have toOrders : EntityType.addNavigation ⟨customer.name, [customerId], [], []⟩ ordersOfCustomer =
      .ok ⟨customer.name, [customerId], [], [ordersOfCustomer]⟩ := rfl
  have ofCustomer : EntityType.addProperty ⟨order.name, [customerId], [], []⟩
      EntitySet.orderCustomer = .ok ⟨order.name, order.properties, [], []⟩ := rfl
  intro ty member
  rcases List.mem_cons.mp member with rfl | later
  · exact .key [customerId.name] (.navigation (.property (.empty customer.name) (id _)) toOrders)
  · cases List.mem_singleton.mp later
    exact .key [customerId.name] (.property (.property (.empty order.name) (id _)) ofCustomer)

theorem parse_orderPath :
    ResourcePath.parse (orderContext.config.endpoint.resourcePath "/Customers(1)/Orders(6)") =
      .ok (.resource orderSegments none) := by rfl

theorem execute_getOrder : (execute orderContext (orderRequest .get)).runOn unassignedStore =
    (.ok ⟨200, .json (plainJson orderContext sixthOrder)⟩, unassignedStore) := by
  let place : Place := ⟨customers.related orders ordersOfCustomer firstCustomer, some "6",
    some ⟨.root customers, idKey (.int 1), "Orders"⟩⟩
  have walked : (walk orderContext (orderRequest .get) orderSegments).runOn unassignedStore =
      (.ok place, unassignedStore) := rfl
  have keyed : Key.parse place.set.entityType "6" = .ok (idKey (.int 6)) := rfl
  have read : (place.set.readScoped (idKey (.int 6))).runOn unassignedStore =
      (.ok (orderRow (.int 6) (.int 1)), unassignedStore) := rfl
  have planned : ∃ plan, place.set.plan orderContext .empty = .ok plan ∧ plan.select = none :=
    ⟨_, rfl, rfl⟩
  have made : place.set.plainEntity none (orderRow (.int 6) (.int 1)) = .ok sixthOrder := rfl
  have method : (orderRequest .get).request.method = .get := rfl
  have options : (orderRequest .get).options = .empty := rfl
  obtain ⟨plan, accepted, everything⟩ := planned
  rw [execute, orderRequest, parse_orderPath, lift_ok_bind, ← orderRequest, runOn_bind_of_ok walked]
  simp only [place, entityRequest, method, getRequest, readEntity, bind_assoc]
  rw [keyed, lift_ok_bind, runOn_bind_of_ok read, options, accepted, lift_ok_bind, maker, options,
    EntitySet.materialize_of_plain _ _ _ _ _ rfl, everything, made, lift_ok_bind,
    entityResponse_of_plain orderContext rfl]
  rfl

theorem execute_deleteOrder : (execute orderContext (orderRequest .delete)).runOn unassignedStore =
    (.ok Response.noContent, fewerOrders) := rfl

/-- The order of the customer is shown, and removed. -/
theorem execute_confined_orders :
    (∃ place, Addresses orderContext (orderRequest .get) unassignedStore orderSegments place ∧
      ShowsOnly orderContext (orderRequest .get) unassignedStore place.set
        ⟨200, .json (plainJson orderContext sixthOrder)⟩) ∧
    ∃ place, Addresses orderContext (orderRequest .delete) unassignedStore orderSegments place ∧
      AltersOne unassignedStore place.set fewerOrders := by
  have noReference (method : Method) :
      EntitySet.parameterReference? (orderRequest method).request = none := rfl
  have shows := execute_confined EntitySet.build_orderDeclaration declared_order (noReference .get)
    (by simp) parse_orderPath execute_getOrder
  have removes := execute_confined EntitySet.build_orderDeclaration declared_order
    (noReference .delete) (by simp) parse_orderPath execute_deleteOrder
  exact ⟨shows.1 rfl _ rfl, (removes.2 (by decide)).resolve_left (by decide)⟩

end Orders

end Service

end OData
