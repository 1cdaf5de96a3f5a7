import OData.Proofs.Service.Atomicity
import OData.Proofs.Service.Linking

/-!
# Entities created through a navigation property

A new entity is found through the navigation property that it was created through if its key
compares with itself and it is related to the source.  So it is if it takes the foreign key from the
source and the values that it takes are consistent.  It does not take the foreign key if all
properties of its own that the constraints refer to belong to its key.
-/

set_option autoImplicit false

namespace OData

open OData.Action

namespace Source

/-- The foreign key that a new entity takes from its source. -/
def foreignKey (source : Source) : List (Identifier × Value) :=
  source.navigation.constraints.map fun c => (c.referenced, source.record.value c.property)

end Source

namespace EntitySet

variable {set : EntitySet} {source : Source} {drawn : Guid} {body : Option Json}
  {store stored : Store} {record : Record}

theorem withSourceKey_eq (led : set.source = some source)
    (taken : source.navigation.keyOnSource set.entityType = false) (given : Record) :
    set.withSourceKey given = given.insertAll source.foreignKey := by
  rw [withSourceKey, led]
  simp only [taken, Bool.false_eq_true, if_false]
  rw [Record.insertAll, Source.foreignKey, List.foldl_map]

/-- A foreign key of consistent values relates a new entity to its source. -/
theorem relates_of_create (led : set.source = some source)
    (taken : source.navigation.keyOnSource set.entityType = false)
    (constrained : source.navigation.constraints ≠ [])
    (consistent : Record.Consistent source.foreignKey) {given completed : Record} {table : Table}
    (generated : Table.generateKey set.entityType drawn table (set.withSourceKey given) =
      .ok completed)
    (names : List Identifier) :
    source.navigation.relates source.record (completed.fill names) = true := by
  refine NavigationProperty.relates_iff.mpr ⟨constrained, fun c member => ?_⟩
  have lent : (c.referenced, source.record.value c.property) ∈ source.foreignKey :=
    List.mem_map_of_mem member
  obtain ⟨v, assigned, value⟩ := Record.exists_value_insertAll (r := given)
    (List.mem_map_of_mem lent)
  have equal := consistent _ assigned _ lent rfl
  rw [← withSourceKey_eq led taken] at value
  have has : (set.withSourceKey given).has c.referenced = true := by
    rw [Record.has, value, Value.isNull_of_compare equal]
    rfl
  rw [Record.value_fill, Table.value_generateKey generated has, value]
  exact equal

/-- A new entity is the last row of its table, and no other row has its key. -/
theorem createRecord_spec (run : (set.createRecord drawn body).runOn store = (.ok record, stored)) :
    ∃ own, Key.ofRecord set.entityType record = .ok own ∧
      (∀ row ∈ store.rows set.name.text, own.identifies row = false) ∧
      stored = store.put set.name.text (store.rows set.name.text ++ [record]) ∧
      ∀ source, set.source = some source →
        source.navigation.keyOnSource set.entityType = false →
          source.navigation.constraints ≠ [] → Record.Consistent source.foreignKey →
            source.navigation.relates source.record record = true := by
  obtain ⟨given, table, -, created, rfl⟩ := createRecord_eq_ok run
  obtain ⟨completed, own, generated, rfl, made, fresh, rfl⟩ := Table.create_eq_ok created
  exact ⟨own, made, fresh, rfl, fun source led taken constrained consistent =>
    relates_of_create led taken constrained consistent generated _⟩

end EntitySet

namespace Service

variable {ctx : Context} {t : Transaction} {store after : Store} {place : Place}
  {setName keyText navigationName : String}

theorem createRecord_of_storeAt (method : t.request.method = .post) {record : Record}
    (run : (storeAt ctx t place).runOn store = (.ok record, after)) :
    (place.set.createRecord t.drawn t.request.body).runOn store = (.ok record, after) := by
  rw [storeAt, method] at run
  simp only at run
  split at run
  next => cases run
  next => exact run

theorem status_of_answer (method : t.request.method = .post) {record : Record} {response : Response}
    (run : (answer ctx t place record).runOn store = (.ok response, after)) :
    response.status = 201 := by
  obtain ⟨entity, _, _, run⟩ := runOn_bind_ok_iff.mp run
  obtain ⟨json, _, _, result⟩ := runOn_bind_ok_iff.mp run
  cases result
  exact if_pos method

/-- A request to create an entity through a navigation property adds one row and nothing else.  The
new entity is read through the navigation property exactly if its key compares with itself and it
is related to the source; it is related if it takes consistent values of the source. -/
theorem post_related {declaration : ModelDeclaration} (built : declaration.build = .ok ctx.model)
    (method : t.request.method = .post)
    (parsed : ResourcePath.parse (ctx.config.endpoint.resourcePath t.request.path) =
      .ok (.resource [⟨setName, some keyText⟩, ⟨navigationName, none⟩] none))
    {response : Response} (answered : (execute ctx t).runOn store = (.ok response, after)) :
    response.status = 201 ∧ ∃ (source : Source) (key : Key) (target : EntitySetDef)
        (record : Record) (own : Key),
      ctx.model.entitySet? setName = some source.set ∧
      Key.parse source.set.entityType keyText = .ok key ∧
      (store.rows source.set.name.text).read key = some source.record ∧
      source.set.entityType.navigation? navigationName = some source.navigation ∧
      ctx.model.bindingTarget source.set source.navigation = .ok target ∧
      after.rows target.name.text = store.rows target.name.text ++ [record] ∧
      (∀ name, name ≠ target.name.text → after.rows name = store.rows name) ∧
      Key.ofRecord target.entityType record = .ok own ∧
      (∀ found last,
        (EntitySet.readRelated ctx source.set key navigationName own).runOn after =
            (.ok found, last) ↔
          last = after ∧ found = record ∧ Table.SameKey target.entityType record record ∧
            source.navigation.relates source.record record = true) ∧
      (source.navigation.keyOnSource target.entityType = false →
        source.navigation.constraints ≠ [] → Record.Consistent source.foreignKey →
          source.navigation.relates source.record record = true) := by
  have intact := ModelDeclaration.intact_of_build built
  have writes : stores t.request.method = true := by
    rw [method]
    rfl
  rw [execute_of_stores parsed writes] at answered
  obtain ⟨⟨place, record⟩, stored, run, answered⟩ := runOn_bind_ok_iff.mp answered
  have kept := (reads_answer ctx t place record).tables_eq answered
  obtain ⟨segments, middle, path, walked, written⟩ := store?_eq_ok run
  cases parsed.symm.trans path
  obtain ⟨source, key, target, found, named, read, declared, bound, rfl⟩ :=
    walk_pair_ok_iff.mp walked
  obtain ⟨-, row, rfl⟩ := (EntitySet.runOn_readScoped_root_ok_iff rfl).mp read
  change (middle.rows source.set.name.text).read key = some source.record at row
  have member : source.set ∈ ctx.model.sets := List.mem_of_find?_eq_some found
  have created := createRecord_of_storeAt method written
  obtain ⟨own, made, fresh, rfl, related⟩ := EntitySet.createRecord_spec created
  have rowsAfter (name : String) : after.rows name =
      (middle.put target.name.text (middle.rows target.name.text ++ [record])).rows name :=
    Store.rows_congr kept name
  have rowsTarget : after.rows target.name.text = middle.rows target.name.text ++ [record] := by
    rw [rowsAfter, Store.rows_put_self]
  have rowsOther (name : String) (other : name ≠ target.name.text) :
      after.rows name = middle.rows name := by
    rw [rowsAfter, Store.rows_put_of_ne _ _ other]
  have sourceAfter : (after.rows source.set.name.text).read key = some source.record := by
    by_cases same : source.set.name.text = target.name.text
    · rw [same, rowsTarget]
      rw [same] at row
      exact Table.read_append_of_read row
    · rw [rowsOther _ same]
      exact row
  refine ⟨status_of_answer method answered, source, key, target, record, own, found, named, row,
    declared, bound, rowsTarget, rowsOther, made, ?_, related source rfl⟩
  intro found last
  rw [EntitySet.runOn_readRelated_ok_iff intact member declared bound, rowsTarget, sourceAfter]
  constructor
  · rintro ⟨rfl, other, same, read, relates⟩
    cases same
    obtain ⟨rfl, self⟩ := (Table.read_append_ofRecord made fresh).mp read
    exact ⟨rfl, rfl, self, relates⟩
  · rintro ⟨rfl, rfl, self, relates⟩
    exact ⟨rfl, _, rfl, (Table.read_append_ofRecord made fresh).mpr ⟨rfl, self⟩, relates⟩

/-- The request for an order of the first customer. -/
def postOrder : Transaction :=
  { request := ⟨.post, "/Customers(1)/Orders", [], some (.object [("id", .int 7)])⟩,
    options := QueryOptions.empty, depth := 0, drawn := .nil }

open EntitySet

theorem parse_postOrder :
    ResourcePath.parse (orderContext.config.endpoint.resourcePath postOrder.request.path) =
      .ok (.resource [⟨"Customers", some "1"⟩, ⟨"Orders", none⟩] none) := by
  decide +kernel

def createdStore : Store :=
  ⟨[("Customers", [firstCustomer]),
    ("Orders", [orderRow (.int 5) .null, orderRow (.int 6) (.int 1), orderRow (.int 7) (.int 1)])],
    []⟩

def newOrder : Record := orderRow (.int 7) (.int 1)

def ordersPlace : Place :=
  ⟨firstOrders.target, none, some ⟨root customers, idKey (.int 1), "Orders"⟩⟩

theorem storeAt_postOrder :
    (storeAt orderContext postOrder ordersPlace).runOn unassignedStore =
      (.ok newOrder, createdStore) := rfl

theorem walk_postOrder :
    (walk orderContext postOrder [⟨"Customers", some "1"⟩, ⟨"Orders", none⟩]).runOn
      unassignedStore = (.ok ordersPlace, unassignedStore) := rfl

theorem store?_postOrder :
    (store? orderContext postOrder).runOn unassignedStore =
      (.ok (ordersPlace, newOrder), createdStore) := by
  rw [store?, parse_postOrder, lift_ok_bind]
  simp only
  rw [runOn_bind_of_ok walk_postOrder, runOn_bind_of_ok storeAt_postOrder]
  rfl

theorem execute_postOrder :
    ∃ response after, (execute orderContext postOrder).runOn unassignedStore =
      (.ok response, after) ∧ after.tables = createdStore.tables := by
  have complete : ordersPlace.set.HasKey newOrder := ⟨idKey (.int 7), rfl⟩
  have answers : ∃ response, ((answer orderContext postOrder ordersPlace newOrder).runOn
      createdStore).1 = .ok response := exists_answer rfl complete createdStore
  obtain ⟨response, answered⟩ := answers
  refine ⟨response, ((answer orderContext postOrder ordersPlace newOrder).runOn createdStore).2,
    ?_, reads_answer orderContext postOrder ordersPlace newOrder createdStore⟩
  rw [execute_of_stores parse_postOrder rfl, runOn_bind_of_ok store?_postOrder, ← answered]

/-- The new order is found among the orders of the customer. -/
theorem post_related_order :
    ∃ response after, (execute orderContext postOrder).runOn unassignedStore =
        (.ok response, after) ∧
      (readRelated orderContext customers (idKey (.int 1)) "Orders" (idKey (.int 7))).runOn after =
        (.ok newOrder, after) := by
  obtain ⟨response, after, run, tables⟩ := execute_postOrder
  refine ⟨response, after, run, ?_⟩
  obtain ⟨-, source, key, target, record, own, found, named, row, declared, bound, rows, -, made,
    reading, related⟩ := post_related build_orderDeclaration rfl parse_postOrder run
  obtain ⟨definition, navigation, sourceRow⟩ := source
  have found_eq : orderModel.entitySet? "Customers" = some customers := by rfl
  cases found_eq.symm.trans found
  have named_eq : Key.parse customer "1" = .ok (idKey (.int 1)) := by rfl
  cases named_eq.symm.trans named
  have row_eq : (unassignedStore.rows "Customers").read (idKey (.int 1)) = some firstCustomer := by
    rfl
  cases row_eq.symm.trans row
  have declared_eq : customer.navigation? "Orders" = some ordersOfCustomer := by rfl
  cases declared_eq.symm.trans declared
  have bound_eq : orderModel.bindingTarget customers ordersOfCustomer = .ok orders := by rfl
  cases bound_eq.symm.trans bound
  have rows_eq : after.rows "Orders" = unassignedStore.rows "Orders" ++ [newOrder] :=
    Store.rows_congr tables "Orders"
  have same : [newOrder] = [record] := List.append_cancel_left (rows_eq.symm.trans rows)
  cases same
  have made_eq : Key.ofRecord order newOrder = .ok (idKey (.int 7)) := by rfl
  cases made_eq.symm.trans made
  refine (reading newOrder after).mpr ⟨rfl, rfl, ?_, related rfl (by decide) ?_⟩
  · intro name member
    rw [List.mem_singleton.mp member]
    rfl
  · intro entry member other among _
    rw [List.mem_singleton.mp member, List.mem_singleton.mp among]
    rfl

end Service

end OData
