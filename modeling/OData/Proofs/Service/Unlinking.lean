import OData.Proofs.Service.Confinement
import OData.Proofs.Service.Keys
import OData.Proofs.Value.Sorting

/-!
# Unlinking

Unlinking clears the foreign key in the one row that keeps it, if the two entities are related, and
does nothing else.  A foreign key that may be cleared is outside of the keys, so both entities are
still there, but the one is not found through the other.  Unlinking again finds nothing to do.
-/

set_option autoImplicit false

namespace OData

open OData.Action

/-! ## Clearing the foreign key -/

namespace Relationship

/-- The relationship of an entity to those that a navigation property leads to. -/
def through (key : Key) (source : Source) (target : EntitySetDef) : Relationship :=
  ⟨key, source, ⟨target, some source⟩⟩

variable (r : Relationship) (record : Record)

/-- The row that keeps the foreign key, with nulls in place of it. -/
def clearedRow : Record := (r.keeperRow record).insertAll (r.foreignKey record true)

/-- What clearing the foreign key makes of a row of a set. -/
def cleared (set : EntitySetDef) (row : Record) : Record :=
  if set.name = r.keeperSet.name ∧ row = r.keeperRow record then r.clearedRow record else row

/-- The foreign key of one row is null now, and all else is as before. -/
structure Cleared (store after : Store) : Prop extends
    store.Replaces after r.keeperSet (r.keeperRow record) (r.clearedRow record) where
  null : ∀ name ∈ r.foreignNames, (r.clearedRow record).value name = .null
  properties : ∀ name, name ∉ r.foreignNames →
    (r.clearedRow record).get? name = (r.keeperRow record).get? name

variable {r record} {store after : Store}

theorem eq_null_of_mem_foreignKey {name : Identifier} {v : Value}
    (member : (name, v) ∈ r.foreignKey record true) : v = .null := by
  rw [foreignKey] at member
  split at member
  · obtain ⟨c, _, same⟩ := List.mem_map.mp member
    cases same
    rfl
  · obtain ⟨c, _, same⟩ := List.mem_map.mp member
    cases same
    rfl

theorem value_clearedRow {name : Identifier} (member : name ∈ r.foreignNames) :
    (r.clearedRow record).value name = .null := by
  rw [← map_fst_foreignKey r record true] at member
  obtain ⟨v, among, value⟩ := Record.exists_value_insertAll (r := r.keeperRow record) member
  exact value.trans (eq_null_of_mem_foreignKey among)

theorem cleared_of_assign {targetKey : Key}
    (source : (store.rows r.source.set.name.text).read r.sourceKey = some r.source.record)
    (target : (store.rows r.target.definition.name.text).read targetKey = some record)
    (distinct : Table.HasDistinctKeys r.target.definition.entityType
      (store.rows r.target.definition.name.text))
    (run : (r.assign record true).runOn store = (.ok (), after)) :
    r.Cleared record store after :=
  ⟨replaces_of_assign source target distinct run, fun _ => value_clearedRow,
    fun _ => get?_assigned_of_not_mem⟩

/-- With a cleared foreign key the rows are found by their keys as before. -/
theorem read_cleared {definition : EntitySetDef} {key : Key} {row : Record}
    (clears : r.Cleared record store after) (declared : r.keeperSet.entityType.Declared)
    (optional : r.isOptional = true)
    (unique : definition.name = r.keeperSet.name → definition = r.keeperSet)
    (names : ∀ name ∈ key.names, name ∈ definition.entityType.key)
    (found : (store.rows definition.name.text).read key = some row) :
    (after.rows definition.name.text).read key = some (r.cleared record definition row) := by
  refine clears.read (fun name member v => ?_) unique names found
  have outside : name ∉ (r.foreignKey record true).map Prod.fst :=
    not_mem_of_isOptional declared optional name member
  exact congrArg (Value.compare · v) (Record.value_insertAll_of_not_mem outside)

/-! ## When entities are related -/

theorem agree_get? (a b : Record) (name other : Identifier) :
    agree (a.get? name) (b.get? other) =
      ((b.value other).compare (a.value name) == some .eq) := by
  rw [Record.value, Record.value]
  cases a.get? name with
  | none =>
    rw [Option.getD_none, Value.compare_null]
    rfl
  | some v =>
    cases b.get? other with
    | none =>
      rw [Option.getD_none, Value.null_compare]
      rfl
    | some w =>
      rw [Bool.eq_iff_iff]
      simp only [agree, Option.getD_some, beq_iff_eq]
      exact Value.compare_eq_comm

/-- Entities are related for unlinking as they are for reading. -/
theorem relates_eq (constrained : r.constraints ≠ []) :
    r.relates record = r.source.navigation.relates r.source.record record := by
  have some : r.source.navigation.constraints.isEmpty = false :=
    List.isEmpty_eq_false_iff.mpr constrained
  rw [relates, NavigationProperty.relates, some, Bool.not_false, Bool.true_and]
  exact congrArg (List.all r.constraints) (funext fun c => agree_get? _ _ _ _)

/-- Null relates to nothing. -/
theorem not_relates_cleared (constrained : r.constraints ≠ []) :
    r.source.navigation.relates (r.cleared record r.source.set r.source.record)
      (r.cleared record r.target.definition record) = false := by
  refine Bool.eq_false_iff.mpr fun related => ?_
  obtain ⟨-, equal⟩ := NavigationProperty.relates_iff.mp related
  obtain ⟨c, member⟩ := List.exists_mem_of_ne_nil _ constrained
  have equal := equal c member
  by_cases side : r.keyOnSource = true
  · have keeper : r.cleared record r.source.set r.source.record = r.clearedRow record := by
      rw [cleared, keeperSet, keeperRow, if_pos side, if_pos side]
      exact if_pos ⟨rfl, rfl⟩
    have foreign : c.property ∈ r.foreignNames := by
      rw [foreignNames, if_pos side]
      exact List.mem_map_of_mem member
    rw [keeper, value_clearedRow foreign, Value.compare_null] at equal
    cases equal
  · have keeper : r.cleared record r.target.definition record = r.clearedRow record := by
      rw [cleared, keeperSet, keeperRow, if_neg side, if_neg side]
      exact if_pos ⟨rfl, rfl⟩
    have foreign : c.referenced ∈ r.foreignNames := by
      rw [foreignNames, if_neg side]
      exact List.mem_map_of_mem member
    rw [keeper, value_clearedRow foreign, Value.null_compare] at equal
    cases equal

/-- What unlinking two entities does to a store: the foreign key may be cleared, and is if they are
related. -/
structure Unlinks (r : Relationship) (record : Record) (store after : Store) : Prop where
  optional : r.isOptional = true
  apart : r.relates record = false → after = store
  related : r.relates record = true → (r.assign record true).runOn store = (.ok (), after)

end Relationship

/-! ## Requests to unlink -/

namespace EntitySet

variable {ctx : Context} {definition target : EntitySetDef} {navigation : NavigationProperty}
  {name text : String} {key : Key} {request : Request} {options : QueryOptions}
  {store after : Store}

open Relationship (through)

theorem runOn_open?_ok_iff {r : Relationship}
    (able : definition.capabilities.require .read = .ok ())
    (declared : definition.entityType.navigation? name = some navigation)
    (bound : ctx.model.bindingTarget definition navigation = .ok target) :
    (Relationship.open? ctx (root definition) key name).runOn store = (.ok r, after) ↔
      after = store ∧ ∃ source, (store.rows definition.name.text).read key = some source ∧
        r = through key ⟨definition, navigation, source⟩ target := by
  rw [Relationship.open?, runOn_bind_ok_iff]
  constructor
  · rintro ⟨source, middle, read, run⟩
    obtain ⟨-, found, rfl⟩ := (runOn_readScoped_root_ok_iff rfl).mp read
    rw [navigate_root_eq declared bound source] at run
    cases run
    exact ⟨rfl, source, found, rfl⟩
  · rintro ⟨rfl, source, found, rfl⟩
    refine ⟨source, after, (runOn_readScoped_root_ok_iff rfl).mpr ⟨able, found, rfl⟩, ?_⟩
    rw [navigate_root_eq declared bound source]
    rfl

theorem explicitTarget_inline (set : EntitySet) :
    set.explicitTarget ctx request (some text) =
      Key.parse set.entityType text >>= fun key => pure (some (key, .inlineKey)) := rfl

/-- The record to unlink is the one that the key in the path names. -/
theorem runOn_unlinkTarget_ok_iff {r : Relationship} {found : Option Record}
    (able : r.target.require .read = .ok ()) :
    (unlinkTarget ctx request options r (some text)).runOn store = (.ok found, after) ↔
      after = store ∧ ∃ targetKey record, Key.parse r.target.entityType text = .ok targetKey ∧
        (store.rows r.target.name.text).read targetKey = some record ∧ found = some record := by
  rw [unlinkTarget, explicitTarget_inline, runOn_lift_bind_ok_iff]
  constructor
  · rintro ⟨named, explicit, run⟩
    obtain ⟨targetKey, parsed, result⟩ := Result.bind_eq_ok.mp explicit
    cases result
    obtain ⟨record, last, read, result⟩ := runOn_bind_ok_iff.mp run
    cases result
    obtain ⟨-, row, rfl⟩ := runOn_readRecord_ok_iff.mp read
    exact ⟨rfl, targetKey, record, parsed, row, rfl⟩
  · rintro ⟨rfl, targetKey, record, parsed, row, rfl⟩
    refine ⟨some (targetKey, .inlineKey), Result.bind_eq_ok.mpr ⟨targetKey, parsed, rfl⟩, ?_⟩
    exact runOn_bind_ok_iff.mpr
      ⟨record, after, runOn_readRecord_ok_iff.mpr ⟨able, row, rfl⟩, rfl⟩

/-- Unlinking succeeds if both entities are there and the foreign key may be cleared, and clears it
if they are related. -/
theorem runOn_unlink_ok_iff (able : definition.capabilities.require .read = .ok ())
    (ableTarget : target.capabilities.require .read = .ok ())
    (declared : definition.entityType.navigation? name = some navigation)
    (bound : ctx.model.bindingTarget definition navigation = .ok target) :
    ((root definition).unlink ctx request options key name (some text)).runOn store =
        (.ok (), after) ↔
      ∃ source targetKey record, (store.rows definition.name.text).read key = some source ∧
        Key.parse target.entityType text = .ok targetKey ∧
        (store.rows target.name.text).read targetKey = some record ∧
        (through key ⟨definition, navigation, source⟩ target).Unlinks record store after := by
  rw [unlink, runOn_bind_ok_iff]
  constructor
  · rintro ⟨r, middle, opened, run⟩
    obtain ⟨rfl, source, found, rfl⟩ := (runOn_open?_ok_iff able declared bound).mp opened
    obtain ⟨named, last, chosen, run⟩ := runOn_bind_ok_iff.mp run
    obtain ⟨rfl, targetKey, record, parsed, row, rfl⟩ := (runOn_unlinkTarget_ok_iff
      (r := through key ⟨definition, navigation, source⟩ target) ableTarget).mp chosen
    refine ⟨source, targetKey, record, found, parsed, row, ?_⟩
    simp only at run
    split at run
    next apart optional =>
      cases run
      exact ⟨optional, fun _ => rfl,
        fun related => absurd (apart.symm.trans related) Bool.false_ne_true⟩
    next => cases run
    next => cases run
    next related optional =>
      exact ⟨optional, fun apart => absurd (apart.symm.trans related) Bool.false_ne_true,
        fun _ => run⟩
  · rintro ⟨source, targetKey, record, found, parsed, row, effect⟩
    refine ⟨_, store, (runOn_open?_ok_iff able declared bound).mpr ⟨rfl, source, found, rfl⟩, ?_⟩
    refine runOn_bind_ok_iff.mpr ⟨some record, store, ?_, ?_⟩
    · exact (runOn_unlinkTarget_ok_iff
        (r := through key ⟨definition, navigation, source⟩ target) ableTarget).mpr
          ⟨rfl, targetKey, record, parsed, row, rfl⟩
    · cases related : (through key ⟨definition, navigation, source⟩ target).relates record with
      | true =>
        simp only [related, effect.optional]
        exact effect.related related
      | false =>
        simp only [related, effect.optional]
        rw [effect.apart related]
        rfl

/-- An unlinked entity is not found through the other one, and unlinking it again changes
nothing. -/
theorem unlink_spec (request : Request) (options : QueryOptions) (source : Source)
    (intact : ctx.model.Intact)
    (declared : ∀ set ∈ ctx.model.sets, set.entityType.Declared)
    (distinct : ∀ definition ∈ ctx.model.sets,
      Table.HasDistinctKeys definition.entityType (store.rows definition.name.text))
    (member : source.set ∈ ctx.model.sets)
    (names : ∀ name ∈ key.names, name ∈ source.set.entityType.key)
    (led : source.set.entityType.navigation? name = some source.navigation)
    (bound : ctx.model.bindingTarget source.set source.navigation = .ok target)
    (constrained : source.navigation.constraints ≠ []) {targetKey : Key} {record : Record}
    (found : (store.rows source.set.name.text).read key = some source.record)
    (parsed : Key.parse target.entityType text = .ok targetKey)
    (row : (store.rows target.name.text).read targetKey = some record)
    (effect : (through key source target).Unlinks record store after) :
    let r := through key source target
    (r.relates record = false → after = store) ∧
      (r.relates record = true → r.Cleared record store after) ∧
      (readRelated ctx source.set key name targetKey).runOn after =
        (.error (r.target.unrelated source targetKey), after) ∧
      ((root source.set).unlink ctx request options key name (some text)).runOn after =
        (.ok (), after) := by
  intro r
  have joined : r.constraints ≠ [] := constrained
  have targetMember : target ∈ ctx.model.sets := Model.mem_sets_of_bindingTarget bound
  have keeper : r.keeperSet ∈ ctx.model.sets := by
    rw [Relationship.keeperSet]
    split
    · exact member
    · exact targetMember
  -- the second request finds the two rows as the first one left them
  have again : ∀ sourceAfter recordAfter : Record,
      (after.rows source.set.name.text).read key = some sourceAfter →
      (after.rows target.name.text).read targetKey = some recordAfter →
      source.navigation.relates sourceAfter recordAfter = false →
      (readRelated ctx source.set key name targetKey).runOn after =
          (.error (r.target.unrelated source targetKey), after) ∧
        ((root source.set).unlink ctx request options key name (some text)).runOn after =
          (.ok (), after) := by
    intro sourceAfter recordAfter foundAfter rowAfter apart
    have missing := runOn_readRelated_unrelated intact member led bound constrained foundAfter
      rowAfter apart
    refine ⟨missing, (runOn_unlink_ok_iff (intact.readable _ member)
      (intact.readable _ targetMember) led bound).mpr
        ⟨sourceAfter, targetKey, recordAfter, foundAfter, parsed, rowAfter, effect.optional,
          fun _ => rfl, fun related => ?_⟩⟩
    have same : (through key ⟨source.set, source.navigation, sourceAfter⟩ target).relates
        recordAfter = source.navigation.relates sourceAfter recordAfter :=
      Relationship.relates_eq constrained
    exact absurd ((same.trans apart).symm.trans related) Bool.false_ne_true
  cases related : r.relates record with
  | false =>
    have same : after = store := effect.apart related
    subst same
    have apart := (Relationship.relates_eq joined).symm.trans related
    exact ⟨fun _ => rfl, fun related => absurd related Bool.false_ne_true,
      again _ _ found row apart⟩
  | true =>
    have clears : r.Cleared record store after :=
      Relationship.cleared_of_assign found row (distinct _ targetMember) (effect.related related)
    have sourceAfter := Relationship.read_cleared clears (declared _ keeper) effect.optional
      (intact.eq_of_name member keeper) names found
    have targetAfter := Relationship.read_cleared clears (declared _ keeper) effect.optional
      (intact.eq_of_name targetMember keeper) (Key.mem_key_of_parse parsed) row
    exact ⟨fun apart => absurd apart.symm Bool.false_ne_true, fun _ => clears,
      again _ _ sourceAfter targetAfter (Relationship.not_relates_cleared joined)⟩

end EntitySet

namespace Service

open Relationship (through)

variable {ctx : Context} {t : Transaction} {store after : Store} {response : Response}
  {setName keyText navigationName targetText : String}

/-- A request to delete a reference unlinks the two entities in its path. -/
theorem execute_deleteReference_ok_iff (method : t.request.method = .delete)
    (parsed : ResourcePath.parse (ctx.config.endpoint.resourcePath t.request.path) =
      .ok (.resource [⟨setName, some keyText⟩, ⟨navigationName, some targetText⟩] (some .ref))) :
    (execute ctx t).runOn store = (.ok response, after) ↔
      response = Response.noContent ∧ ∃ definition key,
        ctx.model.entitySet? setName = some definition ∧
        Key.parse definition.entityType keyText = .ok key ∧
        ((EntitySet.root definition).unlink ctx t.request t.options key navigationName
          (some targetText)).runOn store = (.ok (), after) := by
  rw [execute, parsed, lift_ok_bind, runOn_bind_ok_iff]
  constructor
  · rintro ⟨place, middle, walked, run⟩
    obtain ⟨source, key, target, found, named, read, -, -, rfl⟩ := walk_pair_ok_iff.mp walked
    obtain ⟨-, -, rfl⟩ := (EntitySet.runOn_readScoped_root_ok_iff rfl).mp read
    simp only [referenceRequest, method] at run
    obtain ⟨⟨⟩, last, unlinked, result⟩ := runOn_bind_ok_iff.mp run
    cases result
    exact ⟨rfl, source.set, key, found, named, unlinked⟩
  · rintro ⟨rfl, definition, key, found, named, unlinked⟩
    obtain ⟨r, middle, opened, -⟩ := runOn_bind_ok_iff.mp unlinked
    obtain ⟨row, last, read, opened⟩ := runOn_bind_ok_iff.mp opened
    obtain ⟨target, led, -⟩ := runOn_lift_bind_ok_iff.mp opened
    obtain ⟨-, -, rfl⟩ := (EntitySet.runOn_readScoped_root_ok_iff rfl).mp read
    obtain ⟨navigation, reached, declared, bound, rfl⟩ := EntitySet.navigate_eq_ok led
    refine ⟨_, _, walk_pair_ok_iff.mpr ⟨⟨definition, navigation, row⟩, key, reached, found, named,
      read, declared, bound, rfl⟩, ?_⟩
    simp only [referenceRequest, method]
    exact runOn_bind_ok_iff.mpr ⟨(), after, unlinked, rfl⟩

/-- A request to delete a reference clears the foreign key if the two entities are related, and
changes nothing else.  The one is not found through the other afterwards, and the request succeeds
again and changes nothing then. -/
theorem deleteReference_unlinks {declaration : ModelDeclaration}
    (declared : ∀ ty ∈ declaration.types, ty.Declared)
    (built : declaration.build = .ok ctx.model)
    (distinct : ∀ definition ∈ ctx.model.sets,
      Table.HasDistinctKeys definition.entityType (store.rows definition.name.text))
    (method : t.request.method = .delete)
    (parsed : ResourcePath.parse (ctx.config.endpoint.resourcePath t.request.path) =
      .ok (.resource [⟨setName, some keyText⟩, ⟨navigationName, some targetText⟩] (some .ref)))
    (constrained : ∀ definition navigation, ctx.model.entitySet? setName = some definition →
      definition.entityType.navigation? navigationName = some navigation →
      navigation.constraints ≠ [])
    (run : (execute ctx t).runOn store = (.ok response, after)) :
    response = Response.noContent ∧ ∃ (source : Source) (key targetKey : Key)
        (target : EntitySetDef) (record : Record),
      ctx.model.entitySet? setName = some source.set ∧
      Key.parse source.set.entityType keyText = .ok key ∧
      Key.parse target.entityType targetText = .ok targetKey ∧
      source.set.entityType.navigation? navigationName = some source.navigation ∧
      ctx.model.bindingTarget source.set source.navigation = .ok target ∧
      (store.rows source.set.name.text).read key = some source.record ∧
      (store.rows target.name.text).read targetKey = some record ∧
      ((through key source target).relates record = false → after = store) ∧
      ((through key source target).relates record = true →
        (through key source target).Cleared record store after) ∧
      (EntitySet.readRelated ctx source.set key navigationName targetKey).runOn after =
        (.error ((EntitySet.root target).unrelated source targetKey), after) ∧
      (execute ctx t).runOn after = (.ok Response.noContent, after) := by
  have intact := ModelDeclaration.intact_of_build built
  have declared : ∀ set ∈ ctx.model.sets, set.entityType.Declared := fun set member =>
    declared _ (ModelDeclaration.entityType_mem_of_build built set member)
  obtain ⟨rfl, definition, key, known, named, unlinked⟩ :=
    (execute_deleteReference_ok_iff method parsed).mp run
  have member : definition ∈ ctx.model.sets := List.mem_of_find?_eq_some known
  obtain ⟨r, middle, opened, -⟩ := runOn_bind_ok_iff.mp unlinked
  obtain ⟨-, -, -, -, led, bound, -⟩ := Relationship.open?_eq_ok opened
  generalize r.source.navigation = navigation, r.target.definition = target at led bound
  have able := intact.readable definition member
  have ableTarget := intact.readable _ (Model.mem_sets_of_bindingTarget bound)
  obtain ⟨row, targetKey, record, found, parsedTarget, targetRow, effect⟩ :=
    (EntitySet.runOn_unlink_ok_iff able ableTarget led bound).mp unlinked
  obtain ⟨same, clears, missing, again⟩ := EntitySet.unlink_spec t.request t.options
    ⟨definition, navigation, row⟩ intact declared distinct member (Key.mem_key_of_parse named) led
    bound (constrained _ _ known led) found parsedTarget targetRow effect
  refine ⟨rfl, ⟨definition, navigation, row⟩, key, targetKey, target, record, known, named,
    parsedTarget, led, bound, found, targetRow, same, clears, missing, ?_⟩
  exact (execute_deleteReference_ok_iff method parsed).mpr
    ⟨rfl, definition, key, known, named, again⟩

open EntitySet

/-- The request to take the order from the customer. -/
def unlinkOrder : Transaction :=
  { request := ⟨.delete, "/Customers(1)/Orders(6)/$ref", [], none⟩,
    options := QueryOptions.empty, depth := 0, drawn := .nil }

/-- Both orders are of nobody. -/
def unlinkedStore : Store :=
  ⟨[("Customers", [firstCustomer]), ("Orders", [orderRow (.int 5) .null, orderRow (.int 6) .null])],
    []⟩

theorem parse_unlinkOrder :
    ResourcePath.parse (orderContext.config.endpoint.resourcePath unlinkOrder.request.path) =
      .ok (.resource [⟨"Customers", some "1"⟩, ⟨"Orders", some "6"⟩] (some .ref)) := by rfl

theorem execute_unlinkOrder : (execute orderContext unlinkOrder).runOn unassignedStore =
    (.ok Response.noContent, unlinkedStore) :=
  (execute_deleteReference_ok_iff rfl parse_unlinkOrder).mpr
    ⟨rfl, customers, idKey (.int 1), rfl, rfl, rfl⟩

/-- The order is not found among those of the customer any more, and there is nothing left to do. -/
theorem deleteReference_unlinks_order :
    (readRelated orderContext customers (idKey (.int 1)) "Orders" (idKey (.int 6))).runOn
        unlinkedStore =
      (.error (.notFound "entity_not_found" "Orders(6) is not related through 'Orders'"),
        unlinkedStore) ∧
    (execute orderContext unlinkOrder).runOn unlinkedStore =
      (.ok Response.noContent, unlinkedStore) := by
  have known_eq : orderModel.entitySet? "Customers" = some customers := by rfl
  have led_eq : customer.navigation? "Orders" = some ordersOfCustomer := by rfl
  have constrained : ∀ definition navigation,
      orderContext.model.entitySet? "Customers" = some definition →
      definition.entityType.navigation? "Orders" = some navigation →
      navigation.constraints ≠ [] := by
    intro definition navigation known led
    cases known_eq.symm.trans known
    cases led_eq.symm.trans led
    exact List.cons_ne_nil _ _
  obtain ⟨-, source, key, targetKey, target, record, known, named, parsed, led, bound, -, -, -, -,
    missing, again⟩ := deleteReference_unlinks declared_order build_orderDeclaration
      distinct_unassigned rfl parse_unlinkOrder constrained execute_unlinkOrder
  refine ⟨?_, again⟩
  obtain ⟨definition, navigation, row⟩ := source
  cases known_eq.symm.trans known
  cases led_eq.symm.trans led
  have named_eq : Key.parse customer "1" = .ok (idKey (.int 1)) := by rfl
  cases named_eq.symm.trans named
  have bound_eq : orderModel.bindingTarget customers ordersOfCustomer = .ok orders := by rfl
  cases bound_eq.symm.trans bound
  have parsed_eq : Key.parse order "6" = .ok (idKey (.int 6)) := by rfl
  cases parsed_eq.symm.trans parsed
  have message : (root orders).unrelated ⟨customers, ordersOfCustomer, row⟩ (idKey (.int 6)) =
      .notFound "entity_not_found" "Orders(6) is not related through 'Orders'" := by rfl
  rw [← message]
  exact missing

end Service

end OData
