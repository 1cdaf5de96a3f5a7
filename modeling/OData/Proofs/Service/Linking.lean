import OData.Proofs.Service.Scope
import OData.Proofs.Store.Rows
import OData.Service.Linking

/-!
# Links

A link assigns the foreign key in the one row that keeps it, and changes nothing else.  The target
is found through the navigation property afterwards if and only if the two rows, as the link leaves
them, agree in all constraints.  They do unless a value of the foreign key is null, or two
constraints assign different values to one property.
-/

set_option autoImplicit false

namespace OData

open OData.Action

/-! ## Replaced rows -/

/-- One row of a set was replaced, and all else is as before. -/
structure Store.Replaces (store after : Store) (set : EntitySetDef) (old new : Record) : Prop where
  row : ∃ before rest, old ∉ before ∧ store.rows set.name.text = before ++ old :: rest ∧
    after.rows set.name.text = before ++ new :: rest
  tables : ∀ name, name ≠ set.name.text → after.rows name = store.rows name

/-- If a row is replaced by one with the same key, the rows are found by their keys as before. -/
theorem Store.Replaces.read {store after : Store} {set definition : EntitySetDef}
    {old new row : Record} {key : Key} (replaces : store.Replaces after set old new)
    (keeps : ∀ name ∈ set.entityType.key, ∀ v,
      (new.value name).compare v = (old.value name).compare v)
    (unique : definition.name = set.name → definition = set)
    (names : ∀ name ∈ key.names, name ∈ definition.entityType.key)
    (found : (store.rows definition.name.text).read key = some row) :
    (after.rows definition.name.text).read key =
      some (if definition.name = set.name ∧ row = old then new else row) := by
  by_cases same : definition.name = set.name
  · cases unique same
    obtain ⟨before, rest, outside, split, changed⟩ := replaces.row
    have alike : key.identifies new = key.identifies old :=
      Key.identifies_congr fun name member => keeps name (names name member)
    rw [changed, Table.read_replace outside alike, ← split, found]
    simp
  · have other : definition.name.text ≠ set.name.text := fun text =>
      same (EntityType.Identifier.eq_of_text text)
    rw [replaces.tables _ other, found, if_neg (fun both => same both.1)]

/-! ## The row that keeps a foreign key -/

namespace Relationship

variable (r : Relationship) (record : Record)

/-- The set of the entity that keeps the foreign key. -/
def keeperSet : EntitySetDef := if r.keyOnSource then r.source.set else r.target.definition

/-- The row that keeps the foreign key. -/
def keeperRow : Record := if r.keyOnSource then r.source.record else record

/-- The row that keeps the foreign key, with the foreign key of the target. -/
def linkedRow : Record := (r.keeperRow record).insertAll (r.foreignKey record false)

/-- What a link makes of a row of a set. -/
def linked (set : EntitySetDef) (row : Record) : Record :=
  if set.name = r.keeperSet.name ∧ row = r.keeperRow record then r.linkedRow record else row

/-- Whether the row that keeps the foreign key keeps its own key as well, up to the form of its
values. -/
def KeepsKey : Prop :=
  ∀ name ∈ r.keeperSet.entityType.key, ∀ v,
    ((r.linkedRow record).value name).compare v = ((r.keeperRow record).value name).compare v

/-- The names of the properties of the foreign key. -/
def foreignNames : List Identifier :=
  if r.keyOnSource then r.constraints.map ReferentialConstraint.property
  else r.constraints.map ReferentialConstraint.referenced

theorem map_fst_foreignKey (clear : Bool) :
    (r.foreignKey record clear).map Prod.fst = r.foreignNames := by
  rw [foreignKey, foreignNames]
  split <;> simp

/-- One row has the foreign key now, and all else is as before. -/
structure Assigned (store after : Store) : Prop where
  row : ∃ before rest, r.keeperRow record ∉ before ∧
    store.rows r.keeperSet.name.text = before ++ r.keeperRow record :: rest ∧
    after.rows r.keeperSet.name.text = before ++ r.linkedRow record :: rest
  tables : ∀ name, name ≠ r.keeperSet.name.text → after.rows name = store.rows name
  properties : ∀ name, name ∉ r.foreignNames →
    (r.linkedRow record).get? name = (r.keeperRow record).get? name

variable {r record} {ctx : Context} {set : EntitySet} {key : Key} {name : String}
  {store after : Store}

theorem open?_eq_ok (opened : (open? ctx set key name).runOn store = (.ok r, after)) :
    after = store ∧ r.sourceKey = key ∧ r.source.set = set.definition ∧
      r.target.source = some r.source ∧
      set.entityType.navigation? name = some r.source.navigation ∧
      ctx.model.bindingTarget set.definition r.source.navigation = .ok r.target.definition ∧
      (store.rows set.name.text).read key = some r.source.record := by
  obtain ⟨record, middle, read, run⟩ := runOn_bind_ok_iff.mp opened
  obtain ⟨-, found, rfl⟩ :=
    EntitySet.runOn_readRecord_ok_iff.mp (EntitySet.readRecord_of_readScoped read)
  obtain ⟨target, led, run⟩ := runOn_lift_bind_ok_iff.mp run
  obtain ⟨navigation, definition, declared, bound, rfl⟩ := EntitySet.navigate_eq_ok led
  cases run
  exact ⟨rfl, rfl, rfl, rfl, declared, bound, found⟩

theorem keeper_eq_ok {keeper : EntitySetDef} {key : Key}
    (kept : r.keeper record = .ok (keeper, key)) : keeper = r.keeperSet := by
  rw [Relationship.keeper] at kept
  rw [keeperSet]
  split at kept
  next side =>
    cases kept
    exact (if_pos side).symm
  next side =>
    obtain ⟨own, _, result⟩ := Result.bind_eq_ok.mp kept
    cases result
    exact (if_neg side).symm

/-- A foreign key that may be cleared is made of properties that may be null. -/
theorem isNullable_of_isOptional (optional : r.isOptional = true) :
    ∀ name ∈ r.foreignNames, isNullable r.keeperSet.entityType name = true := by
  intro name member
  rw [isOptional] at optional
  rw [foreignNames] at member
  rw [keeperSet]
  split at optional
  next side =>
    rw [if_pos side] at member ⊢
    obtain ⟨c, among, rfl⟩ := List.mem_map.mp member
    exact List.all_eq_true.mp optional c among
  next side =>
    rw [if_neg side] at member ⊢
    obtain ⟨c, among, rfl⟩ := List.mem_map.mp member
    exact List.all_eq_true.mp optional c among

/-- An assignment that succeeds changes the row that keeps the foreign key. -/
theorem replaces_of_assign {clear : Bool} {targetKey : Key}
    (source : (store.rows r.source.set.name.text).read r.sourceKey = some r.source.record)
    (target : (store.rows r.target.definition.name.text).read targetKey = some record)
    (distinct : Table.HasDistinctKeys r.target.definition.entityType
      (store.rows r.target.definition.name.text))
    (run : (r.assign record clear).runOn store = (.ok (), after)) :
    store.Replaces after r.keeperSet (r.keeperRow record)
      ((r.keeperRow record).insertAll (r.foreignKey record clear)) := by
  obtain ⟨⟨keeper, key⟩, kept, run⟩ := runOn_lift_bind_ok_iff.mp run
  obtain ⟨⟨⟩, _, run⟩ := runOn_lift_bind_ok_iff.mp run
  obtain ⟨stored, last, written, run⟩ := runOn_bind_ok_iff.mp run
  cases run
  obtain ⟨table, updated, rfl⟩ := EntitySetDef.runOn_write_ok _ written
  obtain ⟨before, row, rest, split, outside, read, identified, -, rfl⟩ :=
    Table.update_eq_ok updated
  have place : keeper = r.keeperSet ∧ row = r.keeperRow record := by
    rw [Relationship.keeper] at kept
    rw [keeperSet, keeperRow]
    split at kept
    next onSource =>
      cases kept
      rw [if_pos onSource, if_pos onSource]
      exact ⟨rfl, Option.some.inj (read.symm.trans source)⟩
    next onTarget =>
      obtain ⟨own, made, result⟩ := Result.bind_eq_ok.mp kept
      cases result
      rw [if_neg onTarget, if_neg onTarget]
      have same := (Table.identifies_iff_sameKey made).mp identified
      have found := Table.read_ofRecord made same.self distinct (List.mem_of_find?_eq_some target)
      exact ⟨rfl, Option.some.inj (read.symm.trans found)⟩
  obtain ⟨rfl, rfl⟩ := place
  exact ⟨⟨before, rest, outside, split, Store.rows_put_self store _ _⟩,
    fun name other => Store.rows_put_of_ne store _ other⟩

theorem get?_assigned_of_not_mem {clear : Bool} {name : Identifier}
    (outside : name ∉ r.foreignNames) :
    ((r.keeperRow record).insertAll (r.foreignKey record clear)).get? name =
      (r.keeperRow record).get? name := by
  rw [← map_fst_foreignKey r record clear] at outside
  exact Record.get?_insertAll_of_not_mem _ _ outside

theorem assigned_of_assign {targetKey : Key}
    (source : (store.rows r.source.set.name.text).read r.sourceKey = some r.source.record)
    (target : (store.rows r.target.definition.name.text).read targetKey = some record)
    (distinct : Table.HasDistinctKeys r.target.definition.entityType
      (store.rows r.target.definition.name.text))
    (run : (r.assign record false).runOn store = (.ok (), after)) :
    r.Assigned record store after :=
  have replaces := replaces_of_assign source target distinct run
  ⟨replaces.row, replaces.tables, fun _ => get?_assigned_of_not_mem⟩

/-- After a link the rows are found by their keys as before. -/
theorem read_linked {definition : EntitySetDef} {row : Record}
    (assigned : r.Assigned record store after) (keeps : r.KeepsKey record)
    (unique : definition.name = r.keeperSet.name → definition = r.keeperSet)
    (names : ∀ name ∈ key.names, name ∈ definition.entityType.key)
    (found : (store.rows definition.name.text).read key = some row) :
    (after.rows definition.name.text).read key = some (r.linked record definition row) :=
  have replaces : store.Replaces after r.keeperSet (r.keeperRow record) (r.linkedRow record) :=
    ⟨assigned.row, assigned.tables⟩
  replaces.read keeps unique names found

/-! ## When a link relates -/

theorem value_linkedRow_of_not_mem {name : Identifier} (outside : name ∉ r.foreignNames) :
    (r.linkedRow record).value name = (r.keeperRow record).value name := by
  rw [← map_fst_foreignKey r record false] at outside
  exact Record.value_insertAll_of_not_mem outside

theorem exists_value_linkedRow (r : Relationship) (record : Record) {name : Identifier}
    (member : name ∈ r.foreignNames) :
    ∃ v, (name, v) ∈ r.foreignKey record false ∧ (r.linkedRow record).value name = v := by
  rw [← map_fst_foreignKey r record false] at member
  exact Record.exists_value_insertAll member

theorem linked_keeperRow : r.linked record r.keeperSet (r.keeperRow record) = r.linkedRow record :=
  if_pos ⟨rfl, rfl⟩

theorem value_linked_of_not_mem {definition : EntitySetDef} {row : Record} {name : Identifier}
    (outside : definition.name = r.keeperSet.name → row = r.keeperRow record →
      name ∉ r.foreignNames) :
    (r.linked record definition row).value name = row.value name := by
  rw [linked]
  split
  next same => rw [value_linkedRow_of_not_mem (outside same.1 same.2), same.2]
  next => rfl

/-- A foreign key of consistent values relates the two entities. -/
theorem relates_linked (constrained : r.constraints ≠ [])
    (consistent : Record.Consistent (r.foreignKey record false))
    (apart : r.source.set.name = r.target.definition.name → r.source.record = record →
      ∀ c ∈ r.constraints, ∀ other ∈ r.constraints, c.property ≠ other.referenced) :
    r.source.navigation.relates (r.linked record r.source.set r.source.record)
      (r.linked record r.target.definition record) = true := by
  refine NavigationProperty.relates_iff.mpr ⟨constrained, fun c member => ?_⟩
  by_cases side : r.keyOnSource = true
  · have keeper : r.keeperSet = r.source.set := if_pos side
    have row : r.keeperRow record = r.source.record := if_pos side
    have foreign : r.foreignNames = r.constraints.map ReferentialConstraint.property := if_pos side
    have lent : (c.property, record.value c.referenced) ∈ r.foreignKey record false := by
      rw [foreignKey, if_pos side]
      exact List.mem_map_of_mem member
    have target : (r.linked record r.target.definition record).value c.referenced =
        record.value c.referenced := by
      apply value_linked_of_not_mem
      rw [keeper, row, foreign]
      intro sameName sameRow assigned
      obtain ⟨other, among, equal⟩ := List.mem_map.mp assigned
      exact apart sameName.symm sameRow.symm other among c member equal
    have kept : c.property ∈ r.foreignNames := foreign ▸ List.mem_map_of_mem member
    obtain ⟨v, assigned, value⟩ := exists_value_linkedRow r record kept
    rw [← linked_keeperRow, keeper, row] at value
    rw [target, value]
    exact consistent _ lent _ assigned rfl
  · have keeper : r.keeperSet = r.target.definition := if_neg side
    have row : r.keeperRow record = record := if_neg side
    have foreign : r.foreignNames = r.constraints.map ReferentialConstraint.referenced :=
      if_neg side
    have lent : (c.referenced, r.source.record.value c.property) ∈
        r.foreignKey record false := by
      rw [foreignKey, if_neg side]
      exact List.mem_map_of_mem member
    have source : (r.linked record r.source.set r.source.record).value c.property =
        r.source.record.value c.property := by
      apply value_linked_of_not_mem
      rw [keeper, row, foreign]
      intro sameName sameRow assigned
      obtain ⟨other, among, equal⟩ := List.mem_map.mp assigned
      exact apart sameName sameRow c member other among equal.symm
    have kept : c.referenced ∈ r.foreignNames := foreign ▸ List.mem_map_of_mem member
    obtain ⟨v, assigned, value⟩ := exists_value_linkedRow r record kept
    rw [← linked_keeperRow, keeper, row] at value
    rw [source, value]
    exact consistent _ assigned _ lent rfl

end Relationship

namespace EntitySet

variable {ctx : Context} {set : EntitySet} {key : Key} {navigation : String}
  {inlineKey : Option String} {request : Request} {store after : Store}

theorem link_eq_ok
    (success : (set.link ctx request key navigation inlineKey).runOn store = (.ok (), after)) :
    ∃ r targetKey origin record,
      (Relationship.open? ctx set key navigation).runOn store = (.ok r, store) ∧
        r.target.explicitTarget ctx request inlineKey = .ok (some (targetKey, origin)) ∧
        (store.rows r.target.name.text).read targetKey = some record ∧
        (r.assign record false).runOn store = (.ok (), after) := by
  obtain ⟨r, middle, opened, run⟩ := runOn_bind_ok_iff.mp success
  obtain ⟨rfl, -⟩ := Relationship.open?_eq_ok opened
  obtain ⟨named, explicit, run⟩ := runOn_lift_bind_ok_iff.mp run
  cases named with
  | none => cases run
  | some found =>
    obtain ⟨targetKey, origin⟩ := found
    obtain ⟨record, last, read, assigned⟩ := runOn_bind_ok_iff.mp run
    obtain ⟨-, target, rfl⟩ := runOn_readRecord_ok_iff.mp read
    exact ⟨r, targetKey, origin, record, opened, explicit, target, assigned⟩

theorem exists_parse_of_parseReference {reference : String} {targetKey : Key}
    (read : set.parseReference ctx reference = .ok targetKey) :
    ∃ text, Key.parse set.entityType text = .ok targetKey := by
  rw [parseReference] at read
  split at read
  next => cases read
  next =>
    split at read
    next => cases read
    next =>
      split at read
      next => exact ⟨_, read⟩
      next => cases read

/-- The target that a request names has a key of its type. -/
theorem mem_key_of_explicitTarget {targetKey : Key} {origin : TargetOrigin}
    (explicit : set.explicitTarget ctx request inlineKey = .ok (some (targetKey, origin))) :
    ∀ name ∈ targetKey.names, name ∈ set.entityType.key := by
  unfold explicitTarget at explicit
  have parsed : ∃ text, Key.parse set.entityType text = .ok targetKey := by
    split at explicit
    · obtain ⟨found, read, result⟩ := Result.bind_eq_ok.mp explicit
      cases result
      exact ⟨_, read⟩
    · obtain ⟨found, read, result⟩ := Result.bind_eq_ok.mp explicit
      cases result
      exact exists_parse_of_parseReference read
    · obtain ⟨found, read, result⟩ := Result.bind_eq_ok.mp explicit
      cases result
      exact exists_parse_of_parseReference read
    · cases explicit
  obtain ⟨text, read⟩ := parsed
  exact Key.mem_key_of_parse read

/-- A link changes the row that keeps the foreign key in the properties of the foreign key, and
nothing else.  If that row keeps its own key, the target is found through the navigation property
afterwards exactly if the two rows agree in the constraints then; so they do if there are
constraints, the values of the foreign key are consistent, and an entity that is linked to itself
does not refer to its foreign key. -/
theorem link_spec {declaration : ModelDeclaration} (built : declaration.build = .ok ctx.model)
    (member : set.definition ∈ ctx.model.sets)
    (distinct : ∀ definition ∈ ctx.model.sets,
      Table.HasDistinctKeys definition.entityType (store.rows definition.name.text))
    (names : ∀ name ∈ key.names, name ∈ set.entityType.key)
    (run : (set.link ctx request key navigation inlineKey).runOn store = (.ok (), after)) :
    ∃ r targetKey origin record,
      (Relationship.open? ctx set key navigation).runOn store = (.ok r, store) ∧
        r.target.explicitTarget ctx request inlineKey = .ok (some (targetKey, origin)) ∧
        (store.rows r.target.name.text).read targetKey = some record ∧
        r.Assigned record store after ∧
        (r.KeepsKey record →
          (∀ found last,
            (readRelated ctx set.definition key navigation targetKey).runOn after =
                (.ok found, last) ↔
              last = after ∧ found = r.linked record r.target.definition record ∧
                r.source.navigation.relates (r.linked record r.source.set r.source.record)
                  found = true) ∧
          (r.constraints ≠ [] → Record.Consistent (r.foreignKey record false) →
            (r.source.set.name = r.target.definition.name → r.source.record = record →
              ∀ c ∈ r.constraints, ∀ other ∈ r.constraints, c.property ≠ other.referenced) →
            (readRelated ctx set.definition key navigation targetKey).runOn after =
              (.ok (r.linked record r.target.definition record), after))) := by
  have intact := ModelDeclaration.intact_of_build built
  obtain ⟨r, targetKey, origin, record, opened, explicit, target, run⟩ := link_eq_ok run
  obtain ⟨-, sourceKey, sourceSet, -, declared, bound, source⟩ :=
    Relationship.open?_eq_ok opened
  have targetMember : r.target.definition ∈ ctx.model.sets := Model.mem_sets_of_bindingTarget bound
  have assigned : r.Assigned record store after :=
    Relationship.assigned_of_assign (by rw [sourceSet, sourceKey]; exact source) target
      (distinct _ targetMember) run
  refine ⟨r, targetKey, origin, record, opened, explicit, target, assigned, fun keeps => ?_⟩
  have keeperMember : r.keeperSet ∈ ctx.model.sets := by
    rw [Relationship.keeperSet, sourceSet]
    split
    · exact member
    · exact targetMember
  have sourceAfter := Relationship.read_linked assigned keeps
    (intact.eq_of_name member keeperMember) names source
  have targetAfter := Relationship.read_linked assigned keeps
    (intact.eq_of_name targetMember keeperMember) (mem_key_of_explicitTarget explicit) target
  have reading : ∀ found last,
      (readRelated ctx set.definition key navigation targetKey).runOn after = (.ok found, last) ↔
        last = after ∧ found = r.linked record r.target.definition record ∧
          r.source.navigation.relates (r.linked record r.source.set r.source.record)
            found = true := by
    intro found last
    rw [runOn_readRelated_ok_iff intact member declared bound, sourceSet]
    constructor
    · rintro ⟨rfl, row, readSource, readTarget, related⟩
      cases sourceAfter.symm.trans readSource
      cases targetAfter.symm.trans readTarget
      exact ⟨rfl, rfl, related⟩
    · rintro ⟨rfl, rfl, related⟩
      exact ⟨rfl, _, sourceAfter, targetAfter, related⟩
  refine ⟨reading, fun constrained consistent apart => ?_⟩
  exact (reading _ _).mpr ⟨rfl, rfl, Relationship.relates_linked constrained consistent apart⟩

/-! Customers and their orders. -/

def customerId : Property := ⟨⟨"id", Eq.refl true⟩, .int64, false⟩

def orderCustomer : Property := ⟨⟨"customer_id", by decide⟩, .int64, true⟩

def ordersOfCustomer : NavigationProperty :=
  { name := ⟨"Orders", by decide⟩, target := ⟨"Order", by decide⟩, collection := true,
    expandable := true, nullable := true, partner := none,
    constraints := [⟨customerId.name, orderCustomer.name⟩] }

def customer : EntityType :=
  ⟨⟨"Customer", by decide⟩, [customerId], [customerId.name], [ordersOfCustomer]⟩

def order : EntityType :=
  ⟨⟨"Order", by decide⟩, [customerId, orderCustomer], [customerId.name], []⟩

def orderDeclaration : ModelDeclaration :=
  { space := "Shop", alias? := none, references := [], types := [customer, order],
    sets := [⟨"Customers", "Customer", [], .table .all, none, none⟩,
      ⟨"Orders", "Order", [], .table .all, none, none⟩] }

def customers : EntitySetDef := ⟨⟨"Customers", by decide⟩, customer, [], .table .all, .all, none⟩

def orders : EntitySetDef := ⟨⟨"Orders", by decide⟩, order, [], .table .all, .all, none⟩

def orderModel : Model :=
  { space := "Shop", alias? := none, references := [], types := [customer, order],
    sets := [customers, orders] }

theorem build_orderDeclaration : orderDeclaration.build = .ok orderModel := rfl

def orderContext : Context := ⟨orderModel, Config.standard, none, .standard⟩

def firstCustomer : Record := [(customerId.name, .int 1)]

def orderRow (id customer : Value) : Record :=
  [(customerId.name, id), (orderCustomer.name, customer)]

/-- A customer with one order, and an order of nobody. -/
def unassignedStore : Store :=
  ⟨[("Customers", [firstCustomer]),
    ("Orders", [orderRow (.int 5) .null, orderRow (.int 6) (.int 1)])], []⟩

def assignedStore : Store :=
  ⟨[("Customers", [firstCustomer]),
    ("Orders", [orderRow (.int 5) (.int 1), orderRow (.int 6) (.int 1)])], []⟩

def idKey (id : Value) : Key := ⟨[(customerId.name, id)]⟩

def assignRequest : Request := ⟨.put, "/Customers(1)/Orders(5)/$ref", [], none⟩

def firstOrders : Relationship :=
  { sourceKey := idKey (.int 1), source := ⟨customers, ordersOfCustomer, firstCustomer⟩,
    target := ⟨orders, some ⟨customers, ordersOfCustomer, firstCustomer⟩⟩ }

theorem link_assigned :
    ((root customers).link orderContext assignRequest (idKey (.int 1)) "Orders" (some "5")).runOn
      unassignedStore = (.ok (), assignedStore) := rfl

theorem distinct_unassigned : ∀ definition ∈ orderModel.sets,
    Table.HasDistinctKeys definition.entityType
      (unassignedStore.rows definition.name.text) := by
  intro definition member
  rcases List.mem_cons.mp member with rfl | later
  · exact List.pairwise_singleton _ _
  · cases List.mem_singleton.mp later
    refine List.pairwise_pair.mpr fun same => ?_
    exact absurd (same customerId.name List.mem_cons_self) (by decide)

/-- The order of nobody becomes one of the customer's. -/
theorem link_spec_assigned :
    (readRelated orderContext customers (idKey (.int 1)) "Orders" (idKey (.int 5))).runOn
      assignedStore = (.ok (orderRow (.int 5) (.int 1)), assignedStore) := by
  have known : (root customers).definition ∈ orderContext.model.sets := List.mem_cons_self
  obtain ⟨r, targetKey, origin, record, opened, explicit, target, -, related⟩ :=
    link_spec build_orderDeclaration known distinct_unassigned (by decide) link_assigned
  have open?_eq : (Relationship.open? orderContext (root customers) (idKey (.int 1)) "Orders").runOn
      unassignedStore = (.ok firstOrders, unassignedStore) := rfl
  cases opened.symm.trans open?_eq
  have explicit_eq : firstOrders.target.explicitTarget orderContext assignRequest (some "5") =
      .ok (some (idKey (.int 5), .inlineKey)) := rfl
  cases explicit.symm.trans explicit_eq
  have target_eq : (unassignedStore.rows "Orders").read (idKey (.int 5)) =
      some (orderRow (.int 5) .null) := rfl
  cases target.symm.trans target_eq
  have keeps : firstOrders.KeepsKey (orderRow (.int 5) .null) := by
    intro name member v
    rw [List.mem_singleton.mp member]
    rfl
  refine (related keeps).2 (by decide) ?_ (fun same => absurd same (by decide))
  intro entry member other among same
  rw [List.mem_singleton.mp member, List.mem_singleton.mp among]
  rfl

end EntitySet

end OData
