import Mathlib.Data.List.Pairwise
import OData.Proofs.Bound.Typing
import OData.Proofs.Store.Rows
import OData.Proofs.Stream
import OData.Proofs.Value.Sorting

/-!
# The order of a plan

An order is bound to properties of an entity type, those of the key among them.  It is a total order
on the rows of that type unless it is by a property of doubles, and rows that are equal in it have
the same key.  What is fetched then depends on the rows of a table, not on how they are arranged.

A stream is pulled from again and again.  Each pull gives the first record that is left and leaves
the others, so the pulls give the selected records one by one, and nothing from then on.  How many
records are fetched at a time makes no difference.
-/

set_option autoImplicit false

namespace OData

/-! ## Bound orders -/

/-- Whether the key is a property of an entity type. -/
def OrderKey.IsOver (ty : EntityType) (key : OrderKey) : Prop :=
  ∃ property, ty.property? property.name.text = some property ∧ key.property = property.name ∧
    key.type = property.type

namespace QueryPlan

variable {ty : EntityType} {items : List OrderItem} {order order' : List OrderKey}

theorem forall_mem_addOrderKey {P : OrderKey → Prop} {property : Property} {direction : Direction}
    (each : ∀ key ∈ order, P key) (new : P ⟨property.name, property.type, direction⟩) :
    ∀ key ∈ addOrderKey order property direction, P key := by
  rw [addOrderKey]
  split
  · exact each
  · exact List.forall_mem_append.mpr ⟨each, List.forall_mem_singleton.mpr new⟩

theorem forall_mem_bindOrderItems {P : OrderKey → Prop} (each : ∀ key ∈ order, P key)
    (given : ∀ item ∈ items, ∀ property, ty.resolve item.path = .ok property →
      P ⟨property.name, property.type, item.direction⟩)
    (accepted : bindOrderItems ty order items = .ok order') : ∀ key ∈ order', P key := by
  induction items generalizing order with
  | nil =>
    cases accepted
    exact each
  | cons item rest ih =>
    obtain ⟨here, later⟩ := List.forall_mem_cons.mp given
    obtain ⟨property, resolved, accepted⟩ := Result.bind_eq_ok.mp accepted
    exact ih (forall_mem_addOrderKey each (here property resolved)) later accepted

theorem forall_mem_foldl {P : OrderKey → Prop} {properties : List Property}
    (each : ∀ key ∈ order, P key)
    (keyed : ∀ property ∈ properties, P ⟨property.name, property.type, .ascending⟩) :
    ∀ key ∈ properties.foldl (fun acc property => addOrderKey acc property .ascending) order,
      P key := by
  induction properties generalizing order with
  | nil => exact each
  | cons property rest ih =>
    obtain ⟨here, later⟩ := List.forall_mem_cons.mp keyed
    exact ih (forall_mem_addOrderKey each here) later

/-- Bound order keys come from the items or from the key. -/
theorem forall_mem_bindOrder {P : OrderKey → Prop}
    (given : ∀ item ∈ items, ∀ property, ty.resolve item.path = .ok property →
      P ⟨property.name, property.type, item.direction⟩)
    (keyed : ∀ property ∈ ty.keyProperties, P ⟨property.name, property.type, .ascending⟩)
    (accepted : bindOrder ty items = .ok order) : ∀ key ∈ order, P key := by
  obtain ⟨before, bound, accepted⟩ := Result.bind_eq_ok.mp accepted
  cases accepted
  exact forall_mem_foldl (forall_mem_bindOrderItems (List.forall_mem_nil P) given bound) keyed

theorem isOver_of_bindOrder (accepted : bindOrder ty items = .ok order) :
    ∀ key ∈ order, key.IsOver ty := by
  refine forall_mem_bindOrder ?_ ?_ accepted
  · intro item _ property resolved
    exact ⟨property, BoundExpr.property?_of_resolve resolved, rfl, rfl⟩
  · intro property member
    obtain ⟨name, _, found⟩ := List.mem_filterMap.mp member
    rw [← EntityType.name_of_property? found] at found
    exact ⟨property, found, rfl, rfl⟩

theorem subset_addOrderKey (order : List OrderKey) (property : Property) (direction : Direction) :
    order ⊆ addOrderKey order property direction := by
  rw [addOrderKey]
  split
  · exact List.Subset.refl order
  · exact List.subset_append_left order _

theorem exists_mem_addOrderKey (order : List OrderKey) (property : Property)
    (direction : Direction) :
    ∃ key ∈ addOrderKey order property direction, key.property = property.name := by
  rw [addOrderKey]
  split
  next present =>
    obtain ⟨key, member, same⟩ := List.any_eq_true.mp present
    exact ⟨key, member, beq_iff_eq.mp same⟩
  next => exact ⟨_, List.mem_append_right order List.mem_cons_self, rfl⟩

theorem exists_mem_foldl (properties : List Property) (order : List OrderKey) :
    ∀ property ∈ properties, ∃ key ∈
      properties.foldl (fun acc property => addOrderKey acc property .ascending) order,
      key.property = property.name := by
  have kept : ∀ (properties : List Property) (order : List OrderKey), order ⊆
      properties.foldl (fun acc property => addOrderKey acc property .ascending) order := by
    intro properties
    induction properties with
    | nil => exact fun order => List.Subset.refl order
    | cons property rest ih =>
      exact fun order => List.Subset.trans (subset_addOrderKey order property _) (ih _)
  induction properties generalizing order with
  | nil => exact List.forall_mem_nil _
  | cons property rest ih =>
    refine List.forall_mem_cons.mpr ⟨?_, ih _⟩
    obtain ⟨key, member, same⟩ := exists_mem_addOrderKey order property .ascending
    exact ⟨key, kept rest _ member, same⟩

/-- A bound order is by all properties of the key. -/
theorem exists_mem_bindOrder (accepted : bindOrder ty items = .ok order) :
    ∀ property ∈ ty.keyProperties, ∃ key ∈ order, key.property = property.name := by
  obtain ⟨before, _, accepted⟩ := Result.bind_eq_ok.mp accepted
  cases accepted
  exact exists_mem_foldl ty.keyProperties before

end QueryPlan

/-! ## Rows in order -/

namespace Value

theorem isNaN_eq_false_of_isOfType {type : PrimitiveType} {v : Value} (typed : v.IsOfType type)
    (other : type ≠ .double) : v.isNaN = false := by
  refine Bool.eq_false_iff.mpr fun nan => ?_
  have double := typed.resolve_left (by simp [isNull_of_isNaN nan])
  cases v with
  | double x => exact other (Option.some.inj double).symm
  | _ => cases nan

theorem isOrdered_of_isNaN {v : Value} (present : v.isNull = false) (number : v.isNaN = false) :
    v.isOrdered = true := by
  cases v with
  | null => cases present
  | double x => exact congrArg Bool.not number
  | _ => rfl

theorem stored_of_type? {type : PrimitiveType} {v : Value} (typed : v.type? = some type) :
    type.stored = type := by
  cases v <;> cases typed <;> rfl

end Value

namespace EntityType

variable {ty : EntityType}

theorem isOfType_of_types {row : Record} {property : Property} (types : ty.Types row)
    (member : property ∈ ty.properties) :
    (row.value property.name).IsOfType property.type.stored := by
  rcases types property member with null | typed | ⟨typed, narrow⟩
  · exact .inl null
  · rw [Value.stored_of_type? typed]
    exact .inr typed
  · rw [narrow]
    exact .inr typed

/-- Rows of a type are in order by each property in which none of them is not a number. -/
theorem transCmp_value {P : Record → Prop} {property : Property} (member : property ∈ ty.properties)
    (types : ∀ row, P row → ty.Types row)
    (numbers : ∀ row, P row → (row.value property.name).isNaN = false) :
    Std.TransCmp fun a b : {row // P row} =>
      (a.1.value property.name).sortCompare (b.1.value property.name) where
  eq_swap := Value.sortCompare_swap _ _
  isLE_trans := by
    rintro ⟨a, goodA⟩ ⟨b, goodB⟩ ⟨c, goodC⟩ first second
    exact Value.isLE_sortCompare_trans (isOfType_of_types (types a goodA) member)
      (isOfType_of_types (types b goodB) member) (isOfType_of_types (types c goodC) member)
      (numbers b goodB) first second

end EntityType

theorem OrderKey.transCmp_compare {P : Record → Prop} {ty : EntityType} {key : OrderKey}
    (belongs : key.IsOver ty) (types : ∀ row, P row → ty.Types row)
    (numbers : ∀ row, P row → (row.value key.property).isNaN = false) :
    Std.TransCmp fun a b : {row // P row} => key.compare a b := by
  obtain ⟨name, type, direction⟩ := key
  obtain ⟨property, declared, rfl, rfl⟩ := belongs
  have values := EntityType.transCmp_value (List.mem_of_find?_eq_some declared) types numbers
  cases direction with
  | ascending => exact values
  | descending => exact @Std.TransCmp.opposite _ _ values

namespace QueryPlan

variable {ty : EntityType} {items : List OrderItem} {order : List OrderKey}

/-- The order by several keys is lexicographic. -/
theorem transCmp_compareBy {P : Record → Prop} (types : ∀ row, P row → ty.Types row)
    (each : ∀ key ∈ order, key.IsOver ty ∧ ∀ row, P row → (row.value key.property).isNaN = false) :
    Std.TransCmp fun a b : {row // P row} => compareBy order a b := by
  induction order with
  | nil => exact { eq_swap := rfl, isLE_trans := fun _ _ => rfl }
  | cons key rest ih =>
    obtain ⟨⟨belongs, numbers⟩, later⟩ := List.forall_mem_cons.mp each
    have first := OrderKey.transCmp_compare belongs types numbers
    have others := ih later
    exact inferInstanceAs (Std.TransCmp (compareLex
      (fun a b : {row // P row} => key.compare a b) fun a b => compareBy rest a b))

theorem compareBy_eq_iff {a b : Record} :
    compareBy order a b = .eq ↔ ∀ key ∈ order, key.compare a b = .eq := by
  induction order with
  | nil => simp [compareBy]
  | cons key rest ih => rw [compareBy, Ordering.then_eq_eq, ih, List.forall_mem_cons]

end QueryPlan

/-! ## Tables in order -/

namespace Value

/-- Values of one type other than doubles that are sorted as equal are equal. -/
theorem compare_of_sortCompare {type : PrimitiveType} {v w : Value} (typedV : v.IsOfType type)
    (typedW : w.IsOfType type) (other : type ≠ .double) (presentV : v.isNull = false)
    (presentW : w.isNull = false) (equal : v.sortCompare w = .eq) : v.compare w = some .eq := by
  have orderedV := isOrdered_of_isNaN presentV (isNaN_eq_false_of_isOfType typedV other)
  have orderedW := isOrdered_of_isNaN presentW (isNaN_eq_false_of_isOfType typedW other)
  have typeV := typedV.resolve_left (by simp [presentV])
  have typeW := typedW.resolve_left (by simp [presentW])
  obtain ⟨order, compared⟩ := Option.isSome_iff_exists.mp
    (isSome_compare_of_type? (typeV.trans typeW.symm) orderedV orderedW)
  rw [sortCompare_of_present presentV presentW, compared] at equal
  rw [compared]
  exact congrArg some equal

end Value

theorem OrderKey.compare_eq_iff {key : OrderKey} {a b : Record} :
    key.compare a b = .eq ↔ (a.value key.property).sortCompare (b.value key.property) = .eq := by
  rw [compare]
  cases key.direction with
  | ascending => exact Iff.rfl
  | descending => rw [Value.sortCompare_swap, Ordering.swap_eq_eq]

/-- The rows of a table have values of their types, and keys that are complete and distinct. -/
structure Table.Keyed (ty : EntityType) (table : Table) : Prop where
  types : ∀ row ∈ table, ty.Types row
  complete : ∀ row ∈ table, ∀ name ∈ ty.key, row.has name = true
  distinct : HasDistinctKeys ty table

/-- In a table rows with the same key are the same. -/
theorem Table.HasDistinctKeys.eq_of_sameKey {ty : EntityType} {table : Table}
    (distinct : HasDistinctKeys ty table) {a b : Record} (memberA : a ∈ table) (memberB : b ∈ table)
    (same : SameKey ty a b) : a = b := by
  have symmetric : Std.Symm fun a b => ¬ SameKey ty a b := ⟨fun a b apart same =>
    apart fun name member => Value.compare_eq_comm.mp (same name member)⟩
  by_contra other
  exact distinct.forall memberA memberB other same

namespace QueryPlan

variable {ty : EntityType} {items : List OrderItem} {plan : QueryPlan} {table table' : Table}

/-- Rows of a table are equal in a bound order only if they have the same key. -/
theorem sameKey_of_compare (declared : ty.Declared)
    (accepted : bindOrder ty items = .ok plan.order)
    (keyed : ∀ property ∈ ty.keyProperties, property.type ≠ .double) (rows : table.Keyed ty)
    {a b : Record} (memberA : a ∈ table) (memberB : b ∈ table) (equal : plan.compare a b = .eq) :
    Table.SameKey ty a b := by
  intro name member
  obtain ⟨property, listed, belongs, rfl, _⟩ := declared.exists_key_property member
  obtain ⟨key, among, same⟩ := exists_mem_bindOrder accepted property listed
  have sorted := OrderKey.compare_eq_iff.mp (compareBy_eq_iff.mp equal key among)
  have other := mt PrimitiveType.eq_double_of_stored (keyed property listed)
  rw [same] at sorted
  exact Value.compare_of_sortCompare
    (EntityType.isOfType_of_types (rows.types a memberA) belongs)
    (EntityType.isOfType_of_types (rows.types b memberB) belongs) other
    (by simpa [Record.has] using rows.complete a memberA property.name member)
    (by simpa [Record.has] using rows.complete b memberB property.name member) sorted

/-- A bound order is total on rows of its type if no value by which they are compared is not a
number. -/
theorem orders_of_numbers (accepted : bindOrder ty items = .ok plan.order)
    (types : ∀ row ∈ table, ty.Types row)
    (numbers : ∀ row ∈ plan.matching table, ∀ key ∈ plan.order,
      (row.value key.property).isNaN = false) : plan.Orders table :=
  transCmp_compareBy (fun row member => types row (List.mem_of_mem_filter member))
    fun key member => ⟨isOver_of_bindOrder accepted key member,
      fun row among => numbers row among key member⟩

/-- So it is if it is by no property of doubles. -/
theorem orders_of_bindOrder (accepted : bindOrder ty items = .ok plan.order)
    (sortable : ∀ item ∈ items, ∀ property, ty.resolve item.path = .ok property →
      property.type ≠ .double)
    (keyed : ∀ property ∈ ty.keyProperties, property.type ≠ .double)
    (types : ∀ row ∈ table, ty.Types row) : plan.Orders table := by
  have sorted : ∀ key ∈ plan.order, key.type ≠ .double :=
    forall_mem_bindOrder sortable keyed accepted
  refine orders_of_numbers accepted types fun row among key member => ?_
  obtain ⟨property, declared, name, type⟩ := isOver_of_bindOrder accepted key member
  have other := sorted key member
  rw [type] at other
  rw [name]
  exact Value.isNaN_eq_false_of_isOfType
    (EntityType.isOfType_of_types (types row (List.mem_of_mem_filter among))
      (List.mem_of_find?_eq_some declared))
    (mt PrimitiveType.eq_double_of_stored other)

/-- A plan arranges all arrangements of a table in the same way. -/
theorem arrange_eq_of_perm (declared : ty.Declared) (accepted : bindOrder ty items = .ok plan.order)
    (sortable : ∀ item ∈ items, ∀ property, ty.resolve item.path = .ok property →
      property.type ≠ .double)
    (keyed : ∀ property ∈ ty.keyProperties, property.type ≠ .double) (rows : table.Keyed ty)
    (arranged : table.Perm table') : plan.arrange table = plan.arrange table' := by
  have total : plan.Orders table := orders_of_bindOrder accepted sortable keyed rows.types
  have total' : plan.Orders table' := orders_of_bindOrder accepted sortable keyed
    fun row member => rows.types row (arranged.mem_iff.mpr member)
  have inside : ∀ row ∈ plan.arrange table, row ∈ plan.matching table := fun row member =>
    (sortBy_perm _ _).mem_iff.mp member
  have inside' : ∀ row ∈ plan.arrange table', row ∈ plan.matching table := fun row member =>
    (arranged.filter _).mem_iff.mpr ((sortBy_perm _ _).mem_iff.mp member)
  refine List.Perm.eq_of_pairwise ?_ total.pairwise_sortBy total'.pairwise_sortBy ?_
  · intro a b memberA memberB le ge
    have first := inside a memberA
    have second := inside' b memberB
    have swapped : plan.compare b a = (plan.compare a b).swap :=
      @Std.OrientedCmp.eq_swap _ _ total.toOrientedCmp ⟨b, second⟩ ⟨a, first⟩
    rw [swapped, Ordering.isLE_swap] at ge
    have equal : plan.compare a b = .eq := by
      cases order : plan.compare a b with
      | eq => rfl
      | lt => rw [order] at ge; cases ge
      | gt => rw [order] at le; cases le
    have listed := List.mem_of_mem_filter first
    have listed' := List.mem_of_mem_filter second
    exact rows.distinct.eq_of_sameKey listed listed'
      (sameKey_of_compare declared accepted keyed rows listed listed' equal)
  · exact (sortBy_perm _ _).trans ((arranged.filter _).trans (sortBy_perm _ _).symm)

end QueryPlan

/-- What is fetched in a bound order without doubles does not depend on how the rows of a table are
arranged. -/
theorem EntitySetDef.fetch_eq_of_perm {set : EntitySetDef} {offered : CapabilitySet}
    {items : List OrderItem} {order : List OrderKey} {store store' : Store}
    (table : set.backing = .table offered) (declared : set.entityType.Declared)
    (accepted : QueryPlan.bindOrder set.entityType items = .ok order)
    (sortable : ∀ item ∈ items, ∀ property, set.entityType.resolve item.path = .ok property →
      property.type ≠ .double)
    (keyed : ∀ property ∈ set.entityType.keyProperties, property.type ≠ .double)
    (rows : (store.rows set.name.text).Keyed set.entityType)
    (arranged : (store.rows set.name.text).Perm (store'.rows set.name.text))
    (sorting : Sorting) (filter : Option BoundExpr) (select : Option (List Identifier))
    (offset limit : Nat) :
    ∃ records,
      ((set.fetch sorting ⟨filter, order, select⟩ offset limit).runOn store).1 = .ok records ∧
      ((set.fetch sorting ⟨filter, order, select⟩ offset limit).runOn store').1 = .ok records := by
  let plan : QueryPlan := ⟨filter, order, select⟩
  have total : plan.Orders (store.rows set.name.text) :=
    QueryPlan.orders_of_bindOrder accepted sortable keyed rows.types
  have total' : plan.Orders (store'.rows set.name.text) :=
    QueryPlan.orders_of_bindOrder accepted sortable keyed
      fun row member => rows.types row (arranged.mem_iff.mpr member)
  have same : plan.arrange (store.rows set.name.text) = plan.arrange (store'.rows set.name.text) :=
    QueryPlan.arrange_eq_of_perm declared accepted sortable keyed rows arranged
  have fetched := yields_fetch table (QueryPlan.run_of_orders sorting total) offset limit
  have fetched' := yields_fetch table (QueryPlan.run_of_orders sorting total') offset limit
  rw [← same] at fetched'
  exact ⟨_, fetched.runOn_eq, fetched'.runOn_eq⟩

/-! Parcels with the heaviest first, two of which have the same weight. -/

def parcelNumber : Property := ⟨⟨"number", Eq.refl true⟩, .int64, false⟩

def parcelWeight : Property := ⟨⟨"weight", Eq.refl true⟩, .decimal, true⟩

def parcel : EntityType :=
  ⟨⟨"Parcel", Eq.refl true⟩, [parcelNumber, parcelWeight], [parcelNumber.name], []⟩

theorem declared_parcel : parcel.Declared := by
  have number : (EntityType.empty parcel.name).addProperty parcelNumber =
      .ok ⟨parcel.name, [parcelNumber], [], []⟩ := rfl
  have weight : EntityType.addProperty ⟨parcel.name, [parcelNumber], [], []⟩ parcelWeight =
      .ok ⟨parcel.name, [parcelNumber, parcelWeight], [], []⟩ := rfl
  exact .key [parcelNumber.name] (.property (.property (.empty parcel.name) number) weight)

def parcels : EntitySetDef := ⟨⟨"Parcels", Eq.refl true⟩, parcel, [], .table .all, .all, none⟩

def parcelRow (number : Int64) (weight : Value) : Record :=
  [(parcelNumber.name, .int number), (parcelWeight.name, weight)]

/-- One and a half twice, with other digits, and a parcel that was not weighed. -/
def parcelRows : Table :=
  [parcelRow 2 (.decimal ⟨150, 2⟩), parcelRow 3 .null, parcelRow 1 (.decimal ⟨15, 1⟩)]

def parcelStore (rows : Table) : Store := ⟨[("Parcels", rows)], []⟩

def heaviestFirst : List OrderItem := [⟨["weight"], .descending⟩]

def weightOrder : List OrderKey :=
  [⟨parcelWeight.name, .decimal, .descending⟩, ⟨parcelNumber.name, .int64, .ascending⟩]

theorem keyed_parcelRows : parcelRows.Keyed parcel where
  types := by
    intro row member property declared
    simp only [parcelRows, List.mem_cons, List.not_mem_nil, or_false] at member
    simp only [parcel, List.mem_cons, List.not_mem_nil, or_false] at declared
    rcases declared with rfl | rfl <;> rcases member with rfl | rfl | rfl
    · exact .inr (.inl rfl)
    · exact .inr (.inl rfl)
    · exact .inr (.inl rfl)
    · exact .inr (.inl rfl)
    · exact .inl rfl
    · exact .inr (.inl rfl)
  complete := by decide
  distinct := by
    have apart : ∀ {m n : Int64} {v w : Value}, m.toInt ≠ n.toInt →
        ¬ Table.SameKey parcel (parcelRow m v) (parcelRow n w) := by
      intro m n v w other same
      have equal := same parcelNumber.name List.mem_cons_self
      exact other (compare_eq_iff_eq.mp (Option.some.inj equal))
    simp [Table.HasDistinctKeys, parcelRows, apart]

theorem fetch_eq_of_perm_parcels : ∃ records,
    ((parcels.fetch .standard ⟨none, weightOrder, none⟩ 1 2).runOn (parcelStore parcelRows)).1 =
      .ok records ∧
    ((parcels.fetch .standard ⟨none, weightOrder, none⟩ 1 2).runOn
      (parcelStore parcelRows.reverse)).1 = .ok records := by
  have accepted : QueryPlan.bindOrder parcels.entityType heaviestFirst = .ok weightOrder := rfl
  have sortable : ∀ item ∈ heaviestFirst, ∀ property,
      parcels.entityType.resolve item.path = .ok property → property.type ≠ .double := by
    intro item member property resolved
    rw [List.mem_singleton.mp member] at resolved
    cases resolved
    exact PrimitiveType.noConfusion
  have rows : ((parcelStore parcelRows).rows parcels.name.text).Keyed parcels.entityType :=
    keyed_parcelRows
  have arranged : ((parcelStore parcelRows).rows parcels.name.text).Perm
      ((parcelStore parcelRows.reverse).rows parcels.name.text) :=
    (List.reverse_perm parcelRows).symm
  exact EntitySetDef.fetch_eq_of_perm rfl declared_parcel accepted sortable (by decide) rows
    arranged .standard none none 1 2

/-! ## Chunks are not seen -/

open OData.Action

namespace Stream

variable {sorting : Sorting} {set : EntitySet} {chunk : Nat} {selected : List Record}

/-- What so many pulls give, one after the other: a record each, or nothing at the end. -/
def pulls (sorting : Sorting) (set : EntitySet) (chunk : Nat) :
    Nat → Stream → Action (List (Option Record))
  | 0, _ => pure []
  | count + 1, s => do
    let (record, s) ← s.next sorting set chunk
    pure (record :: (← pulls sorting set chunk count s))

/-- The records of a list by their places, and nothing past its end. -/
def places (records : List Record) (count : Nat) : List (Option Record) :=
  (List.range count).map fun i => records[i]?

theorem places_succ (records : List Record) (count : Nat) :
    places records (count + 1) = records.head? :: places records.tail count := by
  rw [places, List.range_succ_eq_map, List.map_cons, List.map_map, List.head?_eq_getElem?]
  congr 1
  refine List.map_congr_left fun i _ => ?_
  rw [Function.comp_apply, List.getElem?_tail]

/-- Pulls from a stream over a table give what is left of the selected records. -/
theorem yields_pulls {offered : CapabilitySet}
    (table : set.definition.backing = .table offered) (positive : 0 < chunk) :
    ∀ (count : Nat) (s : Stream) (store : Store),
      s.plan.run sorting (store.rows set.definition.name.text) = some selected →
      Yields (s.pulls sorting set chunk count) store (places (s.left selected) count) := by
  intro count
  induction count with
  | zero => exact fun _ store _ => yields_pure [] store
  | succ count ih =>
    intro s store sorts
    obtain ⟨t, yields, plan, tail⟩ := yields_next table positive s sorts
    rw [places_succ, pulls]
    apply yields.bind
    intro after same
    have others := ih t after (by rwa [plan, Store.rows_congr same])
    rw [tail] at others
    exact others.bind fun last _ => yields_pure _ last

/-- A stream of which nothing is wanted gives nothing, without a fetch. -/
theorem runOn_pulls_none : ∀ (count : Nat) (s : Stream) (store : Store), s.buffer = [] →
    s.remaining = some 0 →
    ((s.pulls sorting set chunk count).runOn store).1 = .ok (places [] count) := by
  intro count
  induction count with
  | zero => exact fun _ _ _ _ => rfl
  | succ count ih =>
    intro s store empty nothing
    have fills : ∃ t : Stream, s.fill sorting set chunk = pure t ∧ t.buffer = [] ∧
        t.remaining = some 0 := by
      have zero : s.wanted chunk = 0 := by rw [wanted, nothing]; exact Nat.zero_min chunk
      rw [fill]
      split
      · exact ⟨{ s with drained := true }, by simp [pull, zero], empty, nothing⟩
      · exact ⟨s, rfl, empty, nothing⟩
    obtain ⟨t, fills, dry, rest⟩ := fills
    have next : s.next sorting set chunk = pure (none, t) := by
      rw [next, fills, pure_bind, dry]
    have others := ih t store dry rest
    have pull : s.pulls sorting set chunk (count + 1) =
        (none :: ·) <$> t.pulls sorting set chunk count := by
      rw [pulls, next, pure_bind, map_eq_pure_bind]
    rw [pull, runOn_map, others, places_succ]
    rfl

end Stream

namespace EntitySet

/-- The set as it is if it is fetched in chunks of some size, or of the size that the configuration
gives. -/
def inChunksOf (chunk : Option Nat) (set : EntitySet) : EntitySet :=
  { set with definition := { set.definition with chunkSize := chunk } }

/-- What so many pulls from a new stream give. -/
def pulls (ctx : Context) (set : EntitySet) (plan : QueryPlan) (offset : Nat) (limit : Option Nat)
    (count : Nat) : Action (List (Option Record)) := do
  let s ← Stream.start set plan offset limit
  s.pulls ctx.libraries.sorting set (set.chunkSize ctx) count

/-- What pulls give as the rows are sorted, or cannot be. -/
def pulled (selected : Option (List Record)) (offset : Nat) (limit : Option Nat) (count : Nat) :
    Result (List (Option Record)) :=
  match selected with
  | some selected => .ok (Stream.places (limited limit (selected.drop offset)) count)
  | none =>
    if count = 0 ∨ limit = some 0 then .ok (Stream.places [] count) else .error QueryPlan.unsortable

theorem runOn_pulls {set : EntitySet} {offered : CapabilitySet}
    (table : set.definition.backing = .table offered) (plan : QueryPlan) (offset : Nat)
    (limit : Option Nat) (count : Nat) (store : Store) (ctx : Context) :
    ((set.pulls ctx plan offset limit count).runOn store).1 =
      (set.require .query).bind fun _ => pulled
        (plan.run ctx.libraries.sorting (store.rows set.definition.name.text)) offset limit
        count := by
  rw [pulls, Stream.start]
  cases set.require .query with
  | error e => rfl
  | ok allowed =>
    have positive : 0 < set.chunkSize ctx := Nat.le_max_left 1 _
    let s : Stream := ⟨plan, offset, limit, [], false⟩
    change ((s.pulls ctx.libraries.sorting set (set.chunkSize ctx) count).runOn store).1 =
      pulled _ offset limit count
    cases sorts : plan.run ctx.libraries.sorting (store.rows set.definition.name.text) with
    | some selected => exact (Stream.yields_pulls table positive count s store sorts).runOn_eq
    | none =>
      rw [pulled]
      split
      next without =>
        rcases without with rfl | rfl
        · rfl
        · exact Stream.runOn_pulls_none count s store rfl rfl
      next wanted =>
        obtain ⟨some, more⟩ := not_or.mp wanted
        obtain ⟨count, rfl⟩ := Nat.exists_eq_succ_of_ne_zero some
        have first : (s.next ctx.libraries.sorting set (set.chunkSize ctx)).runOn store = _ :=
          Stream.runOn_next_unsortable table rfl rfl
            (fun zero => more (Stream.remaining_of_wanted_zero positive zero)) sorts
        rw [Stream.pulls, runOn_bind_of_error first]

/-- Pulls from a stream over a table give the same in chunks of every size, a stop of the program
included.  Where the order of the plan is total on the rows that it admits, they give these rows in
that order, from the offset on and at most `limit` of them, and nothing after these. -/
theorem pulls_inChunksOf {set : EntitySet} {offered : CapabilitySet}
    (table : set.definition.backing = .table offered) (plan : QueryPlan) (offset : Nat)
    (limit : Option Nat) (count : Nat) (store : Store) (ctx : Context) (config : Config)
    (chunk chunk' : Option Nat) :
    let rows := store.rows set.definition.name.text
    let records := limited limit ((plan.arrange rows).drop offset)
    let outcome := (((set.inChunksOf chunk).pulls ctx plan offset limit count).runOn store).1
    outcome = (((set.inChunksOf chunk').pulls { ctx with config } plan offset limit count).runOn
        store).1 ∧
      (plan.Orders rows → outcome =
        (set.require .query).map fun _ => (List.range count).map fun i => records[i]?) := by
  intro rows records outcome
  have first : outcome = (set.require .query).bind fun _ =>
      pulled (plan.run ctx.libraries.sorting rows) offset limit count :=
    @runOn_pulls (set.inChunksOf chunk) _ table plan offset limit count store ctx
  have second := @runOn_pulls (set.inChunksOf chunk') _ table plan offset limit count store
    { ctx with config }
  refine ⟨first.trans second.symm, fun total => ?_⟩
  rw [first, QueryPlan.run_of_orders _ total]
  cases set.require .query <;> rfl

def parcelContext : Context :=
  { model := ⟨"Depot", none, [], [parcel], [parcels]⟩, config := Config.standard,
    document := none, libraries := .standard }

/-- The parcels after the first one, fetched one by one or all at once. -/
theorem pulls_inChunksOf_parcels :
    let plan : QueryPlan := ⟨none, weightOrder, none⟩
    let outcome : Result (List (Option Record)) :=
      .ok [some (parcelRow 2 (.decimal ⟨150, 2⟩)), some (parcelRow 3 .null), none, none]
    ((((root parcels).inChunksOf (some 1)).pulls parcelContext plan 1 (some 5) 4).runOn
        (parcelStore parcelRows)).1 = outcome ∧
      ((((root parcels).inChunksOf none).pulls parcelContext plan 1 (some 5) 4).runOn
        (parcelStore parcelRows)).1 = outcome := by
  intro plan outcome
  have table : (root parcels).definition.backing = .table .all := rfl
  obtain ⟨same, value⟩ := pulls_inChunksOf table plan 1 (some 5) 4 (parcelStore parcelRows)
    parcelContext Config.standard (some 1) none
  have accepted : QueryPlan.bindOrder parcel heaviestFirst = .ok plan.order := rfl
  have total : plan.Orders parcelRows :=
    QueryPlan.orders_of_numbers accepted keyed_parcelRows.types (by decide)
  have listed : ((root parcels).require .query).map (fun _ => (List.range 4).map fun i =>
      (limited (some 5) ((plan.arrange parcelRows).drop 1))[i]?) = outcome := by
    rfl
  have found := (value total).trans listed
  exact ⟨found, same.symm.trans found⟩

/-! Parcels with the emptiest first.  How full one of them is, is not a number, and it is equal to
all others in their order. -/

def parcelRatio : Property := ⟨⟨"ratio", Eq.refl true⟩, .double, true⟩

def measuredParcel : EntityType :=
  ⟨⟨"Parcel", Eq.refl true⟩, [parcelNumber, parcelRatio], [parcelNumber.name], []⟩

def measuredParcels : EntitySet :=
  root ⟨⟨"Parcels", Eq.refl true⟩, measuredParcel, [], .table .all, .all, none⟩

def ratioOrder : List OrderKey :=
  [⟨parcelRatio.name, .double, .ascending⟩, ⟨parcelNumber.name, .int64, .ascending⟩]

def ratios : List Double :=
  [Double.ofInt 6] ++ List.replicate 10 (Double.ofInt 5) ++ [Double.nan]
    ++ List.replicate 12 (Double.ofInt 1)

/-- As many rows as are not sorted by mere insertion. -/
def measuredRows : Table :=
  ratios.zipIdx.map fun (ratio, i) =>
    [(parcelNumber.name, .int (Int64.ofNat (i + 1))), (parcelRatio.name, .double ratio)]

/-- A sort may stop the program at these rows, and no record comes out of the stream then. -/
theorem pulls_measuredParcels :
    let plan : QueryPlan := ⟨none, ratioOrder, none⟩
    ((measuredParcels.pulls parcelContext plan 0 none 25).runOn (parcelStore measuredRows)).1 ≠
      (measuredParcels.require .query).map fun _ =>
        (List.range 25).map fun i => (plan.arrange measuredRows)[i]? := by
  intro plan
  have table : measuredParcels.definition.backing = .table .all := rfl
  have able : measuredParcels.require .query = .ok () := rfl
  have stops : plan.run parcelContext.libraries.sorting ((parcelStore measuredRows).rows
      measuredParcels.definition.name.text) = none :=
    Option.isNone_iff_eq_none.mp (by decide +kernel)
  have stopped : ((measuredParcels.pulls parcelContext plan 0 none 25).runOn
      (parcelStore measuredRows)).1 = .error QueryPlan.unsortable := by
    rw [runOn_pulls table, stops, able]
    rfl
  rw [stopped, able]
  nofun

end EntitySet

end OData
