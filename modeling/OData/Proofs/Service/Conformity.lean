import Mathlib.Data.List.Infix
import OData.Proofs.Schema.Conformity
import OData.Proofs.Service.Writes

/-!
# Stored rows that conform to their types

Bodies are checked property by property, so that updating keeps every row conforming; deleting and
unlinking do, too.  A link copies values between properties of two types, and nothing checks that
the one accepts what the other holds.  Rows stay conforming along a sequence of requests exactly if
each link assigns accepted values.
-/

set_option autoImplicit false

namespace OData

namespace Record

variable {name : Identifier} {values : List (Identifier × Value)}

/-- The values that are put into a record do not depend on it. -/
theorem value_insertAll_congr (member : name ∈ values.map Prod.fst) :
    ∀ r s : Record, (r.insertAll values).value name = (s.insertAll values).value name := by
  induction values with
  | nil => cases member
  | cons entry rest ih =>
    intro r s
    by_cases later : name ∈ rest.map Prod.fst
    · exact ih later _ _
    · have here : name = entry.1 := by
        rw [List.map_cons, List.mem_cons] at member
        exact member.resolve_right later
      have last (r : Record) : (r.insertAll (entry :: rest)).value name = entry.2 := by
        have kept : (r.insertAll (entry :: rest)).value name =
            (r.insert entry.1 entry.2).value name := value_insertAll_of_not_mem later
        rw [kept, here, value, get?_insert_self]
        rfl
      rw [last r, last s]

end Record

open OData.Action

namespace EntityType

variable {ty : EntityType}

/-! ## Bodies -/

theorem mem_insert {name : Identifier} {v : Value} {entry : Identifier × Value} :
    ∀ {record : Record}, entry ∈ record.insert name v → entry = (name, v) ∨ entry ∈ record := by
  intro record
  induction record with
  | nil => exact fun member => .inl (List.mem_singleton.mp member)
  | cons first rest ih =>
    intro member
    rw [Record.insert] at member
    split at member
    next same =>
      rcases List.mem_cons.mp member with rfl | later
      · exact .inl (Prod.ext same rfl)
      · exact .inr (List.mem_cons_of_mem _ later)
    next =>
      rcases List.mem_cons.mp member with rfl | later
      · exact .inr List.mem_cons_self
      · exact (ih later).imp_right (List.mem_cons_of_mem _)

/-- A member of a body is read as a value that its property accepts. -/
theorem accepts_of_bodyValue {property : Property} {json : Json} {v : Value}
    (read : EntitySet.bodyValue property json = .ok v) : property.accepts v = true := by
  obtain ⟨given, typed, checked⟩ := Result.bind_eq_ok.mp read
  split at checked
  next => cases checked
  next required =>
    cases checked
    rw [Property.accepts]
    split
    next null => simpa [null] using required
    next nonnull =>
      rw [Value.ofJson] at typed
      split at typed
      next =>
        cases typed
        exact absurd rfl nonnull
      next =>
        split at typed
        next found =>
          cases typed
          exact PrimitiveType.holds_of_ofJson? found
        next => cases typed

theorem admits_readBodyMembers (declared : ty.Declared) {members : Json.Members} :
    ∀ {given record : Record}, ty.Admits given →
      EntitySet.readBodyMembers ty given members = .ok record → ty.Admits record := by
  induction members with
  | nil =>
    intro given record admits read
    cases read
    exact admits
  | cons member rest ih =>
    obtain ⟨name, json⟩ := member
    intro given record admits read
    rw [EntitySet.readBodyMembers] at read
    split at read
    next => exact ih admits read
    next =>
      obtain ⟨property, named, read⟩ := Result.bind_eq_ok.mp read
      obtain ⟨v, valued, read⟩ := Result.bind_eq_ok.mp read
      refine ih (fun other among w entry => ?_) read
      rcases mem_insert entry with same | before
      · have listed : property ∈ ty.properties := by
          rw [EntitySet.bodyProperty] at named
          split at named
          next => cases named
          next =>
            split at named
            next found =>
              cases named
              exact List.mem_of_find?_eq_some found
            next => cases named
        obtain ⟨names, rfl⟩ := Prod.mk.inj same
        rw [declared.eq_of_name among listed names]
        exact accepts_of_bodyValue valued
      · exact admits other among w before

theorem admits_readBody (declared : ty.Declared) {body : Option Json} {record : Record}
    (read : EntitySet.readBody ty body = .ok record) : ty.Admits record := by
  rw [EntitySet.readBody] at read
  split at read
  next => exact admits_readBodyMembers declared (fun _ _ _ member => by cases member) read
  next => cases read

/-- The changes that are left without those of the key were among them. -/
theorem mem_of_withoutKey {values : List (Identifier × Value)} :
    ∀ {given changes : Record}, EntitySet.withoutKey values given = .ok changes →
      ∀ entry ∈ changes, entry ∈ given := by
  induction values with
  | nil =>
    intro given changes checked
    cases checked
    exact fun entry member => member
  | cons key rest ih =>
    intro given changes checked entry member
    rw [EntitySet.withoutKey] at checked
    split at checked
    next => exact ih checked entry member
    next =>
      split at checked
      · exact (List.mem_filter.mp (ih checked entry member)).1
      · cases checked

end EntityType

/-! ## Stores -/

namespace Model

/-- Whether all rows of all sets conform to the types of the sets. -/
def Conforms (model : Model) (store : Store) : Prop :=
  ∀ set ∈ model.sets, ∀ row ∈ store.rows set.name.text, set.entityType.Conforms row

variable {model : Model} {store after : Store} {set : EntitySetDef}

theorem Conforms.of_tables_eq (conforms : model.Conforms store)
    (same : after.tables = store.tables) : model.Conforms after := by
  intro set member row among
  rw [Store.rows_congr same] at among
  exact conforms set member row among

/-- A table in place of another one conforms if its rows do. -/
theorem Conforms.put {table : Table} (conforms : model.Conforms store) (intact : model.Intact)
    (member : set ∈ model.sets) (rows : ∀ row ∈ table, set.entityType.Conforms row) :
    model.Conforms (store.put set.name.text table) :=
  intact.forall_put (Q := fun other rows => ∀ row ∈ rows, other.entityType.Conforms row) member
    conforms rows

/-- Rows with another one in place of one of them conform if it does. -/
theorem Conforms.replace {before rest : Table} {row changed : Record}
    (conforms : model.Conforms store) (intact : model.Intact) (member : set ∈ model.sets)
    (split : store.rows set.name.text = before ++ row :: rest)
    (changes : set.entityType.Conforms row → set.entityType.Conforms changed) :
    model.Conforms (store.put set.name.text (before ++ changed :: rest)) := by
  have rows := conforms set member
  rw [split, List.forall_mem_append, List.forall_mem_cons] at rows
  obtain ⟨first, own, last⟩ := rows
  refine conforms.put intact member ?_
  rw [List.forall_mem_append, List.forall_mem_cons]
  exact ⟨first, changes own, last⟩

theorem Conforms.update {key : Key} {name : String} {values : List (Identifier × Value)}
    {table : Table} {stored : Record} (conforms : model.Conforms store) (intact : model.Intact)
    (member : set ∈ model.sets) (admits : set.entityType.Admits values)
    (updated : Table.update name key values (store.rows set.name.text) = .ok (stored, table)) :
    model.Conforms (store.put set.name.text table) := by
  obtain ⟨before, row, rest, split, -, -, -, -, rfl⟩ := Table.update_eq_ok updated
  exact conforms.replace intact member split fun own => EntityType.conforms_insertAll own admits

theorem Conforms.delete {key : Key} {name : String} {table : Table} {removed : Record}
    (conforms : model.Conforms store) (intact : model.Intact) (member : set ∈ model.sets)
    (deleted : Table.delete name key (store.rows set.name.text) = .ok (removed, table)) :
    model.Conforms (store.put set.name.text table) := by
  obtain ⟨before, rest, split, -, -, rfl⟩ := Table.delete_eq_ok deleted
  have rows := conforms set member
  rw [split, List.forall_mem_append, List.forall_mem_cons] at rows
  exact conforms.put intact member (List.forall_mem_append.mpr ⟨rows.1, rows.2.2⟩)

end Model

/-! ## Links -/

/-- Whether a property accepts all that another one does. -/
def Property.Covers (kept given : Property) : Prop :=
  (given.nullable = true → kept.nullable = true) ∧ (kept.type = .int32 → given.type = .int32)

theorem Property.accepts_of_covers {kept given : Property} {v : Value} (covers : kept.Covers given)
    (joined : kept.type = given.type ∨ kept.type.isIntegral = true ∧ given.type.isIntegral = true)
    (accepted : given.accepts v = true) : kept.accepts v = true := by
  rw [accepts] at accepted ⊢
  split
  next null =>
    rw [if_pos null] at accepted
    exact covers.1 accepted
  next nonnull =>
    rw [if_neg nonnull] at accepted
    rcases joined with same | ⟨left, right⟩
    · rwa [same]
    · by_cases small : kept.type = .int32
      · rwa [small, ← covers.2 small]
      · have large : kept.type = .int64 := by
          rw [PrimitiveType.isIntegral, Bool.or_eq_true, beq_iff_eq, beq_iff_eq] at left
          exact left.resolve_left small
        rw [PrimitiveType.isIntegral, Bool.or_eq_true, beq_iff_eq, beq_iff_eq] at right
        rcases right with narrow | wide
        · rw [narrow] at accepted
          rw [large]
          cases v with
          | int n => rfl
          | _ => cases accepted
        · rwa [large, ← wide]

/-- A property that covers another one accepts its value in a conforming row. -/
theorem Property.accepts_value {ty : EntityType} {row : Record} {name : Identifier}
    {kept given : Property} (covers : kept.Covers given)
    (joined : kept.type = given.type ∨ kept.type.isIntegral = true ∧ given.type.isIntegral = true)
    (conforms : ty.Conforms row) (found : ty.property? name.text = some given) :
    kept.accepts (row.value name) = true := by
  rw [← EntityType.name_of_property? found]
  exact accepts_of_covers covers joined
    (EntityType.accepts_of_conforms conforms (List.mem_of_find?_eq_some found))

/-- Whether the properties that keep foreign keys accept the values that they refer to. -/
def Model.Covered (model : Model) : Prop :=
  ∀ set ∈ model.sets, ∀ navigation target,
    set.entityType.navigation? navigation.name.text = some navigation →
    model.bindingTarget set navigation = .ok target →
    ∀ c ∈ navigation.constraints, ∀ p q,
      set.entityType.property? c.property.text = some p →
      target.entityType.property? c.referenced.text = some q →
      if navigation.keyOnSource target.entityType then p.Covers q else q.Covers p

namespace Relationship

variable {r : Relationship} {record : Record} {store after : Store} {model : Model}

/-- Whether the properties of the foreign key accept the values that a link assigns to them. -/
def Accepted (r : Relationship) (record : Record) : Prop :=
  ∀ property ∈ r.keeperSet.entityType.properties, property.name ∈ r.foreignNames →
    property.accepts ((r.linkedRow record).value property.name) = true

/-- A foreign key that may be cleared takes nulls. -/
theorem admits_cleared (declared : r.keeperSet.entityType.Declared)
    (optional : r.isOptional = true) :
    r.keeperSet.entityType.Admits (r.foreignKey record true) := by
  have nulls : ∀ entry ∈ r.foreignKey record true, entry.1 ∈ r.foreignNames ∧ entry.2 = .null := by
    intro entry member
    rw [foreignKey] at member
    rw [foreignNames]
    split at member
    next side =>
      obtain ⟨c, among, rfl⟩ := List.mem_map.mp member
      rw [if_pos side]
      exact ⟨List.mem_map_of_mem among, rfl⟩
    next side =>
      obtain ⟨c, among, rfl⟩ := List.mem_map.mp member
      rw [if_neg side]
      exact ⟨List.mem_map_of_mem among, rfl⟩
  intro property listed v assigned
  obtain ⟨named, null⟩ := nulls _ assigned
  have may := isNullable_of_isOptional optional _ named
  rw [isNullable, declared.property?_name listed] at may
  cases null
  exact may

/-- A link leaves the rows conforming exactly if the assigned values are accepted. -/
theorem conforms_assign_iff (intact : model.Intact) (member : r.keeperSet ∈ model.sets)
    (conforms : model.Conforms store)
    (run : (r.assign record false).runOn store = (.ok (), after)) :
    model.Conforms after ↔ r.Accepted record := by
  obtain ⟨⟨keeper, key⟩, kept, run⟩ := runOn_lift_bind_ok_iff.mp run
  cases keeper_eq_ok kept
  obtain ⟨⟨⟩, _, run⟩ := runOn_lift_bind_ok_iff.mp run
  obtain ⟨stored, last, written, run⟩ := runOn_bind_ok_iff.mp run
  cases run
  obtain ⟨table, updated, rfl⟩ := EntitySetDef.runOn_write_ok _ written
  obtain ⟨before, row, rest, split, -, -, -, -, rfl⟩ := Table.update_eq_ok updated
  have own : r.keeperSet.entityType.Conforms row := by
    refine conforms r.keeperSet member row ?_
    rw [split]
    exact List.mem_append_right _ List.mem_cons_self
  have accepted : r.keeperSet.entityType.Conforms (row.insertAll (r.foreignKey record false)) ↔
      r.Accepted record := by
    rw [EntityType.conforms_insertAll_iff own, Accepted, map_fst_foreignKey]
    refine forall₂_congr fun property _ => forall_congr' fun named => ?_
    rw [← map_fst_foreignKey r record false] at named
    rw [linkedRow, Record.value_insertAll_congr named row (r.keeperRow record)]
  rw [← accepted]
  constructor
  · intro changed
    refine changed r.keeperSet member _ ?_
    rw [Store.rows_put_self]
    exact List.mem_append_right _ List.mem_cons_self
  · exact fun changed => conforms.replace intact member split fun _ => changed

end Relationship

end OData
