import OData.Proofs.Key
import OData.Value.Json

/-!
# Records that conform to their type

A property accepts the values of its type, and null if it is nullable.  A record conforms to an
entity type if it has an accepted value for each property.  It still does when accepted values are
put into it, and what is read for a property is of its type.
-/

set_option autoImplicit false

namespace OData

namespace PrimitiveType

/-- Whether a value is one of a type; integers of 32 bits are those in their range. -/
def holds : PrimitiveType → Value → Bool
  | int32, .int n => decide (-2 ^ 31 ≤ n.toInt) && decide (n.toInt < 2 ^ 31)
  | ty, v => v.type? == some ty

theorem type?_eq_of_holds {ty : PrimitiveType} {v : Value} (typed : ty.holds v = true)
    (other : ∀ n, v ≠ .int n) : v.type? = some ty := by
  cases v with
  | int n => exact absurd rfl (other n)
  | _ => cases ty <;> exact beq_iff_eq.mp typed

theorem not_double_of_holds {ty : PrimitiveType} {v : Value} (typed : ty.holds v = true)
    (other : ty ≠ .double) : v.type? ≠ some .double := by
  cases v with
  | double x =>
    cases ty with
    | double => exact absurd rfl other
    | _ => cases typed
  | _ => nofun

/-- What is read for a type is one of it. -/
theorem holds_of_ofJson? {ty : PrimitiveType} {json : Json} {v : Value}
    (read : Value.ofJson? ty json = some v) : ty.holds v = true := by
  cases ty with
  | int32 =>
    obtain ⟨n, -, checked⟩ := Option.bind_eq_some_iff.mp read
    split at checked
    next range =>
      cases checked
      exact Bool.and_eq_true_iff.mpr ⟨decide_eq_true range.1, decide_eq_true range.2⟩
    next => cases checked
  | guid =>
    obtain ⟨text, -, rest⟩ := Option.bind_eq_some_iff.mp read
    obtain ⟨g, -, result⟩ := Option.bind_eq_some_iff.mp rest
    cases result
    rfl
  | date =>
    obtain ⟨text, -, rest⟩ := Option.bind_eq_some_iff.mp read
    obtain ⟨d, -, result⟩ := Option.bind_eq_some_iff.mp rest
    cases result
    rfl
  | dateTimeOffset =>
    obtain ⟨text, -, rest⟩ := Option.bind_eq_some_iff.mp read
    obtain ⟨i, -, result⟩ := Option.bind_eq_some_iff.mp rest
    cases result
    rfl
  | timeOfDay =>
    obtain ⟨text, -, rest⟩ := Option.bind_eq_some_iff.mp read
    obtain ⟨t, -, result⟩ := Option.bind_eq_some_iff.mp rest
    cases result
    rfl
  | binary =>
    obtain ⟨text, -, rest⟩ := Option.bind_eq_some_iff.mp read
    obtain ⟨bytes, -, result⟩ := Option.bind_eq_some_iff.mp rest
    cases result
    rfl
  | _ =>
    obtain ⟨content, -, result⟩ := Option.map_eq_some_iff.mp read
    cases result
    rfl

end PrimitiveType

/-- Whether a value may stand in a property. -/
def Property.accepts (property : Property) (v : Value) : Bool :=
  if v.isNull then property.nullable else property.type.holds v

namespace EntityType

/-- Whether a record has an accepted value for each property. -/
def Conforms (ty : EntityType) (row : Record) : Prop :=
  ∀ property ∈ ty.properties, ∃ v, row.get? property.name = some v ∧ property.accepts v = true

/-- Whether the values for properties are accepted by them. -/
def Admits (ty : EntityType) (values : List (Identifier × Value)) : Prop :=
  ∀ property ∈ ty.properties, ∀ v, (property.name, v) ∈ values → property.accepts v = true

variable {ty : EntityType} {row : Record} {values : List (Identifier × Value)}

theorem accepts_of_conforms {property : Property} (conforms : ty.Conforms row)
    (member : property ∈ ty.properties) : property.accepts (row.value property.name) = true := by
  obtain ⟨v, found, accepted⟩ := conforms property member
  rw [Record.value, found]
  exact accepted

/-- A conforming record with new values conforms if and only if the new values are accepted. -/
theorem conforms_insertAll_iff (conforms : ty.Conforms row) :
    ty.Conforms (row.insertAll values) ↔ ∀ property ∈ ty.properties,
      property.name ∈ values.map Prod.fst →
        property.accepts ((row.insertAll values).value property.name) = true := by
  constructor
  · exact fun changed property member _ => accepts_of_conforms changed member
  · intro accepted property member
    obtain ⟨v, found, before⟩ := conforms property member
    have present : ((row.insertAll values).get? property.name).isSome :=
      Record.isSome_get?_insertAll (Option.isSome_of_eq_some found)
    refine ⟨_, Record.get?_of_isSome present, ?_⟩
    by_cases named : property.name ∈ values.map Prod.fst
    · exact accepted property member named
    · rw [Record.value_insertAll_of_not_mem named]
      exact accepts_of_conforms conforms member

theorem conforms_insertAll (conforms : ty.Conforms row) (admitted : ty.Admits values) :
    ty.Conforms (row.insertAll values) := by
  refine (conforms_insertAll_iff conforms).mpr fun property member named => ?_
  obtain ⟨v, among, value⟩ := Record.exists_value_insertAll (r := row) named
  rw [value]
  exact admitted property member v among

/-! ## Names of properties -/

/-- A property of a declared type is found by its name. -/
theorem Declared.property?_name {property : Property} (declared : ty.Declared)
    (member : property ∈ ty.properties) : ty.property? property.name.text = some property :=
  find?_name declared.nodup_names member

theorem Declared.eq_of_name {p q : Property} (declared : ty.Declared) (left : p ∈ ty.properties)
    (right : q ∈ ty.properties) (same : p.name = q.name) : p = q := by
  have found := declared.property?_name left
  rw [same, declared.property?_name right] at found
  exact (Option.some.inj found).symm

theorem Declared.nodup_navigationNames (declared : ty.Declared) :
    (ty.navigationProperties.map NavigationProperty.name).Nodup := by
  induction declared with
  | empty name => exact List.nodup_nil
  | property _ added ih =>
    obtain ⟨_, rfl⟩ := addProperty_eq_ok added
    exact ih
  | @navigation before after navigation _ added ih =>
    obtain ⟨undeclared, rfl⟩ := addNavigation_eq_ok added
    obtain ⟨-, others⟩ := requireUndeclared_eq_ok undeclared
    rw [List.map_append, List.nodup_append_comm]
    refine List.nodup_cons.mpr ⟨fun member => ?_, ih⟩
    obtain ⟨other, among, same⟩ := List.mem_map.mp member
    exact others other among same
  | key chosen _ ih =>
    rw [navigationProperties_markKey]
    exact ih

/-- A navigation property of a declared type is found by its name. -/
theorem Declared.navigation?_name {navigation : NavigationProperty} (declared : ty.Declared)
    (member : navigation ∈ ty.navigationProperties) :
    ty.navigation? navigation.name.text = some navigation :=
  find?_name declared.nodup_navigationNames member

/-- In a declared type no navigation property has the name of a property. -/
theorem Declared.navigation?_eq_none (declared : ty.Declared) :
    ∀ name ∈ ty.names, ty.navigation? name.text = none := by
  -- Each of the two was declared while the name of the other was taken.
  have apart : ∀ name ∈ ty.names, ∀ navigation ∈ ty.navigationProperties,
      navigation.name ≠ name := by
    induction declared with
    | empty name => simp [names, EntityType.empty]
    | @property before after property _ added ih =>
      obtain ⟨undeclared, rfl⟩ := addProperty_eq_ok added
      intro name member
      rw [names, List.map_append] at member
      rcases List.mem_append.mp member with old | new
      · exact ih name old
      · cases List.mem_singleton.mp new
        exact (requireUndeclared_eq_ok undeclared).2
    | @navigation before after navigation _ added ih =>
      obtain ⟨undeclared, rfl⟩ := addNavigation_eq_ok added
      intro name member other among
      rcases List.mem_append.mp among with old | new
      · exact ih name member other old
      · cases List.mem_singleton.mp new
        rintro rfl
        exact (requireUndeclared_eq_ok undeclared).1 member
    | key chosen _ ih =>
      rw [(markKey_spec _ chosen).1, navigationProperties_markKey]
      exact ih
  intro name member
  rw [navigation?, List.find?_eq_none]
  intro navigation among same
  exact apart name member navigation among (Identifier.eq_of_text (beq_iff_eq.mp same))

/-- The properties of the key of a declared type are among its properties, and required. -/
theorem Declared.exists_key_property {name : Identifier} (declared : ty.Declared)
    (member : name ∈ ty.key) :
    ∃ property ∈ ty.keyProperties, property ∈ ty.properties ∧ property.name = name ∧
      property.nullable = false := by
  obtain ⟨property, found⟩ := Option.isSome_iff_exists.mp
    (isSome_property?_iff.mpr (declared.key_subset name member))
  refine ⟨property, List.mem_filterMap.mpr ⟨name, member, found⟩,
    List.mem_of_find?_eq_some found, name_of_property? found, ?_⟩
  exact Bool.eq_false_iff.mpr fun nullable =>
    declared.not_nullable_of_key name member ⟨property, found, nullable⟩

end EntityType

end OData
