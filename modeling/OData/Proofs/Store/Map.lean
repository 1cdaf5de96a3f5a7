import Mathlib.Data.List.AList
import OData.Proofs.Action
import OData.Proofs.Schema.Conformity
import OData.Proofs.Store.Rows
import OData.Proofs.Value.Order

/-!
# Tables as finite maps

A table without floating-point keys holds a finite map from keys to rows, where a key is the list
of the points of its values.  Reading, creating, updating and deleting rows do to the table what
lookup, insertion, replacement and erasure do to the map, whatever the order of the calls.
-/

set_option autoImplicit false

namespace OData

/-- What the values of a key stand for. -/
abbrev KeyPoint := List (ℚ ⊕ Value)

/-- Rows by their keys, the last one added first. -/
abbrev RowMap := AList fun _ : KeyPoint => Record

def Key.point (key : Key) : KeyPoint := key.values.map fun entry => entry.2.point

theorem Value.not_double_of_coerceTo {type : PrimitiveType} {v typed : Value}
    (coerced : v.coerceTo type = .ok typed) (other : type ≠ .double) :
    typed.type? ≠ some .double := by
  cases v with
  | double x =>
    simp only [coerceTo] at coerced
    split at coerced
    next same => exact absurd (Option.some.inj same).symm other
    next => cases coerced
  | int n =>
    cases type with
    | double => exact absurd rfl other
    | int32 => cases coerced; nofun
    | int64 => cases coerced; nofun
    | decimal => cases coerced; nofun
    | _ => cases coerced
  | decimal d =>
    cases type with
    | double => exact absurd rfl other
    | decimal => cases coerced; nofun
    | _ => cases coerced
  | null => cases coerced; nofun
  | _ =>
    simp only [coerceTo] at coerced
    split at coerced
    next => cases coerced; nofun
    next => cases coerced

theorem Key.not_double_of_typedValues {texts : List (String × Value)} {properties : List Property}
    (exact : ∀ property ∈ properties, property.type ≠ .double) :
    ∀ {values : List (Identifier × Value)}, typedValues texts properties = .ok values →
      ∀ entry ∈ values, entry.2.type? ≠ some .double := by
  induction properties with
  | nil =>
    intro values made entry member
    cases made
    cases member
  | cons property rest ih =>
    intro values made entry member
    obtain ⟨v, typed, made⟩ := Result.bind_eq_ok.mp made
    obtain ⟨others, found, result⟩ := Result.bind_eq_ok.mp made
    cases result
    rcases List.mem_cons.mp member with rfl | later
    · rw [typedValue] at typed
      split at typed
      next => cases typed
      next =>
        split at typed
        next coerced =>
          cases typed
          exact Value.not_double_of_coerceTo coerced (exact property List.mem_cons_self)
        next => cases typed
    · exact ih (fun other among => exact other (List.mem_cons_of_mem _ among)) found entry later

namespace EntityType

def keyPoint (ty : EntityType) (row : Record) : KeyPoint :=
  ty.key.map fun name => (row.value name).point

/-- Whether a key names the key properties and has no floating-point numbers. -/
def Addresses (ty : EntityType) (key : Key) : Prop :=
  key.names = ty.key ∧ ∀ entry ∈ key.values, entry.2.type? ≠ some .double

/-- Whether a row has a key, and one without floating-point numbers. -/
def Keyed (ty : EntityType) (row : Record) : Prop :=
  ∀ name ∈ ty.key, (row.value name).isExact = true

variable {ty : EntityType} {key : Key} {row other : Record}

/-- A record with values of their types and a complete key has no floating-point numbers in its key
if no key property is such a number. -/
theorem keyed_of_has (declared : ty.Declared)
    (exact : ∀ property ∈ ty.keyProperties, property.type ≠ .double)
    (complete : ∀ name ∈ ty.key, row.has name = true)
    (typed : ∀ property ∈ ty.properties, row.has property.name = true →
      property.type.holds (row.value property.name) = true) : ty.Keyed row := by
  intro name member
  obtain ⟨property, among, listed, rfl, -⟩ := declared.exists_key_property member
  have has := complete _ member
  have other := PrimitiveType.not_double_of_holds (typed property listed has) (exact property among)
  rw [Record.has] at has
  exact Value.isExact_of_type? (by simpa using has) other

theorem has_of_conforms (declared : ty.Declared) (conforms : ty.Conforms row) :
    ∀ name ∈ ty.key, row.has name = true := by
  intro name member
  obtain ⟨property, -, listed, rfl, required⟩ := declared.exists_key_property member
  have accepted := accepts_of_conforms conforms listed
  rw [Property.accepts, required] at accepted
  rw [Record.has, Bool.not_eq_true']
  split at accepted
  next => cases accepted
  next nonnull => exact Bool.eq_false_iff.mpr nonnull

theorem keyed_of_conforms (declared : ty.Declared)
    (exact : ∀ property ∈ ty.keyProperties, property.type ≠ .double)
    (conforms : ty.Conforms row) : ty.Keyed row := by
  refine keyed_of_has declared exact (has_of_conforms declared conforms) ?_
  intro property member has
  have accepted := accepts_of_conforms conforms member
  rw [Record.has, Bool.not_eq_true'] at has
  rwa [Property.accepts, has] at accepted

/-- A key that is read from a path addresses the rows of its type. -/
theorem addresses_of_parse {text : String} (declared : ty.Declared)
    (exact : ∀ property ∈ ty.keyProperties, property.type ≠ .double)
    (read : Key.parse ty text = .ok key) : ty.Addresses key := by
  refine ⟨(Key.names_parse read).trans (map_name_keyProperties declared.key_subset), ?_⟩
  obtain ⟨predicate, -, read⟩ := Result.bind_eq_ok.mp read
  obtain ⟨texts, -, read⟩ := Result.bind_eq_ok.mp read
  split at read
  · obtain ⟨values, typed, result⟩ := Result.bind_eq_ok.mp read
    cases result
    exact Key.not_double_of_typedValues exact typed
  · cases read

theorem keyed_congr (same : ∀ name ∈ ty.key, other.value name = row.value name)
    (keyed : ty.Keyed row) : ty.Keyed other := by
  intro name member
  rw [same name member]
  exact keyed name member

theorem keyPoint_congr (same : ∀ name ∈ ty.key, other.value name = row.value name) :
    ty.keyPoint other = ty.keyPoint row :=
  List.map_congr_left fun name member => congrArg Value.point (same name member)

/-- A key identifies the rows with its point. -/
theorem identifies_iff_point (addresses : ty.Addresses key) (keyed : ty.Keyed row) :
    key.identifies row = true ↔ ty.keyPoint row = key.point := by
  rw [Key.identifies_iff, keyPoint, Key.point, ← addresses.1, Key.names, List.map_map,
    List.map_inj_left]
  apply forall₂_congr
  intro entry member
  have name : entry.1 ∈ ty.key := addresses.1 ▸ List.mem_map_of_mem member
  exact Value.compare_eq_iff (keyed entry.1 name) (addresses.2 entry member)

theorem sameKey_iff_point (left : ty.Keyed row) (right : ty.Keyed other) :
    Table.SameKey ty row other ↔ ty.keyPoint row = ty.keyPoint other := by
  rw [Table.SameKey, keyPoint, keyPoint, List.map_inj_left]
  apply forall₂_congr
  intro name member
  exact Value.compare_eq_iff (left name member) (Value.not_double_of_isExact (right name member))

/-- The key of a row. -/
def keyOf (ty : EntityType) (row : Record) : Key := ⟨ty.key.map fun name => (name, row.value name)⟩

theorem keyOf_of_ofRecord (made : Key.ofRecord ty row = .ok key) : key = ty.keyOf row :=
  congrArg Key.mk (Key.values_ofRecord made)

theorem point_keyOf (ty : EntityType) (row : Record) : (ty.keyOf row).point = ty.keyPoint row := by
  rw [Key.point, keyOf, List.map_map]
  rfl

theorem addresses_keyOf (keyed : ty.Keyed row) : ty.Addresses (ty.keyOf row) := by
  constructor
  · rw [Key.names, keyOf, List.map_map]
    exact List.map_id _
  · intro entry member
    obtain ⟨name, among, rfl⟩ := List.mem_map.mp member
    exact Value.not_double_of_isExact (keyed name among)

end EntityType

namespace Table

def entry (ty : EntityType) (row : Record) : Sigma fun _ : KeyPoint => Record :=
  ⟨ty.keyPoint row, row⟩

/-- A table holds a map if its rows are those of the map, the last one added last. -/
structure Holds (ty : EntityType) (table : Table) (map : RowMap) : Prop where
  entries : map.entries = (table.map (entry ty)).reverse
  keyed : ∀ row ∈ table, ty.Keyed row

variable {ty : EntityType} {key : Key} {row changed : Record} {table before rest : Table}
  {map : RowMap}

/-- The keys of the rows are distinct if and only if there is a map of them. -/
theorem exists_holds_iff (keyed : ∀ row ∈ table, ty.Keyed row) :
    (∃ map, Holds ty table map) ↔ HasDistinctKeys ty table := by
  have nodup : (table.map (entry ty)).reverse.NodupKeys ↔ HasDistinctKeys ty table := by
    rw [List.perm_nodupKeys (List.reverse_perm _), List.nodupKeys_iff_pairwise, List.pairwise_map,
      HasDistinctKeys, List.Pairwise.iff_of_mem]
    intro a b left right
    exact not_congr (EntityType.sameKey_iff_point (keyed a left) (keyed b right)).symm
  rw [← nodup]
  constructor
  · rintro ⟨map, entries, -⟩
    rw [← entries]
    exact map.nodupKeys
  · exact fun distinct => ⟨⟨_, distinct⟩, rfl, keyed⟩

namespace Holds

theorem keys_eq (holds : Holds ty table map) : map.keys = (table.map ty.keyPoint).reverse := by
  rw [AList.keys, holds.entries, List.keys, List.map_reverse, List.map_map]
  rfl

/-- The rows stand in the map in the order of the table. -/
theorem entries_split (holds : Holds ty (before ++ row :: rest) map) :
    map.entries = (rest.map (entry ty)).reverse ++
      ⟨ty.keyPoint row, row⟩ :: (before.map (entry ty)).reverse := by
  rw [holds.entries, List.map_append, List.map_cons, List.reverse_append, List.reverse_cons,
    List.append_assoc]
  rfl

theorem not_mem_later (holds : Holds ty (before ++ row :: rest) map) :
    ty.keyPoint row ∉ (rest.map (entry ty)).reverse.keys := by
  have distinct := map.nodupKeys
  rw [holds.entries_split, List.nodupKeys_middle, List.nodupKeys_cons, List.keys_append] at distinct
  exact fun member => distinct.1 (List.mem_append_left _ member)

/-- Lookup finds the row that is read. -/
theorem lookup_eq (holds : Holds ty table map) (addresses : ty.Addresses key) :
    map.lookup key.point = table.read key := by
  cases found : table.read key with
  | none =>
    rw [AList.lookup_eq_none, AList.mem_keys, holds.keys_eq, List.mem_reverse, List.mem_map]
    rintro ⟨row, member, same⟩
    have identified := (EntityType.identifies_iff_point addresses (holds.keyed row member)).mpr same
    exact List.find?_eq_none.mp found row member identified
  | some row =>
    have member : row ∈ table := List.mem_of_find?_eq_some found
    have same := (EntityType.identifies_iff_point addresses (holds.keyed row member)).mp
      (List.find?_some found)
    rw [← Option.mem_def, AList.mem_lookup_iff, holds.entries, List.mem_reverse, List.mem_map]
    exact ⟨row, member, by rw [entry, same]⟩

theorem any_identifies_iff (holds : Holds ty table map) (addresses : ty.Addresses key) :
    table.any key.identifies = true ↔ key.point ∈ map := by
  rw [← AList.lookup_isSome, holds.lookup_eq addresses, read, List.find?_isSome, List.any_eq_true]

/-- A new row at the end is inserted into the map. -/
theorem append (holds : Holds ty table map) (keyed : ty.Keyed row)
    (fresh : ty.keyPoint row ∉ map) :
    Holds ty (table ++ [row]) (map.insert (ty.keyPoint row) row) := by
  constructor
  · rw [AList.entries_insert_of_notMem fresh, holds.entries, List.map_append, List.reverse_append]
    rfl
  · intro other member
    rcases List.mem_append.mp member with among | new
    · exact holds.keyed other among
    · rw [List.mem_singleton.mp new]
      exact keyed

theorem kreplace_middle {point : KeyPoint} (a b : Record)
    (first last : List (Sigma fun _ : KeyPoint => Record)) (apart : point ∉ first.keys) :
    List.kreplace point b (first ++ ⟨point, a⟩ :: last) = first ++ ⟨point, b⟩ :: last := by
  induction first with
  | nil => simp [List.kreplace]
  | cons head tail ih =>
    rw [List.keys_cons, List.mem_cons, not_or] at apart
    have later := ih apart.2
    rw [List.kreplace] at later ⊢
    rw [List.cons_append, List.lookmap_cons_none, later, List.cons_append]
    exact dif_neg apart.1

/-- A row that keeps its key is replaced in the map. -/
theorem replace (holds : Holds ty (before ++ row :: rest) map)
    (same : ∀ name ∈ ty.key, changed.value name = row.value name) :
    Holds ty (before ++ changed :: rest) (map.replace (ty.keyPoint row) changed) := by
  constructor
  · have replaced : (map.replace (ty.keyPoint row) changed).entries =
        List.kreplace (ty.keyPoint row) changed map.entries := rfl
    rw [replaced, holds.entries_split, kreplace_middle _ _ _ _ holds.not_mem_later,
      List.map_append, List.map_cons, List.reverse_append, List.reverse_cons, List.append_assoc,
      entry, EntityType.keyPoint_congr same]
    rfl
  · intro other member
    have kept := holds.keyed row (List.mem_append_right _ List.mem_cons_self)
    rcases List.mem_append.mp member with among | here
    · exact holds.keyed other (List.mem_append_left _ among)
    · rcases List.mem_cons.mp here with rfl | later
      · exact EntityType.keyed_congr same kept
      · exact holds.keyed other (List.mem_append_right _ (List.mem_cons_of_mem _ later))

/-- A row that is removed is erased from the map. -/
theorem erase (holds : Holds ty (before ++ row :: rest) map) :
    Holds ty (before ++ rest) (map.erase (ty.keyPoint row)) := by
  constructor
  · have erased : (map.erase (ty.keyPoint row)).entries =
        List.kerase (ty.keyPoint row) map.entries := rfl
    have first : List.kerase (ty.keyPoint row) (⟨ty.keyPoint row, row⟩ ::
        (before.map (entry ty)).reverse) = (before.map (entry ty)).reverse :=
      List.kerase_cons_eq rfl
    rw [erased, holds.entries_split, List.kerase_append_right holds.not_mem_later, first,
      List.map_append, List.reverse_append]
  · intro other member
    refine holds.keyed other ?_
    rcases List.mem_append.mp member with among | later
    · exact List.mem_append_left _ among
    · exact List.mem_append_right _ (List.mem_cons_of_mem _ later)

end Holds

end Table

end OData
