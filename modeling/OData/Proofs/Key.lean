import OData.Proofs.Result
import OData.Proofs.Schema.EntityType
import OData.Proofs.Value.Order
import OData.Record
import OData.Store.Table

/-!
# Records and their keys

Values that are put into a record replace those of the same names; of several for one name the last
one stays.  A key names the key properties of its type.  A record has a key if it has values for all
of them; one that is identified by a key has.  Records whose key properties compare alike have the
same keys.
-/

set_option autoImplicit false

namespace OData

/-! ## Values put into records -/

namespace Record

variable {name : Identifier} {values : List (Identifier × Value)} {r s : Record}

theorem has_congr (same : r.get? name = s.get? name) : r.has name = s.has name := by
  rw [has, has, value, value, same]

theorem value_insert_of_ne {other : Identifier} {v : Value} (apart : other ≠ name) :
    (r.insert name v).value other = r.value other := by
  rw [value, value, get?_insert_of_ne r v apart]

theorem get?_insertAll_of_not_mem (values : List (Identifier × Value)) :
    ∀ r : Record, name ∉ values.map Prod.fst → (r.insertAll values).get? name = r.get? name := by
  induction values with
  | nil => exact fun r _ => rfl
  | cons entry rest ih =>
    intro r outside
    rw [List.map_cons, List.mem_cons, not_or] at outside
    exact (ih (r.insert entry.1 entry.2) outside.2).trans (get?_insert_of_ne r _ outside.1)

theorem value_insertAll_of_not_mem (outside : name ∉ values.map Prod.fst) :
    (r.insertAll values).value name = r.value name := by
  rw [value, value, get?_insertAll_of_not_mem values r outside]

/-- Of the values that are put in place of one name the last one stays. -/
theorem exists_value_insertAll {values : List (Identifier × Value)} :
    ∀ {r : Record}, name ∈ values.map Prod.fst →
      ∃ v, (name, v) ∈ values ∧ (r.insertAll values).value name = v := by
  induction values with
  | nil => exact fun member => absurd member (by simp)
  | cons entry rest ih =>
    intro r member
    by_cases later : name ∈ rest.map Prod.fst
    · obtain ⟨v, among, same⟩ := ih (r := r.insert entry.1 entry.2) later
      exact ⟨v, List.mem_cons_of_mem _ among, same⟩
    · have here : name = entry.1 := by
        rw [List.map_cons, List.mem_cons] at member
        exact member.resolve_right later
      refine ⟨entry.2, ?_, ?_⟩
      · rw [here]
        exact List.mem_cons_self
      · have kept : (r.insertAll (entry :: rest)).value name =
            (r.insert entry.1 entry.2).value name := value_insertAll_of_not_mem later
        rw [kept, here, value, get?_insert_self]
        rfl

/-- Whether the values for each name are equal to each other; none of them is null then. -/
def Consistent (values : List (Identifier × Value)) : Prop :=
  ∀ entry ∈ values, ∀ other ∈ values, entry.1 = other.1 → entry.2.compare other.2 = some .eq

/-- Filling a record with nulls changes no value. -/
theorem value_fill (names : List Identifier) : (r.fill names).value name = r.value name := by
  induction names generalizing r with
  | nil => rfl
  | cons first rest ih =>
    rw [fill, List.foldl_cons]
    split
    next => exact ih
    next absent =>
      refine ih.trans ?_
      by_cases same : name = first
      · subst same
        rw [value, value, get?_insert_self, Option.not_isSome_iff_eq_none.mp absent]
        rfl
      · exact value_insert_of_ne same

/-- What is there is the value. -/
theorem get?_of_isSome (present : (r.get? name).isSome) : r.get? name = some (r.value name) := by
  obtain ⟨v, found⟩ := Option.isSome_iff_exists.mp present
  rw [value, found]
  rfl

theorem isSome_get?_insert {other : Identifier} {v : Value}
    (present : name = other ∨ (r.get? name).isSome) : ((r.insert other v).get? name).isSome := by
  by_cases same : name = other
  · rw [same, get?_insert_self]
    rfl
  · rw [get?_insert_of_ne r v same]
    exact present.resolve_left same

theorem isSome_get?_insertAll (present : (r.get? name).isSome) :
    ((r.insertAll values).get? name).isSome := by
  induction values generalizing r with
  | nil => exact present
  | cons entry rest ih => exact ih (isSome_get?_insert (.inr present))

end Record

/-! ## Keys -/

namespace Key

/-- The names of the properties of a key. -/
def names (key : Key) : List Identifier := key.values.map Prod.fst

variable {ty : EntityType} {record : Record} {key : Key}

theorem valuesOfRecord_eq_ok (ty : EntityType) {chosen : List Identifier} :
    (∃ values, valuesOfRecord ty record chosen = .ok values) ↔
      ∀ name ∈ chosen, record.has name = true := by
  induction chosen with
  | nil => simp [valuesOfRecord]
  | cons name rest ih =>
    rw [valuesOfRecord]
    by_cases has : record.has name = true
    · rw [if_pos has]
      simp only [Result.bind_eq_ok, List.mem_cons, forall_eq_or_imp, has, true_and, ← ih]
      constructor
      · rintro ⟨values, others, made, _⟩
        exact ⟨others, made⟩
      · rintro ⟨others, made⟩
        exact ⟨_, others, made, rfl⟩
    · simp [has]

theorem valuesOfRecord_eq {chosen : List Identifier} :
    ∀ {values : List (Identifier × Value)}, valuesOfRecord ty record chosen = .ok values →
      values = chosen.map fun name => (name, record.value name) := by
  induction chosen with
  | nil =>
    intro values made
    cases made
    rfl
  | cons name rest ih =>
    intro values made
    rw [valuesOfRecord] at made
    split at made
    · obtain ⟨others, found, result⟩ := Result.bind_eq_ok.mp made
      cases result
      rw [List.map_cons, ih found]
    · cases made

theorem ofRecord_isOk_iff :
    (∃ key, ofRecord ty record = .ok key) ↔ ∀ name ∈ ty.key, record.has name = true := by
  rw [← valuesOfRecord_eq_ok ty, ofRecord]
  simp only [Result.bind_eq_ok]
  constructor
  · rintro ⟨_, values, made, _⟩
    exact ⟨values, made⟩
  · rintro ⟨values, made⟩
    exact ⟨⟨values⟩, values, made, rfl⟩

theorem values_ofRecord (made : ofRecord ty record = .ok key) :
    key.values = ty.key.map fun name => (name, record.value name) := by
  obtain ⟨values, found, result⟩ := Result.bind_eq_ok.mp made
  cases result
  exact valuesOfRecord_eq found

theorem names_ofRecord (made : ofRecord ty record = .ok key) : key.names = ty.key := by
  rw [names, values_ofRecord made, List.map_map]
  exact List.map_id _

theorem names_of_typedValues {texts : List (String × Value)} {properties : List Property} :
    ∀ {values : List (Identifier × Value)}, typedValues texts properties = .ok values →
      values.map Prod.fst = properties.map Property.name := by
  induction properties with
  | nil =>
    intro values made
    cases made
    rfl
  | cons property rest ih =>
    intro values made
    obtain ⟨v, _, made⟩ := Result.bind_eq_ok.mp made
    obtain ⟨others, found, result⟩ := Result.bind_eq_ok.mp made
    cases result
    rw [List.map_cons, List.map_cons, ih found]

theorem names_parse {text : String} (read : parse ty text = .ok key) :
    key.names = ty.keyProperties.map Property.name := by
  obtain ⟨predicate, _, read⟩ := Result.bind_eq_ok.mp read
  obtain ⟨texts, _, read⟩ := Result.bind_eq_ok.mp read
  split at read
  · obtain ⟨values, typed, result⟩ := Result.bind_eq_ok.mp read
    cases result
    exact names_of_typedValues typed
  · cases read

theorem mem_key_of_parse {text : String} (read : parse ty text = .ok key) :
    ∀ name ∈ key.names, name ∈ ty.key := by
  intro name member
  rw [names_parse read] at member
  obtain ⟨property, among, rfl⟩ := List.mem_map.mp member
  obtain ⟨chosen, listed, found⟩ := List.mem_filterMap.mp among
  rw [EntityType.name_of_property? found]
  exact listed

/-! ## Records with a key -/

theorem identifies_iff : key.identifies record = true ↔
    ∀ entry ∈ key.values, (record.value entry.1).compare entry.2 = some .eq := by
  rw [identifies, List.all_eq_true]
  apply forall₂_congr
  rintro ⟨name, v⟩ _
  cases found : record.get? name with
  | none => simp [Record.value, found, Value.null_compare]
  | some w => simp [Record.value, found]

/-- Records whose key properties compare alike have the same keys. -/
theorem identifies_congr {a b : Record}
    (same : ∀ name ∈ key.names, ∀ v, (a.value name).compare v = (b.value name).compare v) :
    key.identifies a = key.identifies b := by
  rw [Bool.eq_iff_iff, identifies_iff, identifies_iff]
  apply forall₂_congr
  intro entry member
  rw [same entry.1 (List.mem_map_of_mem member)]

theorem has_of_identifies (identified : key.identifies record = true) :
    ∀ name ∈ key.names, record.has name = true := by
  intro name member
  obtain ⟨entry, among, rfl⟩ := List.mem_map.mp member
  rw [Record.has, Value.isNull_of_compare (identifies_iff.mp identified entry among)]
  rfl

end Key

end OData
