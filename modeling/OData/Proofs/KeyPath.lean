import OData.Proofs.KeyText
import OData.Proofs.Schema.Conformity

/-!
# Keys in paths

The name of a set and the key of a record that conforms to its type are read as a path of one
segment, and the text in the brackets as an equal key, whatever stands in the strings of the key.
-/

set_option autoImplicit false

namespace OData

namespace Value

/-- What is read of a value of a type has the type, and is the same value. -/
theorem exists_coerceTo_same {type : PrimitiveType} {v : Value} (typed : type.holds v = true)
    (exact : v.isDouble = false) :
    ∃ w, v.reread.coerceTo type = .ok w ∧ v.same w = true := by
  cases v with
  | null => cases type <;> cases typed
  | int n =>
    cases type with
    | int32 | int64 => exact ⟨int n, rfl, decide_eq_true rfl⟩
    | _ => cases typed
  | decimal d =>
    have own := PrimitiveType.type?_eq_of_holds typed nofun
    cases own
    exact ⟨decimal d.withPoint, rfl, Decimal.same_withPoint d⟩
  | double x => cases exact
  | bool | string | guid | date | dateTimeOffset | timeOfDay | binary =>
    exact ⟨_, if_pos (PrimitiveType.type?_eq_of_holds typed nofun), decide_eq_true rfl⟩

end Value

namespace Key

/-- Whether two keys have the same values for the same properties. -/
def Same (a b : Key) : Prop :=
  List.Forall₂ (fun v w : Identifier × Value => v.1 = w.1 ∧ v.2.same w.2 = true) a.values b.values

variable {ty : EntityType} {record : Record} {key : Key}

theorem holds_of_mem_keyProperties (conforms : ty.Conforms record)
    (made : ofRecord ty record = .ok key) {property : Property}
    (member : property ∈ ty.keyProperties) :
    property.type.holds (record.value property.name) = true := by
  obtain ⟨name, chosen, found⟩ := List.mem_filterMap.mp member
  have present : record.has property.name = true := by
    rw [EntityType.name_of_property? found]
    exact ofRecord_isOk_iff.mp ⟨key, made⟩ name chosen
  have accepted := EntityType.accepts_of_conforms conforms (List.mem_of_find?_eq_some found)
  have value : (record.value property.name).isNull = false := by
    simpa [Record.has] using present
  rw [Property.accepts, value] at accepted
  exact accepted

/-- The key of a conforming record is read from what stands in its brackets, but for floating-point
numbers and values that are not read back from their texts at all. -/
theorem exists_parse_same (declared : ty.Declared) (keyed : ty.key ≠ [])
    (conforms : ty.Conforms record) (made : ofRecord ty record = .ok key)
    (values : ∀ entry ∈ key.values, entry.2.isDouble = false ∧ entry.2.LexesBack) :
    ∃ read, parse ty key.innerText = .ok read ∧ key.Same read := by
  have literals : ∀ entry ∈ key.values, entry.2.HasLiteral := fun entry member =>
    Value.hasLiteral_of_lexesBack (values entry member).2 (values entry member).1
  have known := declared.key_subset
  have entries := values_eq_entries made known
  have coerced : ∀ property ∈ ty.keyProperties, ∃ w,
      (record.value property.name).reread.coerceTo property.type = .ok w ∧
        (record.value property.name).same w = true := by
    intro property member
    have entry : (property.name, record.value property.name) ∈ key.values := by
      rw [entries]
      exact List.mem_map_of_mem member
    exact Value.exists_coerceTo_same (holds_of_mem_keyProperties conforms made member)
      (values _ entry).1
  obtain ⟨read, parsed, same⟩ := exists_parse_of_coerceTo made known keyed literals coerced
  refine ⟨read, parsed, ?_⟩
  rw [Same, entries, Key.entries, List.forall₂_map_left_iff]
  exact same.imp fun property entry holds => ⟨holds.1.symm, holds.2⟩

/-- The path of the set and the key of a conforming record has one segment, and the key that its
text is read as has the same values: those that are no floating-point numbers and are read back from
their texts at all are read back from the path, too. -/
theorem parse_setAndKey (declared : ty.Declared) (keyed : ty.key ≠ [])
    (conforms : ty.Conforms record) (made : ofRecord ty record = .ok key)
    (values : ∀ entry ∈ key.values, entry.2.isDouble = false ∧ entry.2.LexesBack)
    (set : Identifier) :
    ∃ text, ResourcePath.parse (set.text ++ key.toText) =
        .ok (.resource [⟨set.text, some text⟩] none) ∧
      ∃ read, parse ty text = .ok read ∧ key.Same read := by
  have literals : ∀ entry ∈ key.values, entry.2.HasLiteral := fun entry member =>
    Value.hasLiteral_of_lexesBack (values entry member).2 (values entry member).1
  refine ⟨key.innerText, ?_, exists_parse_same declared keyed conforms made values⟩
  have segment : (⟨set.text, some key.innerText⟩ : Segment).Readable := by
    refine ⟨set.isIdentifier, ?_⟩
    rintro _ ⟨⟩
    exact passes_innerText literals
  have text : (ResourcePath.resource [⟨set.text, some key.innerText⟩] none).toText =
      set.text ++ key.toText := by
    rw [ResourcePath.toText, toText_eq]
    simp [Segment.toText, String.append_assoc]
  rw [← text]
  exact ResourcePath.parse_segments segment (by simp)

/-! Bookings, by the name of a guest and an instant. -/

def guest : Property := ⟨⟨"guest", Eq.refl true⟩, .string, false⟩

def since : Property := ⟨⟨"since", Eq.refl true⟩, .dateTimeOffset, false⟩

def booking : EntityType :=
  ⟨⟨"Booking", by decide⟩, [guest, since], [guest.name, since.name], []⟩

theorem declared_booking : booking.Declared := by
  have first : (EntityType.empty booking.name).addProperty guest =
      .ok ⟨booking.name, [guest], [], []⟩ := rfl
  have second : EntityType.addProperty ⟨booking.name, [guest], [], []⟩ since =
      .ok ⟨booking.name, [guest, since], [], []⟩ := rfl
  exact .key [guest.name, since.name] (.property (.property (.empty booking.name) first) second)

/-- Noon of a leap day. -/
def leapNoon : Instant := ⟨⟨2024, 2, 29, by decide⟩, ⟨43200, 0, by decide⟩⟩

def bookingRow : Record :=
  [(guest.name, .string "O'Neil),since=(/"), (since.name, .dateTimeOffset leapNoon)]

theorem conforms_bookingRow : booking.Conforms bookingRow := by
  intro property among
  rcases List.mem_cons.mp among with rfl | later
  · exact ⟨_, rfl, rfl⟩
  · rw [List.mem_singleton.mp later]
    exact ⟨_, rfl, rfl⟩

/-- Brackets, a comma, an equals sign and a slash in a string end no value and no segment. -/
theorem parse_setAndKey_booking :
    ∃ text, ResourcePath.parse
        "Bookings(guest='O''Neil),since=(/',since=2024-02-29T12:00:00Z)" =
        .ok (.resource [⟨"Bookings", some text⟩] none) ∧
      ∃ read, parse booking text = .ok read ∧ Same ⟨bookingRow⟩ read := by
  have values : ∀ entry ∈ bookingRow, entry.2.isDouble = false ∧ entry.2.LexesBack := by
    intro entry member
    rcases List.mem_cons.mp member with rfl | later
    · exact ⟨rfl, Value.lexesBack_of_isSound rfl rfl rfl⟩
    · rw [List.mem_singleton.mp later]
      exact ⟨rfl, Value.lexesBack_of_isSound (by decide) rfl (by decide)⟩
  exact parse_setAndKey declared_booking (by decide) conforms_bookingRow rfl values
    ⟨"Bookings", by decide⟩

end Key

end OData
