import OData.Proofs.Key

/-!
# Rows of tables

A row is read by its key if no other row has it.  A change leaves all rows but one, and a row that
keeps its key is still found in its place; a new row has a key of its own and comes last.
-/

set_option autoImplicit false

namespace OData

namespace Table

/-- Whether two rows have equal keys. -/
def SameKey (ty : EntityType) (a b : Record) : Prop :=
  ∀ name ∈ ty.key, (a.value name).compare (b.value name) = some .eq

def HasDistinctKeys (ty : EntityType) (table : Table) : Prop :=
  table.Pairwise fun a b => ¬ SameKey ty a b

variable {ty : EntityType} {key : Key} {row changed : Record} {before rest : Table}

theorem identifies_iff_sameKey {a b : Record} (made : Key.ofRecord ty b = .ok key) :
    key.identifies a = true ↔ SameKey ty a b := by
  rw [Key.identifies_iff, Key.values_ofRecord made]
  simp [SameKey]

theorem SameKey.self {a b : Record} (same : SameKey ty a b) : SameKey ty b b := fun name member =>
  Value.compare_self (Value.isOrdered_of_compare (same name member)).2

/-- If keys are distinct, the row with the key of a row is that row. -/
theorem read_ofRecord (made : Key.ofRecord ty row = .ok key) (self : SameKey ty row row) :
    ∀ {table : Table}, HasDistinctKeys ty table → row ∈ table → read key table = some row := by
  intro table distinct member
  induction table with
  | nil => cases member
  | cons first rest ih =>
    obtain ⟨apart, others⟩ := List.pairwise_cons.mp distinct
    rw [read, List.find?_cons]
    rcases List.mem_cons.mp member with rfl | later
    · rw [(identifies_iff_sameKey made).mpr self]
    · have other : key.identifies first = false := by
        rw [Bool.eq_false_iff, Ne, identifies_iff_sameKey made]
        exact apart row later
      rw [other]
      exact ih others later

theorem read_congr {other : Key} {table : Table}
    (same : ∀ row ∈ table, other.identifies row = key.identifies row) :
    read other table = read key table := by
  induction table with
  | nil => rfl
  | cons first rest ih =>
    have later := ih fun row member => same row (List.mem_cons_of_mem first member)
    rw [read, read] at later
    rw [read, read, List.find?_cons, List.find?_cons, same first List.mem_cons_self, later]

/-! ## Changed rows -/

/-- The row that changes is the first one with the key. -/
theorem modify?_eq_some {change : Record → Record} {stored : Record} :
    ∀ {table after : Table}, modify? key change table = some (stored, after) →
      ∃ before row rest, table = before ++ row :: rest ∧
        (∀ other ∈ before, key.identifies other = false) ∧ key.identifies row = true ∧
        stored = change row ∧ after = before ++ change row :: rest := by
  intro table
  induction table with
  | nil => intro after changed; cases changed
  | cons row rest ih =>
    intro after changed
    rw [modify?] at changed
    split at changed
    next identified =>
      cases changed
      exact ⟨[], row, rest, rfl, by simp, identified, rfl, rfl⟩
    next other =>
      obtain ⟨⟨found, rows⟩, later, result⟩ := Option.map_eq_some_iff.mp changed
      cases result
      obtain ⟨before, first, after, rfl, none, identified, same, rfl⟩ := ih later
      refine ⟨row :: before, first, after, rfl, ?_, identified, same, rfl⟩
      intro skipped member
      rcases List.mem_cons.mp member with rfl | among
      · exact Bool.eq_false_iff.mpr other
      · exact none skipped among

/-- Changing a row without its key changes what is read in its place, and nothing else. -/
theorem read_replace (outside : row ∉ before)
    (same : key.identifies changed = key.identifies row) :
    read key (before ++ changed :: rest) =
      (read key (before ++ row :: rest)).map
        fun found => if found = row then changed else found := by
  induction before with
  | nil =>
    rw [List.nil_append, List.nil_append, read, read, List.find?_cons, List.find?_cons, same]
    cases identified : key.identifies row with
    | true => simp
    | false =>
      cases later : rest.find? key.identifies with
      | none => rfl
      | some found =>
        have other : found ≠ row := by
          rintro rfl
          exact absurd (List.find?_some later) (by simp [identified])
        simp [other]
  | cons first before ih =>
    have apart : first ≠ row := fun equal => outside (equal ▸ List.mem_cons_self)
    have others : row ∉ before := fun among => outside (List.mem_cons_of_mem _ among)
    rw [List.cons_append, List.cons_append, read, read, List.find?_cons, List.find?_cons]
    cases key.identifies first with
    | true => simp [apart]
    | false => exact ih others

/-- A row is read by a key that identifies it and none before it. -/
theorem read_append_cons (identified : key.identifies row = true)
    (none : ∀ other ∈ before, key.identifies other = false) :
    read key (before ++ row :: rest) = some row := by
  refine List.find?_eq_some_iff_append.mpr ⟨identified, before, rest, rfl, ?_⟩
  intro other member
  rw [none other member]
  rfl

/-- An update changes the row that is read by its key, and no other. -/
theorem update_eq_ok {name : String} {values : List (Identifier × Value)} {table after : Table}
    {stored : Record} (updated : update name key values table = .ok (stored, after)) :
    ∃ before row rest, table = before ++ row :: rest ∧ row ∉ before ∧
      read key table = some row ∧ key.identifies row = true ∧ stored = row.insertAll values ∧
      after = before ++ row.insertAll values :: rest := by
  rw [update] at updated
  split at updated
  next changed found =>
    cases updated
    obtain ⟨before, row, rest, rfl, none, identified, same, rfl⟩ := modify?_eq_some found
    refine ⟨before, row, rest, rfl, ?_, read_append_cons identified none, identified, same, rfl⟩
    intro member
    exact absurd identified (Bool.eq_false_iff.mp (none row member))
  next => cases updated

/-- There is no row to change if none is read by the key. -/
theorem modify?_eq_none_iff {change : Record → Record} {table : Table} :
    modify? key change table = none ↔ read key table = none := by
  induction table with
  | nil => simp [modify?, read]
  | cons row rest ih =>
    rw [modify?, read, List.find?_cons]
    cases key.identifies row with
    | true => simp
    | false => simpa [read] using ih

theorem update_eq_error {name : String} {values : List (Identifier × Value)} {table : Table}
    {e : Error} (failed : update name key values table = .error e) :
    e = missing name key ∧ read key table = none := by
  rw [update] at failed
  split at failed
  next => cases failed
  next none =>
    cases failed
    exact ⟨rfl, modify?_eq_none_iff.mp none⟩

/-- The row that is removed is the first one with the key. -/
theorem remove?_eq_some {removed : Record} :
    ∀ {table after : Table}, remove? key table = some (removed, after) →
      ∃ before rest, table = before ++ removed :: rest ∧
        (∀ other ∈ before, key.identifies other = false) ∧ key.identifies removed = true ∧
        after = before ++ rest := by
  intro table
  induction table with
  | nil => intro after found; cases found
  | cons row rest ih =>
    intro after found
    rw [remove?] at found
    split at found
    next identified =>
      cases found
      exact ⟨[], rest, rfl, by simp, identified, rfl⟩
    next other =>
      obtain ⟨⟨first, rows⟩, later, result⟩ := Option.map_eq_some_iff.mp found
      cases result
      obtain ⟨before, after, rfl, none, identified, rfl⟩ := ih later
      refine ⟨row :: before, after, rfl, ?_, identified, rfl⟩
      intro skipped member
      rcases List.mem_cons.mp member with rfl | among
      · exact Bool.eq_false_iff.mpr other
      · exact none skipped among

/-- A deletion takes away the row that is read by its key, and no other. -/
theorem delete_eq_ok {name : String} {table after : Table} {removed : Record}
    (deleted : delete name key table = .ok (removed, after)) :
    ∃ before rest, table = before ++ removed :: rest ∧ read key table = some removed ∧
      key.identifies removed = true ∧ after = before ++ rest := by
  rw [delete] at deleted
  split at deleted
  next found =>
    cases deleted
    obtain ⟨before, rest, rfl, none, identified, rfl⟩ := remove?_eq_some found
    exact ⟨before, rest, rfl, read_append_cons identified none, identified, rfl⟩
  next => cases deleted

theorem remove?_eq_none_iff {table : Table} : remove? key table = none ↔ read key table = none := by
  induction table with
  | nil => simp [remove?, read]
  | cons row rest ih =>
    rw [remove?, read, List.find?_cons]
    cases key.identifies row with
    | true => simp
    | false => simpa [read] using ih

theorem delete_eq_error {name : String} {table : Table} {e : Error}
    (failed : delete name key table = .error e) : e = missing name key ∧ read key table = none := by
  rw [delete] at failed
  split at failed
  next => cases failed
  next none =>
    cases failed
    exact ⟨rfl, remove?_eq_none_iff.mp none⟩

/-- A row keeps its key when other properties change. -/
theorem hasKey_of_update {name : String} {values : List (Identifier × Value)}
    {table after : Table} {stored : Record}
    (updated : update name key values table = .ok (stored, after)) (names : key.names = ty.key)
    (others : ∀ name ∈ key.names, name ∉ values.map Prod.fst) :
    ∃ key, Key.ofRecord ty stored = .ok key := by
  obtain ⟨_, row, _, _, _, _, identified, rfl, _⟩ := update_eq_ok updated
  rw [Key.ofRecord_isOk_iff, ← names]
  intro part member
  rw [Record.has_congr (Record.get?_insertAll_of_not_mem values row (others part member))]
  exact Key.has_of_identifies identified part member

/-! ## New rows -/

/-- A new row is added at the end if no row has its key. -/
theorem create_eq_ok {name : String} {drawn : Guid} {record stored : Record} {table after : Table}
    (created : create ty name drawn record table = .ok (stored, after)) :
    ∃ completed own, generateKey ty drawn table record = .ok completed ∧
      stored = completed.fill (ty.properties.map Property.name) ∧
      Key.ofRecord ty stored = .ok own ∧ (∀ row ∈ table, own.identifies row = false) ∧
      after = table ++ [stored] := by
  obtain ⟨completed, generated, created⟩ := Result.bind_eq_ok.mp created
  obtain ⟨own, made, created⟩ := Result.bind_eq_ok.mp created
  split at created
  next => cases created
  next fresh =>
    cases created
    refine ⟨completed, own, generated, rfl, made, fun row member => ?_, rfl⟩
    exact Bool.eq_false_iff.mpr fun identified =>
      fresh (List.any_eq_true.mpr ⟨row, member, identified⟩)

/-- A generated key replaces no value but null. -/
theorem value_generateKey {name : Identifier} {drawn : Guid} {record completed : Record}
    {table : Table}
    (generated : generateKey ty drawn table record = .ok completed) (has : record.has name = true) :
    completed.value name = record.value name := by
  rw [generateKey] at generated
  split at generated
  next property _ =>
    split at generated
    next => cases generated; rfl
    next lacks =>
      have other : name ≠ property.name := fun same => lacks (same ▸ has)
      split at generated
      next =>
        obtain ⟨next, _, result⟩ := Result.bind_eq_ok.mp generated
        cases result
        exact Record.value_insert_of_ne other
      next =>
        split at generated
        next =>
          cases generated
          exact Record.value_insert_of_ne other
        next => cases generated; rfl
  next => cases generated; rfl

theorem read_append_of_read {table : Table} {found : Record} (read : table.read key = some found) :
    Table.read key (table ++ [row]) = some found := by
  rw [Table.read, List.find?_append, ← Table.read, read]
  rfl

/-- Among rows with other keys a new row is read by its own key if that compares with itself. -/
theorem read_append_ofRecord {table : Table} {found : Record} (made : Key.ofRecord ty row = .ok key)
    (fresh : ∀ other ∈ table, key.identifies other = false) :
    Table.read key (table ++ [row]) = some found ↔ found = row ∧ SameKey ty row row := by
  have none : table.find? key.identifies = none :=
    List.find?_eq_none.mpr fun other member => Bool.eq_false_iff.mp (fresh other member)
  rw [read, List.find?_append, none, Option.none_or, List.find?_cons,
    ← identifies_iff_sameKey made]
  cases key.identifies row with
  | true => simp [eq_comm]
  | false => simp

end Table

end OData
