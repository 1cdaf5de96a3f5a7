import OData.Proofs.Schema.References
import OData.Proofs.Store.Calls
import OData.Proofs.Value.Json
import OData.Store.Seed

/-!
# Rows of data sets

A data set asks for rows one after the other, of which some may not be valid.  Seeding adds each row
at the end of its table, and fails at the first that is not valid; what it added before stays.  All
rows that it adds have keys, but nothing makes these distinct: of several rows with one key only the
first is read by it, so all rows are read by their keys if and only if the keys in each table are
distinct.
-/

set_option autoImplicit false

namespace OData

open OData.Action

/-! ## What a data set asks for -/

/-- A row for a set. -/
abbrev SeedRow := EntitySetDef × Record

/-- A row for a set, or why there is none. -/
abbrev SeedEntry := Result SeedRow

namespace Store

def rowEntry (set : EntitySetDef) (row : Json) : SeedEntry := do
  pure (set, ← checkedRow set row)

/-- The rows for one set. -/
def memberEntries (model : Model) (name : String) (json : Json) : List SeedEntry :=
  match model.entitySet? name with
  | none => [.error (invalidData ("unknown entity set '" ++ name ++ "'"))]
  | some set =>
    match json.asArray? with
    | none => [.error (invalidData ("rows of '" ++ name ++ "' must be an array"))]
    | some rows => rows.map (rowEntry set)

/-- The rows of a data set in their order. -/
def seedEntries (model : Model) (data : Json) : List SeedEntry :=
  match data.asObject? with
  | some sets => sets.flatMap fun entry => memberEntries model entry.1 entry.2
  | none => [.error (invalidData "dataset must be a JSON object keyed by entity set")]

/-- Adds a row at the end of the table of its set. -/
def add (store : Store) (row : SeedRow) : Store :=
  store.put row.1.name.text (store.rows row.1.name.text ++ [row.2])

def addAll (store : Store) (rows : List SeedRow) : Store := rows.foldl add store

/-- The rows among some that are for one table. -/
def rowsFor (name : String) (rows : List SeedRow) : Table :=
  (rows.filter (·.1.name.text == name)).map Prod.snd

theorem rows_addAll (name : String) (rows : List SeedRow) :
    ∀ store : Store, (store.addAll rows).rows name = store.rows name ++ rowsFor name rows := by
  induction rows with
  | nil => exact fun store => (List.append_nil _).symm
  | cons row rest ih =>
    intro store
    have later : (store.addAll (row :: rest)).rows name =
        (store.add row).rows name ++ rowsFor name rest := ih _
    rw [later]
    by_cases here : row.1.name.text = name
    · subst here
      simp [add, rowsFor]
    · simp [add, rowsFor, here, rows_put_of_ne store _ (Ne.symm here)]

theorem mem_rowsFor {name : String} {rows : List SeedRow} {record : Record} :
    record ∈ rowsFor name rows ↔ ∃ set, (set, record) ∈ rows ∧ set.name.text = name := by
  simp [rowsFor]

/-- Only no rows at all leave every table as it is. -/
theorem rows_addAll_eq_iff {store : Store} {rows : List SeedRow} :
    (∀ name, (store.addAll rows).rows name = store.rows name) ↔ rows = [] := by
  constructor
  · intro same
    cases rows with
    | nil => rfl
    | cons row rest =>
      have none := same row.1.name.text
      rw [rows_addAll, List.append_right_eq_self] at none
      have some : row.2 ∈ rowsFor row.1.name.text (row :: rest) :=
        mem_rowsFor.mpr ⟨row.1, List.mem_cons_self, rfl⟩
      rw [none] at some
      cases some
  · rintro rfl name
    rfl

/-! ## Seeding, row by row -/

/-- Adds rows and counts them, up to the first that is not valid. -/
def addEntries : List SeedEntry → Action Nat
  | [] => pure 0
  | entry :: rest => do
    let row ← entry
    modify (·.add row)
    pure ((← addEntries rest) + 1)

theorem addEntries_error (e : Error) (rest : List SeedEntry) :
    addEntries (.error e :: rest) = throw e := rfl

theorem addEntries_ok (row : SeedRow) (rest : List SeedEntry) :
    addEntries (.ok row :: rest) =
      (do modify (·.add row); pure ((← addEntries rest) + 1)) := rfl

theorem addEntries_append (entries more : List SeedEntry) :
    addEntries (entries ++ more) =
      (do pure ((← addEntries entries) + (← addEntries more))) := by
  induction entries with
  | nil =>
    have none : HAdd.hAdd 0 = (id : Nat → Nat) := funext Nat.zero_add
    simp [addEntries, none]
  | cons entry rest ih =>
    cases entry with
    | error e => rfl
    | ok row =>
      have later (here : Nat) : (fun others => here + others + 1) = HAdd.hAdd (here + 1) :=
        funext fun others => Nat.add_right_comm here others 1
      rw [List.cons_append, addEntries_ok, addEntries_ok, ih]
      simp [later]

theorem seedRows_eq (set : EntitySetDef) (rows : List Json) :
    seedRows set rows = addEntries (rows.map (rowEntry set)) := by
  induction rows with
  | nil => rfl
  | cons row rest ih =>
    rw [seedRows, ih, List.map_cons, rowEntry]
    cases checkedRow set row <;> rfl

theorem seedSets_eq (model : Model) (sets : Json.Members) :
    seedSets model sets =
      addEntries (sets.flatMap fun entry => memberEntries model entry.1 entry.2) := by
  induction sets with
  | nil => rfl
  | cons entry rest ih =>
    obtain ⟨name, json⟩ := entry
    rw [seedSets, ih, List.flatMap_cons, addEntries_append, memberEntries]
    cases model.entitySet? name with
    | none => rfl
    | some set =>
      cases json.asArray? with
      | none => rfl
      | some rows => simp only [seedRows_eq]

/-- Seeding adds what the data set asks for. -/
theorem seed_eq (model : Model) (data : Json) :
    seed model data = addEntries (seedEntries model data) := by
  rw [seed, seedEntries]
  cases data.asObject? with
  | none => rfl
  | some sets => exact seedSets_eq model sets

/-- Either all rows are valid, or there is a first one that is not. -/
theorem entries_cases (entries : List SeedEntry) :
    (∃ rows : List SeedRow, entries = rows.map .ok) ∨
      ∃ (rows : List SeedRow) (e : Error) (rest : List SeedEntry),
        entries = rows.map .ok ++ .error e :: rest := by
  induction entries with
  | nil => exact .inl ⟨[], rfl⟩
  | cons entry rest ih =>
    cases entry with
    | error e => exact .inr ⟨[], e, rest, rfl⟩
    | ok row =>
      obtain ⟨rows, rfl⟩ | ⟨rows, e, others, rfl⟩ := ih
      · exact .inl ⟨row :: rows, rfl⟩
      · exact .inr ⟨row :: rows, e, others, rfl⟩

theorem runOn_addEntries_map (rows : List SeedRow) :
    ∀ store : Store, (addEntries (rows.map .ok)).runOn store =
      (.ok rows.length, store.addAll rows) := by
  induction rows with
  | nil => exact fun store => rfl
  | cons row rest ih =>
    intro store
    rw [List.map_cons, addEntries_ok, runOn_bind_of_ok (runOn_modify _ _),
      runOn_bind_of_ok (ih (store.add row))]
    rfl

theorem runOn_addEntries_error (rows : List SeedRow) (e : Error)
    (rest : List SeedEntry) (store : Store) :
    (addEntries (rows.map .ok ++ .error e :: rest)).runOn store =
      (.error e, store.addAll rows) := by
  rw [addEntries_append, runOn_bind_of_ok (runOn_addEntries_map rows store), addEntries_error]
  rfl

/-- Seeding succeeds if all rows are valid, and adds them all. -/
theorem runOn_seed_ok_iff {model : Model} {data : Json} {store after : Store} {count : Nat} :
    (seed model data).runOn store = (.ok count, after) ↔
      ∃ rows : List SeedRow, seedEntries model data = rows.map .ok ∧ count = rows.length ∧
        after = store.addAll rows := by
  rw [seed_eq]
  constructor
  · intro run
    obtain ⟨rows, valid⟩ | ⟨rows, e, rest, invalid⟩ := entries_cases (seedEntries model data)
    · rw [valid, runOn_addEntries_map] at run
      cases run
      exact ⟨rows, valid, rfl, rfl⟩
    · rw [invalid, runOn_addEntries_error] at run
      cases run
  · rintro ⟨rows, valid, rfl, rfl⟩
    rw [valid, runOn_addEntries_map]

/-- Seeding fails with the first row that is not valid, and adds those before it. -/
theorem runOn_seed_error_iff {model : Model} {data : Json} {store after : Store} {e : Error} :
    (seed model data).runOn store = (.error e, after) ↔
      ∃ (rows : List SeedRow) (rest : List SeedEntry),
        seedEntries model data = rows.map .ok ++ .error e :: rest ∧
        after = store.addAll rows := by
  rw [seed_eq]
  constructor
  · intro run
    obtain ⟨rows, valid⟩ | ⟨rows, e', rest, invalid⟩ := entries_cases (seedEntries model data)
    · rw [valid, runOn_addEntries_map] at run
      cases run
    · rw [invalid, runOn_addEntries_error] at run
      cases run
      exact ⟨rows, rest, invalid, rfl⟩
  · rintro ⟨rows, rest, invalid, rfl⟩
    rw [invalid, runOn_addEntries_error]

/-- A seeding that fails leaves the rows before the first that is not valid in their tables, and so
leaves all tables as they were if and only if there are none. -/
theorem seed_error_rows {model : Model} {data : Json} {store after : Store} {e : Error}
    (failed : (seed model data).runOn store = (.error e, after)) :
    ∃ (rows : List SeedRow) (rest : List SeedEntry),
        seedEntries model data = rows.map .ok ++ .error e :: rest ∧
      (∀ name, after.rows name = store.rows name ++ rowsFor name rows) ∧
      ((∀ name, after.rows name = store.rows name) ↔ rows = []) := by
  obtain ⟨rows, rest, invalid, rfl⟩ := runOn_seed_error_iff.mp failed
  exact ⟨rows, rest, invalid, fun name => rows_addAll name rows store, rows_addAll_eq_iff⟩

/-- The row before the one with a bad key stays. -/
example : ∃ e, (seed ModelDeclaration.shelterModel (.object [("Dogs", .array
    [.object [("id", .int 1)], .object [("id", .str "one")]])])).runOn empty =
      (.error e, ⟨[("Dogs", [[(ModelDeclaration.petId.name, .int 1)]])], []⟩) := ⟨_, rfl⟩

/-! ## Valid rows -/

theorem checkedRow_eq_ok {set : EntitySetDef} {row : Json} {record : Record}
    (checked : checkedRow set row = .ok record) :
    readRow set.entityType row = .ok record ∧
      ∃ key, Key.ofRecord set.entityType record = .ok key := by
  rw [checkedRow] at checked
  split at checked
  next => cases checked
  next read =>
    split at checked
    next key made =>
      cases checked
      exact ⟨read, key, made⟩
    next => cases checked

theorem mem_memberEntries {model : Model} {name : String} {json : Json} {set : EntitySetDef}
    {record : Record} (member : .ok (set, record) ∈ memberEntries model name json) :
    set ∈ model.sets ∧ ∃ row, checkedRow set row = .ok record := by
  rw [memberEntries] at member
  split at member
  next => cases List.mem_singleton.mp member
  next found =>
    split at member
    next => cases List.mem_singleton.mp member
    next rows _ =>
      obtain ⟨row, -, valid⟩ := List.mem_map.mp member
      obtain ⟨_, checked, result⟩ := Result.bind_eq_ok.mp valid
      cases result
      exact ⟨List.mem_of_find?_eq_some found, row, checked⟩

/-- The valid rows of a data set are for sets of the model. -/
theorem mem_seedEntries {model : Model} {data : Json} {set : EntitySetDef} {record : Record}
    (member : .ok (set, record) ∈ seedEntries model data) :
    set ∈ model.sets ∧ ∃ row, checkedRow set row = .ok record := by
  rw [seedEntries] at member
  split at member
  next =>
    obtain ⟨entry, -, member⟩ := List.mem_flatMap.mp member
    exact mem_memberEntries member
  next => cases List.mem_singleton.mp member

/-- What is read from the members of a row is of the types of the properties. -/
theorem holds_of_readMembers {ty : EntityType} (declared : ty.Declared) {members : Json.Members} :
    ∀ {given record : Record},
      (∀ property ∈ ty.properties, given.has property.name = true →
        property.type.holds (given.value property.name) = true) →
      readMembers ty given members = .ok record →
      ∀ property ∈ ty.properties, record.has property.name = true →
        property.type.holds (record.value property.name) = true := by
  induction members with
  | nil =>
    intro given record typed read
    cases read
    exact typed
  | cons member rest ih =>
    obtain ⟨name, json⟩ := member
    intro given record typed read
    rw [readMembers] at read
    split at read
    next => cases read
    next found known =>
      obtain ⟨v, valued, read⟩ := Result.bind_eq_ok.mp read
      refine ih (fun property listed has => ?_) read
      by_cases here : property.name = found.name
      · have same := declared.eq_of_name listed (List.mem_of_find?_eq_some known) here
        subst same
        have value : (given.insert property.name v).value property.name = v := by
          rw [Record.value, Record.get?_insert_self]
          rfl
        rw [Record.has, value] at has
        rw [value]
        cases absent : json.isNull with
        | true =>
          rw [Value.ofJson, absent, if_pos rfl] at valued
          cases valued
          cases has
        | false => exact PrimitiveType.holds_of_ofJson? ((Value.ofJson_eq_ok_iff absent).mp valued)
      · rw [Record.has, Record.value_insert_of_ne here] at has
        rw [Record.value_insert_of_ne here]
        exact typed property listed has

/-- A valid row has a key, and one without floating-point numbers if no key property is such a
number. -/
theorem keyed_of_checkedRow {set : EntitySetDef} {row : Json} {record : Record}
    (declared : set.entityType.Declared)
    (exact : ∀ property ∈ set.entityType.keyProperties, property.type ≠ .double)
    (checked : checkedRow set row = .ok record) : set.entityType.Keyed record := by
  obtain ⟨read, made⟩ := checkedRow_eq_ok checked
  refine EntityType.keyed_of_has declared exact (Key.ofRecord_isOk_iff.mp made) ?_
  rw [readRow] at read
  split at read
  next => exact holds_of_readMembers declared (fun _ _ has => by cases has) read
  next => cases read

end Store

/-! ## Reading rows by their keys -/

namespace Table

/-- Whether a row is the first of those with the key of another. -/
def First (ty : EntityType) (table : Table) (row first : Record) : Prop :=
  ∃ before rest, table = before ++ first :: rest ∧ SameKey ty first row ∧
    ∀ other ∈ before, ¬ SameKey ty other row

variable {ty : EntityType} {key : Key} {row first : Record} {table : Table}

theorem read_eq_some_iff (made : Key.ofRecord ty row = .ok key) :
    read key table = some first ↔ First ty table row first := by
  rw [read, List.find?_eq_some_iff_append, identifies_iff_sameKey made, First]
  constructor
  · rintro ⟨same, before, rest, split, none⟩
    refine ⟨before, rest, split, same, fun other member => ?_⟩
    rw [← identifies_iff_sameKey made]
    simpa using none other member
  · rintro ⟨before, rest, split, same, none⟩
    refine ⟨same, before, rest, split, fun other member => ?_⟩
    have apart := none other member
    rw [← identifies_iff_sameKey made] at apart
    simpa using apart

theorem exists_read (made : Key.ofRecord ty row = .ok key) (keyed : ty.Keyed row)
    (member : row ∈ table) : ∃ first, read key table = some first := by
  have identified : key.identifies row = true :=
    (identifies_iff_sameKey made).mpr ((EntityType.sameKey_iff_point keyed keyed).mpr rfl)
  exact Option.isSome_iff_exists.mp (List.find?_isSome.mpr ⟨row, member, identified⟩)

/-- Of the rows with one key there is one first row. -/
theorem First.eq_of_sameKey {other second : Record} (keyed : ∀ row ∈ table, ty.Keyed row)
    (left : row ∈ table) (right : other ∈ table) (same : SameKey ty row other)
    (one : First ty table row first) (two : First ty table other second) : first = second := by
  obtain ⟨key, made⟩ := Key.ofRecord_isOk_iff.mpr fun name member =>
    has_of_isExact (keyed row left name member)
  obtain ⟨key', made'⟩ := Key.ofRecord_isOk_iff.mpr fun name member =>
    has_of_isExact (keyed other right name member)
  have points := (EntityType.sameKey_iff_point (keyed row left) (keyed other right)).mp same
  have alike : read key' table = read key table := by
    refine read_congr fun third among => ?_
    rw [Bool.eq_iff_iff, identifies_iff_sameKey made, identifies_iff_sameKey made',
      EntityType.sameKey_iff_point (keyed third among) (keyed row left),
      EntityType.sameKey_iff_point (keyed third among) (keyed other right), points]
  rw [(read_eq_some_iff made).mpr one, (read_eq_some_iff made').mpr two] at alike
  exact (Option.some.inj alike).symm

/-- Keys are distinct if and only if each row is there once and is the first with its key. -/
theorem hasDistinctKeys_iff (keyed : ∀ row ∈ table, ty.Keyed row) :
    HasDistinctKeys ty table ↔ table.Nodup ∧ ∀ row ∈ table, First ty table row row := by
  have self (row : Record) (member : row ∈ table) : SameKey ty row row :=
    (EntityType.sameKey_iff_point (keyed row member) (keyed row member)).mpr rfl
  constructor
  · intro distinct
    refine ⟨List.Pairwise.imp_of_mem ?_ distinct, fun row member => ?_⟩
    · rintro a b left right apart rfl
      exact apart (self a left)
    · obtain ⟨before, rest, split⟩ := List.append_of_mem member
      refine ⟨before, rest, split, self row member, fun other among => ?_⟩
      rw [split, HasDistinctKeys, List.pairwise_append] at distinct
      exact distinct.2.2 other among row List.mem_cons_self
  · rintro ⟨nodup, first⟩
    refine List.Pairwise.imp_of_mem (fun left right apart same => apart ?_) nodup
    exact First.eq_of_sameKey keyed left right same (first _ left) (first _ right)

end Table

namespace Store

open OData.ModelDeclaration

/-- A data set that is accepted into an empty store of a model without floating-point keys gives the
rows that it asks for.  They have keys, and each key reads the first row that has it; so the keys in
a table are distinct if and only if its rows are, and each is read by its own key. -/
theorem addressable_iff_of_seed {declaration : ModelDeclaration} {model : Model} {data : Json}
    {count : Nat} {store : Store} (declared : ∀ ty ∈ declaration.types, ty.Declared)
    (built : declaration.build = .ok model)
    (exact : ∀ ty ∈ declaration.types, ∀ property ∈ ty.keyProperties, property.type ≠ .double)
    (seeded : (seed model data).runOn empty = (.ok count, store)) :
    ∃ rows : List SeedRow, seedEntries model data = rows.map .ok ∧ count = rows.length ∧
      (∀ name, store.rows name = rowsFor name rows) ∧
      ∀ set ∈ model.sets,
        (∀ row ∈ store.rows set.name.text, ∃ key first,
          Key.ofRecord set.entityType row = .ok key ∧
            Table.First set.entityType (store.rows set.name.text) row first ∧
            (set.read key).runOn store = (.ok (some first), store)) ∧
        (Table.HasDistinctKeys set.entityType (store.rows set.name.text) ↔
          (store.rows set.name.text).Nodup ∧ ∀ row ∈ store.rows set.name.text, ∀ key,
            Key.ofRecord set.entityType row = .ok key →
              (set.read key).runOn store = (.ok (some row), store)) := by
  obtain ⟨rows, valid, rfl, rfl⟩ := runOn_seed_ok_iff.mp seeded
  have tables (name : String) : (empty.addAll rows).rows name = rowsFor name rows :=
    rows_addAll name rows empty
  refine ⟨rows, valid, rfl, tables, fun set member => ?_⟩
  have type := entityType_mem_of_build built set member
  have keyed : ∀ row ∈ (empty.addAll rows).rows set.name.text, set.entityType.Keyed row := by
    intro row among
    rw [tables] at among
    obtain ⟨other, entry, named⟩ := mem_rowsFor.mp among
    have asked : .ok (other, row) ∈ seedEntries model data := valid ▸ List.mem_map_of_mem entry
    obtain ⟨known, json, checked⟩ := mem_seedEntries asked
    cases (intact_of_build built).eq_of_name known member (EntityType.Identifier.eq_of_text named)
    exact keyed_of_checkedRow (declared _ type) (exact _ type) checked
  generalize (empty.addAll rows) = store at keyed ⊢
  have made (row : Record) (among : row ∈ store.rows set.name.text) :
      ∃ key, Key.ofRecord set.entityType row = .ok key :=
    Key.ofRecord_isOk_iff.mpr fun name part => Table.has_of_isExact (keyed row among name part)
  have runs {row first : Record} {key : Key} (own : Key.ofRecord set.entityType row = .ok key) :
      (set.read key).runOn store = (.ok (some first), store) ↔
        Table.First set.entityType (store.rows set.name.text) row first := by
    rw [set.runOn_read, ← Table.read_eq_some_iff own]
    simp
  constructor
  · intro row among
    obtain ⟨key, own⟩ := made row among
    obtain ⟨first, found⟩ := Table.exists_read own (keyed row among) among
    have isFirst := (Table.read_eq_some_iff own).mp found
    exact ⟨key, first, own, isFirst, (runs own).mpr isFirst⟩
  · rw [Table.hasDistinctKeys_iff keyed]
    refine and_congr_right fun _ => forall₂_congr fun row among => ?_
    constructor
    · exact fun first key own => (runs own).mpr first
    · intro found
      obtain ⟨key, own⟩ := made row among
      exact (runs own).mp (found key own)

/-! Two dogs of one key, of which only the first has an owner. -/

def ownedDog : Record := [(petId.name, .int 1), (petOwner.name, .int 7)]

def strayDog : Record := [(petId.name, .int 1)]

def twoDogs : Json :=
  .object [("Dogs", .array
    [.object [("id", .int 1), ("owner_id", .int 7)], .object [("id", .int 1)]])]

def dogStore : Store := ⟨[("Dogs", [ownedDog, strayDog])], []⟩

def dogKey : Key := ⟨[(petId.name, .int 1)]⟩

theorem addressable_iff_of_seed_twoDogs :
    (∀ ty ∈ shelter.types, ty.Declared) ∧ shelter.build = .ok shelterModel ∧
      (∀ ty ∈ shelter.types, ∀ property ∈ ty.keyProperties, property.type ≠ .double) ∧
      (seed shelterModel twoDogs).runOn empty = (.ok 2, dogStore) ∧
      Key.ofRecord dogs.entityType strayDog = .ok dogKey ∧
      (dogs.read dogKey).runOn dogStore = (.ok (some ownedDog), dogStore) ∧
      ¬ Table.HasDistinctKeys dogs.entityType (dogStore.rows dogs.name.text) := by
  have built : shelter.build = .ok shelterModel := rfl
  have exact : ∀ ty ∈ shelter.types, ∀ property ∈ ty.keyProperties, property.type ≠ .double := by
    decide
  have seeded : (seed shelterModel twoDogs).runOn empty = (.ok 2, dogStore) := rfl
  have made : Key.ofRecord dogs.entityType strayDog = .ok dogKey := rfl
  have first : (dogs.read dogKey).runOn dogStore = (.ok (some ownedDog), dogStore) := rfl
  refine ⟨declared_shelter, built, exact, seeded, made, first, fun distinct => ?_⟩
  obtain ⟨_, -, -, -, tables⟩ := addressable_iff_of_seed declared_shelter built exact seeded
  have stored : strayDog ∈ dogStore.rows dogs.name.text :=
    List.mem_cons_of_mem ownedDog List.mem_cons_self
  have known : dogs ∈ shelterModel.sets := List.mem_cons_of_mem cats List.mem_cons_self
  have own := ((tables dogs known).2.mp distinct).2 strayDog stored dogKey made
  rw [first] at own
  cases own

end Store

end OData
