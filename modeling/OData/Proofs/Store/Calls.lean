import OData.Proofs.Store.Map

/-!
# Calls on the rows of a set

Each call on the rows of a table answers as the map that the table holds, and the table holds the
map after the call then.  By induction any sequence of calls does, so the keys of the rows stay
distinct, and what is read under a key is what was last written there.
-/

set_option autoImplicit false

namespace OData

open OData.Action

inductive RowCall where
  | read (key : Key)
  | create (drawn : Guid) (record : Record)
  | update (key : Key) (changes : List (Identifier × Value))
  | delete (key : Key)

namespace RowCall

/-- The record that is read, stored or removed. -/
def perform (set : EntitySetDef) : RowCall → Action (Option Record)
  | read key => set.read key
  | create drawn record => some <$> set.create drawn record
  | update key changes => some <$> set.update key changes
  | delete key => some <$> set.delete key

/-- A new record with null for the properties that are absent. -/
def completed (ty : EntityType) (record : Record) : Record := record.fill ty.names

/-- What a map answers to a call, and the map after it. -/
def onMap (set : EntitySetDef) (map : RowMap) : RowCall → Result (Option Record) × RowMap
  | read key => (.ok (map.lookup key.point), map)
  | create _ record =>
    let key := set.entityType.keyOf record
    let row := completed set.entityType record
    if key.point ∈ map then (.error (Table.duplicate set.name.text key), map)
    else (.ok (some row), map.insert key.point row)
  | update key changes =>
    match map.lookup key.point with
    | none => (.error (Table.missing set.name.text key), map)
    | some row =>
      (.ok (some (row.insertAll changes)), map.replace key.point (row.insertAll changes))
  | delete key =>
    match map.lookup key.point with
    | none => (.error (Table.missing set.name.text key), map)
    | some row => (.ok (some row), map.erase key.point)

/-- Whether the keys of a call fit a type, and its changes leave the key as it is. -/
def Fits (ty : EntityType) : RowCall → Prop
  | read key => ty.Addresses key
  | create _ record => ty.Keyed record
  | update key changes => ty.Addresses key ∧ ∀ name ∈ ty.key, name ∉ changes.map Prod.fst
  | delete key => ty.Addresses key

end RowCall

/-! ## One call -/

namespace Table

variable {ty : EntityType} {key : Key} {name : String} {drawn : Guid} {record : Record}
  {table : Table} {map : RowMap}

/-- No key is generated for a record that has one. -/
theorem generateKey_of_has (complete : ∀ name ∈ ty.key, record.has name = true) :
    generateKey ty drawn table record = .ok record := by
  rw [generateKey]
  split
  next property only =>
    have member : property ∈ ty.keyProperties := by
      rw [only]
      exact List.mem_cons_self
    obtain ⟨name, among, found⟩ := List.mem_filterMap.mp member
    rw [EntityType.name_of_property? found, if_pos (complete name among)]
  next => rfl

theorem has_of_isExact {name : Identifier} (exact : (record.value name).isExact = true) :
    record.has name = true := by
  rw [Record.has, Bool.not_eq_true']
  cases value : record.value name with
  | null =>
    rw [value] at exact
    cases exact
  | _ => rfl

/-- Of the new row only the values that were absent are new. -/
theorem keyOf_completed (ty : EntityType) (record : Record) :
    ty.keyOf (RowCall.completed ty record) = ty.keyOf record :=
  congrArg Key.mk (List.map_congr_left fun name _ =>
    congrArg (Prod.mk name) (Record.value_fill ty.names))

theorem keyed_completed (keyed : ty.Keyed record) : ty.Keyed (RowCall.completed ty record) :=
  EntityType.keyed_congr (fun _ _ => Record.value_fill ty.names) keyed

theorem create_eq (keyed : ty.Keyed record) :
    create ty name drawn record table =
      if table.any (ty.keyOf record).identifies then .error (duplicate name (ty.keyOf record))
      else .ok (RowCall.completed ty record, table ++ [RowCall.completed ty record]) := by
  have complete : ∀ name ∈ ty.key, record.has name = true := fun name member =>
    has_of_isExact (keyed name member)
  have filled : ∀ name ∈ ty.key, (RowCall.completed ty record).has name = true :=
    fun name member => has_of_isExact (keyed_completed keyed name member)
  obtain ⟨own, made⟩ := Key.ofRecord_isOk_iff.mpr filled
  have same : own = ty.keyOf record :=
    (EntityType.keyOf_of_ofRecord made).trans (keyOf_completed ty record)
  cases same
  rw [create, generateKey_of_has complete]
  change (Key.ofRecord ty (RowCall.completed ty record) >>= _) = _
  rw [made]
  rfl

end Table

namespace RowCall

variable {set : EntitySetDef} {offered : CapabilitySet} {store : Store} {map : RowMap}
  {call : RowCall}

/-- Whether a call answers over a store as over a map, and the rows hold the map after it. -/
def Agrees (call : RowCall) (set : EntitySetDef) (store : Store) (map : RowMap) : Prop :=
  ((call.perform set).runOn store).1 = (call.onMap set map).1 ∧
    Table.Holds set.entityType (((call.perform set).runOn store).2.rows set.name.text)
      (call.onMap set map).2

section Calls

variable (backed : set.backing = .table offered)
  (holds : Table.Holds set.entityType (store.rows set.name.text) map)

include holds

theorem agrees_read {key : Key} (fits : set.entityType.Addresses key) :
    (read key).Agrees set store map := by
  rw [Agrees, perform, EntitySetDef.runOn_read, onMap, holds.lookup_eq fits]
  exact ⟨rfl, holds⟩

include backed

theorem agrees_create (drawn : Guid) {record : Record} (keyed : set.entityType.Keyed record) :
    (create drawn record).Agrees set store map := by
  have present := holds.any_identifies_iff (EntityType.addresses_keyOf keyed)
  rw [Agrees, perform, runOn_map, EntitySetDef.create, set.runOn_write_table backed,
    Table.create_eq keyed, onMap]
  by_cases known : (set.entityType.keyOf record).point ∈ map
  · rw [if_pos (present.mpr known), if_pos known]
    exact ⟨rfl, holds⟩
  · have own : set.entityType.keyPoint (completed set.entityType record) =
        (set.entityType.keyOf record).point := by
      rw [← EntityType.point_keyOf, Table.keyOf_completed]
    rw [if_neg fun found => known (present.mp found), if_neg known, ← own]
    refine ⟨rfl, ?_⟩
    rw [Store.rows_put_self]
    exact holds.append (Table.keyed_completed keyed) (own ▸ known)

theorem agrees_update {key : Key} {changes : Record} (addresses : set.entityType.Addresses key)
    (outside : ∀ name ∈ set.entityType.key, name ∉ changes.map Prod.fst) :
    (update key changes).Agrees set store map := by
  rw [Agrees, perform, runOn_map, EntitySetDef.update, set.runOn_write_table backed, onMap,
    holds.lookup_eq addresses]
  cases updated : Table.update set.name.text key changes (store.rows set.name.text) with
  | error failure =>
    obtain ⟨rfl, absent⟩ := Table.update_eq_error updated
    rw [absent]
    exact ⟨rfl, holds⟩
  | ok written =>
    obtain ⟨stored, after⟩ := written
    obtain ⟨before, row, rest, split, -, read, identified, rfl, rfl⟩ := Table.update_eq_ok updated
    rw [read]
    refine ⟨rfl, ?_⟩
    rw [split] at holds
    have keyed := holds.keyed row (List.mem_append_right _ List.mem_cons_self)
    rw [Store.rows_put_self, ← (EntityType.identifies_iff_point addresses keyed).mp identified]
    exact holds.replace fun name member => Record.value_insertAll_of_not_mem (outside name member)

theorem agrees_delete {key : Key} (addresses : set.entityType.Addresses key) :
    (delete key).Agrees set store map := by
  rw [Agrees, perform, runOn_map, EntitySetDef.delete, set.runOn_write_table backed, onMap,
    holds.lookup_eq addresses]
  cases deleted : Table.delete set.name.text key (store.rows set.name.text) with
  | error failure =>
    obtain ⟨rfl, absent⟩ := Table.delete_eq_error deleted
    rw [absent]
    exact ⟨rfl, holds⟩
  | ok removed =>
    obtain ⟨row, after⟩ := removed
    obtain ⟨before, rest, split, read, identified, rfl⟩ := Table.delete_eq_ok deleted
    rw [read]
    refine ⟨rfl, ?_⟩
    rw [split] at holds
    have keyed := holds.keyed row (List.mem_append_right _ List.mem_cons_self)
    rw [Store.rows_put_self, ← (EntityType.identifies_iff_point addresses keyed).mp identified]
    exact holds.erase

end Calls

/-- A call answers as the map that the table holds, and the table holds the map after it. -/
theorem perform_eq (backed : set.backing = .table offered) (fits : call.Fits set.entityType)
    (holds : Table.Holds set.entityType (store.rows set.name.text) map) :
    ((call.perform set).runOn store).1 = (call.onMap set map).1 ∧
      Table.Holds set.entityType (((call.perform set).runOn store).2.rows set.name.text)
        (call.onMap set map).2 := by
  cases call with
  | read key => exact agrees_read holds fits
  | create drawn record => exact agrees_create backed holds drawn fits
  | update key changes => exact agrees_update backed holds fits.1 fits.2
  | delete key => exact agrees_delete backed holds fits

/-- A call leaves the rows of other sets, and all rows if it fails. -/
theorem perform_frame (backed : set.backing = .table offered) (call : RowCall) (store : Store) :
    (∀ other, other ≠ set.name.text →
      ((call.perform set).runOn store).2.rows other = store.rows other) ∧
    (∀ e, ((call.perform set).runOn store).1 = .error e →
      ((call.perform set).runOn store).2 = store) := by
  have write (kind : Capability) (operation : Table → Result (Record × Table)) :
      (∀ other, other ≠ set.name.text →
        ((some <$> set.write kind operation).runOn store).2.rows other = store.rows other) ∧
      (∀ e, ((some <$> set.write kind operation).runOn store).1 = .error e →
        ((some <$> set.write kind operation).runOn store).2 = store) := by
    rw [runOn_map, set.runOn_write_table backed]
    cases operation (store.rows set.name.text) with
    | error failure => exact ⟨fun _ _ => rfl, fun _ _ => rfl⟩
    | ok written =>
      exact ⟨fun other apart => Store.rows_put_of_ne store _ apart, fun e failed => by cases failed⟩
  cases call with
  | read key =>
    rw [perform, EntitySetDef.runOn_read]
    exact ⟨fun _ _ => rfl, fun _ _ => rfl⟩
  | create drawn record => exact write _ _
  | update key changes => exact write _ _
  | delete key => exact write _ _

/-! ## Sequences of calls -/

/-- The answers to the calls one after the other, and the store after them. -/
def performAll (set : EntitySetDef) : List RowCall → Store → List (Result (Option Record)) × Store
  | [], store => ([], store)
  | call :: rest, store =>
    let (answer, after) := (call.perform set).runOn store
    let (answers, last) := performAll set rest after
    (answer :: answers, last)

def allOnMap (set : EntitySetDef) : List RowCall → RowMap → List (Result (Option Record)) × RowMap
  | [], map => ([], map)
  | call :: rest, map =>
    let (answer, after) := call.onMap set map
    let (answers, last) := allOnMap set rest after
    (answer :: answers, last)

theorem performAll_eq (backed : set.backing = .table offered) {calls : List RowCall}
    (fits : ∀ call ∈ calls, call.Fits set.entityType) :
    ∀ {store : Store} {map : RowMap},
      Table.Holds set.entityType (store.rows set.name.text) map →
      (performAll set calls store).1 = (allOnMap set calls map).1 ∧
        Table.Holds set.entityType ((performAll set calls store).2.rows set.name.text)
          (allOnMap set calls map).2 := by
  induction calls with
  | nil => exact fun holds => ⟨rfl, holds⟩
  | cons call rest ih =>
    intro store map holds
    obtain ⟨answer, after⟩ := perform_eq backed (fits call List.mem_cons_self) holds
    obtain ⟨answers, last⟩ :=
      ih (fun other among => fits other (List.mem_cons_of_mem _ among)) after
    exact ⟨congrArg₂ List.cons answer answers, last⟩

theorem performAll_frame (backed : set.backing = .table offered) (calls : List RowCall)
    {other : String} (apart : other ≠ set.name.text) :
    ∀ store : Store, (performAll set calls store).2.rows other = store.rows other := by
  induction calls with
  | nil => exact fun store => rfl
  | cons call rest ih =>
    exact fun store => (ih _).trans ((perform_frame backed call store).1 other apart)

/-- From any table of conforming rows with distinct keys that are no floating-point numbers, calls
answer as the finite map of the rows does, and leave the table with the rows of the map after them.
The keys stay distinct, the rows of other sets stay as they are, and a call that fails changes
nothing. -/
theorem performAll_refines {calls : List RowCall} (backed : set.backing = .table offered)
    (declared : set.entityType.Declared)
    (exact : ∀ property ∈ set.entityType.keyProperties, property.type ≠ .double)
    (conforming : ∀ row ∈ store.rows set.name.text, set.entityType.Conforms row)
    (distinct : Table.HasDistinctKeys set.entityType (store.rows set.name.text))
    (fits : ∀ call ∈ calls, call.Fits set.entityType) :
    ∃ map, Table.Holds set.entityType (store.rows set.name.text) map ∧
      (performAll set calls store).1 = (allOnMap set calls map).1 ∧
      Table.Holds set.entityType ((performAll set calls store).2.rows set.name.text)
        (allOnMap set calls map).2 ∧
      Table.HasDistinctKeys set.entityType ((performAll set calls store).2.rows set.name.text) ∧
      (∀ other, other ≠ set.name.text →
        (performAll set calls store).2.rows other = store.rows other) ∧
      (∀ (call : RowCall) (e : Error),
        ((call.perform set).runOn (performAll set calls store).2).1 = .error e →
        ((call.perform set).runOn (performAll set calls store).2).2 =
          (performAll set calls store).2) := by
  have keyed : ∀ row ∈ store.rows set.name.text, set.entityType.Keyed row := fun row member =>
    EntityType.keyed_of_conforms declared exact (conforming row member)
  obtain ⟨map, holds⟩ := (Table.exists_holds_iff keyed).mpr distinct
  obtain ⟨answers, after⟩ := performAll_eq backed fits holds
  exact ⟨map, holds, answers, after, (Table.exists_holds_iff after.keyed).mp ⟨_, after⟩,
    fun other apart => performAll_frame backed calls apart store,
    fun call => (perform_frame backed call _).2⟩

/-! Rates with a note, whose keys are decimals. -/

def rateNumber : Property := ⟨⟨"rate", Eq.refl true⟩, .decimal, false⟩

def rateNote : Property := ⟨⟨"note", Eq.refl true⟩, .string, true⟩

def rate : EntityType := ⟨⟨"Rate", by decide⟩, [rateNumber, rateNote], [rateNumber.name], []⟩

theorem declared_rate : rate.Declared := by
  have number : (EntityType.empty rate.name).addProperty rateNumber =
      .ok ⟨rate.name, [rateNumber], [], []⟩ := rfl
  have note : EntityType.addProperty ⟨rate.name, [rateNumber], [], []⟩ rateNote =
      .ok ⟨rate.name, [rateNumber, rateNote], [], []⟩ := rfl
  exact .key [rateNumber.name] (.property (.property (.empty rate.name) number) note)

def rates : EntitySetDef := ⟨⟨"Rates", by decide⟩, rate, [], .table .all, .all, none⟩

def rateRow (number note : Value) : Record := [(rateNumber.name, number), (rateNote.name, note)]

def rateKey (number : Value) : Key := ⟨[(rateNumber.name, number)]⟩

/-- The rate 1.5 without a note. -/
def rateStore : Store := ⟨[("Rates", [rateRow (.decimal ⟨15, 1⟩) .null])], []⟩

/-- The rate is written with other zeros at each call. -/
def rateCalls : List RowCall :=
  [.create .nil [(rateNumber.name, .decimal ⟨150, 2⟩)],
    .update (rateKey (.decimal ⟨1500, 3⟩)) [(rateNote.name, .string "low")],
    .read (rateKey (.decimal ⟨150, 2⟩)),
    .delete (rateKey (.decimal ⟨15, 1⟩)),
    .create .nil [(rateNumber.name, .decimal ⟨150, 2⟩)]]

def rateAnswers : List (Result (Option Record)) :=
  [.error (Table.duplicate "Rates" (rateKey (.decimal ⟨150, 2⟩))),
    .ok (some (rateRow (.decimal ⟨15, 1⟩) (.string "low"))),
    .ok (some (rateRow (.decimal ⟨15, 1⟩) (.string "low"))),
    .ok (some (rateRow (.decimal ⟨15, 1⟩) (.string "low"))),
    .ok (some (rateRow (.decimal ⟨150, 2⟩) .null))]

theorem conforms_rateStore : ∀ row ∈ rateStore.rows "Rates", rate.Conforms row := by
  intro row member property among
  rw [List.mem_singleton.mp member]
  rcases List.mem_cons.mp among with rfl | later
  · exact ⟨.decimal ⟨15, 1⟩, rfl, rfl⟩
  · rw [List.mem_singleton.mp later]
    exact ⟨.null, rfl, rfl⟩

theorem fits_rateCalls : ∀ call ∈ rateCalls, call.Fits rate := by
  have keyed : rate.Keyed [(rateNumber.name, .decimal ⟨150, 2⟩)] := by
    intro name among
    rw [List.mem_singleton.mp among]
    rfl
  intro call member
  simp only [rateCalls, List.mem_cons, List.not_mem_nil, or_false] at member
  rcases member with rfl | rfl | rfl | rfl | rfl
  · exact keyed
  · exact ⟨⟨rfl, by decide⟩, by decide⟩
  · exact ⟨rfl, by decide⟩
  · exact ⟨rfl, by decide⟩
  · exact keyed

/-- A number is one key, whatever its scale. -/
theorem performAll_refines_rates :
    ∃ map, Table.Holds rate [rateRow (.decimal ⟨15, 1⟩) .null] map ∧
      (allOnMap rates rateCalls map).1 = rateAnswers ∧
      Table.HasDistinctKeys rate ((performAll rates rateCalls rateStore).2.rows "Rates") := by
  have backed : rates.backing = .table .all := rfl
  have apart : Table.HasDistinctKeys rate (rateStore.rows "Rates") := List.pairwise_singleton _ _
  obtain ⟨map, holds, answers, -, distinct, -⟩ := performAll_refines backed declared_rate
    (by decide) conforms_rateStore apart fits_rateCalls
  have computed : (performAll rates rateCalls rateStore).1 = rateAnswers := rfl
  exact ⟨map, holds, answers.symm.trans computed, distinct⟩

end RowCall

end OData
