import OData.Proofs.Action
import OData.Proofs.Store.Rows
import OData.Proofs.Value.Json

/-!
# Generated keys

A record that comes without its integer key gets the one after the largest of the table, so no row
has it.  The table is full only if a row has the largest integer of 64 bits; integers of 32 bits are
full before, but the key is counted on, to one that is not of its type.
-/

set_option autoImplicit false

namespace OData

namespace EntityType

variable {ty : EntityType} {property : Property} {row : Record}

/-- The only property of a key is named by it, and required. -/
theorem Declared.key_of_single (declared : ty.Declared) (single : ty.keyProperties = [property]) :
    ty.key = [property.name] ∧ property ∈ ty.properties ∧ property.nullable = false := by
  have key : ty.key = [property.name] := by
    rw [← map_name_keyProperties declared.key_subset, single]
    rfl
  have chosen : property.name ∈ ty.key := by
    rw [key]
    exact List.mem_singleton_self _
  obtain ⟨only, among, member, _, required⟩ := declared.exists_key_property chosen
  rw [single] at among
  cases List.mem_singleton.mp among
  exact ⟨key, member, required⟩

theorem exists_int_of_conforms (conforms : ty.Conforms row) (member : property ∈ ty.properties)
    (required : property.nullable = false) (integral : property.type.isIntegral = true) :
    ∃ n, row.value property.name = .int n ∧ property.type.holds (.int n) = true := by
  have accepted := accepts_of_conforms conforms member
  rw [Property.accepts, required] at accepted
  split at accepted
  next => cases accepted
  next =>
    generalize row.value property.name = v at accepted ⊢
    generalize property.type = kind at accepted integral ⊢
    cases v with
    | int n => exact ⟨n, rfl, accepted⟩
    | _ =>
      exfalso
      revert integral accepted
      cases kind <;> nofun

end EntityType

namespace Value

/-- An integer is read again for a type that it is of. -/
theorem ofJson_toJson_int_iff {ty : PrimitiveType} {n : Int64} :
    ofJson ty (int n).toJson = .ok (int n) ↔ ty.holds (int n) = true := by
  rw [ofJson_eq_ok_iff (isNull_toJson rfl)]
  constructor
  · exact PrimitiveType.holds_of_ofJson?
  · intro typed
    obtain ⟨w, read, same⟩ := (exists_ofJson?_iff typed rfl).mpr trivial
    have equal : int n = w := by
      cases w <;> first
        | exact of_decide_eq_true same
    rw [read, equal]

end Value

namespace Table

variable {ty : EntityType} {property : Property} {name : Identifier} {drawn : Guid}
  {record : Record} {table : Table} {n : Int64}

/-- Whether all rows have an integer in a property. -/
def HasIntegers (name : Identifier) (table : Table) : Prop :=
  ∀ row ∈ table, ∃ m, row.value name = .int m

/-- Whether an integer comes after those of all rows, and is the first one that does. -/
structure IsNext (name : Identifier) (table : Table) (n : Int64) : Prop where
  above : ∀ row ∈ table, ∃ m, row.value name = .int m ∧ m.toInt < n.toInt
  first : table = [] ∧ n = 1 ∨ ∃ row ∈ table, ∃ m, row.value name = .int m ∧ n.toInt = m.toInt + 1

theorem largest_nil : largest name [] = none := rfl

/-- The largest integer is that of a row, and no row has a larger one. -/
theorem largest_eq_some {most : Int} (integers : HasIntegers name table)
    (found : largest name table = some most) :
    (∃ row ∈ table, ∃ m, row.value name = .int m ∧ m.toInt = most) ∧
      ∀ row ∈ table, ∃ m, row.value name = .int m ∧ m.toInt ≤ most := by
  obtain ⟨among, bound⟩ := List.max?_eq_some_iff.mp found
  constructor
  · obtain ⟨row, member, read⟩ := List.mem_filterMap.mp among
    obtain ⟨m, value⟩ := integers row member
    rw [value] at read
    exact ⟨row, member, m, value, Option.some.inj read⟩
  · intro row member
    obtain ⟨m, value⟩ := integers row member
    refine ⟨m, value, bound m.toInt (List.mem_filterMap.mpr ⟨row, member, ?_⟩)⟩
    rw [value]
    rfl

theorem largest_eq_none_iff (integers : HasIntegers name table) :
    largest name table = none ↔ table = [] := by
  constructor
  · intro none
    have empty := List.filterMap_eq_nil_iff.mp (List.max?_eq_none_iff.mp none)
    refine List.eq_nil_iff_forall_not_mem.mpr fun row member => ?_
    obtain ⟨m, value⟩ := integers row member
    have read := empty row member
    rw [value] at read
    cases read
  · rintro rfl
    exact largest_nil

/-- There is a next integer unless a row has the largest of 64 bits. -/
theorem nextInteger_cases (integers : HasIntegers name table) :
    ((∃ row ∈ table, row.value name = .int Int64.maxValue) ∧
        nextInteger name table = .error (.driver "key space exhausted")) ∨
      ∃ n, nextInteger name table = .ok (.int n) ∧ IsNext name table n := by
  rw [nextInteger]
  cases found : largest name table with
  | none =>
    refine .inr ⟨1, rfl, ?_, ?_⟩
    all_goals rw [(largest_eq_none_iff integers).mp found]
    · exact fun row member => absurd member (by simp)
    · exact .inl ⟨rfl, rfl⟩
  | some most =>
    obtain ⟨⟨row, member, m, value, rfl⟩, bound⟩ := largest_eq_some integers found
    rw [Option.getD_some]
    by_cases fits : m.toInt + 1 < 2 ^ 63
    · have low := Int64.le_toInt m
      have exact : (Int64.ofInt (m.toInt + 1)).toInt = m.toInt + 1 :=
        Int64.toInt_ofInt_of_le (by omega) fits
      refine .inr ⟨Int64.ofInt (m.toInt + 1), if_pos fits, ?_, ?_⟩
      · intro other among
        obtain ⟨k, read, small⟩ := bound other among
        exact ⟨k, read, by omega⟩
      · exact .inr ⟨row, member, m, value, exact⟩
    · have high := Int64.toInt_lt m
      have full : m = Int64.maxValue := Int64.toInt_inj.mp (by
        rw [Int64.toInt_maxValue]
        omega)
      exact .inl ⟨⟨row, member, full ▸ value⟩, if_neg fits⟩

/-- A next integer that is not of the type of the others is the first one above 32 bits. -/
theorem IsNext.holds_iff {kind : PrimitiveType} (next : IsNext name table n)
    (integral : kind.isIntegral = true)
    (typed : ∀ row ∈ table, kind.holds (row.value name) = true) :
    kind.holds (.int n) = true ↔
      ¬ (kind = .int32 ∧ ∃ row ∈ table, row.value name = .int 2147483647) := by
  cases kind with
  | int64 => exact iff_of_true rfl nofun
  | int32 =>
    have range {m : Int64} : PrimitiveType.int32.holds (.int m) = true ↔
        -2 ^ 31 ≤ m.toInt ∧ m.toInt < 2 ^ 31 := by
      simp [PrimitiveType.holds]
    rw [range]
    constructor
    · rintro ⟨-, small⟩ ⟨-, row, member, value⟩
      obtain ⟨m, read, less⟩ := next.above row member
      cases value.symm.trans read
      have last : Int64.toInt 2147483647 = 2147483647 := rfl
      omega
    · intro below
      rcases next.first with ⟨-, rfl⟩ | ⟨row, member, m, value, succ⟩
      · decide
      · have own := typed row member
        rw [value, range] at own
        have other : m.toInt ≠ 2147483647 := fun same =>
          below ⟨rfl, row, member, value.trans (congrArg Value.int (Int64.toInt_inj.mp same))⟩
        omega
  | _ => cases integral

/-- A key that comes after those of all rows is the key of none. -/
theorem IsNext.not_identifies {key : Key} (next : IsNext name table n)
    (only : key.values = [(name, .int n)]) : ∀ row ∈ table, key.identifies row = false := by
  intro row member
  obtain ⟨m, value, less⟩ := next.above row member
  rw [Bool.eq_false_iff, Ne, Key.identifies_iff, only]
  intro identified
  have equal := identified _ (List.mem_singleton_self _)
  rw [value] at equal
  have same : m.toInt = n.toInt :=
    Std.LawfulEqCmp.compare_eq_iff_eq.mp (Option.some.inj equal)
  omega

/-! ## Records without a key -/

/-- The record that is stored under an integer key. -/
def keyed (ty : EntityType) (property : Property) (record : Record) (n : Int64) : Record :=
  (record.insert property.name (.int n)).fill (ty.properties.map Property.name)

theorem value_keyed_self : (keyed ty property record n).value property.name = .int n := by
  rw [keyed, Record.value_fill, Record.value, Record.get?_insert_self]
  rfl

theorem value_keyed_of_ne (other : name ≠ property.name) :
    (keyed ty property record n).value name = record.value name := by
  rw [keyed, Record.value_fill, Record.value_insert_of_ne other]

theorem generateKey_integral (single : ty.keyProperties = [property])
    (integral : property.type.isIntegral = true) (absent : record.has property.name = false) :
    generateKey ty drawn table record =
      (nextInteger property.name table).map (record.insert property.name) := by
  rw [generateKey, single]
  simp only [absent, integral, Bool.false_eq_true, if_false, if_true]
  cases nextInteger property.name table <;> rfl

theorem create_of_exhausted {text : String} {e : Error} (single : ty.keyProperties = [property])
    (integral : property.type.isIntegral = true) (absent : record.has property.name = false)
    (full : nextInteger property.name table = .error e) :
    create ty text drawn record table = .error e := by
  rw [create, generateKey_integral single integral absent, full]
  rfl

/-- A record without a key is stored under the next integer, which identifies no other row. -/
theorem create_of_next (text : String) (single : ty.keyProperties = [property])
    (integral : property.type.isIntegral = true) (key : ty.key = [property.name])
    (absent : record.has property.name = false)
    (generated : nextInteger property.name table = .ok (.int n))
    (next : IsNext property.name table n) :
    create ty text drawn record table =
        .ok (keyed ty property record n, table ++ [keyed ty property record n]) ∧
      ∃ own, Key.ofRecord ty (keyed ty property record n) = .ok own ∧
        ∀ row ∈ table, own.identifies row = false := by
  obtain ⟨own, made⟩ : ∃ own, Key.ofRecord ty (keyed ty property record n) = .ok own := by
    rw [Key.ofRecord_isOk_iff, key]
    intro name member
    rw [List.mem_singleton.mp member, Record.has, value_keyed_self]
    rfl
  have only : own.values = [(property.name, .int n)] := by
    rw [Key.values_ofRecord made, key, List.map_singleton, value_keyed_self]
  have fresh := next.not_identifies only
  refine ⟨?_, own, made, fresh⟩
  have unknown : ¬ table.any own.identifies = true := by
    rw [List.any_eq_true]
    rintro ⟨row, member, identified⟩
    exact absurd identified (Bool.eq_false_iff.mp (fresh row member))
  refine Result.bind_eq_ok.mpr ⟨_, ?_, Result.bind_eq_ok.mpr ⟨own, made, if_neg unknown⟩⟩
  rw [generateKey_integral single integral absent, generated]
  rfl

end Table

namespace EntitySetDef

open OData.Action Table

variable {set : EntitySetDef} {property : Property} {drawn : Guid} {record : Record}
  {store : Store}

/-- Among conforming rows a record without its integer key is refused only if a row has the largest
integer of 64 bits, and leaves the rows then.  Otherwise it is stored under the next integer, which
is the key of no row; it is read again for the type of the key unless the integers of that type have
32 bits and a row has the largest of them. -/
theorem create_without_key {offered : CapabilitySet} (declared : set.entityType.Declared)
    (single : set.entityType.keyProperties = [property])
    (integral : property.type.isIntegral = true) (backed : set.backing = .table offered)
    (conforming : ∀ row ∈ store.rows set.name.text, set.entityType.Conforms row)
    (absent : record.has property.name = false) :
    ((∃ row ∈ store.rows set.name.text, row.value property.name = .int Int64.maxValue) ∧
        (set.create drawn record).runOn store = (.error (.driver "key space exhausted"), store)) ∨
      ∃ stored n, (set.create drawn record).runOn store =
          (.ok stored, store.put set.name.text (store.rows set.name.text ++ [stored])) ∧
        stored.value property.name = .int n ∧
        (∀ name, name ≠ property.name → stored.value name = record.value name) ∧
        IsNext property.name (store.rows set.name.text) n ∧
        (∃ key, Key.ofRecord set.entityType stored = .ok key ∧
          ∀ row ∈ store.rows set.name.text, key.identifies row = false) ∧
        (Value.ofJson property.type (Value.int n).toJson = .ok (.int n) ↔
          ¬ (property.type = .int32 ∧
            ∃ row ∈ store.rows set.name.text, row.value property.name = .int 2147483647)) := by
  obtain ⟨key, member, required⟩ := declared.key_of_single single
  have integers : ∀ row ∈ store.rows set.name.text, ∃ m, row.value property.name = .int m ∧
      property.type.holds (.int m) = true := fun row among =>
    EntityType.exists_int_of_conforms (conforming row among) member required integral
  have typed : ∀ row ∈ store.rows set.name.text,
      property.type.holds (row.value property.name) = true := by
    intro row among
    obtain ⟨m, value, own⟩ := integers row among
    rw [value]
    exact own
  have run := set.runOn_write_table backed .create
    (Table.create set.entityType set.name.text drawn record) store
  rcases nextInteger_cases fun row among => (integers row among).imp fun _ => And.left with
    ⟨full, exhausted⟩ | ⟨n, generated, next⟩
  · rw [create_of_exhausted single integral absent exhausted] at run
    exact .inl ⟨full, run⟩
  · obtain ⟨created, fresh⟩ :=
      create_of_next set.name.text single integral key absent generated next
    rw [created] at run
    refine .inr ⟨_, n, run, value_keyed_self, fun name => value_keyed_of_ne, next, fresh, ?_⟩
    rw [Value.ofJson_toJson_int_iff, next.holds_iff integral typed]

/-! Tickets with numbers of 32 bits, of which the last one is taken. -/

def ticketNumber : Property := ⟨⟨"number", Eq.refl true⟩, .int32, false⟩

def ticket : EntityType := ⟨⟨"Ticket", Eq.refl true⟩, [ticketNumber], [ticketNumber.name], []⟩

theorem declared_ticket : ticket.Declared := by
  have number : (EntityType.empty ticket.name).addProperty ticketNumber =
      .ok ⟨ticket.name, [ticketNumber], [], []⟩ := rfl
  exact .key [ticketNumber.name] (.property (.empty ticket.name) number)

def tickets : EntitySetDef :=
  ⟨⟨"Tickets", Eq.refl true⟩, ticket, [], .table .all, .all, none⟩

def ticketStore : Store := ⟨[("Tickets", [[(ticketNumber.name, .int 2147483647)]])], []⟩

theorem conforms_ticketStore : ∀ row ∈ ticketStore.rows "Tickets", ticket.Conforms row := by
  intro row member property among
  rw [List.mem_singleton.mp member, List.mem_singleton.mp among]
  exact ⟨.int 2147483647, rfl, rfl⟩

/-- A ticket without a number is stored under one that is not of 32 bits. -/
theorem not_ofJson_create_ticket :
    (tickets.entityType.Declared ∧ tickets.entityType.keyProperties = [ticketNumber] ∧
      ticketNumber.type.isIntegral = true ∧ tickets.backing = .table .all ∧
      (∀ row ∈ ticketStore.rows tickets.name.text, tickets.entityType.Conforms row) ∧
      Record.has [] ticketNumber.name = false) ∧
    ∃ stored n, (tickets.create .nil []).runOn ticketStore =
        (.ok stored, ticketStore.put "Tickets" (ticketStore.rows "Tickets" ++ [stored])) ∧
      stored.value ticketNumber.name = .int n ∧
      Value.ofJson ticketNumber.type (Value.int n).toJson ≠ .ok (.int n) := by
  refine ⟨⟨declared_ticket, rfl, rfl, rfl, conforms_ticketStore, rfl⟩, ?_⟩
  have declared : tickets.entityType.Declared := declared_ticket
  have conforming : ∀ row ∈ ticketStore.rows tickets.name.text, tickets.entityType.Conforms row :=
    conforms_ticketStore
  have absent : Record.has [] ticketNumber.name = false := rfl
  rcases create_without_key declared rfl rfl rfl conforming absent with
    ⟨⟨row, member, full⟩, _⟩ | ⟨stored, n, run, value, -, -, -, accepted⟩
  · rw [List.mem_singleton.mp member] at full
    exact absurd (Value.int.inj full) (by decide)
  · refine ⟨stored, n, run, value, fun read => ?_⟩
    exact accepted.mp read ⟨rfl, _, List.mem_singleton_self _, rfl⟩

end EntitySetDef

end OData
