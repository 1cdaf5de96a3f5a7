import OData.Plan
import OData.Store.Table

/-!
# The store

The tables of all sets, and which of them were fetched from.  An `Action` reads and changes the
store; what it did before an error stays done.
-/

set_option autoImplicit false

namespace OData

structure Store where
  tables : List (String × Table)
  /-- The sets whose rows were fetched, the last one first. -/
  fetched : List String

abbrev Action := ExceptT Error (StateM Store)

/-- The outcome of an action and the store after it. -/
def Action.runOn {α : Type} (action : Action α) (store : Store) : Result α × Store :=
  StateT.run (ExceptT.run action) store

namespace Store

def empty : Store := ⟨[], []⟩

def rows (store : Store) (name : String) : Table :=
  ((store.tables.find? (·.1 == name)).map (·.2)).getD []

def putTable (name : String) (table : Table) : List (String × Table) → List (String × Table)
  | [] => [(name, table)]
  | entry :: rest =>
    if entry.1 = name then (name, table) :: rest else entry :: putTable name table rest

def put (store : Store) (name : String) (table : Table) : Store :=
  { store with tables := putTable name table store.tables }

theorem find?_putTable_self (name : String) (table : Table) (tables : List (String × Table)) :
    (putTable name table tables).find? (·.1 == name) = some (name, table) := by
  induction tables with
  | nil => simp [putTable]
  | cons entry rest ih =>
    by_cases h : entry.1 = name
    · simp [putTable, h]
    · simp [putTable, h, ih]

theorem find?_putTable_of_ne {name other : String} (table : Table)
    (tables : List (String × Table)) (h : other ≠ name) :
    (putTable name table tables).find? (·.1 == other) = tables.find? (·.1 == other) := by
  induction tables with
  | nil => simp [putTable, Ne.symm h]
  | cons entry rest ih =>
    by_cases hn : entry.1 = name
    · simp [putTable, hn, Ne.symm h]
    · by_cases ho : entry.1 = other
      · simp [putTable, ho, h]
      · simp [putTable, hn, ho, ih]

@[simp] theorem rows_put_self (store : Store) (name : String) (table : Table) :
    (store.put name table).rows name = table := by
  simp [rows, put, find?_putTable_self]

@[simp] theorem rows_put_of_ne (store : Store) {name other : String} (table : Table)
    (h : other ≠ name) : (store.put name table).rows other = store.rows other := by
  simp [rows, put, find?_putTable_of_ne table store.tables h]

end Store

namespace EntitySetDef

/-- The rows of a set. -/
def table (set : EntitySetDef) : Action Table := do
  let store ← get
  pure (store.rows set.name.text)

/-- Whether the medium of a set fails to fetch once more. -/
def fetchFails (set : EntitySetDef) (store : Store) : Bool :=
  match set.backing with
  | .table _ => false
  | .failing fetches => decide (fetches ≤ store.fetched.count set.name.text)

def recordFetch (name : String) (store : Store) : Store :=
  { store with fetched := name :: store.fetched }

/-- At most `limit` of the records that a plan selects, after the first `offset` ones. -/
def fetch (sorting : Sorting) (set : EntitySetDef) (plan : QueryPlan) (offset limit : Nat) :
    Action (List Record) := do
  let store ← get
  if set.fetchFails store then throw (.driver "disk full")
  modify (recordFetch set.name.text)
  match plan.run sorting (store.rows set.name.text) with
  | some selected => pure ((selected.drop offset).take limit)
  | none => throw QueryPlan.unsortable

def read (set : EntitySetDef) (key : Key) : Action (Option Record) := do
  pure ((← set.table).read key)

def count (set : EntitySetDef) (plan : QueryPlan) : Action Nat := do
  pure ((← set.table).countP plan.admits)

/-- Changes the rows of a set, if its medium takes writes of a kind. -/
def write {α : Type} (set : EntitySetDef) (kind : Capability)
    (operation : Table → Result (α × Table)) : Action α := do
  match set.backing with
  | .failing _ => throw (.notImplemented kind)
  | .table _ =>
    let (answer, table) ← operation (← set.table)
    modify (·.put set.name.text table)
    pure answer

def create (set : EntitySetDef) (drawn : Guid) (record : Record) : Action Record :=
  set.write .create (Table.create set.entityType set.name.text drawn record)

def update (set : EntitySetDef) (key : Key) (changes : Record) : Action Record :=
  set.write .update (Table.update set.name.text key changes)

def delete (set : EntitySetDef) (key : Key) : Action Record :=
  set.write .delete (Table.delete set.name.text key)

/-- Assigns foreign keys in the row with a key. -/
def assign (set : EntitySetDef) (key : Key) (values : List (Identifier × Value)) :
    Action Record :=
  set.write .link (Table.update set.name.text key values)

end EntitySetDef

end OData
