import OData.Key

/-!
# Tables

The rows of a set in the order in which they were added, and the operations on them.  A row is
found by the key of its entity; of several such rows the first counts.
-/

set_option autoImplicit false

namespace OData

abbrev Table := List Record

namespace Table

def read (key : Key) (table : Table) : Option Record := table.find? key.identifies

/-- The largest integer among the values of a property. -/
def largest (name : Identifier) (table : Table) : Option Int :=
  (table.filterMap fun row => (row.value name).asInt64?.map Int64.toInt).max?

/-- The integer after the largest one, one in an empty table. -/
def nextInteger (name : Identifier) (table : Table) : Result Value :=
  let next := (largest name table).getD 0 + 1
  if next < 2 ^ 63 then .ok (.int (Int64.ofInt next)) else .error (.driver "key space exhausted")

/-- Completes a record that lacks the only property of its key, if that can be generated: a guid is
the one that was drawn for the record. -/
def generateKey (ty : EntityType) (drawn : Guid) (table : Table) (record : Record) :
    Result Record :=
  match ty.keyProperties with
  | [property] =>
    if record.has property.name then .ok record
    else if property.type.isIntegral then do
      pure (record.insert property.name (← nextInteger property.name table))
    else if property.type = .guid then .ok (record.insert property.name (.guid drawn))
    else .ok record
  | _ => .ok record

def duplicate (name : String) (key : Key) : Error :=
  .bad "duplicate_key" (name ++ key.toText ++ " already exists")

def missing (name : String) (key : Key) : Error :=
  .notFound "entity_not_found" (name ++ key.toText ++ " does not exist")

/-- Adds a row; properties that are absent become null. -/
def create (ty : EntityType) (name : String) (drawn : Guid) (record : Record) (table : Table) :
    Result (Record × Table) := do
  let record ← generateKey ty drawn table record
  let record := record.fill (ty.properties.map Property.name)
  let key ← Key.ofRecord ty record
  if table.any key.identifies then .error (duplicate name key)
  else pure (record, table ++ [record])

/-- Changes the first row with a key. -/
def modify? (key : Key) (change : Record → Record) : Table → Option (Record × Table)
  | [] => none
  | row :: rest =>
    if key.identifies row then some (change row, change row :: rest)
    else (modify? key change rest).map fun (changed, rows) => (changed, row :: rows)

/-- Puts values into the row with a key. -/
def update (name : String) (key : Key) (values : List (Identifier × Value)) (table : Table) :
    Result (Record × Table) :=
  match modify? key (·.insertAll values) table with
  | some changed => .ok changed
  | none => .error (missing name key)

/-- Removes the first row with a key. -/
def remove? (key : Key) : Table → Option (Record × Table)
  | [] => none
  | row :: rest =>
    if key.identifies row then some (row, rest)
    else (remove? key rest).map fun (removed, rows) => (removed, row :: rows)

def delete (name : String) (key : Key) (table : Table) : Result (Record × Table) :=
  match remove? key table with
  | some removed => .ok removed
  | none => .error (missing name key)

end Table

end OData
