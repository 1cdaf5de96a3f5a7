import OData.Json.Basic
import OData.Store.Basic
import OData.Value.Json

/-!
# Seeding

A data set is an object with an array of rows for each set.  Its rows are added one after the
other, up to the first that is not valid.
-/

set_option autoImplicit false

namespace OData.Store

def invalidData (message : String) : Error := .configuration "invalid_dataset" message

def readMembers (ty : EntityType) : Record → Json.Members → Result Record
  | record, [] => .ok record
  | record, (name, json) :: rest =>
    match ty.property? name with
    | none => .error (.bad "unknown_property"
        ("'" ++ name ++ "' is not a property of '" ++ ty.name.text ++ "'"))
    | some property => do
      let v ← Value.ofJson property.type json
      readMembers ty (record.insert property.name v) rest

/-- The record of a row, which may lack properties. -/
def readRow (ty : EntityType) (row : Json) : Result Record :=
  match row.asObject? with
  | some members => readMembers ty [] members
  | none => .error (.bad "invalid_body" "row must be a JSON object")

/-- A row with a complete key. -/
def checkedRow (set : EntitySetDef) (row : Json) : Result Record :=
  match readRow set.entityType row with
  | .error e => .error (invalidData (set.name.text ++ ": " ++ e.message))
  | .ok record =>
    match Key.ofRecord set.entityType record with
    | .ok _ => .ok record
    | .error _ => .error (invalidData (set.name.text ++ ": row without complete key"))

/-- Adds rows and counts them. -/
def seedRows (set : EntitySetDef) : List Json → Action Nat
  | [] => pure 0
  | row :: rest => do
    let record ← checkedRow set row
    modify fun store => store.put set.name.text (store.rows set.name.text ++ [record])
    pure ((← seedRows set rest) + 1)

def seedSets (model : Model) : Json.Members → Action Nat
  | [] => pure 0
  | (name, json) :: rest => do
    match model.entitySet? name with
    | none => throw (invalidData ("unknown entity set '" ++ name ++ "'"))
    | some set =>
      match json.asArray? with
      | none => throw (invalidData ("rows of '" ++ name ++ "' must be an array"))
      | some rows => do
        let here ← seedRows set rows
        pure (here + (← seedSets model rest))

/-- Adds the rows of a data set and counts them. -/
def seed (model : Model) (data : Json) : Action Nat :=
  match data.asObject? with
  | some sets => seedSets model sets
  | none => throw (invalidData "dataset must be a JSON object keyed by entity set")

end OData.Store
