import OData.Identifier
import OData.Value.Basic

/-!
# Records

The stored values of an entity by property name.  A property may be absent, which most operations
read as null.
-/

set_option autoImplicit false

namespace OData

abbrev Record := List (Identifier × Value)

namespace Record

def get? (r : Record) (name : Identifier) : Option Value :=
  (r.find? (·.1 == name)).map (·.2)

/-- The value of a property, null if it is absent. -/
def value (r : Record) (name : Identifier) : Value := (r.get? name).getD .null

def insert (name : Identifier) (v : Value) : Record → Record
  | [] => [(name, v)]
  | (n, w) :: rest => if n = name then (n, v) :: rest else (n, w) :: insert name v rest

def erase (name : Identifier) (r : Record) : Record := r.filter (·.1 != name)

/-- Puts values in place of those of the same names. -/
def insertAll (r : Record) (values : List (Identifier × Value)) : Record :=
  values.foldl (fun acc (name, v) => acc.insert name v) r

/-- Adds null for the names that are absent. -/
def fill (r : Record) (names : List Identifier) : Record :=
  names.foldl (fun acc name => if (acc.get? name).isSome then acc else acc.insert name .null) r

/-- Whether there is a value other than null. -/
def has (r : Record) (name : Identifier) : Bool := !(r.value name).isNull

@[simp] theorem get?_insert_self (r : Record) (name : Identifier) (v : Value) :
    (r.insert name v).get? name = some v := by
  induction r with
  | nil => simp [insert, get?]
  | cons entry rest ih =>
    obtain ⟨n, w⟩ := entry
    by_cases h : n = name
    · simp [insert, get?, h]
    · simp only [insert, h, if_false]
      simpa [get?, h] using ih

@[simp] theorem get?_insert_of_ne (r : Record) {name other : Identifier} (v : Value)
    (h : other ≠ name) : (r.insert name v).get? other = r.get? other := by
  induction r with
  | nil => simp [insert, get?, Ne.symm h]
  | cons entry rest ih =>
    obtain ⟨n, w⟩ := entry
    by_cases hn : n = name
    · subst hn
      simp [insert, get?, Ne.symm h]
    · simp only [insert, hn, if_false]
      by_cases ho : n = other
      · simp [get?, ho]
      · simpa [get?, ho] using ih

end Record

end OData
