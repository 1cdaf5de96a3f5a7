import OData.Number.Double

/-!
# JSON documents

Objects keep the order of their members.  `Members.insert` replaces the value of a name that is
there in its place and adds a new name at the end.
-/

set_option autoImplicit false

namespace OData

inductive Json where
  | null
  | bool (b : Bool)
  | int (n : Int)
  | float (x : Double)
  | str (s : String)
  | array (items : List Json)
  | object (members : List (String × Json))
  deriving Inhabited

namespace Json

abbrev Members := List (String × Json)

namespace Members

def get? (members : Members) (name : String) : Option Json :=
  (members.find? (·.1 == name)).map (·.2)

def insert (name : String) (value : Json) : Members → Members
  | [] => [(name, value)]
  | member :: rest =>
    if member.1 = name then (name, value) :: rest else member :: insert name value rest

def ofList (members : List (String × Json)) : Members :=
  members.foldl (fun acc member => acc.insert member.1 member.2) []

/-! A name that is put among the members has the new value, and the other names keep theirs. -/

variable {members : Members} {name other : String} {value : Json}

theorem get?_cons (member : String × Json) :
    get? (member :: members) name =
      if member.1 = name then some member.2 else get? members name := by
  by_cases same : member.1 = name <;> simp [get?, same]

@[simp] theorem get?_insert_self (members : Members) (name : String) (value : Json) :
    (members.insert name value).get? name = some value := by
  induction members with
  | nil => simp [insert, get?_cons]
  | cons member rest ih =>
    rw [insert]
    split
    · simp [get?_cons]
    · next apart => rw [get?_cons, if_neg apart, ih]

theorem get?_insert_of_ne (apart : other ≠ name) :
    (members.insert name value).get? other = members.get? other := by
  induction members with
  | nil => simp [insert, get?_cons, Ne.symm apart]
  | cons member rest ih =>
    rw [insert]
    split
    next same => rw [get?_cons, get?_cons, same, if_neg (Ne.symm apart), if_neg (Ne.symm apart)]
    next => rw [get?_cons, get?_cons, ih]

theorem get?_ofList_of_not_mem {entries : List (String × Json)}
    (outside : name ∉ entries.map Prod.fst) : (ofList entries).get? name = none := by
  have added : ∀ (entries : List (String × Json)) (members : Members),
      name ∉ entries.map Prod.fst →
      (entries.foldl (fun acc entry => acc.insert entry.1 entry.2) members).get? name =
        members.get? name := by
    intro entries
    induction entries with
    | nil => exact fun members _ => rfl
    | cons entry rest ih =>
      intro members outside
      rw [List.map_cons, List.mem_cons, not_or] at outside
      exact (ih _ outside.2).trans (get?_insert_of_ne outside.1)
  exact added entries [] outside

theorem mem_insert {member : String × Json} (among : member ∈ members.insert name value) :
    member = (name, value) ∨ member ∈ members := by
  induction members with
  | nil => exact .inl (List.mem_singleton.mp among)
  | cons first rest ih =>
    rw [insert] at among
    split at among
    · exact (List.mem_cons.mp among).imp_right (List.mem_cons_of_mem _)
    · rcases List.mem_cons.mp among with same | later
      · exact .inr (same ▸ List.mem_cons_self)
      · exact (ih later).imp_right (List.mem_cons_of_mem _)

theorem mem_ofList {entries : List (String × Json)} {member : String × Json}
    (among : member ∈ ofList entries) : member ∈ entries := by
  have added : ∀ (entries : List (String × Json)) (members : Members),
      member ∈ entries.foldl (fun acc entry => acc.insert entry.1 entry.2) members →
        member ∈ entries ∨ member ∈ members := by
    intro entries
    induction entries with
    | nil => exact fun members among => .inr among
    | cons entry rest ih =>
      intro members among
      rcases ih _ among with later | before
      · exact .inl (List.mem_cons_of_mem _ later)
      · rcases mem_insert before with rfl | among
        · exact .inl List.mem_cons_self
        · exact .inr among
  exact (added entries [] among).resolve_right (by simp)

/-- A name that is given one value only has this value. -/
theorem get?_ofList_of_mem {entries : List (String × Json)} (member : (name, value) ∈ entries)
    (only : ∀ other, (name, other) ∈ entries → other = value) :
    (ofList entries).get? name = some value := by
  have added : ∀ (entries : List (String × Json)) (members : Members),
      (∀ other, (name, other) ∈ entries → other = value) →
      (name, value) ∈ entries ∨ members.get? name = some value →
      (entries.foldl (fun acc entry => acc.insert entry.1 entry.2) members).get? name =
        some value := by
    intro entries
    induction entries with
    | nil => exact fun members _ given => given.resolve_left (by simp)
    | cons entry rest ih =>
      intro members only given
      refine ih _ (fun other later => only other (List.mem_cons_of_mem _ later)) ?_
      by_cases same : name = entry.1
      · have value_eq : entry.2 = value := only _ (by rw [same]; exact List.mem_cons_self)
        exact .inr (by rw [same, get?_insert_self, value_eq])
      · rcases given with among | before
        · refine .inl ((List.mem_cons.mp among).resolve_left ?_)
          rintro rfl
          exact same rfl
        · exact .inr ((get?_insert_of_ne same).trans before)
  exact added entries [] only (.inl member)

end Members

def get? (json : Json) (name : String) : Option Json :=
  match json with
  | .object members => Members.get? members name
  | _ => none

def asString? : Json → Option String
  | .str s => some s
  | _ => none

def asArray? : Json → Option (List Json)
  | .array items => some items
  | _ => none

def asObject? : Json → Option Members
  | .object members => some members
  | _ => none

/-- The members of an object, or the items of an array as members of the given names.  Items
beyond the names are left out. -/
def asRecord? (names : List String) : Json → Option Members
  | .object members => some members
  | .array items => some (names.zip items)
  | _ => none

/-- Like `asRecord?`, but an array has no items beyond the names. -/
def asWholeRecord? (names : List String) (json : Json) : Option Members :=
  match json with
  | .array items => if items.length ≤ names.length then json.asRecord? names else none
  | _ => json.asRecord? names

def asBool? : Json → Option Bool
  | .bool b => some b
  | _ => none

def isNull : Json → Bool
  | .null => true
  | _ => false

/-- An integer below `2 ^ 64`. -/
def asUnsigned? : Json → Option Nat
  | .int n => if 0 ≤ n ∧ n < 2 ^ 64 then some n.toNat else none
  | _ => none

theorem lt_of_asUnsigned? {json : Json} {n : Nat} (read : json.asUnsigned? = some n) :
    n < 2 ^ 64 := by
  unfold asUnsigned? at read
  split at read
  · split at read
    next within =>
      cases read
      omega
    next => cases read
  · cases read

/-- An integer of 64 bits with sign. -/
def asInt64? : Json → Option Int
  | .int n => if -2 ^ 63 ≤ n ∧ n < 2 ^ 63 then some n else none
  | _ => none

/-- Any number as a floating-point number. -/
def asDouble? : Json → Option Double
  | .int n => some (Double.ofInt n)
  | .float x => some x
  | _ => none

end Json

end OData
