import OData.Proofs.Number.Rational
import OData.Value.Basic

/-!
# Comparing values

Null compares with nothing.  A value that is equal to any value is equal to itself; only null and
NaN are not.  Values other than null and floating-point numbers compare exactly: integers and
decimals as the numbers they stand for, all others by their contents.  Each has a point, and two of
them are equal if and only if their points are, so that equality is an equivalence across
representations.
-/

set_option autoImplicit false

namespace OData

theorem Decimal.compare_self (d : Decimal) : d.compare d = .eq := by
  simp [compare]

theorem Guid.compare_self (g : Guid) : g.compare g = .eq := by
  simp [compare]

theorem Date.compare_self (d : Date) : d.compare d = .eq := by
  simp [compare]

theorem TimeOfDay.compare_self (t : TimeOfDay) : t.compare t = .eq := by
  simp [compare]

theorem Instant.compare_self (i : Instant) : i.compare i = .eq := by
  rw [compare, Date.compare_self, TimeOfDay.compare_self]
  rfl

theorem Double.compare_self {x : Double} (number : x.isNaN = false) :
    x.compare x = some .eq := by
  simp [compare, number]

theorem Double.isNaN_of_compare {x y : Double} {order : Ordering}
    (compared : x.compare y = some order) : x.isNaN = false ∧ y.isNaN = false := by
  rw [compare] at compared
  split at compared
  next => cases compared
  next numbers => simpa using numbers

namespace Value

theorem isNull_iff {v : Value} : v.isNull = true ↔ v = null := by
  cases v <;> simp [isNull]

theorem compare_null (v : Value) : v.compare null = none := by
  cases v <;> rfl

theorem null_compare (v : Value) : null.compare v = none := by
  cases v <;> rfl

theorem isNull_of_compare {v w : Value} (equal : v.compare w = some .eq) : v.isNull = false := by
  cases null : v.isNull with
  | false => rfl
  | true =>
    rw [isNull_iff.mp null, null_compare] at equal
    cases equal

def isNaN : Value → Bool
  | double x => x.isNaN
  | _ => false

/-- Whether a value compares with itself. -/
def isOrdered : Value → Bool
  | null => false
  | double x => !x.isNaN
  | _ => true

theorem isOrdered_of_compare {v w : Value} {order : Ordering}
    (compared : v.compare w = some order) : v.isOrdered = true ∧ w.isOrdered = true := by
  cases v <;> cases w <;> first
    | exact ⟨rfl, rfl⟩
    | cases compared
    | simp [isOrdered, Double.isNaN_of_compare compared]

theorem compare_self {v : Value} (ordered : v.isOrdered = true) : v.compare v = some .eq := by
  cases v with
  | null => cases ordered
  | double x => exact Double.compare_self (by simpa [isOrdered] using ordered)
  | bool b => cases b <;> rfl
  | int n => exact congrArg some Std.ReflCmp.compare_self
  | decimal d => exact congrArg some d.compare_self
  | string s => exact congrArg some Std.ReflCmp.compare_self
  | guid g => exact congrArg some g.compare_self
  | date d => exact congrArg some d.compare_self
  | dateTimeOffset i => exact congrArg some i.compare_self
  | timeOfDay t => exact congrArg some t.compare_self
  | binary bytes => exact congrArg some Std.ReflCmp.compare_self

end Value

/-! ## Exact values -/

theorem Guid.compare_eq_iff (g h : Guid) : g.compare h = .eq ↔ g = h := by
  rw [compare, Std.LawfulEqCmp.compare_eq_iff_eq, BitVec.toNat_inj]
  constructor
  · intro same
    cases g
    cases h
    exact congrArg _ same
  · exact congrArg _

theorem Date.compare_eq_iff (d e : Date) : d.compare e = .eq ↔ d = e := by
  simp only [compare, Ordering.then_eq_eq, Std.LawfulEqCmp.compare_eq_iff_eq]
  cases d
  cases e
  simp

theorem TimeOfDay.compare_eq_iff (t u : TimeOfDay) : t.compare u = .eq ↔ t = u := by
  simp only [compare, Ordering.then_eq_eq, Std.LawfulEqCmp.compare_eq_iff_eq]
  cases t
  cases u
  simp

theorem Instant.compare_eq_iff (i j : Instant) : i.compare j = .eq ↔ i = j := by
  rw [compare, Ordering.then_eq_eq, Date.compare_eq_iff, TimeOfDay.compare_eq_iff]
  cases i
  cases j
  simp

namespace Value

/-- Neither null nor a floating-point number. -/
def isExact : Value → Bool
  | null => false
  | double _ => false
  | _ => true

theorem isExact_of_type? {v : Value} (present : v.isNull = false) (other : v.type? ≠ some .double) :
    v.isExact = true := by
  cases v with
  | null => cases present
  | double x => exact absurd rfl other
  | _ => rfl

theorem not_double_of_isExact {v : Value} (exact : v.isExact = true) :
    v.type? ≠ some .double := by
  cases v with
  | double x => cases exact
  | _ => nofun

/-- What an exact value stands for: a number, or itself. -/
def point : Value → ℚ ⊕ Value
  | int n => .inl n.toInt
  | decimal d => .inl d.toRat
  | v => .inr v

theorem compare_eq_iff {v w : Value} (exact : v.isExact = true) (other : w.type? ≠ some .double) :
    v.compare w = some .eq ↔ v.point = w.point := by
  cases w with
  | null => cases v <;> simp_all [compare_null, point, isExact]
  | double x => exact absurd rfl other
  | int m =>
    cases v with
    | int n => simp [compare, point, Std.LawfulEqCmp.compare_eq_iff_eq]
    | decimal d => simp [compare, point, Decimal.compare_eq_iff, Decimal.toRat_ofInt]
    | _ => simp_all [compare, point, isExact]
  | decimal e =>
    cases v with
    | int n => simp [compare, point, Decimal.compare_eq_iff, Decimal.toRat_ofInt]
    | decimal d => simp [compare, point, Decimal.compare_eq_iff]
    | _ => simp_all [compare, point, isExact]
  | bool c => cases v <;> simp_all [compare, point, isExact, Std.LawfulEqCmp.compare_eq_iff_eq]
  | string t => cases v <;> simp_all [compare, point, isExact, Std.LawfulEqCmp.compare_eq_iff_eq]
  | guid h => cases v <;> simp_all [compare, point, isExact, Guid.compare_eq_iff]
  | date e => cases v <;> simp_all [compare, point, isExact, Date.compare_eq_iff]
  | dateTimeOffset j => cases v <;> simp_all [compare, point, isExact, Instant.compare_eq_iff]
  | timeOfDay u => cases v <;> simp_all [compare, point, isExact, TimeOfDay.compare_eq_iff]
  | binary bytes =>
    cases v <;> simp_all [compare, point, isExact, Std.LawfulEqCmp.compare_eq_iff_eq]

end Value

end OData
