import OData.Bound.Basic
import OData.Proofs.Bound.Integers

/-!
# What operations give

Arithmetic on integers gives integers, on floating-point numbers such numbers, and each function one
kind of value, if they do not give null.  The static types and the wholeness of integers rest on
these facts alone.
-/

set_option autoImplicit false

namespace OData

namespace Value

/-- Null, or an integer, as a decimal where it has more than 64 bits and perhaps elsewhere. -/
inductive Integral : Value → Prop
  | null : Integral null
  | int (n : Int64) : Integral (int n)
  | decimal (n : Int) : Integral (decimal (Decimal.ofInt n))

theorem integral_ofNat (n : Nat) : Integral (ofNat n) := .int _

theorem integral_integerArithmetic (op : Operator) (a b : Int64) :
    Integral (integerArithmetic op a b) := by
  cases exact : op.onIntegers? a.toInt b.toInt with
  | none =>
    rw [integerArithmetic_of_none exact]
    exact .null
  | some n =>
    rcases integerArithmetic_of_some exact with ⟨m, -, -, result⟩ | ⟨-, result⟩
    · rw [result]
      exact .int m
    · rw [result]
      exact .decimal n

theorem integral_negate (n : Int64) : Integral (negate (int n)) := by
  rcases negate_int n with ⟨m, -, result⟩ | ⟨-, result⟩
  · rw [result]
    exact .int m
  · rw [result]
    exact .decimal _

theorem doubleArithmetic_eq (op : Operator) (x y : Double) :
    doubleArithmetic op x y = null ∨ ∃ z, doubleArithmetic op x y = double z := by
  cases op with
  | add => exact .inr ⟨_, rfl⟩
  | sub => exact .inr ⟨_, rfl⟩
  | mul => exact .inr ⟨_, rfl⟩
  | div =>
    rw [doubleArithmetic]
    split
    · exact .inl rfl
    · exact .inr ⟨_, rfl⟩
  | mod =>
    rw [doubleArithmetic]
    split
    · exact .inl rfl
    · exact .inr ⟨_, rfl⟩
  | _ => exact .inl rfl

end Value

/-! ## Functions -/

/-- The static type of what a function gives, for the one of its first argument. -/
def CanonicalFunction.result? (f : CanonicalFunction) (first : Option PrimitiveType) :
    Option PrimitiveType :=
  match f with
  | .contains | .startsWith | .endsWith => some .boolean
  | .length | .indexOf | .year | .month | .day | .hour | .minute | .second => some .int32
  | .toLower | .toUpper | .trim | .concat | .substring => some .string
  | .round | .floor | .ceiling => first

theorem BoundExpr.type?_call (f : CanonicalFunction) (arguments : List BoundExpr) :
    (call f arguments).type? = f.result? (firstType? arguments) := by
  cases f <;> rfl

/-- What a function gives for its first argument: null, a value of the one type of its results, or
the argument rounded. -/
inductive CanonicalFunction.Gives (f : CanonicalFunction) (first : Option Value) : Value → Prop
  | null : Gives f first .null
  | bool (b : Bool) (type : ∀ t, f.result? t = some .boolean) : Gives f first (.bool b)
  | string (s : String) (type : ∀ t, f.result? t = some .string) : Gives f first (.string s)
  | integer {v : Value} (integral : v.Integral) (type : ∀ t, f.result? t = some .int32) :
    Gives f first v
  | rounded {v w : Value} (argument : v ∈ first) (type : ∀ t, f.result? t = t)
    (kind : w.type? = v.type?) (whole : ∀ d, w = .decimal d → w.Integral) : Gives f first w

namespace Value

section Gives

variable (f : CanonicalFunction) (first : Option Value)

theorem gives_ofString (s : String) : f.Gives first (ofString f s) := by
  cases f with
  | length => exact .integer (.int _) fun _ => rfl
  | toLower => exact .string _ fun _ => rfl
  | toUpper => exact .string _ fun _ => rfl
  | trim => exact .string _ fun _ => rfl
  | _ => exact .null

theorem gives_ofStrings (s t : String) : f.Gives first (ofStrings f s t) := by
  cases f with
  | contains => exact .bool _ fun _ => rfl
  | startsWith => exact .bool _ fun _ => rfl
  | endsWith => exact .bool _ fun _ => rfl
  | concat => exact .string _ fun _ => rfl
  | indexOf =>
    rw [ofStrings]
    split
    · exact .integer (.int _) fun _ => rfl
    · exact .integer (.int _) fun _ => rfl
  | _ => exact .null

theorem gives_datePart (d : Date) : f.Gives first (datePart f d) := by
  cases f with
  | year => exact .integer (.int _) fun _ => rfl
  | month => exact .integer (integral_ofNat _) fun _ => rfl
  | day => exact .integer (integral_ofNat _) fun _ => rfl
  | _ => exact .null

theorem gives_timePart (t : TimeOfDay) : f.Gives first (timePart f t) := by
  cases f with
  | hour => exact .integer (integral_ofNat _) fun _ => rfl
  | minute => exact .integer (integral_ofNat _) fun _ => rfl
  | second => exact .integer (integral_ofNat _) fun _ => rfl
  | _ => exact .null

theorem gives_roundDecimal (d : Decimal) :
    f.Gives (some (decimal d)) (roundDecimal f d) := by
  cases f with
  | round => exact .rounded rfl (fun _ => rfl) rfl fun _ _ => .decimal _
  | floor => exact .rounded rfl (fun _ => rfl) rfl fun _ _ => .decimal _
  | ceiling => exact .rounded rfl (fun _ => rfl) rfl fun _ _ => .decimal _
  | _ => exact .null

theorem gives_roundDouble (x : Double) : f.Gives (some (double x)) (roundDouble f x) := by
  cases f with
  | round => exact .rounded rfl (fun _ => rfl) rfl (by rintro d ⟨⟩)
  | floor => exact .rounded rfl (fun _ => rfl) rfl (by rintro d ⟨⟩)
  | ceiling => exact .rounded rfl (fun _ => rfl) rfl (by rintro d ⟨⟩)
  | _ => exact .null

theorem gives_substring (s : String) : f.Gives first
    (if f = .substring then string s else null) := by
  split
  next substring =>
    subst substring
    exact .string _ fun _ => rfl
  next => exact .null

end Gives

/-- For arguments that it does not take a function gives null. -/
theorem gives_call (f : CanonicalFunction) (values : List Value) :
    f.Gives values.head? (call f values) := by
  unfold call
  split
  next s => exact gives_ofString f _ s
  next d => exact gives_datePart f _ d
  next t => exact gives_timePart f _ t
  next i =>
    split
    · exact gives_datePart _ _ i.date
    · exact gives_datePart _ _ i.date
    · exact gives_datePart _ _ i.date
    · exact gives_timePart f _ i.time
  next n =>
    split
    next rounding =>
      rcases rounding with rfl | rfl | rfl
      · exact .rounded rfl (fun _ => rfl) rfl fun _ _ => .int n
      · exact .rounded rfl (fun _ => rfl) rfl fun _ _ => .int n
      · exact .rounded rfl (fun _ => rfl) rfl fun _ _ => .int n
    next => exact .null
  next d => exact gives_roundDecimal f d
  next x => exact gives_roundDouble f x
  next s t => exact gives_ofStrings f _ s t
  next s start => exact gives_substring f _ _
  next s start length => exact gives_substring f _ _
  next => exact .null

end Value

end OData
