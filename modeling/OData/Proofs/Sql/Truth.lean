import OData.Bound.Evaluate
import OData.Proofs.Value.Alike
import OData.Sql.Basic

/-!
# Truth in filters and in SQL

The value of a condition for one row, with null for the unknown truth value.  A comparison with
null is unknown, `AND`, `OR` and `NOT` are those of three truth values, and `x IN (a, b)` is
`x = a OR x = b`.  Numbers are computed and values compared as in filters.  What a database does
with patterns and with functions of its own is a parameter.

A filter has two truth values, its condition three.  They agree if the condition is true exactly
where the filter is.  A comparison may not agree although its operands do: one of them may be false
for the filter and unknown in SQL.
-/

set_option autoImplicit false

namespace OData

open BoundExpr (isTrue)

/-! ## Conditions of three truth values -/

/-- What a database computes by means of its own. -/
structure SqlDialect where
  like : Value → String → Value
  call : SqlFunction → List Value → Value

namespace SqlExpr

def conjunction : Value → Value → Value
  | .bool false, _ => .bool false
  | _, .bool false => .bool false
  | .bool true, .bool true => .bool true
  | _, _ => .null

def disjunction : Value → Value → Value
  | .bool true, _ => .bool true
  | _, .bool true => .bool true
  | .bool false, .bool false => .bool false
  | _, _ => .null

def negation : Value → Value
  | .null => .null
  | v => .bool (!isTrue v)

/-- Values without an order, such as a number and NaN, are neither equal nor different. -/
def comparison (op : Operator) (a b : Value) : Value :=
  if a.isNull || b.isNull then .null
  else match a.compare b with
    | some order => .bool (op.holds order)
    | none => .bool false

def computation (op : Operator) (a b : Value) : Value :=
  if a.isNull || b.isNull then .null else Value.arithmetic op a b

def apply (op : Operator) (a b : Value) : Value :=
  match op with
  | .and => conjunction a b
  | .or => disjunction a b
  | _ => if op.isComparison then comparison op a b else computation op a b

def membership (v : Value) : List Value → Value
  | [] => .bool false
  | w :: rest => disjunction (comparison .eq v w) (membership v rest)

def coalesce : List Value → Value
  | [] => .null
  | v :: rest => if v.isNull then coalesce rest else v

section Evaluate

variable (dialect : SqlDialect) (row : Record)

mutual

def evaluate : SqlExpr → Value
  | column name => row.value name
  | value v => v
  | null => .null
  | never => .bool false
  | binary op l r => apply op (evaluate l) (evaluate r)
  | not e => negation (evaluate e)
  | isNull e => .bool (evaluate e).isNull
  | isNotNull e => .bool (!(evaluate e).isNull)
  | member e items => membership (evaluate e) (evaluateAll items)
  | like e pattern => dialect.like (evaluate e) pattern
  | call f arguments =>
    if f = .coalesce then coalesce (evaluateAll arguments)
    else dialect.call f (evaluateAll arguments)

def evaluateAll : List SqlExpr → List Value
  | [] => []
  | e :: rest => evaluate e :: evaluateAll rest

end

/-- Whether a query with the condition selects the row: an unknown condition selects none. -/
def selects (condition : SqlExpr) : Bool := isTrue (condition.evaluate dialect row)

end Evaluate

/-! ## Agreement -/

/-- The same value for a filter and its condition, or an unknown condition of a false filter. -/
inductive Agrees : Value → Value → Prop
  | alike {a b : Value} (alike : Value.Alike a b) : Agrees a b
  | unknown : Agrees (.bool false) .null

def IsTruth (v : Value) : Prop := v = .null ∨ ∃ b, v = .bool b

theorem Agrees.isTrue_eq {a b : Value} (agrees : Agrees a b) : isTrue a = isTrue b := by
  cases agrees with
  | alike alike => cases alike <;> rfl
  | unknown => rfl

/-- Whether a value of a filter is known in SQL too. -/
def isKnown (a b : Value) : Bool := a.isNull || !b.isNull

theorem Agrees.alike_of_known {a b : Value} (agrees : Agrees a b) (known : isKnown a b = true) :
    Value.Alike a b := by
  cases agrees with
  | alike alike => exact alike
  | unknown => exact absurd known (by decide)

theorem IsTruth.agrees {v : Value} {b : Bool} (truth : IsTruth v) (same : b = isTrue v) :
    Agrees (.bool b) v := by
  rcases truth with rfl | ⟨c, rfl⟩
  · cases same
    exact .unknown
  · cases c <;> cases same <;> exact .alike (.refl _)

theorem isTruth_conjunction (a b : Value) : IsTruth (conjunction a b) := by
  unfold conjunction IsTruth
  split <;> simp

theorem isTruth_disjunction (a b : Value) : IsTruth (disjunction a b) := by
  unfold disjunction IsTruth
  split <;> simp

theorem isTruth_comparison (op : Operator) (a b : Value) : IsTruth (comparison op a b) := by
  unfold comparison IsTruth
  repeat' split
  all_goals simp

theorem isTruth_membership (v : Value) (items : List Value) : IsTruth (membership v items) := by
  cases items with
  | nil => exact .inr ⟨false, rfl⟩
  | cons w rest => exact isTruth_disjunction _ _

theorem isTrue_conjunction (a b : Value) :
    isTrue (conjunction a b) = (isTrue a && isTrue b) := by
  rcases a with _ | (_ | _) | _ | _ | _ | _ | _ | _ | _ | _ | _ <;>
    rcases b with _ | (_ | _) | _ | _ | _ | _ | _ | _ | _ | _ | _ <;> rfl

theorem isTrue_disjunction (a b : Value) :
    isTrue (disjunction a b) = (isTrue a || isTrue b) := by
  rcases a with _ | (_ | _) | _ | _ | _ | _ | _ | _ | _ | _ | _ <;>
    rcases b with _ | (_ | _) | _ | _ | _ | _ | _ | _ | _ | _ | _ <;> rfl

theorem isTrue_bool (b : Bool) : isTrue (Value.bool b) = b := by
  cases b <;> rfl

theorem compareValues_of_isNull {op : Operator} {a b : Value}
    (null : (a.isNull || b.isNull) = true) : BoundExpr.compareValues op false a b = false := by
  rw [BoundExpr.compareValues, if_neg Bool.false_ne_true]
  rcases (Bool.or_eq_true _ _).mp null with isNull | isNull
  · rw [Value.isNull_iff.mp isNull, Value.null_compare]
  · rw [Value.isNull_iff.mp isNull, Value.compare_null]

/-- A comparison is true if the values of the filter compare so, unless one of them is unknown. -/
theorem isTrue_comparison (op : Operator) {a a' b b' : Value} (left : Agrees a a')
    (right : Agrees b b')
    (met : (isKnown a a' && isKnown b b' || !BoundExpr.compareValues op false a b) = true) :
    isTrue (comparison op a' b') = BoundExpr.compareValues op false a b := by
  rw [comparison]
  by_cases unknown : (a'.isNull || b'.isNull) = true
  · have apart : BoundExpr.compareValues op false a b = false := by
      rcases (Bool.or_eq_true _ _).mp met with known | apart
      · obtain ⟨knownL, knownR⟩ := (Bool.and_eq_true _ _).mp known
        apply compareValues_of_isNull
        rcases (Bool.or_eq_true _ _).mp unknown with isNull | isNull
        · rw [isKnown, isNull, Bool.not_true, Bool.or_false] at knownL
          rw [knownL, Bool.true_or]
        · rw [isKnown, isNull, Bool.not_true, Bool.or_false] at knownR
          rw [knownR, Bool.or_true]
      · rwa [Bool.not_eq_true'] at apart
    rw [if_pos unknown, apart]
    rfl
  · obtain ⟨notL, notR⟩ := Bool.or_eq_false_iff.mp (Bool.eq_false_iff.mpr unknown)
    have alikeL := left.alike_of_known (by rw [isKnown, notL, Bool.not_false, Bool.or_true])
    have alikeR := right.alike_of_known (by rw [isKnown, notR, Bool.not_false, Bool.or_true])
    rw [if_neg unknown, BoundExpr.compareValues, if_neg Bool.false_ne_true,
      alikeL.compare_eq alikeR]
    cases a'.compare b' <;> exact isTrue_bool _

theorem negation_coalesce (v : Value) :
    negation (coalesce [v, .bool false]) = .bool (!isTrue v) := by
  cases v <;> rfl

theorem computation_eq (op : Operator) (a b : Value) :
    computation op a b = Value.arithmetic op a b := by
  rw [computation]
  split
  next unknown =>
    rcases (Bool.or_eq_true _ _).mp unknown with isNull | isNull
    · rw [Value.isNull_iff.mp isNull, Value.null_arithmetic]
    · rw [Value.isNull_iff.mp isNull, Value.arithmetic_null]
  next => rfl

/-- Arithmetic has no place for truth values, so their being unknown is not seen. -/
theorem alike_computation (op : Operator) {a a' b b' : Value} (left : Agrees a a')
    (right : Agrees b b') : Value.Alike (Value.arithmetic op a b) (computation op a' b') := by
  rw [computation_eq]
  cases left with
  | unknown =>
    rw [Value.bool_arithmetic, Value.null_arithmetic]
    exact .refl _
  | alike left =>
    cases right with
    | unknown =>
      rw [Value.arithmetic_bool, Value.arithmetic_null]
      exact .refl _
    | alike right => exact left.arithmetic op right

theorem alike_negate {a a' : Value} (agrees : Agrees a a') (placed : a.isPlaced = true) :
    Value.Alike a.negate (computation .sub (.int 0) a') := by
  rw [computation_eq]
  cases agrees with
  | unknown => exact .refl _
  | alike alike => exact alike.negate placed

theorem compareNull_eq (op : Operator) {a a' : Value} (alike : Value.Alike a a') (b : Value) :
    BoundExpr.compareNull op a' b = BoundExpr.compareNull op a b := by
  cases op <;> simp only [BoundExpr.compareNull, alike.isNull_eq]

theorem compareNull_comm (op : Operator) (a b : Value) :
    BoundExpr.compareNull op a b = BoundExpr.compareNull op b a := by
  cases op <;> simp only [BoundExpr.compareNull, Bool.and_comm]

/-! ## Values of conditions -/

section Evaluate

variable {dialect : SqlDialect} {row : Record} {op : Operator} {l r : SqlExpr}

theorem evaluate_comparison (kind : op.isComparison = true) :
    (binary op l r).evaluate dialect row =
      comparison op (l.evaluate dialect row) (r.evaluate dialect row) := by
  cases op <;> first | rfl | exact absurd kind (by decide)

theorem evaluate_arithmetic (kind : op.isArithmetic = true) :
    (binary op l r).evaluate dialect row =
      computation op (l.evaluate dialect row) (r.evaluate dialect row) := by
  cases op <;> first | rfl | exact absurd kind (by decide)

theorem evaluate_compareNull :
    (compareNull op l).evaluate dialect row =
      .bool (BoundExpr.compareNull op (l.evaluate dialect row) .null) := by
  cases op <;> simp [compareNull, BoundExpr.compareNull, evaluate, Value.isNull]

end Evaluate

end SqlExpr

end OData
