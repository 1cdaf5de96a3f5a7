import OData.Proofs.Bound.Integers
import OData.Proofs.Number.Double
import OData.Proofs.Value.Order

/-!
# Values alike in arithmetic

Two values are alike if they are the same or two zeros.  Comparisons do not tell them apart, and
arithmetic gives results that are alike.
-/

set_option autoImplicit false

namespace OData.Value

inductive Alike : Value → Value → Prop
  | refl (v : Value) : Alike v v
  | double {x y : Double} (alike : Double.Alike x y) : Alike (double x) (double y)

/-- Whether a value is no decimal of negative scale: one with zeros in front of its point that are
no digits. -/
def isPlaced : Value → Bool
  | decimal d => decide (0 ≤ d.scale)
  | _ => true

theorem arithmetic_null (op : Operator) (v : Value) : arithmetic op v null = null := by
  cases v <;> rfl

theorem null_arithmetic (op : Operator) (v : Value) : arithmetic op null v = null := by
  cases v <;> rfl

theorem bool_arithmetic (op : Operator) (b : Bool) (v : Value) :
    arithmetic op (bool b) v = null := by
  cases v <;> rfl

theorem arithmetic_bool (op : Operator) (v : Value) (b : Bool) :
    arithmetic op v (bool b) = null := by
  cases v <;> rfl

/-- Division by either zero gives null. -/
theorem alike_doubleArithmetic (op : Operator) {x x' y y' : Double} (left : Double.Alike x x')
    (right : Double.Alike y y') :
    Alike (doubleArithmetic op x y) (doubleArithmetic op x' y') := by
  have divided : ∀ f : Double → Double → Double, (∀ d, Double.Alike (f x d) (f x' d)) →
      Alike (if y.isZero then null else double (f x y))
        (if y'.isZero then null else double (f x' y')) := by
    intro f each
    cases right with
    | refl =>
      split
      · exact .refl _
      · exact .double (each y)
    | zeros zero zero' =>
      rw [if_pos zero, if_pos zero']
      exact .refl _
  cases op with
  | add => exact .double (left.add right)
  | sub => exact .double (left.sub right)
  | mul => exact .double (left.mul right)
  | div => exact divided Double.div left.div
  | mod => exact divided Double.rem left.rem
  | _ => exact .refl _

namespace Alike

variable {a a' b b' : Value}

theorem isNull_eq (alike : Alike a b) : a.isNull = b.isNull := by
  cases alike <;> rfl

theorem compare_eq (left : Alike a a') (right : Alike b b') : a.compare b = a'.compare b' := by
  cases left with
  | refl =>
    cases right with
    | refl => rfl
    | double alike =>
      cases a with
      | int n => exact Double.Alike.compare_eq (.refl _) alike
      | decimal d => exact Double.Alike.compare_eq (.refl _) alike
      | double x => exact Double.Alike.compare_eq (.refl _) alike
      | _ => rfl
  | double alike =>
    cases right with
    | refl =>
      cases b with
      | int n => exact Double.Alike.compare_eq alike (.refl _)
      | decimal d => exact Double.Alike.compare_eq alike (.refl _)
      | double x => exact Double.Alike.compare_eq alike (.refl _)
      | _ => rfl
    | double other => exact Double.Alike.compare_eq alike other

theorem arithmetic (op : Operator) (left : Alike a a') (right : Alike b b') :
    Alike (Value.arithmetic op a b) (Value.arithmetic op a' b') := by
  cases left with
  | refl =>
    cases right with
    | refl => exact .refl _
    | double alike =>
      cases a with
      | int n => exact alike_doubleArithmetic op (.refl _) alike
      | decimal d => exact alike_doubleArithmetic op (.refl _) alike
      | double x => exact alike_doubleArithmetic op (.refl _) alike
      | _ => exact .refl _
  | double alike =>
    cases right with
    | refl =>
      cases b with
      | int n => exact alike_doubleArithmetic op alike (.refl _)
      | decimal d => exact alike_doubleArithmetic op alike (.refl _)
      | double x => exact alike_doubleArithmetic op alike (.refl _)
      | _ => exact .refl _
    | double other => exact alike_doubleArithmetic op alike other

/-- Zero minus a value is the negated value; a decimal of negative scale would lose its scale. -/
theorem negate (alike : Alike a b) (placed : a.isPlaced = true) :
    Alike a.negate (Value.arithmetic .sub (int 0) b) := by
  cases alike with
  | refl =>
    cases a with
    | int n =>
      have same : Value.arithmetic .sub (int 0) (int n) = Value.negate (int n) := by
        rw [Value.arithmetic, integerArithmetic, checkedArithmetic, Int64.toInt_zero, Int.zero_sub,
          Value.negate]
        cases checkedInt? (-n.toInt) with
        | some m => rfl
        | none => rw [Option.map_none, Option.getD_none, decimalArithmetic, Decimal.sub_ofInt,
            Int.zero_sub, Decimal.neg_ofInt]
      rw [same]
      exact .refl _
    | decimal d =>
      have scale : 0 ≤ d.scale := of_decide_eq_true placed
      have whole : max 0 d.scale = d.scale := Int.max_eq_right scale
      have same : Value.arithmetic .sub (int 0) (decimal d) = decimal d.neg := by
        rw [Value.arithmetic, decimalArithmetic, Decimal.sub, Decimal.neg]
        simp [Decimal.digitsAt, Decimal.ofInt, whole]
      rw [same]
      exact .refl _
    | double x => exact .double ((Double.Alike.refl x).neg (by decide +kernel))
    | _ => exact .refl _
  | double alike => exact .double (alike.neg (by decide +kernel))

end Alike

/-- With its scale, -7E23 converts to a floating-point number that is off by one place. -/
example : (decimal ⟨7, -23⟩).negate.compare (double (Double.ofInt (-7 * 10 ^ 23))) = some .gt ∧
    (Value.arithmetic .sub (int 0) (decimal ⟨7, -23⟩)).compare
      (double (Double.ofInt (-7 * 10 ^ 23))) = some .eq := by
  decide +kernel

end OData.Value
