import OData.Bound.Arithmetic
import OData.Bound.Basic
import OData.Record

/-!
# Evaluating bound expressions

The value of an expression for one record.  A comparison with a null operand is false, unless the
null is a literal: then `eq` and `ne` ask whether the other side is null.
-/

set_option autoImplicit false

namespace OData

def Operator.holds (op : Operator) (order : Ordering) : Bool :=
  match op with
  | .eq => order == .eq
  | .ne => order != .eq
  | .gt => order == .gt
  | .ge => order != .lt
  | .lt => order == .lt
  | .le => order != .gt
  | _ => false

namespace BoundExpr

def compareNull (op : Operator) (a b : Value) : Bool :=
  match op with
  | .eq => a.isNull && b.isNull
  | .ne => !(a.isNull && b.isNull)
  | _ => false

def compareValues (op : Operator) (nullLiteral : Bool) (a b : Value) : Bool :=
  if nullLiteral then compareNull op a b
  else match a.compare b with
    | some order => op.holds order
    | none => false

def isTrue : Value → Bool
  | .bool true => true
  | _ => false

mutual

def evaluate (record : Record) : BoundExpr → Value
  | literal v => v
  | property name _ => record.value name
  | compare op l r =>
    .bool (compareValues op (l.isNullLiteral || r.isNullLiteral) (l.evaluate record)
      (r.evaluate record))
  | and l r => .bool (isTrue (l.evaluate record) && isTrue (r.evaluate record))
  | or l r => .bool (isTrue (l.evaluate record) || isTrue (r.evaluate record))
  | not e => .bool (!isTrue (e.evaluate record))
  | arithmetic op l r => Value.arithmetic op (l.evaluate record) (r.evaluate record)
  | negate e => (e.evaluate record).negate
  | member e items =>
    let v := e.evaluate record
    .bool ((evaluateAll record items).any fun w => v.compare w == some .eq)
  | call f arguments => Value.call f (evaluateAll record arguments)

def evaluateAll (record : Record) : List BoundExpr → List Value
  | [] => []
  | e :: rest => e.evaluate record :: evaluateAll record rest

end

/-- Whether an expression is true; null is not. -/
def holds (e : BoundExpr) (record : Record) : Bool := isTrue (e.evaluate record)

end BoundExpr

end OData
