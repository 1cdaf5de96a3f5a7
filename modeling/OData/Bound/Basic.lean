import OData.Expr.Text
import OData.Schema.EntityType

/-!
# Bound expressions

Expressions whose names are resolved to properties of one entity type.  `type?` is the static
type of an expression; only null, and arithmetic with nothing but null, has none.
-/

set_option autoImplicit false

namespace OData

inductive BoundExpr where
  | literal (value : Value)
  | property (name : Identifier) (type : PrimitiveType)
  | compare (op : Operator) (left right : BoundExpr)
  | and (left right : BoundExpr)
  | or (left right : BoundExpr)
  | not (operand : BoundExpr)
  | arithmetic (op : Operator) (left right : BoundExpr)
  | negate (operand : BoundExpr)
  | member (element : BoundExpr) (items : List BoundExpr)
  | call (function : CanonicalFunction) (arguments : List BoundExpr)
  deriving Inhabited

namespace BoundExpr

/-- The conjunction of some expressions, from the left. -/
def conjunction : List BoundExpr → Option BoundExpr
  | [] => none
  | first :: rest => some (rest.foldl and first)

def isNullLiteral : BoundExpr → Bool
  | literal .null => true
  | _ => false

/-- The type of a result that may have either type: the wider one of two numbers. -/
def widen : Option PrimitiveType → Option PrimitiveType → Option PrimitiveType
  | some a, some b =>
    match a.numericRank?, b.numericRank? with
    | some m, some n => if n ≤ m then some a else some b
    | none, some _ => some b
    | _, none => some a
  | a, none => a
  | none, b => b

mutual

def type? : BoundExpr → Option PrimitiveType
  | literal v => v.type?
  | property _ ty => some ty
  | compare _ _ _ | and _ _ | or _ _ | not _ | member _ _ => some .boolean
  | arithmetic _ l r => widen l.type? r.type?
  | negate e => e.type?
  | call f arguments =>
    match f with
    | .contains | .startsWith | .endsWith => some .boolean
    | .length | .indexOf | .year | .month | .day | .hour | .minute | .second => some .int32
    | .toLower | .toUpper | .trim | .concat | .substring => some .string
    | .round | .floor | .ceiling => firstType? arguments

def firstType? : List BoundExpr → Option PrimitiveType
  | [] => none
  | e :: _ => e.type?

end

mutual

/-- The syntax tree of a bound expression. -/
def toExpr : BoundExpr → Expr
  | literal v => .literal v
  | property name _ => .path [name.text]
  | compare op l r => .binary op l.toExpr r.toExpr
  | arithmetic op l r => .binary op l.toExpr r.toExpr
  | and l r => .binary .and l.toExpr r.toExpr
  | or l r => .binary .or l.toExpr r.toExpr
  | not e => .not e.toExpr
  | negate e => .negate e.toExpr
  | member e items => .member e.toExpr (toExprs items)
  | call f arguments => .call f (toExprs arguments)

def toExprs : List BoundExpr → List Expr
  | [] => []
  | e :: rest => e.toExpr :: toExprs rest

end

def toText (e : BoundExpr) : String := e.toExpr.toText

end BoundExpr

end OData
