import OData.Expr.Basic
import OData.Value.Text

/-!
# Text of expressions

The canonical text of a tree, with parentheses only where the operators would bind otherwise.
A minus is always followed by a name or a parenthesis.
-/

set_option autoImplicit false

namespace OData

def PropertyPath.toText (p : PropertyPath) : String := "/".intercalate p

namespace Expr

def isName : Expr → Bool
  | path _ | call _ _ => true
  | _ => false

def parenthesizeIf (condition : Bool) (cs : List Char) : List Char :=
  if condition then '(' :: (cs ++ [')']) else cs

def commaSeparated : List (List Char) → List Char
  | [] => []
  | [item] => item
  | item :: rest => item ++ ',' :: ' ' :: commaSeparated rest

mutual

def toChars : Expr → List Char
  | literal v => v.toChars
  | path p => (PropertyPath.toText p).toList
  | binary op l r =>
    parenthesizeIf (decide (l.precedence < op.precedence)) l.toChars
      ++ ' ' :: (op.keyword.toList
      ++ ' ' :: parenthesizeIf (decide (r.precedence ≤ op.precedence)) r.toChars)
  | not e =>
    "not ".toList ++ parenthesizeIf (decide (e.precedence < notPrecedence)) e.toChars
  | negate e => '-' :: parenthesizeIf (!e.isName) e.toChars
  | member e items =>
    parenthesizeIf (decide (e.precedence < comparisonPrecedence)) e.toChars
      ++ " in (".toList ++ commaSeparated (listChars items) ++ [')']
  | call f arguments =>
    f.name.toList ++ '(' :: (commaSeparated (listChars arguments) ++ [')'])

def listChars : List Expr → List (List Char)
  | [] => []
  | e :: rest => e.toChars :: listChars rest

end

/-- The canonical text. -/
def toText (e : Expr) : String := String.ofList e.toChars

end Expr

end OData
