import OData.Value.Basic

/-!
# Expressions

Syntax trees of filters.  `precedence` is how tightly the outermost operator binds, `nodes` the
size of a tree, and `same` equality of trees up to `Value.same` of their literals.
-/

set_option autoImplicit false

namespace OData

inductive Operator where
  | or
  | and
  | eq
  | ne
  | gt
  | ge
  | lt
  | le
  | add
  | sub
  | mul
  | div
  | mod
  deriving DecidableEq, Repr

namespace Operator

def all : List Operator := [or, and, eq, ne, gt, ge, lt, le, add, sub, mul, div, mod]

def comparisons : List Operator := [eq, ne, gt, ge, lt, le]

def keyword : Operator → String
  | or => "or"
  | and => "and"
  | eq => "eq"
  | ne => "ne"
  | gt => "gt"
  | ge => "ge"
  | lt => "lt"
  | le => "le"
  | add => "add"
  | sub => "sub"
  | mul => "mul"
  | div => "div"
  | mod => "mod"

def ofKeyword? (word : String) : Option Operator := all.find? (·.keyword == word)

theorem ofKeyword?_keyword (op : Operator) : ofKeyword? op.keyword = some op := by
  cases op <;> decide

def precedence : Operator → Nat
  | or => 1
  | and => 2
  | eq | ne | gt | ge | lt | le => 4
  | add | sub => 5
  | mul | div | mod => 6

def isComparison (op : Operator) : Bool := op.precedence == 4

def isLogical (op : Operator) : Bool := op == or || op == and

def isArithmetic (op : Operator) : Bool := decide (5 ≤ op.precedence)

end Operator

/-- Functions that a filter may call. -/
inductive CanonicalFunction where
  | contains
  | startsWith
  | endsWith
  | length
  | toLower
  | toUpper
  | trim
  | concat
  | indexOf
  | substring
  | year
  | month
  | day
  | hour
  | minute
  | second
  | round
  | floor
  | ceiling
  deriving DecidableEq, Repr

namespace CanonicalFunction

def all : List CanonicalFunction :=
  [contains, startsWith, endsWith, length, toLower, toUpper, trim, concat, indexOf, substring,
   year, month, day, hour, minute, second, round, floor, ceiling]

def name : CanonicalFunction → String
  | contains => "contains"
  | startsWith => "startswith"
  | endsWith => "endswith"
  | length => "length"
  | toLower => "tolower"
  | toUpper => "toupper"
  | trim => "trim"
  | concat => "concat"
  | indexOf => "indexof"
  | substring => "substring"
  | year => "year"
  | month => "month"
  | day => "day"
  | hour => "hour"
  | minute => "minute"
  | second => "second"
  | round => "round"
  | floor => "floor"
  | ceiling => "ceiling"

def ofName? (name : String) : Option CanonicalFunction := all.find? (·.name == name)

theorem ofName?_name (f : CanonicalFunction) : ofName? f.name = some f := by cases f <;> decide

def minArguments : CanonicalFunction → Nat
  | contains | startsWith | endsWith | concat | indexOf | substring => 2
  | _ => 1

def maxArguments : CanonicalFunction → Nat
  | substring => 3
  | f => f.minArguments

end CanonicalFunction

/-- Names joined by slashes, each perhaps with a namespace. -/
abbrev PropertyPath := List String

inductive Expr where
  | literal (value : Value)
  | path (path : PropertyPath)
  | binary (op : Operator) (left right : Expr)
  | not (operand : Expr)
  | negate (operand : Expr)
  | member (element : Expr) (items : List Expr)
  | call (function : CanonicalFunction) (arguments : List Expr)
  deriving Inhabited

namespace Expr

def property (name : String) : Expr := path [name]

def and (left right : Expr) : Expr := binary .and left right

def or (left right : Expr) : Expr := binary .or left right

def notPrecedence : Nat := 3
def comparisonPrecedence : Nat := 4
def unaryPrecedence : Nat := 7
def primaryPrecedence : Nat := 8

def precedence : Expr → Nat
  | binary op _ _ => op.precedence
  | not _ => notPrecedence
  | member _ _ => comparisonPrecedence
  | negate _ => unaryPrecedence
  | literal _ | path _ | call _ _ => primaryPrecedence

mutual

def nodes : Expr → Nat
  | literal _ | path _ => 1
  | not e | negate e => 1 + e.nodes
  | binary _ l r => 1 + l.nodes + r.nodes
  | member e items => 1 + e.nodes + nodesOfList items
  | call _ arguments => 1 + nodesOfList arguments

def nodesOfList : List Expr → Nat
  | [] => 0
  | e :: rest => e.nodes + nodesOfList rest

end

mutual

def same : Expr → Expr → Bool
  | literal v, literal w => v.same w
  | path p, path q => p == q
  | binary op l r, binary op' l' r' => op == op' && l.same l' && r.same r'
  | not e, not e' => e.same e'
  | negate e, negate e' => e.same e'
  | member e items, member e' items' => e.same e' && sameLists items items'
  | call f arguments, call f' arguments' => f == f' && sameLists arguments arguments'
  | _, _ => false

def sameLists : List Expr → List Expr → Bool
  | [], [] => true
  | e :: rest, e' :: rest' => e.same e' && sameLists rest rest'
  | _, _ => false

end

end Expr

end OData
