import OData.Number.Shortest
import OData.Sql.Basic
import OData.Text.Hex

/-!
# Text of SQL queries

Values are written as literals, or as question marks to be filled in later.  An operand of an
operator is put in parentheses unless it plainly binds tighter, or is the left operand of the
same associative operator.
-/

set_option autoImplicit false

namespace OData

namespace TimeOfDay

/-- The fraction of a second in six digits. -/
def microsecondChars (t : TimeOfDay) : List Char :=
  '.' :: Date.padded 6 (t.nanoseconds % nanosecondsPerSecond / 1000)

def sqlChars (t : TimeOfDay) : List Char := t.clockChars ++ t.microsecondChars

end TimeOfDay

namespace Value

def sqlQuoted (cs : List Char) : String := String.ofList ('\'' :: (quoteChars cs ++ ['\'']))

def sqlDouble (x : Double) : String :=
  if x.isFinite then x.positional
  else if x.isNaN then "NaN"
  else if x.isNegative then "-inf"
  else "inf"

/-- The literal of a value. -/
def sqlLiteral : Value → String
  | null => "NULL"
  | bool b => if b then "TRUE" else "FALSE"
  | int n => toString n.toInt
  | decimal d => d.compact
  | double x => sqlDouble x
  | string s => sqlQuoted s.toList
  | guid g => sqlQuoted g.toChars
  | date d => sqlQuoted d.toChars
  | dateTimeOffset i =>
    sqlQuoted (i.date.toChars ++ ' ' :: (i.time.sqlChars ++ " +00:00".toList))
  | timeOfDay t => sqlQuoted t.sqlChars
  | binary bytes => "x'" ++ String.ofList (bytes.flatMap Text.Hex.upperByte) ++ "'"

end Value

def Operator.sqlSymbol : Operator → String
  | .or => "OR"
  | .and => "AND"
  | .eq => "="
  | .ne => "<>"
  | .gt => ">"
  | .ge => ">="
  | .lt => "<"
  | .le => "<="
  | .add => "+"
  | .sub => "-"
  | .mul => "*"
  | .div => "/"
  | .mod => "%"

def SqlFunction.name : SqlFunction → String
  | .lower => "LOWER"
  | .upper => "UPPER"
  | .length => "LENGTH"
  | .trim => "TRIM"
  | .round => "ROUND"
  | .coalesce => "COALESCE"

/-- The operators of conditions, by how they bind. -/
inductive SqlOperator where
  | plain (op : Operator)
  | member
  | like
  | is
  deriving DecidableEq, Repr

namespace SqlOperator

/-- Whether an operand under `inner` is clear without parentheses beside `outer`. -/
def bindsTighter (inner outer : SqlOperator) : Bool :=
  match inner, outer with
  | plain i, plain o =>
    (i.isArithmetic && (o.isComparison || o.isLogical)) || (i.isComparison && o.isLogical)
  | plain i, member | plain i, like => i.isArithmetic
  | plain _, is => false
  | _, plain o => o.isLogical
  | _, _ => false

/-- Whether operands of the same operator may be joined from the left. -/
def associates : SqlOperator → Bool
  | plain .and | plain .or | plain .add | plain .sub | plain .mul | plain .mod => true
  | _ => false

end SqlOperator

/-- How a literal is written. -/
abbrev ValueStyle := Value → String

def literalStyle : ValueStyle := Value.sqlLiteral

def parameterStyle : ValueStyle := fun _ => "?"

def quotedName (name : Identifier) : String := "\"" ++ name.text ++ "\""

namespace SqlExpr

/-- The outermost operator; none in a single term. -/
def operator? : SqlExpr → Option SqlOperator
  | binary op _ _ => some (.plain op)
  | isNull _ | isNotNull _ => some .is
  | member _ _ => some .member
  | like _ _ => some .like
  | _ => none

/-- Whether an expression is a single term. -/
def isTerm : SqlExpr → Bool
  | column _ | value _ | null | call _ _ => true
  | _ => false

def needsNoParentheses (outer : SqlOperator) (isLeft : Bool) (e : SqlExpr) : Bool :=
  match e.operator? with
  | some inner => inner.bindsTighter outer || (isLeft && inner == outer && outer.associates)
  | none => e.isTerm

def parenthesized (clear : Bool) (text : String) : String :=
  if clear then text else "(" ++ text ++ ")"

def patternSuffix : String := " ESCAPE '\\'"

mutual

def toText (style : ValueStyle) : SqlExpr → String
  | column name => quotedName name
  | value v => style v
  | null => "NULL"
  | never => "1=0"
  | binary op l r =>
    parenthesized (needsNoParentheses (.plain op) true l) (toText style l) ++ " "
      ++ op.sqlSymbol ++ " "
      ++ parenthesized (needsNoParentheses (.plain op) false r) (toText style r)
  | not e => "NOT " ++ toText style e
  | isNull e => parenthesized (needsNoParentheses .is true e) (toText style e) ++ " IS NULL"
  | isNotNull e =>
    parenthesized (needsNoParentheses .is true e) (toText style e) ++ " IS NOT NULL"
  | member e items =>
    parenthesized (needsNoParentheses .member true e) (toText style e) ++ " IN ("
      ++ ", ".intercalate (listTexts style items) ++ ")"
  | like e pattern =>
    parenthesized (needsNoParentheses .like true e) (toText style e) ++ " LIKE "
      ++ style (.string pattern) ++ patternSuffix
  | call f arguments => f.name ++ "(" ++ ", ".intercalate (listTexts style arguments) ++ ")"

def listTexts (style : ValueStyle) : List SqlExpr → List String
  | [] => []
  | e :: rest => toText style e :: listTexts style rest

end

mutual

/-- How many values a condition has. -/
def valueCount : SqlExpr → Nat
  | value _ => 1
  | column _ | null | never => 0
  | binary _ l r => valueCount l + valueCount r
  | not e | isNull e | isNotNull e => valueCount e
  | member e items => valueCount e + listCount items
  | like e _ => valueCount e + 1
  | call _ arguments => listCount arguments

def listCount : List SqlExpr → Nat
  | [] => 0
  | e :: rest => valueCount e + listCount rest

end

end SqlExpr

namespace SqlQuery

def orderText (key : OrderKey) : String :=
  quotedName key.property ++ match key.direction with
    | .ascending => " ASC"
    | .descending => " DESC"

def columnsText : Option (List Identifier) → String
  | some names => ", ".intercalate (names.map quotedName)
  | none => "COUNT(*)"

def pageText (number : Nat → String) : Option (Nat × Nat) → String
  | some (limit, offset) => " LIMIT " ++ number limit ++ " OFFSET " ++ number offset
  | none => ""

def textWith (style : ValueStyle) (number : Nat → String) (q : SqlQuery) : String :=
  "SELECT " ++ columnsText q.columns ++ " FROM " ++ quotedName q.table
    ++ (match q.condition with
      | some e => " WHERE " ++ e.toText style
      | none => "")
    ++ (if q.order.isEmpty then ""
        else " ORDER BY " ++ ", ".intercalate (q.order.map orderText))
    ++ pageText number q.page

/-- The query with its values as literals. -/
def toText (q : SqlQuery) : String := q.textWith literalStyle toString

/-- The query with question marks for its values. -/
def template (q : SqlQuery) : String := q.textWith parameterStyle fun _ => "?"

/-- How many values the template leaves open. -/
def valueCount (q : SqlQuery) : Nat :=
  (match q.condition with
    | some e => e.valueCount
    | none => 0)
  + match q.page with
    | some _ => 2
    | none => 0

end SqlQuery

end OData
