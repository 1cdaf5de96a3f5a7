import OData.Expr.Basic
import OData.Text.LetterCase
import OData.Text.Utf8

/-!
# Arithmetic and functions

Numbers are computed as integers, else as decimals, else as floating-point numbers, the widest
operand deciding; an integer result beyond 64 bits becomes a decimal.  Division by zero, and any
operand that has no place, give null.
-/

set_option autoImplicit false

namespace OData.Value

/-- An integer if it has 64 bits. -/
def checkedInt? (n : Int) : Option Int64 :=
  if -2 ^ 63 ≤ n ∧ n < 2 ^ 63 then some (Int64.ofInt n) else none

/-- The result of an operation in 64 bits, null for a division by zero.  There is none if the
result has more bits or, for a remainder, if the quotient has. -/
def checkedArithmetic (op : Operator) (a b : Int64) : Option Value :=
  match op with
  | .add => (checkedInt? (a.toInt + b.toInt)).map int
  | .sub => (checkedInt? (a.toInt - b.toInt)).map int
  | .mul => (checkedInt? (a.toInt * b.toInt)).map int
  | .div => if b = 0 then some null else (checkedInt? (a.toInt.tdiv b.toInt)).map int
  | .mod =>
    if b = 0 then some null
    else do
      let _ ← checkedInt? (a.toInt.tdiv b.toInt)
      (checkedInt? (a.toInt.tmod b.toInt)).map int
  | _ => some null

def decimalArithmetic (op : Operator) (a b : Decimal) : Value :=
  match op with
  | .add => decimal (a.add b)
  | .sub => decimal (a.sub b)
  | .mul => decimal (a.mul b)
  | .div => if b.isZero then null else decimal (a.div b)
  | .mod => if b.isZero then null else decimal (a.rem b)
  | _ => null

/-- Integers are computed in 64 bits, and as decimals where these do not do. -/
def integerArithmetic (op : Operator) (a b : Int64) : Value :=
  (checkedArithmetic op a b).getD
    (decimalArithmetic op (Decimal.ofInt a.toInt) (Decimal.ofInt b.toInt))

def doubleArithmetic (op : Operator) (x y : Double) : Value :=
  match op with
  | .add => double (x.add y)
  | .sub => double (x.sub y)
  | .mul => double (x.mul y)
  | .div => if y.isZero then null else double (x.div y)
  | .mod => if y.isZero then null else double (x.rem y)
  | _ => null

def arithmetic (op : Operator) (a b : Value) : Value :=
  match a, b with
  | int m, int n => integerArithmetic op m n
  | int m, decimal e => decimalArithmetic op (Decimal.ofInt m.toInt) e
  | decimal d, int n => decimalArithmetic op d (Decimal.ofInt n.toInt)
  | decimal d, decimal e => decimalArithmetic op d e
  | double x, double y => doubleArithmetic op x y
  | double x, int n => doubleArithmetic op x (Double.ofInt n.toInt)
  | double x, decimal e => doubleArithmetic op x (Double.ofDecimal e)
  | int m, double y => doubleArithmetic op (Double.ofInt m.toInt) y
  | decimal d, double y => doubleArithmetic op (Double.ofDecimal d) y
  | _, _ => null

def negate : Value → Value
  | int n =>
    match checkedInt? (-n.toInt) with
    | some m => int m
    | none => decimal (Decimal.ofInt n.toInt).neg
  | decimal d => decimal d.neg
  | double x => double x.neg
  | _ => null

/-! ## Strings -/

/-- How many characters there are, as far as 64 bits can tell. -/
def charCount (cs : List Char) : Int64 := (checkedInt? cs.length).getD Int64.maxValue

/-- The place of the first occurrence of `part`. -/
def indexOf? {α : Type} [BEq α] (part : List α) : List α → Option Nat
  | [] => if part.isEmpty then some 0 else none
  | c :: rest => if part.isPrefixOf (c :: rest) then some 0 else (indexOf? part rest).map (· + 1)

def trimmed (s : String) : String :=
  String.ofList ((s.toList.dropWhile Text.isBlank).reverse.dropWhile Text.isBlank).reverse

/-- The characters from a place on, perhaps only so many; places before the start count as it. -/
def substring (s : String) (start : Int) (length : Option Int) : String :=
  let rest := s.toList.drop start.toNat
  match length with
  | some n => String.ofList (rest.take n.toNat)
  | none => String.ofList rest

/-! ## Functions -/

def ofNat (n : Nat) : Value := int (Int64.ofNat n)

def datePart (f : CanonicalFunction) (d : Date) : Value :=
  match f with
  | .year => int (Int64.ofInt d.year)
  | .month => ofNat d.month
  | .day => ofNat d.day
  | _ => null

def timePart (f : CanonicalFunction) (t : TimeOfDay) : Value :=
  match f with
  | .hour => ofNat t.hour
  | .minute => ofNat t.minute
  | .second => ofNat t.second
  | _ => null

def roundDecimal (f : CanonicalFunction) (d : Decimal) : Value :=
  match f with
  | .round => decimal d.round
  | .floor => decimal d.floor
  | .ceiling => decimal d.ceiling
  | _ => null

def roundDouble (f : CanonicalFunction) (x : Double) : Value :=
  match f with
  | .round => double x.round
  | .floor => double x.floor
  | .ceiling => double x.ceiling
  | _ => null

def ofString (f : CanonicalFunction) (s : String) : Value :=
  match f with
  | .length => int (charCount s.toList)
  | .toLower => string (Text.toLower s)
  | .toUpper => string (Text.toUpper s)
  | .trim => string (trimmed s)
  | _ => null

def ofStrings (f : CanonicalFunction) (s t : String) : Value :=
  match f with
  | .contains => bool (indexOf? t.toList s.toList).isSome
  | .startsWith => bool (t.toList.isPrefixOf s.toList)
  | .endsWith => bool (t.toList.isSuffixOf s.toList)
  | .concat => string (s ++ t)
  | .indexOf =>
    match indexOf? (Text.Utf8.encode t) (Text.Utf8.encode s) with
    | some offset => int (charCount (Text.Utf8.charsBefore offset s.toList))
    | none => int (-1)
  | _ => null

/-- The result of a function for its arguments. -/
def call (f : CanonicalFunction) (arguments : List Value) : Value :=
  match arguments with
  | [string s] => ofString f s
  | [date d] => datePart f d
  | [timeOfDay t] => timePart f t
  | [dateTimeOffset i] =>
    match f with
    | .year | .month | .day => datePart f i.date
    | _ => timePart f i.time
  | [int n] => if f = .round ∨ f = .floor ∨ f = .ceiling then int n else null
  | [decimal d] => roundDecimal f d
  | [double x] => roundDouble f x
  | [string s, string t] => ofStrings f s t
  | [string s, int start] =>
    if f = .substring then string (substring s start.toInt none) else null
  | [string s, int start, int length] =>
    if f = .substring then string (substring s start.toInt (some length.toInt)) else null
  | _ => null

end OData.Value
