import OData.Calendar.Basic
import OData.Guid
import OData.Number.Double
import OData.PrimitiveType

/-!
# Values

What a property holds and an expression yields.  `compare` orders values of one type, and numbers
of any types; null compares with nothing.  `sortCompare` is the order for sorting, with nulls
first.  `same` is equality of contents: `1` and `1.0` differ, `1.0` and `1.00` do not.
-/

set_option autoImplicit false

namespace OData

inductive Value where
  | null
  | bool (b : Bool)
  | int (n : Int64)
  | decimal (d : Decimal)
  | double (x : Double)
  | string (s : String)
  | guid (g : Guid)
  | date (d : Date)
  | dateTimeOffset (i : Instant)
  | timeOfDay (t : TimeOfDay)
  | binary (bytes : List UInt8)
  deriving DecidableEq

namespace Value

instance : Inhabited Value := ⟨null⟩

def isNull : Value → Bool
  | null => true
  | _ => false

/-- The type of a value; integers are of 64 bits, and null has no type. -/
def type? : Value → Option PrimitiveType
  | null => none
  | bool _ => some .boolean
  | int _ => some .int64
  | decimal _ => some .decimal
  | double _ => some .double
  | string _ => some .string
  | guid _ => some .guid
  | date _ => some .date
  | dateTimeOffset _ => some .dateTimeOffset
  | timeOfDay _ => some .timeOfDay
  | binary _ => some .binary

def asBool? : Value → Option Bool
  | bool b => some b
  | _ => none

def asString? : Value → Option String
  | string s => some s
  | _ => none

/-- The integer of 64 bits that an integer or a whole decimal is. -/
def asInt64? : Value → Option Int64
  | int n => some n
  | decimal d => d.toInt64?.map Int64.ofInt
  | _ => none

def toDecimal? : Value → Option Decimal
  | int n => some (Decimal.ofInt n.toInt)
  | decimal d => some d
  | double x => x.toDecimal?
  | _ => none

def toDouble? : Value → Option Double
  | int n => some (Double.ofInt n.toInt)
  | decimal d => some (Double.ofDecimal d)
  | double x => some x
  | _ => none

/-- The order of two values that can be compared: as floating-point numbers if one of them is
such a number, else exactly. -/
def compare (a b : Value) : Option Ordering :=
  match a, b with
  | int m, int n => some (Ord.compare m.toInt n.toInt)
  | double x, _ => do x.compare (← b.toDouble?)
  | _, double y => do (← a.toDouble?).compare y
  | int m, decimal e => some ((Decimal.ofInt m.toInt).compare e)
  | decimal d, int n => some (d.compare (Decimal.ofInt n.toInt))
  | decimal d, decimal e => some (d.compare e)
  | bool p, bool q => some (Ord.compare p q)
  | string s, string t => some (Ord.compare s t)
  | guid g, guid h => some (g.compare h)
  | date d, date e => some (d.compare e)
  | dateTimeOffset i, dateTimeOffset j => some (i.compare j)
  | timeOfDay t, timeOfDay u => some (t.compare u)
  | binary p, binary q => some (Ord.compare p q)
  | _, _ => none

/-- Nulls first; values that cannot be compared count as equal. -/
def sortCompare (a b : Value) : Ordering :=
  match a.isNull, b.isNull with
  | true, true => .eq
  | true, false => .lt
  | false, true => .gt
  | false, false => (compare a b).getD .eq

def same (a b : Value) : Bool :=
  match a, b with
  | decimal d, decimal e => d.same e
  | double x, double y => x.same y
  | _, _ => decide (a = b)

end Value

end OData
