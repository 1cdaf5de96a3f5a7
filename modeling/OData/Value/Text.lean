import OData.Value.Basic
import OData.Number.Shortest
import OData.Text.Base64Url

/-!
# Literals of values

The canonical text of a value in a URL.  A decimal always has a point and a floating-point number
an exponent, so that the text tells the type.
-/

set_option autoImplicit false

namespace OData.Value

/-- The words for the numbers that have no digits. -/
def doubleKeyword (x : Double) : String :=
  if x.isNaN then "NaN" else if x.isNegative then "-INF" else "INF"

/-- Quotes inside a string are written twice. -/
def quoteChars : List Char → List Char
  | [] => []
  | c :: rest => if c = '\'' then '\'' :: '\'' :: quoteChars rest else c :: quoteChars rest

def toChars : Value → List Char
  | null => "null".toList
  | bool b => if b then "true".toList else "false".toList
  | int n => (Decimal.ofInt n.toInt).plainChars
  | decimal d =>
    let chars := d.plainChars
    if chars.contains '.' then chars else chars ++ ['.', '0']
  | double x => if x.isFinite then x.scientific.toList else (doubleKeyword x).toList
  | string s => '\'' :: (quoteChars s.toList ++ ['\''])
  | guid g => g.toChars
  | date d => d.toChars
  | dateTimeOffset i => i.toChars
  | timeOfDay t => t.toChars
  | binary bytes => "binary'".toList ++ (Text.Base64Url.encode bytes).toList ++ ['\'']

def toText (v : Value) : String := String.ofList v.toChars

/-- Widens a number to a type; other values only keep their own type. -/
def coerceTo (ty : PrimitiveType) (v : Value) : Result Value :=
  let mismatch : Result Value :=
    .error (.bad "type_mismatch" ("literal " ++ v.toText ++ " is not compatible with " ++ ty.name))
  match v with
  | null => .ok null
  | int n =>
    match ty with
    | .int32 | .int64 => .ok (int n)
    | .decimal => .ok (decimal (Decimal.ofInt n.toInt))
    | .double => .ok (double (Double.ofInt n.toInt))
    | _ => mismatch
  | decimal d =>
    match ty with
    | .decimal => .ok (decimal d)
    | .double => .ok (double (Double.ofDecimal d))
    | _ => mismatch
  | v => if v.type? = some ty then .ok v else mismatch

end OData.Value
