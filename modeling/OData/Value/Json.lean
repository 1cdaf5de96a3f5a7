import OData.Value.Text
import OData.Calendar.Reader
import OData.Json.Writer

/-!
# Values in JSON

`toJson` is the form of a value in a response, `ofJson` reads a member of a body or of a data set
as a value of a given type.
-/

set_option autoImplicit false

namespace OData.Value

def toJson : Value → Json
  | null => .null
  | bool b => .bool b
  | int n => .int n.toInt
  | decimal d => (Json.ofNumeral? d.plain).getD (.str d.plain)
  | double x => if x.isFinite then .float x else .str (doubleKeyword x)
  | string s => .str s
  | guid g => .str g.toText
  | date d => .str d.toText
  | dateTimeOffset i => .str i.toText
  | timeOfDay t => .str t.toText
  | binary bytes => .str (Text.Base64Url.encode bytes)

def int64? (json : Json) : Option Int64 := json.asInt64?.map Int64.ofInt

/-- Numbers are read through their JSON text. -/
def decimalOfJson? : Json → Option Decimal
  | .int n => some (Decimal.ofInt n)
  | .float x => Decimal.ofText? x.mixed
  | .str s => Decimal.ofText? s
  | _ => none

def doubleOfJson? : Json → Option Double
  | .str s =>
    if s = "NaN" then some Double.nan
    else if s = "INF" then some Double.infinity
    else if s = "-INF" then some Double.negativeInfinity
    else none
  | json => json.asDouble?

/-- Reads a member that is not null. -/
def ofJson? (ty : PrimitiveType) (json : Json) : Option Value :=
  match ty with
  | .boolean => json.asBool?.map bool
  | .int32 => do
    let n ← int64? json
    if -2 ^ 31 ≤ n.toInt ∧ n.toInt < 2 ^ 31 then some (int n) else none
  | .int64 => (int64? json).map int
  | .decimal => (decimalOfJson? json).map decimal
  | .double => (doubleOfJson? json).map double
  | .string => json.asString?.map string
  | .guid => do some (guid (← Guid.ofText? (← json.asString?)))
  | .date => do some (date (← Calendar.date? (← json.asString?).toList))
  | .dateTimeOffset => do some (dateTimeOffset (← Calendar.instant? (← json.asString?).toList))
  | .timeOfDay => do some (timeOfDay (← Calendar.time? (← json.asString?).toList))
  | .binary => do some (binary (← Text.Base64Url.decode (← json.asString?)))

def ofJson (ty : PrimitiveType) (json : Json) : Result Value :=
  if json.isNull then .ok null
  else match ofJson? ty json with
    | some v => .ok v
    | none => .error (.bad "invalid_property_value"
        (json.compact ++ " is not a valid " ++ ty.name ++ " value"))

end OData.Value
