import OData.Options.Parser
import OData.Options.Limits

/-!
# Reading query options

The options of a request come as pairs of a name and a decoded value.  Names without a dollar
sign, and `$id`, are no query options.
-/

set_option autoImplicit false

namespace OData.QueryOptions

def isOptionName (name : String) : Bool := name.toList.head? == some '$' && name != "$id"

/-- Reads one option into the options read before it. -/
def readPair (limits : QueryLimits) (o : QueryOptions) (name value : String) :
    Result QueryOptions :=
  match name with
  | "$filter" => do
    limits.checkFilterLength value
    pure { o with filter := some (← Expr.parse value) }
  | "$orderby" => do pure { o with orderBy := ← parseOrderBy value }
  | "$select" => do pure { o with select := some (← parseSelect value) }
  | "$expand" => do pure { o with expand := ← parseExpand value }
  | "$top" => do pure { o with top := some (← parseUnsigned value) }
  | "$skip" => do pure { o with skip := some (← parseUnsigned value) }
  | "$count" => do pure { o with count := ← parseBool value }
  | "$skiptoken" => .ok { o with skipToken := some value }
  | _ =>
    if name = "$format" ∧ (value = "json" ∨ value = "application/json") then .ok o
    else .error (.bad "unsupported_query_option"
      ("query option '" ++ name ++ "' is not supported"))

/-- Reads the pairs in order; no option may come twice. -/
def readPairs (limits : QueryLimits) :
    List String → QueryOptions → List (String × String) → Result QueryOptions
  | _, o, [] => .ok o
  | seen, o, (name, value) :: rest =>
    if isOptionName name then
      if seen.contains name then
        .error (.bad "duplicate_query_option"
          ("query option '" ++ name ++ "' is specified twice"))
      else do
        let o ← readPair limits o name value
        readPairs limits (name :: seen) o rest
    else readPairs limits seen o rest

/-- Options within the limits. -/
def ofPairs (limits : QueryLimits) (pairs : List (String × String)) : Result QueryOptions := do
  let o ← readPairs limits [] empty pairs
  limits.check 0 o
  pure o

end OData.QueryOptions
