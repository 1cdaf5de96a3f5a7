import OData.Options.Limits
import OData.Json.Basic

/-!
# Limits in JSON

An object may give any of the limits, and an array the first ones of them; those that are left
out keep their standard value.  A member that is no limit is refused.
-/

set_option autoImplicit false

namespace OData.QueryLimits

def fields : List String :=
  ["max_filter_length", "max_filter_nodes", "max_orderby_fields", "max_select_fields",
    "max_expand_depth"]

def setMember (limits : QueryLimits) (name : String) (value : Json) : Option QueryLimits := do
  let n ← value.asUnsigned?
  match name with
  | "max_filter_length" => some { limits with maxFilterLength := n }
  | "max_filter_nodes" => some { limits with maxFilterNodes := n }
  | "max_orderby_fields" => some { limits with maxOrderByFields := n }
  | "max_select_fields" => some { limits with maxSelectFields := n }
  | "max_expand_depth" => some { limits with maxExpandDepth := n }
  | _ => none

def setMembers (limits : QueryLimits) : Json.Members → Option QueryLimits
  | [] => some limits
  | (name, value) :: rest => do setMembers (← limits.setMember name value) rest

def ofJson? (json : Json) : Option QueryLimits := do
  setMembers standard (← json.asWholeRecord? fields)

def toJson (limits : QueryLimits) : Json :=
  .object [("max_filter_length", .int limits.maxFilterLength),
    ("max_filter_nodes", .int limits.maxFilterNodes),
    ("max_orderby_fields", .int limits.maxOrderByFields),
    ("max_select_fields", .int limits.maxSelectFields),
    ("max_expand_depth", .int limits.maxExpandDepth)]

end OData.QueryLimits
