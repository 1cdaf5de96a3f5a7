import OData.Options.Basic
import OData.Error

/-!
# Limits of query options

How large the options of a request may be.  A filter inside an expansion is measured by its
canonical text.
-/

set_option autoImplicit false

namespace OData

structure QueryLimits where
  maxFilterLength : Nat
  maxFilterNodes : Nat
  maxOrderByFields : Nat
  maxSelectFields : Nat
  maxExpandDepth : Nat
  deriving DecidableEq, Repr

namespace QueryLimits

def standard : QueryLimits := ⟨2000, 256, 5, 64, 3⟩

/-- Fails with the given error if the condition does not hold. -/
def require (condition : Bool) (code message : String) : Result Unit :=
  if condition then .ok () else .error (.bad code message)

def checkFilterLength (limits : QueryLimits) (filter : String) : Result Unit :=
  require (decide (filter.length ≤ limits.maxFilterLength)) "filter_too_long"
    ("$filter exceeds maximum length of " ++ toString limits.maxFilterLength ++ " characters")

def checkFilterNodes (limits : QueryLimits) (nodes : Nat) : Result Unit :=
  require (decide (nodes ≤ limits.maxFilterNodes)) "filter_too_complex"
    ("$filter has " ++ toString nodes ++ " nodes (max: " ++ toString limits.maxFilterNodes ++ ")")

def checkOrderBy (limits : QueryLimits) (count : Nat) : Result Unit :=
  require (decide (count ≤ limits.maxOrderByFields)) "too_many_orderby_fields"
    ("too many $orderby fields (max: " ++ toString limits.maxOrderByFields ++ ")")

def checkSelect (limits : QueryLimits) (select : Option Select) : Result Unit :=
  match select with
  | some (.properties paths) =>
    require (decide (paths.length ≤ limits.maxSelectFields)) "too_many_select_fields"
      ("too many $select fields (max: " ++ toString limits.maxSelectFields ++ ")")
  | _ => .ok ()

def checkExpandDepth (limits : QueryLimits) (depth : Nat) : Result Unit :=
  require (decide (depth ≤ limits.maxExpandDepth)) "expand_too_deep"
    ("$expand nesting exceeds depth " ++ toString limits.maxExpandDepth)

def checkFilter (limits : QueryLimits) (depth : Nat) : Option Expr → Result Unit
  | some filter => do
    limits.checkFilterNodes filter.nodes
    if 0 < depth then limits.checkFilterLength filter.toText
  | none => .ok ()

mutual

/-- Checks options at a depth of expansion, and the options of their expansions. -/
def check (limits : QueryLimits) (depth : Nat) : QueryOptions → Result Unit
  | ⟨filter, orderBy, select, expand, _, _, _, _⟩ => do
    limits.checkExpandDepth depth
    limits.checkFilter depth filter
    limits.checkOrderBy orderBy.length
    limits.checkSelect select
    limits.checkList (depth + 1) expand

def checkList (limits : QueryLimits) (depth : Nat) : List Expansion → Result Unit
  | [] => .ok ()
  | (_, options) :: rest => do
    limits.check depth options
    limits.checkList depth rest

end

end QueryLimits

end OData
