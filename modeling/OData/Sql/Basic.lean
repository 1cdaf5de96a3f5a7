import OData.Plan

/-!
# SQL conditions

`translate` turns a bound filter into a condition on the columns of a table.  A condition on
nulls asks whether the other side is null, and a negation sees false where its operand is
unknown.  Functions that databases do not agree on have no SQL form.
-/

set_option autoImplicit false

namespace OData

inductive SqlFunction where
  | lower
  | upper
  | length
  | trim
  | round
  | coalesce
  deriving DecidableEq, Repr

inductive SqlExpr where
  | column (name : Identifier)
  | value (v : Value)
  | null
  /-- A condition that no row satisfies. -/
  | never
  | binary (op : Operator) (left right : SqlExpr)
  | not (operand : SqlExpr)
  | isNull (operand : SqlExpr)
  | isNotNull (operand : SqlExpr)
  | member (element : SqlExpr) (items : List SqlExpr)
  | like (subject : SqlExpr) (pattern : String)
  | call (function : SqlFunction) (arguments : List SqlExpr)
  deriving Inhabited

namespace SqlExpr

def untranslatable (what : String) : Error :=
  .bad "untranslatable_expression" (what ++ " has no SQL translation")

def ofValue : Value → SqlExpr
  | .null => null
  | v => value v

/-- Escapes the characters that have a meaning in patterns. -/
def escapePattern : List Char → List Char
  | [] => []
  | c :: rest =>
    if c = '%' ∨ c = '_' ∨ c = '\\' then '\\' :: c :: escapePattern rest
    else c :: escapePattern rest

/-- The pattern for texts that contain, start with or end with a text. -/
def pattern (f : CanonicalFunction) (text : String) : String :=
  let escaped := escapePattern text.toList
  match f with
  | .startsWith => String.ofList (escaped ++ ['%'])
  | .endsWith => String.ofList ('%' :: escaped)
  | _ => String.ofList ('%' :: (escaped ++ ['%']))

def compareNull (op : Operator) (operand : SqlExpr) : SqlExpr :=
  match op with
  | .eq => isNull operand
  | .ne => isNotNull operand
  | _ => never

def function? : CanonicalFunction → Option SqlFunction
  | .toLower => some .lower
  | .toUpper => some .upper
  | .length => some .length
  | .trim => some .trim
  | .round => some .round
  | _ => none

def isPattern (f : CanonicalFunction) : Bool :=
  f == .contains || f == .startsWith || f == .endsWith

/-- A call has no translation; that of a pattern function has one only for a literal pattern. -/
def unsupported (f : CanonicalFunction) : Error :=
  untranslatable (if isPattern f then f.name ++ " with a non-literal pattern" else f.name)

mutual

def translate : BoundExpr → Result SqlExpr
  | .literal v => .ok (ofValue v)
  | .property name _ => .ok (column name)
  | .compare op l r => do
    if r.isNullLiteral then pure (compareNull op (← translate l))
    else if l.isNullLiteral then pure (compareNull op (← translate r))
    else
      let left ← translate l
      pure (binary op left (← translate r))
  | .arithmetic op l r => do
    let left ← translate l
    pure (binary op left (← translate r))
  | .and l r => do
    let left ← translate l
    pure (binary .and left (← translate r))
  | .or l r => do
    let left ← translate l
    pure (binary .or left (← translate r))
  | .not e => do pure (not (call .coalesce [← translate e, value (.bool false)]))
  | .negate e => do pure (binary .sub (value (.int 0)) (← translate e))
  | .member e items => do
    let list ← translateItems items
    if list.isEmpty then pure never else pure (member (← translate e) list)
  | .call f arguments => translateCall f arguments

/-- The items of a list that are not null. -/
def translateItems : List BoundExpr → Result (List SqlExpr)
  | [] => .ok []
  | item :: rest =>
    if item.isNullLiteral then translateItems rest
    else do
      let first ← translate item
      pure (first :: (← translateItems rest))

def translateCall (f : CanonicalFunction) : List BoundExpr → Result SqlExpr
  | [subject, .literal (.string text)] =>
    if isPattern f then do pure (like (← translate subject) (pattern f text))
    else .error (untranslatable f.name)
  | [argument] =>
    match function? f with
    | some g => do pure (call g [← translate argument])
    | none => .error (unsupported f)
  | _ => .error (unsupported f)

end

end SqlExpr

/-- A query of the rows of one table. -/
structure SqlQuery where
  /-- The columns to select; without them the rows are counted. -/
  columns : Option (List Identifier)
  table : Identifier
  condition : Option SqlExpr
  order : List OrderKey
  /-- How many rows at most, and after how many. -/
  page : Option (Nat × Nat)

namespace SqlQuery

def condition? (plan : QueryPlan) : Result (Option SqlExpr) :=
  match plan.filter with
  | some filter => do pure (some (← SqlExpr.translate filter))
  | none => .ok none

/-- The rows that a plan selects, at most `limit` after the first `offset` ones. -/
def select (set : EntitySetDef) (plan : QueryPlan) (offset limit : Nat) : Result SqlQuery := do
  let columns := plan.select.getD (set.entityType.properties.map Property.name)
  pure ⟨some columns, set.name, ← condition? plan, plan.order, some (limit, offset)⟩

/-- How many rows the filter of a plan admits. -/
def count (set : EntitySetDef) (plan : QueryPlan) : Result SqlQuery := do
  pure ⟨none, set.name, ← condition? plan, [], none⟩

end SqlQuery

end OData
