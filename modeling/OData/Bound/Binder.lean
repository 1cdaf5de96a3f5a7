import OData.Bound.Basic
import OData.Options.Basic

/-!
# Binding

`bind` resolves the names of an expression to the properties of an entity type and checks the
types of operands and arguments.  A number that is compared with another type of number is
coerced to it if it is a literal.
-/

set_option autoImplicit false

namespace OData

def typeText : Option PrimitiveType → String
  | some ty => ty.name
  | none => "null"

private def mismatch {α : Type} (message : String) : Result α :=
  .error (.bad "type_mismatch" message)

/-- Whether a numeric literal may meet a value of a type: integers any number, decimals and
floating-point numbers only those that are no integers. -/
def PrimitiveType.literalWidens (literal target : PrimitiveType) : Bool :=
  match literal with
  | .int32 | .int64 => target.isNumeric
  | .decimal | .double => !target.isIntegral
  | _ => literal == target

/-- Whether a function takes a type at a position, counted from zero. -/
def CanonicalFunction.accepts (f : CanonicalFunction) (position : Nat) (ty : PrimitiveType) :
    Bool :=
  match f with
  | .contains | .startsWith | .endsWith | .length | .toLower | .toUpper | .trim | .concat
  | .indexOf => ty == .string
  | .substring => if position = 0 then ty == .string else ty.isIntegral
  | .year | .month | .day => ty == .date || ty == .dateTimeOffset
  | .hour | .minute | .second => ty == .dateTimeOffset || ty == .timeOfDay
  | .round | .floor | .ceiling => ty.isNumeric

namespace EntityType

/-- The property that a path names. -/
def resolve (ty : EntityType) (path : PropertyPath) : Result Property :=
  match path with
  | [name] =>
    match ty.property? name with
    | some property => .ok property
    | none =>
      if (ty.navigation? name).isSome then
        .error (.bad "navigation_not_allowed"
          ("navigation property '" ++ name ++ "' cannot be used as a value"))
      else .error (.bad "unknown_property"
        ("'" ++ name ++ "' is not a property of '" ++ ty.name.text ++ "'"))
  | _ => .error (.bad "unsupported_property_path"
      ("property path '" ++ path.toText ++ "' is not supported here"))

end EntityType

namespace BoundExpr

def literalFits (v : Value) (literal target : PrimitiveType) : Result Value :=
  if literal.literalWidens target then v.coerceTo target
  else mismatch ("literal " ++ v.toText ++ " is not compatible with " ++ target.name)

/-- Coerces the literal among two numbers of different types to the type of the other. -/
def coerceNumbers (l r : BoundExpr) (lt rt : PrimitiveType) : Result (BoundExpr × BoundExpr) :=
  match l, r with
  | literal v, literal w => .ok (literal v, literal w)
  | literal v, r => do pure (literal (← literalFits v lt rt), r)
  | l, literal w => do pure (l, literal (← literalFits w rt lt))
  | l, r => .ok (l, r)

/-- Checks that two operands can be compared. -/
def coercePair (l r : BoundExpr) : Result (BoundExpr × BoundExpr) :=
  match l.type?, r.type? with
  | some lt, some rt =>
    if lt = rt then .ok (l, r)
    else if lt.isNumeric && rt.isNumeric then coerceNumbers l r lt rt
    else mismatch ("cannot compare " ++ lt.name ++ " with " ++ rt.name ++ " in '" ++ l.toText
      ++ " ... " ++ r.toText ++ "'")
  | _, _ => .ok (l, r)

def requireBoolean (e : Expr) (bound : BoundExpr) : Result BoundExpr :=
  if bound.type? = some .boolean then .ok bound
  else mismatch ("'" ++ e.toText ++ "' is " ++ typeText bound.type?
    ++ " where Edm.Boolean is required")

def requireNumber (e : Expr) (bound : BoundExpr) : Result BoundExpr :=
  match bound.type? with
  | none => .ok bound
  | some ty =>
    if ty.isNumeric then .ok bound
    else mismatch ("'" ++ e.toText ++ "' is " ++ ty.name ++ " where a number is required")

def checkCount (f : CanonicalFunction) (count : Nat) : Result Unit :=
  if f.minArguments ≤ count ∧ count ≤ f.maxArguments then .ok ()
  else .error (.bad "invalid_function_arguments"
    (f.name ++ " takes " ++ toString f.minArguments ++ "..=" ++ toString f.maxArguments
      ++ " arguments, got " ++ toString count))

def checkArguments (f : CanonicalFunction) : Nat → List BoundExpr → Result Unit
  | _, [] => .ok ()
  | position, argument :: rest =>
    match argument.type? with
    | none => checkArguments f (position + 1) rest
    | some ty =>
      if f.accepts position ty then checkArguments f (position + 1) rest
      else .error (.bad "invalid_function_arguments"
        (f.name ++ " does not accept " ++ ty.name ++ " as argument "
          ++ toString (position + 1)))

mutual

def bind (ty : EntityType) : Expr → Result BoundExpr
  | .literal v => .ok (literal v)
  | .path p => do
    let found ← ty.resolve p
    pure (property found.name found.type)
  | .binary op l r => do
    if op.isLogical then
      let l ← requireBoolean l (← bind ty l)
      let r ← requireBoolean r (← bind ty r)
      pure (if op = .and then and l r else or l r)
    else if op.isComparison then
      let l ← bind ty l
      let r ← bind ty r
      let (l, r) ← coercePair l r
      pure (compare op l r)
    else
      let l ← requireNumber l (← bind ty l)
      let r ← requireNumber r (← bind ty r)
      pure (arithmetic op l r)
  | .not e => do pure (not (← requireBoolean e (← bind ty e)))
  | .negate e => do pure (negate (← requireNumber e (← bind ty e)))
  | .member e items => do
    let element ← bind ty e
    let (element, items) ← bindItems ty element items
    pure (member element items)
  | .call f arguments => do
    checkCount f arguments.length
    let bound ← bindAll ty arguments
    checkArguments f 0 bound
    pure (call f bound)

/-- Binds each item and coerces it against the element before the next one. -/
def bindItems (ty : EntityType) (element : BoundExpr) :
    List Expr → Result (BoundExpr × List BoundExpr)
  | [] => .ok (element, [])
  | e :: rest => do
    let item ← bind ty e
    let (element, item) ← coercePair element item
    let (element, items) ← bindItems ty element rest
    pure (element, item :: items)

def bindAll (ty : EntityType) : List Expr → Result (List BoundExpr)
  | [] => .ok []
  | e :: rest => do
    let bound ← bind ty e
    pure (bound :: (← bindAll ty rest))

end

/-- Binds a filter, which is true or false. -/
def bindFilter (ty : EntityType) (e : Expr) : Result BoundExpr := do
  let bound ← bind ty e
  if bound.type? = some .boolean then pure bound
  else .error (.bad "filter_not_boolean"
    ("$filter must be Edm.Boolean, found " ++ typeText bound.type?))

end BoundExpr

end OData
