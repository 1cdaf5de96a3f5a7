import OData.Expr.Text
import OData.Value.Reader

/-!
# Parsing expressions

From the loosest to the tightest: `or`, `and`, `not`, comparisons and `in`, sums, products, minus.
Operators that bind alike associate to the left.  Parentheses, `not`, minus and lists may nest
`maxNesting` deep: the readers of each level are built from those of the level inside it.
-/

set_option autoImplicit false

namespace OData.Expr

open Text (Cursor)

abbrev Rule (α : Type) := Cursor → Result (α × Cursor)

/-- What can be read inside one more parenthesis, `not`, minus or list. -/
structure Readers where
  expression : Rule Expr
  negation : Rule Expr
  signed : Rule Expr
  items : Rule (List Expr)

def maxNesting : Nat := 64

/-- Fails where a further level would begin. -/
def tooDeep {α : Type} : Rule α := fun c => c.error "expression is nested too deeply"

namespace Readers

def none : Readers := ⟨tooDeep, tooDeep, tooDeep, tooDeep⟩

/-- Extends an expression to the right as often as it can be. -/
def chain (extend : Expr → Cursor → Result (Option (Expr × Cursor))) : Nat → Expr → Rule Expr
  | 0, left, c => .ok (left, c)
  | fuel + 1, left, c => do
    match ← extend left c with
    | some (longer, next) => chain extend fuel longer next
    | Option.none => .ok (left, c)

/-- The first of the operators whose keyword comes next. -/
def operator? (c : Cursor) : List Operator → Option (Operator × Cursor)
  | [] => Option.none
  | op :: rest =>
    match c.keyword? op.keyword with
    | some next => some (op, next)
    | Option.none => operator? c rest

def extendBinary (operators : List Operator) (operand : Rule Expr) (left : Expr) (c : Cursor) :
    Result (Option (Expr × Cursor)) :=
  match operator? c operators with
  | Option.none => .ok Option.none
  | some (op, next) => do
    let (right, next) ← operand next
    pure (some (binary op left right, next))

/-- Operands joined by some of the operators. -/
def binaryChain (operators : List Operator) (operand : Rule Expr) : Rule Expr := fun c => do
  let (left, next) ← operand c
  chain (extendBinary operators operand) next.rest.length left next

def segmentsFrom : Nat → List String → Rule PropertyPath
  | 0, read, c => .ok (read.reverse, c)
  | fuel + 1, read, c =>
    match c.char? '/' with
    | Option.none => .ok (read.reverse, c)
    | some next =>
      match next.dottedName? with
      | some (name, next) => segmentsFrom fuel (name :: read) next
      | Option.none => next.skipBlanks.error "expected path segment after '/'"

/-- The segments of a path after its first name. -/
def segments (first : String) : Rule PropertyPath := fun c =>
  segmentsFrom c.rest.length [first] c

/-- A path, or a call if a parenthesis follows the name. -/
def nameOrCall (inner : Readers) : Rule Expr := fun c =>
  let start := c.skipBlanks
  match start.dottedName? with
  | Option.none => start.error ("expected expression at '" ++ start.excerpt ++ "'")
  | some (name, next) =>
    match next.char? '(' with
    | some next =>
      match CanonicalFunction.ofName? name with
      | Option.none => start.error ("unknown function '" ++ name ++ "'")
      | some function => do
        let (arguments, next) ← inner.items next
        pure (call function arguments, next)
    | Option.none => do
      let (names, next) ← segments name next
      pure (path names, next)

def primary (inner : Readers) : Rule Expr := fun c =>
  match c.char? '(' with
  | some next => do
    let (e, next) ← inner.expression next
    let next ← next.expectChar ')'
    pure (e, next)
  | Option.none => do
    match ← Value.literal? c with
    | some (value, next) => pure (literal value, next)
    | Option.none => nameOrCall inner c

/-- Whether a minus belongs to a literal. -/
def signsLiteral : List Char → Bool
  | '-' :: c :: rest => c.isDigit || "INF".toList.isPrefixOf (c :: rest)
  | _ => false

def signed' (inner : Readers) : Rule Expr := fun c =>
  let start := c.skipBlanks
  if start.rest.head? = some '-' ∧ signsLiteral start.rest = false then do
    let (e, next) ← inner.signed (start.advance 1)
    pure (negate e, next)
  else primary inner start

def sum (inner : Readers) : Rule Expr :=
  binaryChain [.add, .sub] (binaryChain [.mul, .div, .mod] (signed' inner))

def extendComparison (inner : Readers) (left : Expr) (c : Cursor) :
    Result (Option (Expr × Cursor)) :=
  match c.keyword? "in" with
  | some next => do
    let next ← next.expectChar '('
    let (items, next) ← inner.items next
    if items.isEmpty then next.error "'in' requires at least one value"
    else pure (some (member left items, next))
  | Option.none => extendBinary Operator.comparisons (sum inner) left c

def comparison (inner : Readers) : Rule Expr := fun c => do
  let (left, next) ← sum inner c
  chain (extendComparison inner) next.rest.length left next

def negation' (inner : Readers) : Rule Expr := fun c =>
  match c.keyword? "not" with
  | some next => do
    let (e, next) ← inner.negation next
    pure (not e, next)
  | Option.none => comparison inner c

def expression' (inner : Readers) : Rule Expr :=
  binaryChain [.or] (binaryChain [.and] (negation' inner))

def itemsFrom (item : Rule Expr) : Nat → Rule (List Expr)
  | 0, c => c.skipBlanks.error "expected ')'"
  | fuel + 1, c => do
    let (first, next) ← item c
    match next.char? ',' with
    | some next =>
      let (others, next) ← itemsFrom item fuel next
      pure (first :: others, next)
    | Option.none =>
      let next ← next.expectChar ')'
      pure ([first], next)

/-- Expressions up to a closing parenthesis, perhaps none. -/
def items' (inner : Readers) : Rule (List Expr) := fun c =>
  match c.char? ')' with
  | some next => .ok ([], next)
  | Option.none => itemsFrom (expression' inner) (c.rest.length + 1) c

/-- The readers of a level, from those inside it. -/
def around (inner : Readers) : Readers :=
  ⟨expression' inner, negation' inner, signed' inner, items' inner⟩

/-- The readers when so many levels may be open. -/
def ofLevels : Nat → Readers
  | 0 => none
  | levels + 1 => around (ofLevels levels)

end Readers

/-- An expression inside which `nesting` levels may be opened. -/
def expression (nesting : Nat) : Rule Expr := (Readers.ofLevels (nesting + 1)).expression

/-- Reads a whole text by a rule. -/
def parseWhole {α : Type} (rule : Rule α) (text : String) : Result α := do
  let (result, c) ← rule (Cursor.ofText text)
  c.expectEnd
  pure result

def parse (text : String) : Result Expr := parseWhole (expression maxNesting) text

end OData.Expr
