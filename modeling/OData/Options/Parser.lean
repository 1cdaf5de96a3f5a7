import OData.Expr.Parser
import OData.Options.Basic

/-!
# Parsing query options

Each option has a small grammar of its own.  The options of an expansion stand in parentheses
after its name; they share the limit on nesting with the expressions inside them.
-/

set_option autoImplicit false

namespace OData.QueryOptions

open Text (Cursor)
open OData.Expr (Rule parseWhole)

def path : Rule PropertyPath := fun c =>
  match c.dottedName? with
  | some (name, next) => Expr.Readers.segments name next
  | none => c.skipBlanks.error "expected property path"

/-- One or more items separated by commas. -/
def separated {α : Type} (item : Rule α) : Nat → Rule (List α)
  | 0, c => c.error "expected item"
  | fuel + 1, c => do
    let (first, next) ← item c
    match next.char? ',' with
    | some next =>
      let (others, next) ← separated item fuel next
      pure (first :: others, next)
    | none => pure ([first], next)

def listOf {α : Type} (item : Rule α) : Rule (List α) := fun c =>
  separated item (c.rest.length + 1) c

def orderItem : Rule OrderItem := fun c => do
  let (path, next) ← path c
  match next.keyword? "desc" with
  | some next => pure (⟨path, .descending⟩, next)
  | none => pure (⟨path, .ascending⟩, (next.keyword? "asc").getD next)

def orderItems : Rule (List OrderItem) := listOf orderItem

def selection : Rule Select := fun c =>
  match c.char? '*' with
  | some next => .ok (.all, next)
  | none => do
    let (paths, next) ← listOf path c
    pure (.properties paths, next)

def unsigned : Rule Nat := fun c =>
  match c.unsigned? with
  | some found => .ok found
  | none => c.skipBlanks.error "expected a non-negative integer"

def boolean : Rule Bool := fun c =>
  match c.keyword? "true" with
  | some next => .ok (true, next)
  | none =>
    match c.keyword? "false" with
    | some next => .ok (false, next)
    | none => c.skipBlanks.error "expected 'true' or 'false'"

/-- Fails if an option that may come once has come before. -/
def once (start : Cursor) (name : String) (seen : Bool) : Result Unit :=
  if seen then start.error ("query option '" ++ name ++ "' is specified twice") else .ok ()

/-- Reads one option of an expansion into the options read before it. -/
def nestedOption (nesting : Nat) (inner : Rule (List Expansion)) (o : QueryOptions) :
    Rule QueryOptions := fun c =>
  match c.systemName? with
  | none => c.skipBlanks.error "expected '$' query option"
  | some (name, next) => do
    let next ← next.expectChar '='
    match name with
    | "$filter" =>
      once c name o.filter.isSome
      let (filter, next) ← Expr.expression nesting next
      pure ({ o with filter := some filter }, next)
    | "$orderby" =>
      once c name (!o.orderBy.isEmpty)
      let (items, next) ← orderItems next
      pure ({ o with orderBy := items }, next)
    | "$select" =>
      once c name o.select.isSome
      let (chosen, next) ← selection next
      pure ({ o with select := some chosen }, next)
    | "$expand" =>
      once c name (!o.expand.isEmpty)
      let (items, next) ← inner next
      pure ({ o with expand := items }, next)
    | "$top" =>
      let (n, next) ← unsigned next
      pure ({ o with top := some n }, next)
    | "$skip" =>
      let (n, next) ← unsigned next
      pure ({ o with skip := some n }, next)
    | "$count" =>
      let (b, next) ← boolean next
      pure ({ o with count := b }, next)
    | _ => c.error ("query option '" ++ name ++ "' is not supported inside $expand")

/-- Options separated by semicolons up to a closing parenthesis. -/
def nestedOptions (nesting : Nat) (inner : Rule (List Expansion)) :
    Nat → QueryOptions → Rule QueryOptions
  | 0, _, c => c.error "expected ')'"
  | fuel + 1, o, c => do
    let (o, next) ← nestedOption nesting inner o c
    match next.char? ';' with
    | some next => nestedOptions nesting inner fuel o next
    | none =>
      let next ← next.expectChar ')'
      pure (o, next)

/-- A navigation property and perhaps its options, read by `inner` after the parenthesis. -/
def expansion (inner : Rule QueryOptions) : Rule Expansion := fun c =>
  match c.name? with
  | none => c.skipBlanks.error "expected navigation property"
  | some (name, next) =>
    match next.char? '(' with
    | some next => do
      let (o, next) ← inner next
      pure ((name, o), next)
    | none => .ok ((name, empty), next)

/-- Expansions inside which `nesting` levels may be opened. -/
def expansions : Nat → Rule (List Expansion)
  | 0 => listOf (expansion Expr.tooDeep)
  | nesting + 1 => listOf (expansion fun c =>
      nestedOptions nesting (expansions nesting) (c.rest.length + 1) empty c)

def parseOrderBy : String → Result (List OrderItem) := parseWhole orderItems

def parseSelect : String → Result Select := parseWhole selection

def parseExpand : String → Result (List Expansion) := parseWhole (expansions Expr.maxNesting)

def parseUnsigned : String → Result Nat := parseWhole unsigned

def parseBool : String → Result Bool := parseWhole boolean

end OData.QueryOptions
