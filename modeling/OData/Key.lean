import OData.Record
import OData.Schema.EntityType
import OData.Value.Reader

/-!
# Keys

The values that tell an entity of a set from the others, in the order of the key of its type.  A
key is written in parentheses after the name of the set; a key of several properties names them.
-/

set_option autoImplicit false

namespace OData

/-- The text between the parentheses, before it is held against an entity type. -/
inductive KeyPredicate where
  | single (value : Value)
  | named (values : List (String × Value))

namespace KeyPredicate

open Text (Cursor)

def value (c : Cursor) : Result (Value × Cursor) := do
  match ← Value.literal? c with
  | some found => pure found
  | none => c.skipBlanks.error "expected key value"

def pairs : Nat → Cursor → Result (List (String × Value) × Cursor)
  | 0, c => c.error "expected key value"
  | fuel + 1, c => do
    let (name, next) ← c.expectName
    let next ← next.expectChar '='
    let (v, next) ← value next
    match next.char? ',' with
    | some next =>
      let (others, next) ← pairs fuel next
      pure ((name, v) :: others, next)
    | none => pure ([(name, v)], next)

/-- Whether a name and an equals sign come first. -/
def isNamed (c : Cursor) : Bool :=
  match c.name? with
  | some (_, next) => (next.char? '=').isSome
  | none => false

def parse (text : String) : Result KeyPredicate := do
  let c := Cursor.ofText text
  if isNamed c then
    let (values, next) ← pairs (c.rest.length + 1) c
    next.expectEnd
    pure (named values)
  else
    let (v, next) ← value c
    next.expectEnd
    pure (single v)

end KeyPredicate

structure Key where
  values : List (Identifier × Value)

namespace Key

def toText (key : Key) : String :=
  match key.values with
  | [(_, v)] => "(" ++ v.toText ++ ")"
  | values => "(" ++ ",".intercalate (values.map fun (name, v) => name.text ++ "=" ++ v.toText)
      ++ ")"

/-- Whether a record has the values of the key. -/
def identifies (key : Key) (record : Record) : Bool :=
  key.values.all fun (name, v) =>
    match record.get? name with
    | some w => w.compare v == some .eq
    | none => false

def valuesOfRecord (ty : EntityType) (record : Record) :
    List Identifier → Result (List (Identifier × Value))
  | [] => .ok []
  | name :: rest =>
    if record.has name then do
      pure ((name, record.value name) :: (← valuesOfRecord ty record rest))
    else .error (.driver ("record of '" ++ ty.name.text ++ "' has no value for key property '"
      ++ name.text ++ "'"))

/-- The key of a stored record. -/
def ofRecord (ty : EntityType) (record : Record) : Result Key := do
  pure ⟨← valuesOfRecord ty record ty.key⟩

private def invalid {α : Type} (message : String) : Result α :=
  .error (.bad "invalid_key" message)

def namedValues (ty : EntityType) : KeyPredicate → Result (List (String × Value))
  | .named values => .ok values
  | .single v =>
    match ty.keyProperties with
    | [only] => .ok [(only.name.text, v)]
    | _ => invalid ("'" ++ ty.name.text ++ "' has a composite key; name every key property")

/-- The value that is named for a property, as a value of its type. -/
def typedValue (property : Property) (values : List (String × Value)) : Result Value :=
  match values.find? (·.1 == property.name.text) with
  | none => invalid ("missing key property '" ++ property.name.text ++ "'")
  | some (_, v) =>
    match v.coerceTo property.type with
    | .ok typed => .ok typed
    | .error _ => invalid (v.toText ++ " is not a valid value for key property '"
        ++ property.name.text ++ "' (" ++ property.type.name ++ ")")

def typedValues (values : List (String × Value)) :
    List Property → Result (List (Identifier × Value))
  | [] => .ok []
  | property :: rest => do
    let v ← typedValue property values
    pure ((property.name, v) :: (← typedValues values rest))

def ofPredicate (ty : EntityType) (predicate : KeyPredicate) : Result Key := do
  let values ← namedValues ty predicate
  if values.length = ty.keyProperties.length then
    pure ⟨← typedValues values ty.keyProperties⟩
  else invalid ("'" ++ ty.name.text ++ "' expects " ++ toString ty.keyProperties.length
    ++ " key values, got " ++ toString values.length)

def parse (ty : EntityType) (text : String) : Result Key := do
  ofPredicate ty (← KeyPredicate.parse text)

end Key

end OData
