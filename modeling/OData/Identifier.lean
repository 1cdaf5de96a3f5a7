import OData.Error
import OData.Text.Characters
import OData.Text.Form

/-!
# Names of a schema

An identifier has ASCII letters, digits and underscores and does not begin with a digit.  A
qualified name is an identifier after a namespace of identifiers joined by dots.
-/

set_option autoImplicit false

namespace OData

def isIdentifier (text : String) : Bool :=
  match text.toList with
  | [] => false
  | c :: rest => Text.isNameStart c && rest.all Text.isNameChar

structure Identifier where
  text : String
  isIdentifier : isIdentifier text = true
  deriving DecidableEq

namespace Identifier

def ofText (text : String) : Result Identifier :=
  if h : OData.isIdentifier text = true then .ok ⟨text, h⟩
  else .error (.configuration "invalid_identifier" ("'" ++ text ++ "' is not a valid identifier"))

theorem ofText_text (name : Identifier) : ofText name.text = .ok name := by
  simp [ofText, name.isIdentifier]

end Identifier

structure QualifiedName where
  space : String
  name : Identifier
  deriving DecidableEq

namespace QualifiedName

def toText (q : QualifiedName) : String := q.space ++ "." ++ q.name.text

/-- Whether a text is identifiers joined by dots. -/
def isNamespace (text : String) : Bool :=
  (Text.splitOn '.' text.toList).all fun part => isIdentifier (String.ofList part)

/-- Splits at the last dot. -/
def ofText (text : String) : Result QualifiedName :=
  match (Text.splitOn '.' text.toList).reverse with
  | last :: before :: rest =>
    let space := String.ofList (['.'].intercalate (before :: rest).reverse)
    if isNamespace space then do
      pure ⟨space, ← Identifier.ofText (String.ofList last)⟩
    else .error (.configuration "invalid_qualified_name"
      ("'" ++ space ++ "' is not a valid namespace"))
  | _ => .error (.configuration "invalid_qualified_name"
      ("'" ++ text ++ "' is not namespace-qualified"))

end QualifiedName

end OData
