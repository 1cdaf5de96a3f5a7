import OData.Capability

/-!
# Errors

A request fails for one of five kinds of reason.  `code` is the word for a program, `message` the
text for a reader; a syntax error also says at which byte of the text it was found.  A `fault` is no
answer at all: the program stops where it, or a library that it calls, finds that it is wrong.
-/

set_option autoImplicit false

namespace OData

inductive Error where
  | badRequest (code message : String) (offset : Option Nat)
  | notFound (code message : String)
  | configuration (code message : String)
  | notImplemented (capability : Capability)
  | driver (message : String)
  | fault (reason : String)
  deriving DecidableEq, Repr

abbrev Result := Except Error

namespace Error

def bad (code message : String) : Error := badRequest code message none

def syntaxAt (offset : Nat) (message : String) : Error :=
  badRequest "syntax_error" message (some offset)

def code : Error → String
  | badRequest code _ _ => code
  | notFound code _ => code
  | configuration code _ => code
  | notImplemented _ => "capability_not_supported"
  | driver _ => "storage_error"
  | fault _ => "fault"

def message : Error → String
  | badRequest _ message _ => message
  | notFound _ message => message
  | configuration _ message => "configuration error: " ++ message
  | notImplemented capability => "entity set does not support " ++ capability.name
  | driver message => "storage error: " ++ message
  | fault reason => reason

def offset? : Error → Option Nat
  | badRequest _ _ offset => offset
  | _ => none

def isNotFound : Error → Bool
  | notFound _ _ => true
  | _ => false

def isBadRequest : Error → Bool
  | badRequest _ _ _ => true
  | _ => false

end Error

end OData
