/-!
# YAML documents

A document is a node: a scalar, a sequence or a mapping whose keys are scalars.  A scalar keeps
its text as it is written; what it stands for is up to who asks.  Only a plain scalar may stand
for no value.
-/

set_option autoImplicit false

namespace OData.Yaml

inductive Style where
  | plain
  | quoted
  deriving DecidableEq, Repr

inductive Node where
  | scalar (style : Style) (text : String)
  | sequence (items : List Node)
  | mapping (entries : List (String × Node))
  deriving Inhabited

abbrev Entries := List (String × Node)

/-- The versions differ in line breaks, in the characters of a document and in an escape. -/
inductive Version where
  | v1_1
  | v1_2
  deriving DecidableEq, Repr

namespace Version

def isBreak : Version → Char → Bool
  | v1_1, c => c == '\n' || c == '\r' || c == '\x85' || c == '\u2028' || c == '\u2029'
  | v1_2, c => c == '\n' || c == '\r'

/-- Whether a document may hold the character outside of escapes. -/
def allows : Version → Char → Bool
  | v1_1, c =>
    let n := c.toNat
    c == '\t' || c == '\n' || c == '\r' || c == '\x85' || (decide (0x20 ≤ n) && decide (n < 0x7F))
      || (decide (0xA0 ≤ n) && n != 0xFFFE && n != 0xFFFF)
  | v1_2, _ => true

end Version

namespace Node

def empty : Node := scalar .plain ""

/-- No value: an empty plain scalar, a tilde or `null`. -/
def isNull : Node → Bool
  | scalar .plain text =>
    text.isEmpty || text == "~" || text.toList.map Char.toLower == "null".toList
  | _ => false

end Node

/-- Whether no two entries have one key. -/
def keysDistinct : Entries → Bool
  | [] => true
  | (key, _) :: rest => !rest.any (·.1 == key) && keysDistinct rest

end OData.Yaml
