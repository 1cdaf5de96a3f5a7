import OData.Text.Cursor
import OData.Text.Pieces

/-!
# Resource paths

The path of a request below the root of the service: the service itself, its metadata, or
segments of names, each with the text of a key perhaps, and what is asked of the last one.
-/

set_option autoImplicit false

namespace OData

/-- A name and the text between the parentheses after it. -/
structure Segment where
  name : String
  key : Option String
  deriving DecidableEq, Repr

inductive Suffix where
  | count
  | ref
  deriving DecidableEq, Repr

inductive ResourcePath where
  | service
  | metadata
  | resource (segments : List Segment) (suffix : Option Suffix)
  deriving DecidableEq, Repr

def Segment.toText (s : Segment) : String :=
  match s.key with
  | some key => s.name ++ "(" ++ key ++ ")"
  | none => s.name

def Suffix.name : Suffix → String
  | .count => "$count"
  | .ref => "$ref"

namespace ResourcePath

open Text (Cursor)

def toText : ResourcePath → String
  | service => ""
  | metadata => "$metadata"
  | resource segments suffix =>
    "/".intercalate (segments.map Segment.toText ++ (suffix.map Suffix.name).toList)

/-- A segment that begins with a dollar sign ends the path. -/
def systemSegment (start : Cursor) (segments : List Segment) (name : String) (next : Cursor) :
    Result ResourcePath := do
  let path ← match name, segments with
    | "$metadata", [] => .ok metadata
    | "$count", _ :: _ => .ok (resource segments (some .count))
    | "$ref", _ :: _ => .ok (resource segments (some .ref))
    | _, _ => start.error ("unexpected segment '" ++ name ++ "'")
  next.expectEnd
  pure path

/-- Reads what follows the segments that were read before. -/
def parseFrom : Nat → List Segment → Cursor → Result ResourcePath
  | 0, _, c => c.error "expected identifier"
  | fuel + 1, segments, c =>
    match c.systemName? with
    | some (name, next) => systemSegment c segments name next
    | none => do
      let (name, next) ← c.expectName
      let (key, next) := match next.parenthesized? with
        | some (text, after) => (some text, after)
        | none => (none, next)
      let segments := segments ++ [⟨name, key⟩]
      if next.atEnd then pure (resource segments none)
      else
        let next ← next.expectChar '/'
        parseFrom fuel segments next

def isSlash (c : Char) : Bool := c == '/'

/-- Slashes at either end do not count. -/
def parse (text : String) : Result ResourcePath :=
  let path := String.ofList (Text.trim isSlash text.toList)
  if path.isEmpty then .ok service
  else parseFrom (path.length + 1) [] (Cursor.ofText path)

end ResourcePath

end OData
