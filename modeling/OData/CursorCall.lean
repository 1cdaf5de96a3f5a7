import OData.Value.Reader

/-!
# Calls on a cursor

A text is read by calls on one cursor.  Each call gives an answer and leaves the cursor somewhere:
what it takes, it moves over, and where it looks for something past the blanks it leaves the blanks
behind, also if nothing is found.
-/

set_option autoImplicit false

namespace OData

open Text (Shape Cursor)

inductive CursorCall where
  | offset
  | rest
  | excerpt
  | peek
  | peekKeyword (w : String)
  /-- An error at the cursor. -/
  | complaint (message : String)
  | skipBlanks
  | atEnd
  /-- Back to an offset. -/
  | rewind (target : Nat)
  /-- A token without blanks before it. -/
  | token (shape : Shape)
  | char (ch : Char)
  | keyword (w : String)
  | name
  | dottedName
  | systemName
  | unsigned
  | parenthesized
  | literal
  | expectChar (ch : Char)
  | expectName
  | expectEnd

namespace CursorCall

inductive Answer where
  | done
  | absent
  | flag (b : Bool)
  | offset (n : Nat)
  | number (n : Nat)
  | text (s : String)
  | value (v : Value)
  | refused (e : Error)

/-- Whether something comes next, and the cursor after it or after the blanks. -/
def passed (c : Cursor) : Option Cursor → Answer × Cursor
  | some next => (.flag true, next)
  | none => (.flag false, c.skipBlanks)

/-- What comes next, and the cursor after it or after the blanks. -/
def found {α : Type} (answer : α → Answer) (c : Cursor) : Option (α × Cursor) → Answer × Cursor
  | some (a, next) => (answer a, next)
  | none => (.absent, c.skipBlanks)

/-- What has to come next, and the cursor after it or after the blanks. -/
def expected {α : Type} (answer : α → Answer) (c : Cursor) : Result (α × Cursor) → Answer × Cursor
  | .ok (a, next) => (answer a, next)
  | .error e => (.refused e, c.skipBlanks)

/-- The answer of a call on a text, and the cursor after the call. -/
def perform (text : String) (c : Cursor) : CursorCall → Answer × Cursor
  | offset => (.offset c.offset, c)
  | rest => (.text (String.ofList c.rest), c)
  | excerpt => (.text c.excerpt, c)
  | peek =>
    match c.rest with
    | ch :: _ => (.text (String.singleton ch), c)
    | [] => (.absent, c)
  | peekKeyword w => (.flag (c.keyword? w).isSome, c)
  | complaint message => (.refused (.syntaxAt c.offset message), c)
  | skipBlanks => (.done, c.skipBlanks)
  | atEnd => (.flag c.atEnd, c.skipBlanks)
  | rewind target => (.done, (Cursor.ofText text).seek target)
  | token shape =>
    match c.token? shape with
    | some (s, next) => (.text s, next)
    | none => (.absent, c)
  | char ch => passed c (c.char? ch)
  | keyword w => passed c (c.keyword? w)
  | name => found .text c c.name?
  | dottedName => found .text c c.dottedName?
  | systemName => found .text c c.systemName?
  | unsigned => found .number c c.unsigned?
  | parenthesized => found .text c c.parenthesized?
  | literal =>
    let answer := match Value.literal? c with
      | .ok (some (v, _)) => .value v
      | .ok none => .absent
      | .error e => .refused e
    (answer, Value.afterLiteral c)
  | expectChar ch => expected (fun _ => .done) c ((c.expectChar ch).map ((), ·))
  | expectName => expected .text c c.expectName
  | expectEnd => expected (fun _ => .done) c (c.expectEnd.map (·, c.skipBlanks))

/-- A call that was made: where the cursor was, what the call gave, and where the cursor is. -/
structure Step where
  call : CursorCall
  before : Cursor
  answer : Answer
  after : Cursor

/-- Makes calls one after the other. -/
def performAll (text : String) : Cursor → List CursorCall → List Step
  | _, [] => []
  | c, call :: calls =>
    let (answer, next) := call.perform text c
    ⟨call, c, answer, next⟩ :: performAll text next calls

end CursorCall

end OData
