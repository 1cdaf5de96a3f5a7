import OData.Error
import OData.Number.Power
import OData.Text.Characters

/-!
# Cursors

A cursor is a place in a text: what is left of it, and its offset in bytes of UTF-8.  A `Shape`
says how many characters a token at the start of a text has.  Tokens may have blanks before them.
-/

set_option autoImplicit false

namespace OData.Text

/-- The length of a token at the start of a text, if there is one. -/
abbrev Shape := List Char → Option Nat

namespace Shape

def char (c : Char) : Shape
  | [] => none
  | d :: _ => if d = c then some 1 else none

def oneOf (cs : List Char) : Shape
  | [] => none
  | d :: _ => if d ∈ cs then some 1 else none

def word (w : String) : Shape := fun cs => if w.toList.isPrefixOf cs then some w.length else none

/-- Exactly `n` characters of a class. -/
def exactly (n : Nat) (p : Char → Bool) : Shape := fun cs =>
  if n ≤ cs.length ∧ (cs.take n).all p then some n else none

/-- All characters of a class, perhaps none. -/
def many (p : Char → Bool) : Shape := fun cs => some (cs.takeWhile p).length

def some' (p : Char → Bool) : Shape := fun cs =>
  let n := (cs.takeWhile p).length
  if n = 0 then none else some n

/-- One shape after the other. -/
def seq : List Shape → Shape
  | [], _ => some 0
  | shape :: shapes, cs => do
    let m ← shape cs
    let n ← seq shapes (cs.drop m)
    some (m + n)

def optional (shape : Shape) : Shape := fun cs => some ((shape cs).getD 0)

/-- A token that ends where a word ends. -/
def wholeWord (shape : Shape) : Shape := fun cs => do
  let n ← shape cs
  match cs[n]? with
  | some c => if isWordChar c then none else some n
  | none => some n

end Shape

structure Cursor where
  rest : List Char
  offset : Nat

namespace Cursor

def ofText (text : String) : Cursor := ⟨text.toList, 0⟩

def byteLength (cs : List Char) : Nat := cs.foldl (fun n c => n + c.utf8Size) 0

/-- Moves over `n` characters. -/
def advance (c : Cursor) (n : Nat) : Cursor :=
  ⟨c.rest.drop n, c.offset + byteLength (c.rest.take n)⟩

/-- The first place, from the one at `offset` on, that does not come before the target. -/
def seekFrom (target : Nat) : List Char → Nat → Cursor
  | [], offset => ⟨[], offset⟩
  | c :: rest, offset =>
    if offset < target then seekFrom target rest (offset + c.utf8Size) else ⟨c :: rest, offset⟩

/-- Moves forward to an offset in the text. -/
def seek (c : Cursor) (target : Nat) : Cursor := seekFrom target c.rest c.offset

def skipBlanks (c : Cursor) : Cursor := c.advance (c.rest.takeWhile isBlank).length

/-- A token without blanks before it. -/
def token? (shape : Shape) (c : Cursor) : Option (String × Cursor) :=
  (shape c.rest).map fun n => (String.ofList (c.rest.take n), c.advance n)

def error {α : Type} (c : Cursor) (message : String) : Result α :=
  .error (.syntaxAt c.offset message)

def char? (ch : Char) (c : Cursor) : Option Cursor :=
  (c.skipBlanks.token? (Shape.char ch)).map (·.2)

def expectChar (ch : Char) (c : Cursor) : Result Cursor :=
  match c.char? ch with
  | some next => .ok next
  | none => c.skipBlanks.error ("expected '" ++ String.singleton ch ++ "'")

/-- A word that no letter, digit or underscore of ASCII follows. -/
def keywordShape (w : String) : Shape := fun cs => do
  let n ← Shape.word w cs
  match cs[n]? with
  | some c => if isNameChar c then none else some n
  | none => some n

def keyword? (w : String) (c : Cursor) : Option Cursor :=
  (c.skipBlanks.token? (keywordShape w)).map (·.2)

def nameShape : Shape
  | [] => none
  | c :: rest => if isNameStart c then some (1 + (rest.takeWhile isNameChar).length) else none

/-- What is left of a dotted name inside one of its parts. -/
def dottedRest : List Char → Nat
  | [] => 0
  | c :: rest =>
    if isNameChar c then 1 + dottedRest rest
    else if c = '.' then
      match rest with
      | d :: more => if isNameStart d then 2 + dottedRest more else 0
      | [] => 0
    else 0

def dottedNameShape : Shape
  | [] => none
  | c :: rest => if isNameStart c then some (1 + dottedRest rest) else none

def name? (c : Cursor) : Option (String × Cursor) := c.skipBlanks.token? nameShape

def expectName (c : Cursor) : Result (String × Cursor) :=
  match c.name? with
  | some found => .ok found
  | none => c.skipBlanks.error "expected identifier"

/-- Names joined by dots. -/
def dottedName? (c : Cursor) : Option (String × Cursor) := c.skipBlanks.token? dottedNameShape

/-- A dollar sign and letters. -/
def systemName? (c : Cursor) : Option (String × Cursor) :=
  c.skipBlanks.token? (Shape.seq [Shape.char '$', Shape.some' Char.isAlpha])

def digitsOfNat? (text : String) : Option Nat :=
  if text.toList.all Char.isDigit then
    some (text.toList.foldl (fun n c => n * 10 + (c.toNat - 48)) 0)
  else none

/-- An integer below `2 ^ 64`. -/
def unsigned? (c : Cursor) : Option (Nat × Cursor) := do
  let (text, next) ← c.skipBlanks.token? (Shape.some' isDecimalDigit)
  let n ← digitsOfNat? text
  if n < 2 ^ 64 then some (n, next) else none

/-- How many characters there are up to the bracket that closes `depth` open ones; brackets
inside quotes do not count. -/
def closingAt : Nat → Bool → List Char → Option Nat
  | _, _, [] => none
  | depth, quoted, c :: rest =>
    if c = '\'' then (closingAt depth (!quoted) rest).map (· + 1)
    else if quoted then (closingAt depth quoted rest).map (· + 1)
    else if c = '(' then (closingAt (depth + 1) quoted rest).map (· + 1)
    else if c = ')' then
      match depth with
      | 0 => none
      | 1 => some 0
      | depth + 1 => (closingAt depth quoted rest).map (· + 1)
    else (closingAt depth quoted rest).map (· + 1)

/-- The text between a bracket and the one that closes it. -/
def parenthesized? (c : Cursor) : Option (String × Cursor) :=
  let start := c.skipBlanks
  match start.rest with
  | '(' :: rest => (closingAt 1 false rest).map fun n =>
      (String.ofList (rest.take n), start.advance (n + 2))
  | _ => none

def atEnd (c : Cursor) : Bool := c.skipBlanks.rest.isEmpty

/-- The next sixteen characters. -/
def excerpt (c : Cursor) : String := String.ofList (c.rest.take 16)

def expectEnd (c : Cursor) : Result Unit :=
  if c.atEnd then .ok ()
  else
    let place := c.skipBlanks
    place.error ("unexpected '" ++ place.excerpt ++ "'")

end Cursor

end OData.Text
