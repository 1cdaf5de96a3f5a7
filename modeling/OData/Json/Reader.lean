import OData.Json.Numeral
import OData.Text.Hex

/-!
# Reading JSON

`ofText?` reads one document.  Brackets may nest 127 deep; a name that comes twice in an object
keeps its first place and its last value.
-/

set_option autoImplicit false

namespace OData.Json

namespace Reader

abbrev Step (α : Type) := List Char → Option (α × List Char)

def isBlank (c : Char) : Bool := c == ' ' || c == '\n' || c == '\t' || c == '\r'

def skipBlanks (cs : List Char) : List Char := cs.dropWhile isBlank

/-- The code unit of four hexadecimal digits. -/
def codeUnit : Step Nat
  | a :: b :: c :: d :: rest => (Text.Hex.number? [a, b, c, d]).map fun n => (n, rest)
  | _ => none

/-- A code unit, or a pair of them beyond the first plane. -/
def unicodeEscape (cs : List Char) : Option (Char × List Char) := do
  let (high, rest) ← codeUnit cs
  if 0xDC00 ≤ high ∧ high < 0xE000 then none
  else if 0xD800 ≤ high ∧ high < 0xDC00 then
    match rest with
    | '\\' :: 'u' :: after => do
      let (low, rest) ← codeUnit after
      if 0xDC00 ≤ low ∧ low < 0xE000 then
        some (Char.ofNat (0x10000 + (high - 0xD800) * 0x400 + (low - 0xDC00)), rest)
      else none
    | _ => none
  else some (Char.ofNat high, rest)

def simpleEscape (c : Char) : Option Char :=
  if c = '"' ∨ c = '\\' ∨ c = '/' then some c
  else if c = 'b' then some '\x08'
  else if c = 'f' then some '\x0c'
  else if c = 'n' then some '\n'
  else if c = 'r' then some '\r'
  else if c = 't' then some '\t'
  else none

/-- The characters up to the closing quote, read back to front. -/
def stringFrom : Nat → List Char → Step String
  | 0, _ => fun _ => none
  | fuel + 1, read => fun cs => match cs with
    | [] => none
    | '"' :: rest => some (String.ofList read.reverse, rest)
    | '\\' :: 'u' :: rest => do
      let (c, rest) ← unicodeEscape rest
      stringFrom fuel (c :: read) rest
    | '\\' :: c :: rest => do stringFrom fuel ((← simpleEscape c) :: read) rest
    | c :: rest => if c.toNat < 32 then none else stringFrom fuel (c :: read) rest

def string (cs : List Char) : Option (String × List Char) := stringFrom (cs.length + 1) [] cs

/-- Items up to the closing bracket, after at least one. -/
def items (item : Step Json) : Nat → Step (List Json)
  | 0 => fun _ => none
  | fuel + 1 => fun cs => do
    let (first, rest) ← item (skipBlanks cs)
    match skipBlanks rest with
    | ',' :: rest => do
      let (others, rest) ← items item fuel rest
      some (first :: others, rest)
    | ']' :: rest => some ([first], rest)
    | _ => none

def members (value : Step Json) : Nat → Step Members
  | 0 => fun _ => none
  | fuel + 1 => fun cs => do
    let '"' :: rest := skipBlanks cs | none
    let (name, rest) ← string rest
    let ':' :: rest := skipBlanks rest | none
    let (first, rest) ← value (skipBlanks rest)
    match skipBlanks rest with
    | ',' :: rest => do
      let (others, rest) ← members value fuel rest
      some ((name, first) :: others, rest)
    | '\x7d' :: rest => some ([(name, first)], rest)
    | _ => none

def keyword (word : String) (json : Json) (cs : List Char) : Option (Json × List Char) :=
  if word.toList.isPrefixOf cs then some (json, cs.drop word.length) else none

/-- A value whose items and members are read by `nested`, if brackets are allowed at all. -/
def valueWith (nested : Option (Step Json)) : Step Json
  | [] => none
  | c :: rest =>
    if c = 'n' then keyword "null" .null (c :: rest)
    else if c = 't' then keyword "true" (.bool true) (c :: rest)
    else if c = 'f' then keyword "false" (.bool false) (c :: rest)
    else if c = '"' then (string rest).map fun (s, rest) => (.str s, rest)
    else if c = '-' ∨ c.isDigit then Numeral.read (c :: rest)
    else if c = '[' then do
      let inner ← nested
      match skipBlanks rest with
      | ']' :: after => some (.array [], after)
      | _ =>
        let (list, rest) ← items inner (rest.length + 1) rest
        some (.array list, rest)
    else if c = '\x7b' then do
      let inner ← nested
      match skipBlanks rest with
      | '\x7d' :: after => some (.object [], after)
      | _ =>
        let (list, rest) ← members inner (rest.length + 1) rest
        some (.object (Members.ofList list), rest)
    else none

/-- A value whose brackets nest at most `depth` deep. -/
def value : Nat → Step Json
  | 0 => valueWith none
  | depth + 1 => valueWith (some (value depth))

def maxDepth : Nat := 127

end Reader

def ofText? (text : String) : Option Json := do
  let (json, rest) ← Reader.value Reader.maxDepth (Reader.skipBlanks text.toList)
  if (Reader.skipBlanks rest).isEmpty then some json else none

end OData.Json
