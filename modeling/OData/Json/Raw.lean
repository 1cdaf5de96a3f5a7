import OData.Json.Reader
import OData.Text.Utf8

/-!
# Values that are not read

`members?` and `items?` take an object or an array of bytes apart without reading the values in
it.  A value that is passed over needs the form of JSON, but it may nest without bound, its
numbers may be out of all range, and its texts need be neither UTF-8 nor free of half surrogates.
-/

set_option autoImplicit false

namespace OData.Json.Raw

abbrev Bytes := List UInt8

/-- The byte of an ASCII character. -/
def byte (c : Char) : UInt8 := UInt8.ofNat c.toNat

def isBlank (b : UInt8) : Bool := b == 0x20 || b == 0x0A || b == 0x09 || b == 0x0D

def skipBlanks (bytes : Bytes) : Bytes := bytes.dropWhile isBlank

/-- What follows a given byte, after blanks. -/
def after? (c : Char) (bytes : Bytes) : Option Bytes :=
  match skipBlanks bytes with
  | b :: rest => if b = byte c then some rest else none
  | [] => none

def isDigit (b : UInt8) : Bool := decide (byte '0' ≤ b) && decide (b ≤ byte '9')

def isHexDigit (b : UInt8) : Bool := Text.Hex.isDigit (Char.ofNat b.toNat)

/-- What follows the closing quote of a text. -/
def skipString : Bytes → Option Bytes
  | [] => none
  | b :: rest =>
    if b = byte '"' then some rest
    else if b = byte '\\' then
      match rest with
      | 0x75 :: p :: q :: r :: s :: rest =>
        if [p, q, r, s].all isHexDigit then skipString rest else none
      | e :: rest =>
        if (Reader.simpleEscape (Char.ofNat e.toNat)).isSome then skipString rest else none
      | [] => none
    else if b < 0x20 then none
    else skipString rest

/-- What follows at least one digit. -/
def skipDigits : Bytes → Option Bytes
  | b :: rest => if isDigit b then some (rest.dropWhile isDigit) else none
  | [] => none

/-- What follows the exponent, if there is one. -/
def skipExponent : Bytes → Option Bytes
  | b :: rest =>
    if b = byte 'e' ∨ b = byte 'E' then
      match rest with
      | sign :: digits =>
        if sign = byte '+' ∨ sign = byte '-' then skipDigits digits else skipDigits rest
      | [] => none
    else some (b :: rest)
  | [] => some []

/-- What follows a number without its sign.  A leading zero stands alone. -/
def skipUnsigned (bytes : Bytes) : Option Bytes := do
  let rest ← skipDigits bytes
  if bytes.head? = some (byte '0') ∧ bytes.length ≠ rest.length + 1 then none
  else match rest with
    | b :: fraction =>
      if b = byte '.' then skipExponent (← skipDigits fraction) else skipExponent rest
    | [] => some []

def skipWord (word : String) (bytes : Bytes) : Option Bytes :=
  let letters := word.toList.map byte
  if letters.isPrefixOf bytes then some (bytes.drop letters.length) else none

mutual

/-- What follows a value; the number bounds how often the functions call each other. -/
def skipValue : Nat → Bytes → Option Bytes
  | 0, _ => none
  | _, [] => none
  | fuel + 1, b :: rest =>
    if b = byte 'n' then skipWord "null" (b :: rest)
    else if b = byte 't' then skipWord "true" (b :: rest)
    else if b = byte 'f' then skipWord "false" (b :: rest)
    else if b = byte '"' then skipString rest
    else if b = byte '-' then skipUnsigned rest
    else if isDigit b then skipUnsigned (b :: rest)
    else if b = byte '[' then
      match after? ']' rest with
      | some rest => some rest
      | none => skipItems fuel rest
    else if b = byte '\x7b' then
      match after? '\x7d' rest with
      | some rest => some rest
      | none => skipMembers fuel rest
    else none

/-- What follows the bracket that closes an array, before its next item. -/
def skipItems : Nat → Bytes → Option Bytes
  | 0, _ => none
  | fuel + 1, bytes => do
    let rest ← skipValue fuel (skipBlanks bytes)
    match after? ',' rest with
    | some rest => skipItems fuel rest
    | none => after? ']' rest

/-- What follows the bracket that closes an object, before its next member. -/
def skipMembers : Nat → Bytes → Option Bytes
  | 0, _ => none
  | fuel + 1, bytes => do
    let rest ← skipString (← after? '"' bytes)
    let rest ← skipValue fuel (skipBlanks (← after? ':' rest))
    match after? ',' rest with
    | some rest => skipMembers fuel rest
    | none => after? '\x7d' rest

end

/-- The bytes of the value at the start, and those after it. -/
def value? (bytes : Bytes) : Option (Bytes × Bytes) := do
  let start := skipBlanks bytes
  let rest ← skipValue (2 * start.length + 2) start
  some (start.take (start.length - rest.length), rest)

/-- The name of a member after its opening quote. -/
def name? (bytes : Bytes) : Option (String × Bytes) := do
  let rest ← skipString bytes
  let text ← Text.Utf8.decode? (bytes.take (bytes.length - rest.length))
  let (name, _) ← Reader.string text.toList
  some (name, rest)

def membersFrom : Nat → Bytes → Option (List (String × Bytes) × Bytes)
  | 0, _ => none
  | fuel + 1, bytes => do
    let (name, rest) ← name? (← after? '"' bytes)
    let (value, rest) ← value? (← after? ':' rest)
    match after? ',' rest with
    | some rest => do
      let (others, rest) ← membersFrom fuel rest
      some ((name, value) :: others, rest)
    | none => do some ([(name, value)], ← after? '\x7d' rest)

def itemsFrom : Nat → Bytes → Option (List Bytes × Bytes)
  | 0, _ => none
  | fuel + 1, bytes => do
    let (value, rest) ← value? bytes
    match after? ',' rest with
    | some rest => do
      let (others, rest) ← itemsFrom fuel rest
      some (value :: others, rest)
    | none => do some ([value], ← after? ']' rest)

/-- The members of an object with the bytes of their values. -/
def members? (bytes : Bytes) : Option (List (String × Bytes)) := do
  let start ← after? '\x7b' bytes
  match after? '\x7d' start with
  | some rest => if (skipBlanks rest).isEmpty then some [] else none
  | none =>
    let (members, rest) ← membersFrom (start.length + 1) start
    if (skipBlanks rest).isEmpty then some members else none

/-- The bytes of the items of an array. -/
def items? (bytes : Bytes) : Option (List Bytes) := do
  let start ← after? '[' bytes
  match after? ']' start with
  | some rest => if (skipBlanks rest).isEmpty then some [] else none
  | none =>
    let (items, rest) ← itemsFrom (start.length + 1) start
    if (skipBlanks rest).isEmpty then some items else none

/-- Reads a value that was passed over. -/
def read? (bytes : Bytes) : Option Json := do ofText? (← Text.Utf8.decode? bytes)

end OData.Json.Raw
