import OData.Text.Cursor
import OData.Calendar.Reader
import OData.Value.Text

/-!
# Reading literals

A literal is recognised by the shape of its token, the first of `forms` that fits, and then read.
A token of the right shape that denotes no value, such as `2024-02-30`, is a syntax error.
-/

set_option autoImplicit false

namespace OData.Value

open Text (Shape Cursor)

/-- The body of a quoted string and its closing quote.  Two quotes stand for one, unless no
closing quote would be left. -/
def stringBody : List Char → Option Nat
  | [] => none
  | c :: rest =>
    if c = '\'' then
      match rest with
      | [] => some 1
      | d :: more =>
        if d = '\'' then
          match stringBody more with
          | some n => some (n + 2)
          | none => some 1
        else some 1
    else (stringBody rest).map (· + 1)

def stringShape : Shape := Shape.seq [Shape.char '\'', stringBody]

def isBase64Char (c : Char) : Bool := c.isAlphanum || c == '-' || c == '_'

def binaryShape : Shape :=
  Shape.seq [Shape.word "binary'", Shape.many isBase64Char, Shape.char '\'']

def hexShape (n : Nat) : Shape := Shape.exactly n Text.Hex.isDigit

def guidShape : Shape :=
  Shape.wholeWord (Shape.seq [hexShape 8, Shape.char '-', hexShape 4, Shape.char '-', hexShape 4,
    Shape.char '-', hexShape 4, Shape.char '-', hexShape 12])

def digitsShape (n : Nat) : Shape := Shape.exactly n Text.isDecimalDigit

def manyDigitsShape : Shape := Shape.some' Text.isDecimalDigit

def calendarShape : Shape :=
  Shape.seq [digitsShape 4, Shape.char '-', digitsShape 2, Shape.char '-', digitsShape 2]

def clockShape : Shape := Shape.seq [digitsShape 2, Shape.char ':', digitsShape 2]

def fractionShape : Shape := Shape.optional (Shape.seq [Shape.char '.', manyDigitsShape])

def secondsShape : Shape :=
  Shape.optional (Shape.seq [Shape.char ':', digitsShape 2, fractionShape])

def zoneShape : Shape := fun cs =>
  match Shape.char 'Z' cs with
  | some n => some n
  | none => Shape.seq [Shape.oneOf ['+', '-'], clockShape] cs

def dateTimeShape : Shape :=
  Shape.seq [calendarShape, Shape.char 'T', clockShape, secondsShape, zoneShape]

def dateShape : Shape := Shape.wholeWord calendarShape

def timeShape : Shape := Shape.seq [clockShape, secondsShape]

def exponentShape : Shape :=
  Shape.optional (Shape.seq
    [Shape.oneOf ['e', 'E'], Shape.optional (Shape.oneOf ['+', '-']), manyDigitsShape])

def numberShape : Shape :=
  Shape.seq [Shape.optional (Shape.char '-'), manyDigitsShape, fractionShape, exponentShape]

/-- Two quotes become one. -/
def unquoteChars : List Char → List Char
  | '\'' :: '\'' :: rest => '\'' :: unquoteChars rest
  | c :: rest => c :: unquoteChars rest
  | [] => []

def readString (token : List Char) : Option Value :=
  some (.string (String.ofList (unquoteChars (token.drop 1).dropLast)))

def readBinary (token : List Char) : Option Value :=
  (Text.Base64Url.decode (String.ofList (token.drop 7).dropLast)).map .binary

def readGuid (token : List Char) : Option Value := (Guid.ofText? (String.ofList token)).map .guid

/-- Seconds may be left out. -/
def readDateTime (token : List Char) : Option Value :=
  let tail := token.drop 16
  let full := if tail.head? = some ':' then token else token.take 16 ++ ":00".toList ++ tail
  (Calendar.instant? full).map .dateTimeOffset

def readDate (token : List Char) : Option Value := (Calendar.date? token).map .date

def readTime (token : List Char) : Option Value :=
  ((Calendar.time? token).or (Calendar.shortTime? token)).map .timeOfDay

/-- An exponent makes a floating-point number and a point a decimal; an integer of more than 64
bits is a decimal too. -/
def readNumber (token : List Char) : Option Value :=
  let text := String.ofList token
  if token.any fun c => c == 'e' || c == 'E' then (Double.ofText? text).map .double
  else do
    let d ← Decimal.ofText? text
    if token.contains '.' then some (.decimal d)
    else match d.toInt64? with
      | some n => some (.int (Int64.ofInt n))
      | none => some (.decimal d)

structure LiteralForm where
  shape : Shape
  read : List Char → Option Value
  failure : String
  /-- Whether a token that denotes no value is passed over all the same. -/
  passesOver : Bool

def forms : List LiteralForm :=
  [⟨stringShape, readString, "invalid string", true⟩,
   ⟨binaryShape, readBinary, "invalid binary literal", false⟩,
   ⟨guidShape, readGuid, "invalid guid", true⟩,
   ⟨dateTimeShape, readDateTime, "invalid date-time literal", false⟩,
   ⟨dateShape, readDate, "invalid date literal", true⟩,
   ⟨timeShape, readTime, "invalid time-of-day literal", true⟩,
   ⟨numberShape, readNumber, "invalid number", false⟩]

def keywords : List (String × Value) :=
  [("null", .null), ("true", .bool true), ("false", .bool false), ("NaN", .double Double.nan),
   ("INF", .double Double.infinity), ("-INF", .double Double.negativeInfinity)]

def keyword? (c : Cursor) : List (String × Value) → Option (Value × Cursor)
  | [] => none
  | (word, value) :: rest =>
    match c.keyword? word with
    | some next => some (value, next)
    | none => keyword? c rest

/-- The first form that fits, and the length of its token. -/
def form? (cs : List Char) : List LiteralForm → Option (LiteralForm × Nat)
  | [] => none
  | form :: rest =>
    match form.shape cs with
    | some n => some (form, n)
    | none => form? cs rest

/-- Reads a literal, if one comes next. -/
def literal? (c : Cursor) : Result (Option (Value × Cursor)) :=
  let start := c.skipBlanks
  match form? start.rest forms with
  | some (form, n) =>
    match form.read (start.rest.take n) with
    | some value => .ok (some (value, start.advance n))
    | none => start.error form.failure
  | none => .ok (keyword? start keywords)

/-- Where the reading of a literal ends, also if there is none or it is refused. -/
def afterLiteral (c : Cursor) : Cursor :=
  let start := c.skipBlanks
  match literal? c with
  | .ok (some (_, next)) => next
  | .ok none => start
  | .error _ =>
    match form? start.rest forms with
    | some (form, n) => if form.passesOver then start.advance n else start
    | none => start

/-- The literal at the start of a text. -/
def ofText? (text : String) : Result (Option Value) := do
  pure ((← literal? (Cursor.ofText text)).map (·.1))

end OData.Value
