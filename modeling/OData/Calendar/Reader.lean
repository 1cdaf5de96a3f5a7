import OData.Calendar.Basic
import OData.Number.Decimal
import OData.Text.Characters

/-!
# Reading dates and times

`date?` and `time?` take fields of one or two digits with blanks before them, and a year with a
sign may have more than four digits.  `instant?` takes fields of full width and an offset from
UTC below a day.  Digits of a fraction after the ninth are dropped.
-/

set_option autoImplicit false

namespace OData.Calendar

/-- Between `least` and `most` digits, and what follows them. -/
def digits? (least most : Nat) (cs : List Char) : Option (Nat × List Char) :=
  let digits := (cs.takeWhile Char.isDigit).take most
  if least ≤ digits.length then some (Decimal.natOfDigits digits, cs.drop digits.length) else none

def char? (c : Char) : List Char → Option (List Char)
  | [] => none
  | d :: rest => if d = c then some rest else none

def skipBlanks (cs : List Char) : List Char := cs.dropWhile Text.isBlank

/-- A field of one or two digits. -/
def field? (cs : List Char) : Option (Nat × List Char) := digits? 1 2 (skipBlanks cs)

def year? (cs : List Char) : Option (Int × List Char) :=
  match skipBlanks cs with
  | '-' :: rest => (digits? 1 rest.length rest).map fun (n, after) => (-(n : Int), after)
  | '+' :: rest => (digits? 1 rest.length rest).map fun (n, after) => ((n : Int), after)
  | rest => (digits? 1 4 rest).map fun (n, after) => ((n : Int), after)

/-- The digits of a fraction in nanoseconds. -/
def nanoseconds? (cs : List Char) : Option (Nat × List Char) := do
  let digits := cs.takeWhile Char.isDigit
  let kept := digits.take 9
  if kept.isEmpty then none
  else some (Decimal.natOfDigits kept * 10 ^ (9 - kept.length), cs.drop digits.length)

/-- A fraction, if a point comes next. -/
def fraction? : List Char → Option (Nat × List Char)
  | '.' :: rest => nanoseconds? rest
  | cs => some (0, cs)

def date? (cs : List Char) : Option Date := do
  let (year, cs) ← year? cs
  let cs ← char? '-' cs
  let (month, cs) ← field? cs
  let cs ← char? '-' cs
  let (day, cs) ← field? cs
  if cs.isEmpty then Date.ofParts? year month day else none

/-- A time with seconds and perhaps a fraction. -/
def time? (cs : List Char) : Option TimeOfDay := do
  let (hour, cs) ← field? cs
  let cs ← char? ':' cs
  let (minute, cs) ← field? cs
  let cs ← char? ':' cs
  let (second, cs) ← field? cs
  let (nanosecond, cs) ← fraction? cs
  if cs.isEmpty then TimeOfDay.ofParts? hour minute second nanosecond else none

/-- A time without seconds. -/
def shortTime? (cs : List Char) : Option TimeOfDay := do
  let (hour, cs) ← field? cs
  let cs ← char? ':' cs
  let (minute, cs) ← field? cs
  if cs.isEmpty then TimeOfDay.ofParts? hour minute 0 0 else none

/-- Minutes ahead of UTC. -/
def offset? : List Char → Option (Int × List Char)
  | [] => none
  | sign :: rest =>
    if sign = 'Z' ∨ sign = 'z' then some (0, rest)
    else if sign = '+' ∨ sign = '-' ∨ sign = '−' then do
      let (hours, cs) ← digits? 2 2 rest
      let cs ← char? ':' cs
      let (minutes, cs) ← digits? 2 2 cs
      let ahead : Int := hours * 60 + minutes
      if hours < 24 ∧ minutes < 60 then some (if sign = '+' then ahead else -ahead, cs)
      else none
    else none

def instant? (cs : List Char) : Option Instant := do
  let (year, cs) ← digits? 4 4 cs
  let cs ← char? '-' cs
  let (month, cs) ← digits? 2 2 cs
  let cs ← char? '-' cs
  let (day, cs) ← digits? 2 2 cs
  let cs ← match cs with
    | c :: rest => if c = 'T' ∨ c = 't' ∨ c = ' ' then some rest else none
    | [] => none
  let (hour, cs) ← digits? 2 2 cs
  let cs ← char? ':' cs
  let (minute, cs) ← digits? 2 2 cs
  let cs ← char? ':' cs
  let (second, cs) ← digits? 2 2 cs
  let (nanosecond, cs) ← fraction? cs
  let (ahead, cs) ← offset? cs
  let date ← Date.ofParts? year month day
  let time ← TimeOfDay.ofParts? hour minute second nanosecond
  if cs.isEmpty then Instant.ofLocal? date time ahead else none

end OData.Calendar
