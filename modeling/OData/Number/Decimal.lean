import OData.Number.Power

/-!
# Decimals

An integer and a scale: `⟨digits, scale⟩` stands for `digits · 10 ^ (-scale)`.  Two decimals of
one value may differ in scale; `compare` and `same` look at the value.  Sums, differences and
remainders have the larger scale, products the sum of the scales, and quotients at most a hundred
digits.  A zero or a one as an operand is a case of its own: a zero lengthens a summand by fifteen
places at most, and a factor beside a one loses its trailing zeros.
-/

set_option autoImplicit false

namespace OData

structure Decimal where
  digits : Int
  scale : Int
  deriving DecidableEq, Repr

namespace Decimal

def ofInt (n : Int) : Decimal := ⟨n, 0⟩

def isZero (d : Decimal) : Bool := d.digits == 0

/-- The integer that stands at scale `scale`, which is not below the scale of `d`. -/
def digitsAt (d : Decimal) (scale : Int) : Int := d.digits * 10 ^ (scale - d.scale).toNat

/-- One more than the exponent of the first digit. -/
def lead (d : Decimal) : Int := (Nat.toDigits 10 d.digits.natAbs).length - d.scale

/-- The order of the values.  Only numbers whose first digits stand at one place are brought to one
scale, so that a scale far from the other costs nothing. -/
def compare (a b : Decimal) : Ordering :=
  if a.digits.sign ≠ b.digits.sign then Ord.compare a.digits.sign b.digits.sign
  else if a.isZero then .eq
  else if a.lead ≠ b.lead then
    if a.digits < 0 then Ord.compare b.lead a.lead else Ord.compare a.lead b.lead
  else
    let scale := max a.scale b.scale
    Ord.compare (a.digitsAt scale) (b.digitsAt scale)

def same (a b : Decimal) : Bool := compare a b == .eq

def neg (a : Decimal) : Decimal := ⟨-a.digits, a.scale⟩

/-- How many places a zero adds to a summand at most. -/
def zeroPlaces : Int := 15

/-- The same value with zeros towards the scale of a zero that is added to it. -/
def lengthened (d : Decimal) (scale : Int) : Decimal :=
  let scale := d.scale + min zeroPlaces (max 0 (scale - d.scale))
  ⟨d.digitsAt scale, scale⟩

def add (a b : Decimal) : Decimal :=
  if b.isZero then a.lengthened b.scale
  else if a.isZero then b.lengthened a.scale
  else
    let scale := max a.scale b.scale
    ⟨a.digitsAt scale + b.digitsAt scale, scale⟩

def sub (a b : Decimal) : Decimal :=
  let scale := max a.scale b.scale
  ⟨a.digitsAt scale - b.digitsAt scale, scale⟩

/-- How many zeros a number ends in; none for zero. -/
def trailingZeros (n : Nat) : Nat :=
  if 0 < n ∧ n % 10 = 0 then trailingZeros (n / 10) + 1 else 0
  termination_by n

/-- The same value without trailing zeros, also in front of the point. -/
def normalized (d : Decimal) : Decimal :=
  if d.isZero then ofInt 0
  else
    let zeros := trailingZeros d.digits.natAbs
    ⟨d.digits.tdiv (10 ^ zeros), d.scale - zeros⟩

/-- Whether the digits say one outright, with nineteen places at most. -/
def isOne (d : Decimal) : Bool :=
  decide (0 ≤ d.scale) && decide (d.scale < 20) && d.digits == 10 ^ d.scale.toNat

def mul (a b : Decimal) : Decimal :=
  if a.isOne then b.normalized
  else if b.isOne then a.normalized
  else ⟨a.digits * b.digits, a.scale + b.scale⟩

/-- The remainder with the sign of the dividend. -/
def rem (a b : Decimal) : Decimal :=
  let scale := max a.scale b.scale
  ⟨(a.digitsAt scale).tmod (b.digitsAt scale), scale⟩

/-! ## Division -/

/-- Digits of a quotient. -/
def precision : Nat := 100

/-- A positive numerator times ten until it reaches the denominator, and how often. -/
def liftNumerator (num den : Nat) : Nat × Nat :=
  if 0 < num ∧ num < den then
    let (lifted, times) := liftNumerator (num * 10) den
    (lifted, times + 1)
  else (num, 0)
  termination_by den - num

/-- Digits of `rest / den` after the digits of `quotient`, at most `more` of them, and the rest. -/
def appendDigits (den : Nat) : Nat → Nat → Nat → Nat → Nat × Nat × Nat
  | 0, quotient, rest, count => (quotient, rest, count)
  | more + 1, quotient, rest, count =>
    if rest = 0 then (quotient, rest, count)
    else appendDigits den more (quotient * 10 + rest * 10 / den) (rest * 10 % den) (count + 1)

/-- The quotient of two positive integers, the half of a last digit rounded up. -/
def divideNat (num den : Nat) (scale : Int) : Decimal :=
  let (lifted, times) := liftNumerator num den
  let first := lifted / den
  let more := precision - (Nat.toDigits 10 first).length
  let (quotient, rest, count) := appendDigits den more first (lifted % den) 0
  let rounded := if rest * 10 / den < 5 then quotient else quotient + 1
  ⟨rounded, scale + times + count⟩

/-- The quotient by a divisor other than zero. -/
def div (a b : Decimal) : Decimal :=
  if a.isZero || b.isOne then a
  else
    let scale := a.scale - b.scale
    if a.digits = b.digits then ⟨1, scale⟩
    else
      let size := divideNat a.digits.natAbs b.digits.natAbs scale
      if (a.digits < 0) = (b.digits < 0) then size else neg size

/-! ## Whole numbers -/

/-- `10 ^ scale` for a scale above zero, one otherwise. -/
def unit (d : Decimal) : Int := 10 ^ d.scale.toNat

/-- The integer at scale zero before its fraction is dropped. -/
def whole (d : Decimal) : Int := d.digits * 10 ^ (-d.scale).toNat

def isInteger (d : Decimal) : Bool := d.digits.tmod d.unit == 0

def floor (d : Decimal) : Decimal := ofInt (d.whole.fdiv d.unit)

def ceiling (d : Decimal) : Decimal := ofInt (-((-d.whole).fdiv d.unit))

/-- The nearest integer, halves away from zero. -/
def round (d : Decimal) : Decimal :=
  let size : Int := (2 * d.whole.natAbs + d.unit) / (2 * d.unit)
  ofInt (if d.digits < 0 then -size else size)

/-- The value if it is an integer of 64 bits. -/
def toInt64? (d : Decimal) : Option Int :=
  let n := d.whole.tdiv d.unit
  if d.isInteger && decide (-2 ^ 63 ≤ n) && decide (n < 2 ^ 63) then some n else none

/-! ## Text -/

/-- The digits with a decimal point and without an exponent. -/
def plainChars (d : Decimal) : List Char :=
  let digits := Nat.toDigits 10 d.digits.natAbs
  let size :=
    if d.scale ≤ 0 then digits ++ List.replicate (-d.scale).toNat '0'
    else
      let scale := d.scale.toNat
      if scale < digits.length then
        digits.take (digits.length - scale) ++ '.' :: digits.drop (digits.length - scale)
      else '0' :: '.' :: (List.replicate (scale - digits.length) '0' ++ digits)
  if d.digits < 0 then '-' :: size else size

def plain (d : Decimal) : String := String.ofList d.plainChars

/-- An exponent with its sign. -/
def exponentChars (e : Int) : List Char :=
  'E' :: if e < 0 then (toString e).toList else '+' :: (toString e).toList

/-- Plain, unless more than five zeros would follow the point or more than fifteen precede it:
these numbers have an exponent.  A zero has no places. -/
def compactChars (d : Decimal) : List Char :=
  let digits := Nat.toDigits 10 d.digits.natAbs
  let signed (size : List Char) := if d.digits < 0 then '-' :: size else size
  if d.isZero then ['0']
  else if 5 < d.scale - digits.length then
    signed <| digits.take 1 ++ (if digits.length = 1 then [] else '.' :: digits.drop 1)
      ++ exponentChars (digits.length - 1 - d.scale)
  else if d.scale < -15 then signed (digits ++ exponentChars (-d.scale))
  else d.plainChars

def compact (d : Decimal) : String := String.ofList d.compactChars

/-- The number written by decimal digits. -/
def natOfDigits (cs : List Char) : Nat :=
  cs.foldl (fun n c => n * 10 + (c.toNat - 48)) 0

/-- Digits, of which any but the first may be an underscore. -/
def readDigits (cs : List Char) : Option Nat :=
  match cs with
  | [] => none
  | first :: rest =>
    if first.isDigit && rest.all (fun c => c.isDigit || c == '_') then
      some (natOfDigits (cs.filter (· != '_')))
    else none

/-- An integer with an optional sign. -/
def readInteger : List Char → Option Int
  | '-' :: rest => (readDigits rest).map fun n => -(n : Int)
  | '+' :: rest => (readDigits rest).map Int.ofNat
  | cs => (readDigits cs).map Int.ofNat

/-- An exponent takes no underscore. -/
def readExponent (cs : List Char) : Option Int :=
  if cs.contains '_' then none else readInteger cs

/-- Digits around an optional point; the number of digits after it is the scale. -/
def readMantissa (cs : List Char) : Option (Int × Int) :=
  let lead := cs.takeWhile (· != '.')
  let trail := cs.drop (lead.length + 1)
  (readInteger (lead ++ trail)).map fun n => (n, ((trail.filter (· != '_')).length : Int))

/-- A decimal with an optional exponent; its scale is an integer of 64 bits. -/
def ofText? (text : String) : Option Decimal := do
  let cs := text.toList
  let mantissa := cs.takeWhile fun c => c != 'e' && c != 'E'
  let exponent ← match cs.drop mantissa.length with
    | [] => some 0
    | _ :: rest => readExponent rest
  let (digits, places) ← readMantissa mantissa
  let scale := places - exponent
  if -2 ^ 63 ≤ scale ∧ scale < 2 ^ 63 then some ⟨digits, scale⟩ else none

end Decimal

end OData
