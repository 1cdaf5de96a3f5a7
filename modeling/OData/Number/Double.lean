import OData.Number.Decimal

/-!
# Binary floating-point numbers

A number of 64 bits.  A finite one is `m · 2 ^ q` with the integers of `parts`.  `ofRatio` rounds
a quotient of integers to the nearest number, halves to the even neighbour; `toDecimal?` is exact.
-/

set_option autoImplicit false

namespace OData

structure Double where
  bits : UInt64
  deriving DecidableEq, Repr

namespace Double

def ofFloat (x : Float) : Double := ⟨x.toBits⟩

def toFloat (x : Double) : Float := Float.ofBits x.bits

def isNegative (x : Double) : Bool := decide (2 ^ 63 ≤ x.bits.toNat)

/-- The bits without the sign. -/
def size (x : Double) : Nat := x.bits.toNat % 2 ^ 63

def infinitySize : Nat := 0x7FF * 2 ^ 52

def isNaN (x : Double) : Bool := decide (infinitySize < x.size)

def isFinite (x : Double) : Bool := decide (x.size < infinitySize)

def isZero (x : Double) : Bool := x.size == 0

def ofSize (negative : Bool) (size : Nat) : Double :=
  ⟨UInt64.ofNat (if negative then 2 ^ 63 + size else size)⟩

def zero : Double := ofSize false 0

def infinity : Double := ofSize false infinitySize

def negativeInfinity : Double := ofSize true infinitySize

def nan : Double := ofSize false (infinitySize + 2 ^ 51)

/-- The integers `m` and `q` of the absolute value `m · 2 ^ q` of a finite number. -/
def parts (x : Double) : Nat × Int :=
  let exponent : Nat := x.size / 2 ^ 52
  let fraction : Nat := x.size % 2 ^ 52
  if exponent = 0 then (fraction, -1074) else (2 ^ 52 + fraction, exponent - 1075)

/-! ## Order -/

/-- Numbers are ordered as these integers; both zeros have the same. -/
def orderKey (x : Double) : Int := if x.isNegative then -(x.size : Int) else x.size

/-- The order of two numbers, if neither is NaN. -/
def compare (x y : Double) : Option Ordering :=
  if x.isNaN || y.isNaN then none else some (Ord.compare x.orderKey y.orderKey)

def same (x y : Double) : Bool := compare x y == some .eq

/-! ## Arithmetic -/

def neg (x : Double) : Double := ofFloat (-x.toFloat)

def add (x y : Double) : Double := ofFloat (x.toFloat + y.toFloat)

def sub (x y : Double) : Double := ofFloat (x.toFloat - y.toFloat)

def mul (x y : Double) : Double := ofFloat (x.toFloat * y.toFloat)

def div (x y : Double) : Double := ofFloat (x.toFloat / y.toFloat)

/-! ## Rounding -/

/-- The integer nearest to `num / den`, halves to the even neighbour. -/
def roundDiv (num den : Nat) : Nat :=
  let quotient := num / den
  let twice := 2 * (num % den)
  if twice < den then quotient
  else if den < twice then quotient + 1
  else quotient + quotient % 2

/-- The exponent `e` of `2 ^ e ≤ num / den < 2 ^ (e + 1)`. -/
def binaryExponent (num den : Nat) : Int :=
  let guess : Int := (num.log2 : Int) - den.log2
  if den * 2 ^ guess.toNat ≤ num * 2 ^ (-guess).toNat then guess else guess - 1

/-- The number nearest to `num / den`, halves to the even neighbour. -/
def ofRatio (negative : Bool) (num den : Nat) : Double :=
  if num = 0 then ofSize negative 0
  else
    let q := max (binaryExponent num den - 52) (-1074)
    let m := roundDiv (num * 2 ^ (-q).toNat) (den * 2 ^ q.toNat)
    let size := if m < 2 ^ 52 then m else (q + 1075).toNat * 2 ^ 52 + (m - 2 ^ 52)
    ofSize negative (min size infinitySize)

def ofInt (n : Int) : Double := ofRatio (decide (n < 0)) n.natAbs 1

/-- `start · base ^ n`, each product rounded. -/
def mulPower (start base : Double) (n : Nat) : Double :=
  if n = 0 then start
  else mulPower (if n % 2 = 1 then start.mul base else start) (base.mul base) (n / 2)
  termination_by n

/-- The number nearest to `n · 10 ^ e`.  Beyond the ends of the range the power is not formed. -/
def ofScaled (negative : Bool) (n : Nat) (e : Int) : Double :=
  let places := e + (Nat.toDigits 10 n).length
  if n = 0 ∨ places < -400 then ofSize negative 0
  else if 400 < places then ofSize negative infinitySize
  else ofRatio negative (n * 10 ^ e.toNat) (10 ^ (-e).toNat)

/-- How many decimal digits a number has, as its length in bits tells. -/
def estimatedDigits (n : Nat) : Nat := (n.log2 + 2) * 10 ^ 18 / 3321928094887362348

/-- Digits are left out nineteen at a time, as long as twenty-five remain. -/
def droppedDigits (n : Nat) : Nat := (estimatedDigits n - 25) / 19 * 19

/-- The greatest exponent of ten that a conversion takes. -/
def maxExponent : Int := 2 ^ 31 - 1

/-- A number near a decimal: the nearest one if it has few digits and a fraction, the rounded
product with a rounded power of ten if it has trailing zeros, and an infinite one if its exponent
is out of all bounds, however small it is. -/
def ofDecimal (d : Decimal) : Double :=
  let negative := decide (d.digits < 0)
  let size := d.digits.natAbs
  if d.isZero then zero
  else if d.scale = 0 then ofRatio negative size 1
  else
    let dropped := droppedDigits size
    let kept := size / 10 ^ dropped
    let exponent := dropped - d.scale
    if exponent < -maxExponent ∨ maxExponent < exponent then ofSize negative infinitySize
    else if exponent < 0 then ofScaled negative kept exponent
    else (ofRatio negative kept 1).mul (mulPower (ofInt 1) (ofInt 10) exponent.toNat)

/-- Reads digits with an optional sign, point and exponent; a number out of range is infinite. -/
def ofText? (text : String) : Option Double := do
  let cs := text.toList
  let mantissa := cs.takeWhile fun c => c != 'e' && c != 'E'
  let exponent ← match cs.drop mantissa.length with
    | [] => some 0
    | _ :: rest => Decimal.readExponent rest
  let (digits, places) ← Decimal.readMantissa mantissa
  some (ofScaled (cs.head? == some '-') digits.natAbs (exponent - places))

/-- Halves the first number while it is even and the exponent is negative. -/
def reduce : Nat → Nat → Nat × Nat
  | m, 0 => (m, 0)
  | m, places + 1 => if m % 2 = 0 then reduce (m / 2) places else (m, places + 1)

/-- Whether the number is below the least one of full precision. -/
def isSubnormal (x : Double) : Bool := decide (x.size < 2 ^ 52)

/-- The exact value of a finite number: with the least scale, but with all places if the number is
below full precision. -/
def toDecimal? (x : Double) : Option Decimal :=
  if x.isFinite then
    let (m, q) := x.parts
    let (m, places) :=
      if m = 0 then (0, 0)
      else if x.isSubnormal then (m, (-q).toNat)
      else reduce (m * 2 ^ q.toNat) (-q).toNat
    let digits : Int := m * 5 ^ places
    some ⟨if x.isNegative then -digits else digits, places⟩
  else none

/-! ## Whole numbers -/

def floor (x : Double) : Double := ofFloat x.toFloat.floor

def ceiling (x : Double) : Double := ofFloat x.toFloat.ceil

/-- The nearest integer, halves away from zero. -/
def round (x : Double) : Double := ofFloat x.toFloat.round

/-- The exact remainder with the sign of the dividend. -/
def rem (x y : Double) : Double :=
  if !x.isFinite || y.isNaN || y.isZero then nan
  else if !y.isFinite then x
  else
    let (m, p) := x.parts
    let (n, q) := y.parts
    let least := min p q
    let rest := (m * 2 ^ (p - least).toNat) % (n * 2 ^ (q - least).toNat)
    ofRatio x.isNegative (rest * 2 ^ least.toNat) (2 ^ (-least).toNat)

end Double

end OData
