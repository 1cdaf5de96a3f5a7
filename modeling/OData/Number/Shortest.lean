import OData.Number.Double

/-!
# Shortest decimal digits

`shortest` finds the fewest digits that read back as a given finite number, and of those the
nearest to it.  `scientific`, `positional` and `mixed` are the three ways they are laid out.
-/

set_option autoImplicit false

namespace OData

/-- Digits, the highest first and the last not zero, with the exponent of the first one. -/
structure ShortestDigits where
  digits : List Char
  exponent : Int

namespace Double

/-- The exponent `e` of `10 ^ e ≤ num / den < 10 ^ (e + 1)`, for quotients above `10 ^ (-400)`. -/
def decimalExponent (num den : Nat) : Int :=
  (Nat.toDigits 10 (num * 10 ^ 400 / den)).length - 401

/-- A positive number in quarters of its last place: itself, the least and the greatest real
number that rounds to it, and the common denominator. -/
structure Interval where
  value : Nat
  low : Nat
  high : Nat
  den : Nat
  closed : Bool

def interval (m : Nat) (q : Int) : Interval :=
  let unit := 2 ^ (q - 2).toNat
  let below := if m = 2 ^ 52 ∧ -1074 < q then 1 else 2
  ⟨4 * m * unit, (4 * m - below) * unit, (4 * m + 2) * unit, 2 ^ (2 - q).toNat, m % 2 == 0⟩

/-- Whether `c · 10 ^ g` lies in the interval. -/
def Interval.contains (i : Interval) (c : Nat) (g : Int) : Bool :=
  let point := c * 10 ^ g.toNat * i.den
  let scaled (n : Nat) := n * 10 ^ (-g).toNat
  if i.closed then decide (scaled i.low ≤ point) && decide (point ≤ scaled i.high)
  else decide (scaled i.low < point) && decide (point < scaled i.high)

/-- The multiple of `10 ^ g` in the interval that is nearest to the number. -/
def Interval.nearest? (i : Interval) (g : Int) : Option Nat :=
  let num := i.value * 10 ^ (-g).toNat
  let den := i.den * 10 ^ g.toNat
  let below := num / den
  let above := below + 1
  let twice := 2 * (num % den)
  let nearer := if twice < den then below else if den < twice then above else below + below % 2
  let farther := if nearer = below then above else below
  if i.contains nearer g then some nearer
  else if i.contains farther g then some farther
  else none

/-- Tries one digit more until the interval holds a number with so many. -/
def searchDigits (i : Interval) (exponent : Int) : Nat → Nat → Nat × Int
  | 0, count => (i.value * 10 ^ (count - exponent).toNat / i.den, exponent - count)
  | fuel + 1, count =>
    let g := exponent - count
    match i.nearest? g with
    | some digits => (digits, g)
    | none => searchDigits i exponent fuel (count + 1)

def dropTrailingZeros (digits : List Char) : List Char :=
  (digits.reverse.dropWhile (· == '0')).reverse

/-- The digits of the absolute value of a finite number. -/
def shortest (x : Double) : ShortestDigits :=
  let (m, q) := x.parts
  if m = 0 then ⟨['0'], 0⟩
  else
    let i := interval m q
    let (c, g) := searchDigits i (decimalExponent i.value i.den) 17 0
    let digits := Nat.toDigits 10 c
    ⟨dropTrailingZeros digits, g + digits.length - 1⟩

/-! ## Layouts -/

private def signed (x : Double) (size : List Char) : String :=
  String.ofList (if x.isNegative then '-' :: size else size)

private def exponentChars (e : Int) : List Char := 'e' :: (toString e).toList

/-- One digit before the point and always an exponent, as in `1.5e3`. -/
def scientific (x : Double) : String :=
  let s := x.shortest
  signed x <| match s.digits with
    | [] => []
    | [d] => d :: exponentChars s.exponent
    | d :: rest => d :: '.' :: (rest ++ exponentChars s.exponent)

/-- No exponent, and a point only before a fraction. -/
def positional (x : Double) : String :=
  let s := x.shortest
  let scale : Int := s.digits.length - 1 - s.exponent
  signed x (Decimal.plainChars ⟨Decimal.natOfDigits s.digits, scale⟩)

/-- Positional from `10 ^ (-5)` and below `10 ^ 16`, with a fraction in any case; else with an
exponent, and a point only between digits. -/
def mixed (x : Double) : String :=
  let s := x.shortest
  let point := s.exponent + 1
  if 16 < point ∨ point ≤ -5 then scientific x
  else if (s.digits.length : Int) ≤ point then positional x ++ ".0"
  else positional x

end Double

end OData
