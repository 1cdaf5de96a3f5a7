import OData.Json.Basic
import OData.Number.Shortest

/-!
# Numerals of JSON

An integer of 64 bits, with or without sign, is exact.  Any other numeral is its leading digits,
as many as fit 64 bits, scaled by powers of ten in floating point; it fails beyond the greatest
finite number.
-/

set_option autoImplicit false

namespace OData.Json

namespace Numeral

def maxSignificand : Nat := 2 ^ 64 - 1

/-- Appends digits while the number fits 64 bits; the count of digits that were appended. -/
def appendDigits (significand : Nat) : List Char → Nat × Nat
  | [] => (significand, 0)
  | c :: rest =>
    let next := significand * 10 + (c.toNat - 48)
    if next ≤ maxSignificand then
      let (last, count) := appendDigits next rest
      (last, count + 1)
    else (significand, 0)

def powerOfTen (n : Nat) : Double := Double.ofRatio false (10 ^ n) 1

/-- `x · 10 ^ e`, one division or multiplication for each 308 places. -/
def scale (x : Double) (e : Int) : Option Double :=
  if 0 ≤ e then
    if x.isZero then some x
    else if e ≤ 308 then
      let scaled := x.mul (powerOfTen e.toNat)
      if scaled.isFinite then some scaled else none
    else none
  else if -308 ≤ e then some (x.div (powerOfTen (-e).toNat))
  else if x.isZero then some x
  else scale (x.div (powerOfTen 308)) (e + 308)
  termination_by (-e).toNat

def signed (negative : Bool) (x : Double) : Double := if negative then x.neg else x

def float (negative : Bool) (significand : Nat) (e : Int) : Option Json :=
  (scale (Double.ofInt significand) e).map fun x => .float (signed negative x)

/-- An exponent beyond 32 bits makes a zero or fails. -/
def withExponent (negative : Bool) (significand : Nat) (e : Int) (minus : Bool)
    (digits : List Char) : Option Json :=
  let size := Decimal.natOfDigits digits
  if 2 ^ 31 ≤ size then
    if significand ≠ 0 ∧ !minus then none else some (.float (signed negative Double.zero))
  else float negative significand (if minus then e - size else e + size)

/-- Reads what follows the digits before and after the point. -/
def readExponent (negative : Bool) (significand : Nat) (e : Int) (cs : List Char) :
    Option (Json × List Char) :=
  match cs with
  | c :: rest =>
    if c = 'e' ∨ c = 'E' then
      let (minus, rest) := match rest with
        | '-' :: after => (true, after)
        | '+' :: after => (false, after)
        | _ => (false, rest)
      let digits := rest.takeWhile Char.isDigit
      if digits.isEmpty then none
      else (withExponent negative significand e minus digits).map fun json =>
        (json, rest.drop digits.length)
    else (float negative significand e).map fun json => (json, cs)
  | [] => (float negative significand e).map fun json => (json, cs)

def readFraction (negative : Bool) (significand : Nat) (e : Int) (cs : List Char) :
    Option (Json × List Char) :=
  let digits := cs.takeWhile Char.isDigit
  if digits.isEmpty then none
  else
    let (significand, count) := appendDigits significand digits
    readExponent negative significand (e - count) (cs.drop digits.length)

/-- A whole number, exact if it fits. -/
def whole (negative : Bool) (significand : Nat) : Json :=
  if negative then
    if significand = 0 ∨ 2 ^ 63 < significand then .float (Double.ofInt significand).neg
    else .int (-(significand : Int))
  else .int significand

/-- Reads a numeral without its sign. -/
def readSize (negative : Bool) (cs : List Char) : Option (Json × List Char) :=
  let digits := cs.takeWhile Char.isDigit
  let rest := cs.drop digits.length
  if digits.isEmpty || (digits.head? == some '0' && digits.length != 1) then none
  else
    let (significand, count) := appendDigits 0 digits
    let dropped : Int := digits.length - count
    match rest with
    | '.' :: after => readFraction negative significand dropped after
    | c :: _ =>
      if c = 'e' ∨ c = 'E' ∨ dropped ≠ 0 then readExponent negative significand dropped rest
      else some (whole negative significand, rest)
    | [] =>
      if dropped ≠ 0 then readExponent negative significand dropped rest
      else some (whole negative significand, rest)

/-- Reads the numeral at the start of a text. -/
def read : List Char → Option (Json × List Char)
  | '-' :: rest => readSize true rest
  | cs => readSize false cs

end Numeral

/-- The number that a whole text denotes. -/
def ofNumeral? (text : String) : Option Json :=
  match Numeral.read text.toList with
  | some (json, []) => some json
  | _ => none

end OData.Json
