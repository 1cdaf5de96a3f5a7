import OData.Number.Power

/-!
# Hexadecimal digits
-/

set_option autoImplicit false

namespace OData.Text.Hex

def value? (c : Char) : Option Nat :=
  if '0' ≤ c ∧ c ≤ '9' then some (c.toNat - 48)
  else if 'a' ≤ c ∧ c ≤ 'f' then some (c.toNat - 87)
  else if 'A' ≤ c ∧ c ≤ 'F' then some (c.toNat - 55)
  else none

def isDigit (c : Char) : Bool := (value? c).isSome

def lowerDigit (n : Nat) : Char := if n < 10 then Char.ofNat (n + 48) else Char.ofNat (n + 87)

def upperDigit (n : Nat) : Char := if n < 10 then Char.ofNat (n + 48) else Char.ofNat (n + 55)

theorem value?_lowerDigit {n : Nat} (h : n < 16) : value? (lowerDigit n) = some n := by
  have all : ∀ m ∈ List.range 16, value? (lowerDigit m) = some m := by decide
  exact all n (List.mem_range.mpr h)

theorem value?_upperDigit {n : Nat} (h : n < 16) : value? (upperDigit n) = some n := by
  have all : ∀ m ∈ List.range 16, value? (upperDigit m) = some m := by decide
  exact all n (List.mem_range.mpr h)

/-- The last `width` hexadecimal digits of `n`, the highest first. -/
def lowerDigits (n : Nat) : Nat → List Char
  | 0 => []
  | width + 1 => lowerDigit (n / 16 ^ width % 16) :: lowerDigits n width

def upperByte (b : UInt8) : List Char := [upperDigit (b.toNat / 16), upperDigit (b.toNat % 16)]

/-- The number written by hexadecimal digits, the highest first. -/
def number? (digits : List Char) : Option Nat :=
  digits.foldlM (fun n c => (value? c).map (n * 16 + ·)) 0

end OData.Text.Hex
