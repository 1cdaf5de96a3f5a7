import OData.Text.Hex

/-!
# Globally unique identifiers

Numbers of 128 bits, written as five groups of hexadecimal digits.
-/

set_option autoImplicit false

namespace OData

structure Guid where
  bits : BitVec 128
  deriving DecidableEq, Repr

namespace Guid

def nil : Guid := ⟨0⟩

def compare (a b : Guid) : Ordering := Ord.compare a.bits.toNat b.bits.toNat

/-- Sizes of the groups of digits. -/
def groups : List Nat := [8, 4, 4, 4, 12]

/-- Cuts a text into pieces of the given sizes. -/
def pieces : List Nat → List Char → List (List Char)
  | [], _ => []
  | size :: sizes, cs => cs.take size :: pieces sizes (cs.drop size)

def toChars (g : Guid) : List Char :=
  ['-'].intercalate (pieces groups (Text.Hex.lowerDigits g.bits.toNat 32))

def toText (g : Guid) : String := String.ofList g.toChars

def ofDigits? (digits : List Char) : Option Guid :=
  if digits.length = 32 then (Text.Hex.number? digits).map fun n => ⟨BitVec.ofNat 128 n⟩ else none

/-- Reads digits in five groups joined by hyphens. -/
def ofHyphenated? (cs : List Char) : Option Guid :=
  let digits := cs.filter (· != '-')
  if ['-'].intercalate (pieces groups digits) = cs then ofDigits? digits else none

/-- Reads the five groups, also in braces or after `urn:uuid:` in any case, or the bare
digits. -/
def ofText? (text : String) : Option Guid :=
  let cs := text.toList
  match cs.length with
  | 32 => ofDigits? cs
  | 36 => ofHyphenated? cs
  | 38 =>
    if cs.head? = some '\x7b' ∧ cs.getLast? = some '\x7d' then
      ofHyphenated? (cs.drop 1).dropLast
    else none
  | 45 =>
    if (cs.take 9).map Char.toLower = "urn:uuid:".toList then ofHyphenated? (cs.drop 9) else none
  | _ => none

end Guid

end OData
