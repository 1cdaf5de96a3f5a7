import OData.Json.Basic
import OData.Yaml.Node

/-!
# What scalars stand for

A plain scalar may be no value, a truth value, an integer in one of four bases or a number with a
fraction or an exponent; any other scalar is text.  Of two entries with one key the later one
counts.
-/

set_option autoImplicit false

namespace OData.Yaml

def digitValue? (base : Nat) (c : Char) : Option Nat := do
  let n ← if c.isDigit then some (c.toNat - 48)
    else if 'a' ≤ c ∧ c ≤ 'f' then some (c.toNat - 87)
    else if 'A' ≤ c ∧ c ≤ 'F' then some (c.toNat - 55)
    else none
  if n < base then some n else none

/-- The number that digits write in a base. -/
def natural? (base : Nat) (digits : List Char) : Option Nat :=
  if digits.isEmpty then none
  else digits.foldlM (fun n c => (digitValue? base c).map (n * base + ·)) 0

/-- Digits after a leading zero are no number. -/
def hasLeadingZero (digits : List Char) : Bool :=
  decide (1 < digits.length) && digits.head? == some '0' && digits.all Char.isDigit

/-- An integer without its sign. -/
def unsigned? : List Char → Option Nat
  | '0' :: 'x' :: digits => natural? 16 digits
  | '0' :: 'o' :: digits => natural? 8 digits
  | '0' :: 'b' :: digits => natural? 2 digits
  | digits => if hasLeadingZero digits then none else natural? 10 digits

def integer? : List Char → Option Int
  | '-' :: digits => (unsigned? digits).map fun n => -(n : Int)
  | '+' :: digits => (unsigned? digits).map Int.ofNat
  | digits => (unsigned? digits).map Int.ofNat

/-- The sign and the rest of a text. -/
def splitSign : List Char → Option Char × List Char
  | '-' :: rest => (some '-', rest)
  | '+' :: rest => (some '+', rest)
  | cs => (none, cs)

/-- A finite number with digits, or an infinite one. -/
def fractional? (text : String) : Option Double :=
  let (sign, size) := splitSign text.toList
  if [".inf", ".Inf", ".INF"].contains (String.ofList size) then
    some (if sign = some '-' then .negativeInfinity else .infinity)
  else if sign = none ∧ [".nan", ".NaN", ".NAN"].contains text then some .nan
  else if hasLeadingZero size ∨ size.contains '_' then none
  else do
    let x ← Double.ofText? text
    if x.isFinite then some x else none

/-- What a plain scalar stands for. -/
def plainValue (text : String) : Json :=
  if ["", "~", "null", "Null", "NULL"].contains text then .null
  else if ["true", "True", "TRUE"].contains text then .bool true
  else if ["false", "False", "FALSE"].contains text then .bool false
  else match integer? text.toList with
    | some n => .int n
    | none =>
      match fractional? text with
      | some x => .float x
      | none => .str text

namespace Node

mutual

/-- The data that a node stands for. -/
def toJson : Node → Json
  | scalar .plain text => plainValue text
  | scalar .quoted text => .str text
  | sequence items => .array (itemsToJson items)
  | mapping entries => .object (Json.Members.ofList (entriesToJson entries))

def itemsToJson : List Node → List Json
  | [] => []
  | node :: rest => node.toJson :: itemsToJson rest

def entriesToJson : List (String × Node) → Json.Members
  | [] => []
  | (key, node) :: rest => (key, node.toJson) :: entriesToJson rest

end

end Node

end OData.Yaml
