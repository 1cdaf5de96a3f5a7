import OData.Text.Utf8
import OData.Text.Hex
import OData.Text.Pieces

/-!
# Form encoding of query strings

Pairs joined by `&`, name and value by `=`.  A space is written `+`, the characters of `isPlain`
stand for themselves, and every other byte is written as a percent sign and two digits.
Reading is lenient: a percent sign without two digits stands for itself, bytes that are no
UTF-8 are replaced, and an empty piece between separators is no pair.
-/

set_option autoImplicit false

namespace OData.Text.Form

abbrev Pair := String × String

def isPlain (c : Char) : Bool := c.isAlphanum || c == '*' || c == '-' || c == '.' || c == '_'

def encodeByte (b : UInt8) : List Char :=
  let c := Char.ofNat b.toNat
  if b < 0x80 && isPlain c then [c]
  else if c == ' ' then ['+']
  else '%' :: Hex.upperByte b

def encode (s : String) : String := String.ofList ((Utf8.encode s).flatMap encodeByte)

def decodeBytes : List UInt8 → List UInt8
  | [] => []
  | b :: rest =>
    if b = 0x2B then 0x20 :: decodeBytes rest
    else if b = 0x25 then
      match rest with
      | h :: l :: after =>
        match Hex.value? (Char.ofNat h.toNat), Hex.value? (Char.ofNat l.toNat) with
        | some high, some low => UInt8.ofNat (high * 16 + low) :: decodeBytes after
        | _, _ => b :: decodeBytes (h :: l :: after)
      | [l] => b :: decodeBytes [l]
      | [] => [b]
    else b :: decodeBytes rest

def decode (s : String) : String :=
  String.ofList (Utf8.decodeLossy (decodeBytes (Utf8.encode s)))

def decodePair (piece : List Char) : Pair :=
  let name := piece.takeWhile (· != '=')
  (decode (String.ofList name), decode (String.ofList (piece.drop (name.length + 1))))

def decodePairs (query : String) : List Pair :=
  ((splitOn '&' query.toList).filter (!·.isEmpty)).map decodePair

def encodePair (pair : Pair) : String := encode pair.1 ++ "=" ++ encode pair.2

def encodePairs (pairs : List Pair) : String := "&".intercalate (pairs.map encodePair)

end OData.Text.Form
