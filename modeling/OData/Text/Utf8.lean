/-!
# UTF-8

`encode` gives the bytes of a text, and `charsBefore` its characters up to one of them.
`decodeLossy` reads bytes as UTF-8.  Each longest run of bytes that starts a character but does
not complete it, and each byte that starts none, becomes U+FFFD.  `decode?` takes no such bytes.
-/

set_option autoImplicit false

namespace OData.Text.Utf8

def replacement : Char := '\uFFFD'

def encode (s : String) : List UInt8 := s.toUTF8.toList

/-- The characters whose bytes begin before an offset. -/
def charsBefore : Nat → List Char → List Char
  | _, [] => []
  | offset, c :: rest => if offset = 0 then [] else c :: charsBefore (offset - c.utf8Size) rest

def between (lo b hi : UInt8) : Bool := decide (lo ≤ b) && decide (b ≤ hi)

def isContinuation (b : UInt8) : Bool := between 0x80 b 0xBF

/-- Whether `second` may follow the first byte of a three-byte character. -/
def secondOfThree (first second : UInt8) : Bool :=
  if first = 0xE0 then between 0xA0 second 0xBF
  else if first = 0xED then between 0x80 second 0x9F
  else between 0xE1 first 0xEF && isContinuation second

/-- Whether `second` may follow the first byte of a four-byte character. -/
def secondOfFour (first second : UInt8) : Bool :=
  if first = 0xF0 then between 0x90 second 0xBF
  else if first = 0xF4 then between 0x80 second 0x8F
  else between 0xF1 first 0xF3 && isContinuation second

def join (parts : List Nat) : Char :=
  Char.ofNat (parts.foldl (fun n part => n * 64 + part) 0)

def low (b : UInt8) : Nat := b.toNat % 64

def decodeLossy : List UInt8 → List Char
  | [] => []
  | a :: rest =>
    if a < 0x80 then Char.ofNat a.toNat :: decodeLossy rest
    else match rest with
      | [] => [replacement]
      | b :: afterB =>
        if between 0xC2 a 0xDF && isContinuation b then
          join [a.toNat % 32, low b] :: decodeLossy afterB
        else if secondOfThree a b then
          match afterB with
          | [] => [replacement]
          | c :: afterC =>
            if isContinuation c then join [a.toNat % 16, low b, low c] :: decodeLossy afterC
            else replacement :: decodeLossy (c :: afterC)
        else if secondOfFour a b then
          match afterB with
          | [] => [replacement]
          | c :: afterC =>
            if isContinuation c then
              match afterC with
              | [] => [replacement]
              | d :: afterD =>
                if isContinuation d then
                  join [a.toNat % 8, low b, low c, low d] :: decodeLossy afterD
                else replacement :: decodeLossy (d :: afterD)
            else replacement :: decodeLossy (c :: afterC)
        else replacement :: decodeLossy (b :: afterB)

/-- The text that some bytes are in UTF-8. -/
def decode? (bytes : List UInt8) : Option String :=
  let text := String.ofList (decodeLossy bytes)
  if encode text = bytes then some text else none

end OData.Text.Utf8
