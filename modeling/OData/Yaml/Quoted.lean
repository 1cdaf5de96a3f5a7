import OData.Text.Hex
import OData.Yaml.Node

/-!
# Quoted scalars

Blanks around a line break are dropped.  A single break is a blank; of several the first one goes
and the others stay.  A break that is not a new line, which only version 1.1 has, stays in any
case.  In double quotes a backslash begins an escape, and before a break it takes the break away;
in single quotes a quote is written twice.
-/

set_option autoImplicit false

namespace OData.Yaml

def isBlank (c : Char) : Bool := c == ' ' || c == '\t'

def isSpace (v : Version) (c : Char) : Bool := isBlank c || v.isBreak c

/-- The line breaks in a run of blanks and breaks. -/
def breaks (v : Version) : List Char → List Char
  | [] => []
  | '\r' :: '\n' :: rest => '\n' :: breaks v rest
  | c :: rest =>
    if !v.isBreak c then breaks v rest
    else if c = '\u2028' ∨ c = '\u2029' then c :: breaks v rest
    else '\n' :: breaks v rest

/-- What a run of blanks and breaks stands for. -/
def folded (v : Version) (run : List Char) : List Char :=
  match breaks v run with
  | [] => run
  | ['\n'] => [' ']
  | '\n' :: others => others
  | all => all

/-- The character of an escape of one letter. -/
def letterEscape (v : Version) (c : Char) : Option Char :=
  match c with
  | '0' => some '\x00'
  | 'a' => some '\x07'
  | 'b' => some '\x08'
  | 't' | '\t' => some '\t'
  | 'n' => some '\n'
  | 'v' => some '\x0b'
  | 'f' => some '\x0c'
  | 'r' => some '\r'
  | 'e' => some '\x1b'
  | ' ' => some ' '
  | '"' => some '"'
  | '/' => some '/'
  | '\\' => some '\\'
  | 'N' => some '\x85'
  | '_' => some '\xA0'
  | 'L' => some '\u2028'
  | 'P' => some '\u2029'
  | '\'' => if v = .v1_1 then some '\'' else none
  | _ => none

/-- How many hexadecimal digits follow the letter of an escape. -/
def escapeWidth : Char → Option Nat
  | 'x' => some 2
  | 'u' => some 4
  | 'U' => some 8
  | _ => none

/-- The character of a code point, which is no surrogate. -/
def character? (n : Nat) : Option Char :=
  if n < 0xD800 ∨ (0xDFFF < n ∧ n < 0x110000) then some (Char.ofNat n) else none

/-- The character of an escape after its backslash. -/
def escape (v : Version) : List Char → Option (Char × List Char)
  | [] => none
  | c :: rest =>
    match escapeWidth c with
    | some width => do
      if rest.length < width then none
      else some (← character? (← Text.Hex.number? (rest.take width)), rest.drop width)
    | none => (letterEscape v c).map fun c => (c, rest)

/-- The text up to the closing quote and what follows it; `read` is the text so far, back to
front. -/
def quotedFrom (v : Version) (quote : Char) (read : List Char) :
    Nat → List Char → Option (List Char × List Char)
  | 0, _ => none
  | _, [] => none
  | fuel + 1, c :: rest =>
    if c = quote then
      match quote, rest with
      | '\'', '\'' :: rest => quotedFrom v quote ('\'' :: read) fuel rest
      | _, _ => some (read.reverse, rest)
    else if isSpace v c then
      let run := (c :: rest).takeWhile (isSpace v)
      quotedFrom v quote ((folded v run).reverse ++ read) fuel ((c :: rest).drop run.length)
    else if c = '\\' ∧ quote = '"' then
      match rest with
      | b :: _ =>
        if v.isBreak b then
          let run := rest.takeWhile (isSpace v)
          let kept := (breaks v run).drop 1
          quotedFrom v quote (kept.reverse ++ read) fuel (rest.drop run.length)
        else do
          let (c, rest) ← escape v rest
          quotedFrom v quote (c :: read) fuel rest
      | [] => none
    else quotedFrom v quote (c :: read) fuel rest

def isQuote (c : Char) : Bool := c == '"' || c == '\''

/-- The text in the quotes that a list of characters begins with, and what follows them. -/
def quoted? (v : Version) : List Char → Option (String × List Char)
  | c :: rest =>
    if isQuote c then
      (quotedFrom v c [] (rest.length + 1) rest).map fun (text, rest) => (String.ofList text, rest)
    else none
  | [] => none

end OData.Yaml
