import OData.Text.Pieces
import OData.Yaml.Quoted

/-!
# Flow notation

Sequences in brackets, mappings in braces, quoted and plain scalars; JSON is a part of it.  A
plain scalar ends before a comma, a bracket, a comment or a colon that a blank or one of these
follows.  A key takes one line and at most 1024 characters.
-/

set_option autoImplicit false

namespace OData.Yaml

/-- A part of a document at the start of the characters, and what follows it. -/
abbrev Step (α : Type) := List Char → Option (α × List Char)

/-- Drops blanks, line breaks and comments; `inComment` says where the characters start. -/
def skipFrom (v : Version) : Bool → List Char → List Char
  | _, [] => []
  | true, c :: rest => skipFrom v (!v.isBreak c) rest
  | false, c :: rest =>
    if isSpace v c then skipFrom v false rest
    else if c = '#' then skipFrom v true rest
    else c :: rest

def skip (v : Version) (cs : List Char) : List Char := skipFrom v false cs

def isFlowIndicator (c : Char) : Bool := [',', '[', ']', '\x7b', '\x7d'].contains c

/-- Whether a colon before these characters ends a key. -/
def endsKey (v : Version) : List Char → Bool
  | [] => true
  | c :: _ => isSpace v c || isFlowIndicator c

/-- How many characters a plain scalar and the blanks after it take; `spaced` says that a blank
comes before them. -/
def plainLength (v : Version) : Bool → List Char → Nat
  | _, [] => 0
  | spaced, c :: rest =>
    if isFlowIndicator c then 0
    else if c = ':' && endsKey v rest then 0
    else if c = '#' && spaced then 0
    else plainLength v (isSpace v c) rest + 1

/-- The text of a plain scalar, its lines folded. -/
def foldLines (v : Version) : Nat → List Char → List Char
  | 0, _ => []
  | _, [] => []
  | fuel + 1, c :: rest =>
    if isSpace v c then
      let run := (c :: rest).takeWhile (isSpace v)
      folded v run ++ foldLines v fuel ((c :: rest).drop run.length)
    else c :: foldLines v fuel rest

/-- Characters that begin a comment, an anchor, a tag or a block scalar, or nothing at all. -/
def isReserved (c : Char) : Bool := ['#', '&', '*', '!', '|', '>', '%', '@', '\x60'].contains c

def plain (v : Version) : Step String := fun cs =>
  if (cs.head?.map isReserved).getD false then none
  else
    let text := Text.trim (isSpace v) (cs.take (plainLength v true cs))
    some (String.ofList (foldLines v text.length text), cs.drop (plainLength v true cs))

/-- A quoted or plain scalar. -/
def scalar (v : Version) : Step Node := fun cs =>
  if (cs.head?.map isQuote).getD false then
    (quoted? v cs).map fun (text, rest) => (.scalar .quoted text, rest)
  else (plain v cs).map fun (text, rest) => (.scalar .plain text, rest)

/-- Whether the characters before `rest` can be a key. -/
def fitsKey (v : Version) (start rest : List Char) : Bool :=
  let raw := start.take (start.length - rest.length)
  decide (raw.length ≤ 1024) && !raw.any v.isBreak

/-- The text of a scalar that is a key, and what follows its colon. -/
def key? (v : Version) (start : List Char) : Step String := fun rest => do
  let ':' :: after := skip v rest | none
  let (node, _) ← scalar v start
  match node with
  | .scalar _ text => if fitsKey v start (skip v rest) then some (text, after) else none
  | _ => none

/-- The value of a key: nothing if the entry ends at once. -/
def entryValue (v : Version) (value : Step Node) : Step Node := fun cs =>
  match skip v cs with
  | ',' :: rest => some (.empty, ',' :: rest)
  | ']' :: rest => some (.empty, ']' :: rest)
  | '\x7d' :: rest => some (.empty, '\x7d' :: rest)
  | start => value start

/-- An item of a sequence: a value, or a single entry of a mapping. -/
def item (v : Version) (value : Step Node) : Step Node := fun start => do
  let (node, rest) ← value start
  match node with
  | .scalar _ _ =>
    match key? v start rest with
    | some (key, after) => do
      let (value, rest) ← entryValue v value after
      some (.mapping [(key, value)], rest)
    | none => some (node, rest)
  | _ => some (node, rest)

def items (v : Version) (value : Step Node) : Nat → Step (List Node)
  | 0 => fun _ => none
  | fuel + 1 => fun cs =>
    match skip v cs with
    | ']' :: rest => some ([], rest)
    | ',' :: _ => none
    | start => do
      let (first, rest) ← item v value start
      match skip v rest with
      | ',' :: rest => do
        let (others, rest) ← items v value fuel rest
        some (first :: others, rest)
      | ']' :: rest => some ([first], rest)
      | _ => none

/-- An entry of a mapping; without a colon the key has no value. -/
def entry (v : Version) (value : Step Node) : Step (String × Node) := fun start => do
  let (node, rest) ← scalar v start
  match key? v start rest with
  | some (key, after) => do
    let (value, rest) ← entryValue v value after
    some ((key, value), rest)
  | none =>
    match node with
    | .scalar _ text => some ((text, .empty), rest)
    | _ => none

def entries (v : Version) (value : Step Node) : Nat → Step Entries
  | 0 => fun _ => none
  | fuel + 1 => fun cs =>
    match skip v cs with
    | '\x7d' :: rest => some ([], rest)
    | ',' :: _ => none
    | start => do
      let (first, rest) ← entry v value start
      match skip v rest with
      | ',' :: rest => do
        let (others, rest) ← entries v value fuel rest
        some (first :: others, rest)
      | '\x7d' :: rest => some ([first], rest)
      | _ => none

/-- A value whose items and entries are read by `nested`. -/
def flowWith (v : Version) (nested : Step Node) : Step Node
  | [] => some (.empty, [])
  | c :: rest =>
    if c = '[' then do
      let (list, rest) ← items v nested (rest.length + 1) rest
      some (.sequence list, rest)
    else if c = '\x7b' then do
      let (list, rest) ← entries v nested (rest.length + 1) rest
      some (.mapping list, rest)
    else scalar v (c :: rest)

/-- A value whose brackets nest at most `depth` deep. -/
def flow (v : Version) : Nat → Step Node
  | 0 => fun _ => none
  | depth + 1 => flowWith v (flow v depth)

end OData.Yaml
