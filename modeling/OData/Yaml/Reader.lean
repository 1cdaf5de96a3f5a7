import OData.Yaml.Flow

/-!
# Documents

A document is in flow notation or in lines.  In lines, a mapping has a line `key: value` for each
entry and a sequence a line `- item` for each item; a value on lines of its own is indented deeper
than its key, or starts a sequence at the same depth.  What opens brackets goes on until they are
closed.
-/

set_option autoImplicit false

namespace OData.Yaml

structure Line where
  indent : Nat
  content : List Char

/-- Whether a quoted scalar may start after the character. -/
def isFresh (c : Char) : Bool := isBlank c || ['[', '\x7b', ',', '-'].contains c

/-- Cuts a comment: a `#` after a blank, outside of quotes.  `fresh` says that a word may start
here. -/
def withoutComment : Option Char → Bool → List Char → List Char
  | _, _, [] => []
  | some quote, _, c :: rest =>
    c :: withoutComment (if c = quote then none else some quote) false rest
  | none, fresh, c :: rest =>
    if c = '#' && fresh then []
    else if isQuote c && fresh then c :: withoutComment (some c) false rest
    else c :: withoutComment none (isFresh c) rest

/-- How many brackets a line leaves open. -/
def openBrackets : Option Char → Bool → List Char → Int
  | _, _, [] => 0
  | some quote, _, c :: rest =>
    openBrackets (if c = quote then none else some quote) false rest
  | none, fresh, c :: rest =>
    if isQuote c && fresh then openBrackets (some c) false rest
    else
      let others := openBrackets none (isFresh c) rest
      if c = '[' || c = '\x7b' then others + 1
      else if c = ']' || c = '\x7d' then others - 1
      else others

def lineOf (v : Version) (cs : List Char) : Line :=
  let indent := (cs.takeWhile (· == ' ')).length
  ⟨indent, Text.trim (isSpace v) (withoutComment none true (cs.drop indent))⟩

/-- Joins a line that leaves brackets open with the lines after it. -/
def joinLines : Option (Line × Int) → List Line → List Line
  | none, [] => []
  | some (line, _), [] => [line]
  | none, line :: rest =>
    let depth := openBrackets none true line.content
    if 0 < depth then joinLines (some (line, depth)) rest else line :: joinLines none rest
  | some (line, depth), next :: rest =>
    let joined : Line := ⟨line.indent, line.content ++ '\n' :: next.content⟩
    let depth := depth + openBrackets none true next.content
    if 0 < depth then joinLines (some (joined, depth)) rest else joined :: joinLines none rest

def startMarker : List Char := "---".toList

def endMarker : List Char := "...".toList

def isMarker (line : Line) : Bool := line.content == startMarker || line.content == endMarker

def linesOf (v : Version) (cs : List Char) : List Line :=
  let lines := (Text.splitOn '\n' cs).map (lineOf v)
  joinLines none (lines.filter fun line => !line.content.isEmpty && !isMarker line)

/-- A key and what follows its colon. -/
def splitPlainKey (v : Version) : List Char → Option (List Char × List Char)
  | [] => none
  | c :: rest =>
    if c = ':' && (rest.head?.map (isSpace v)).getD true then
      some ([], Text.trim (isSpace v) rest)
    else (splitPlainKey v rest).map fun (key, value) => (c :: key, value)

def splitKey (v : Version) (cs : List Char) : Option (String × List Char) :=
  match cs with
  | [] => none
  | c :: _ =>
    if isQuote c then do
      let (key, rest) ← quoted? v cs
      let ':' :: rest := rest.dropWhile isBlank | none
      if (rest.head?.map (isSpace v)).getD true then some (key, Text.trim (isSpace v) rest)
      else none
    else if c = '[' || c = '\x7b' then none
    else (splitPlainKey v cs).map fun (key, value) =>
      (String.ofList (Text.trim (isSpace v) key), value)

/-- The item of a sequence line, and how much deeper it is. -/
def splitItem : List Char → Option (Nat × List Char)
  | ['-'] => some (1, [])
  | '-' :: c :: rest =>
    if isBlank c then
      let item := rest.dropWhile isBlank
      some (2 + (rest.length - item.length), item)
    else none
  | _ => none

abbrev Block := List Line → Option (Node × List Line)

/-- A value on one line. -/
def inline (v : Version) (cs : List Char) : Option Node :=
  match cs with
  | [] => some .empty
  | c :: _ =>
    if isQuote c || c = '[' || c = '\x7b' then
      match flow v (cs.length + 1) cs with
      | some (node, rest) => if (skip v rest).isEmpty then some node else none
      | none => none
    else if isReserved c then none
    else some (.scalar .plain (String.ofList cs))

def sequence (node : Block) (indent : Nat) : Nat → List Line → Option (List Node × List Line)
  | 0, _ => none
  | _, [] => some ([], [])
  | fuel + 1, line :: rest =>
    if line.indent != indent then some ([], line :: rest)
    else match splitItem line.content with
      | none => some ([], line :: rest)
      | some (deeper, item) => do
        let (first, rest) ← node (⟨indent + deeper, item⟩ :: rest)
        let (others, rest) ← sequence node indent fuel rest
        some (first :: others, rest)

/-- The value of a key with nothing after its colon. -/
def valueBelow (node : Block) (indent : Nat) : Block
  | [] => some (.empty, [])
  | line :: rest =>
    if indent < line.indent || (line.indent == indent && (splitItem line.content).isSome) then
      node (line :: rest)
    else some (.empty, line :: rest)

def mapping (v : Version) (node : Block) (indent : Nat) :
    Nat → List Line → Option (Entries × List Line)
  | 0, _ => none
  | _, [] => some ([], [])
  | fuel + 1, line :: rest =>
    if line.indent != indent then some ([], line :: rest)
    else do
      let (key, value) ← splitKey v line.content
      let (first, rest) ←
        if value.isEmpty then valueBelow node indent rest
        else (inline v value).map fun value => (value, rest)
      let (others, rest) ← mapping v node indent fuel rest
      some ((key, first) :: others, rest)

/-- A value that starts at the first line. -/
def nodeWith (v : Version) (nested : Block) : Block
  | [] => some (.empty, [])
  | line :: rest =>
    if line.content.isEmpty then valueBelow nested (line.indent - 1) rest
    else if (splitItem line.content).isSome then do
      let (list, rest) ← sequence nested line.indent (rest.length + 2) (line :: rest)
      some (.sequence list, rest)
    else if (splitKey v line.content).isSome then do
      let (list, rest) ← mapping v nested line.indent (rest.length + 2) (line :: rest)
      some (.mapping list, rest)
    else (inline v line.content).map fun node => (node, rest)

def node (v : Version) : Nat → Block
  | 0 => fun _ => none
  | depth + 1 => nodeWith v (node v depth)

/-- A document in lines. -/
def block? (v : Version) (cs : List Char) : Option Node :=
  match node v (cs.length + 1) (linesOf v cs) with
  | some (node, []) => some node
  | _ => none

/-- A document in flow notation, after which nothing comes but its end. -/
def flow? (v : Version) (cs : List Char) : Option Node := do
  let (node, rest) ← flow v (cs.length + 1) cs
  let rest := skip v rest
  if (skip v ((Text.after? endMarker rest).getD rest)).isEmpty then some node else none

def byteOrderMark : Char := '\uFEFF'

/-- Reads a text that is one document. -/
def ofText? (v : Version) (text : String) : Option Node :=
  let cs := text.toList
  let cs := if cs.head? = some byteOrderMark then cs.drop 1 else cs
  if cs.all v.allows then
    let start := skip v cs
    let body := skip v ((Text.after? startMarker start).getD start)
    match body with
    | '\x7b' :: _ | '[' :: _ => flow? v body
    | _ => block? v cs
  else none

end OData.Yaml
