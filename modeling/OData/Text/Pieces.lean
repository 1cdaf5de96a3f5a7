/-!
# Pieces of texts

What is left of a text without characters of a class, or a given piece, at either end, and what
stands between separators.
-/

set_option autoImplicit false

namespace OData.Text

def trimStart (p : Char → Bool) (cs : List Char) : List Char := cs.dropWhile p

def trimEnd (p : Char → Bool) (cs : List Char) : List Char := (cs.reverse.dropWhile p).reverse

def trim (p : Char → Bool) (cs : List Char) : List Char := trimEnd p (trimStart p cs)

/-- What follows a piece at the start. -/
def after? (piece cs : List Char) : Option (List Char) :=
  if piece.isPrefixOf cs then some (cs.drop piece.length) else none

/-- What precedes a character at the end. -/
def beforeLast? (c : Char) (cs : List Char) : Option (List Char) :=
  match cs.reverse with
  | last :: rest => if last = c then some rest.reverse else none
  | [] => none

/-- What precedes and what follows the first occurrence of a character. -/
def splitFirst? (c : Char) : List Char → Option (List Char × List Char)
  | [] => none
  | d :: rest =>
    if d = c then some ([], rest)
    else (splitFirst? c rest).map fun (before, after) => (d :: before, after)

/-- The pieces of a text between the separators `sep`. -/
def splitOn (sep : Char) : List Char → List (List Char)
  | [] => [[]]
  | c :: rest =>
    if c = sep then [] :: splitOn sep rest
    else match splitOn sep rest with
      | [] => [[c]]
      | piece :: pieces => (c :: piece) :: pieces

theorem after?_append (piece cs : List Char) : after? piece (piece ++ cs) = some cs := by
  simp [after?]

end OData.Text
