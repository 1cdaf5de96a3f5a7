import Mathlib.Data.List.DropRight
import OData.Text.Cursor

/-!
# Cursors: tokens at the start of a text

Every token is read past the blanks before it, so that `ahead`, the text from there on, decides
which tokens a cursor has.  A keyword is read where it is the whole first word ahead.  The search
for a closing bracket ends at the first one that closes as many brackets as are open; what it finds
depends on the text up to that bracket only, and it passes over a text whose own brackets and
quotes are paired.
-/

set_option autoImplicit false

-- What holds of each member of a list is decided along the list, also where another library would
-- go through all characters.
attribute [instance (high)] List.decidableBAll

namespace OData.Text

/-! ## Runs of characters -/

/-- The first character, if there is one, is one of these. -/
def Before (stops rest : List Char) : Prop := ∀ c ∈ rest.head?, c ∈ stops

theorem Before.nil (stops : List Char) : Before stops [] := by simp [Before]

theorem Before.cons {stops : List Char} {c : Char} (stop : c ∈ stops) (rest : List Char) :
    Before stops (c :: rest) := by simpa [Before] using stop

theorem Before.singleton (c : Char) (rest : List Char) : Before [c] (c :: rest) :=
  Before.cons (List.mem_singleton_self c) rest

theorem Before.mono {stops more rest : List Char} (before : Before stops rest)
    (sub : stops ⊆ more) : Before more rest := fun c head => sub (before c head)

/-- A run of a class ends before a character that is not of the class. -/
theorem takeWhile_run {p : Char → Bool} {run rest stops : List Char} (members : run.all p = true)
    (before : Before stops rest) (outside : ∀ c ∈ stops, p c = false) :
    (run ++ rest).takeWhile p = run := by
  have all : ∀ c ∈ run, p c = true := by simpa using members
  rw [List.takeWhile_append_of_pos all]
  cases rest with
  | nil => simp
  | cons c rest =>
    have stop := outside c (before c rfl)
    simp [stop]

theorem dropWhile_run {p : Char → Bool} {run rest stops : List Char} (members : run.all p = true)
    (before : Before stops rest) (outside : ∀ c ∈ stops, p c = false) :
    (run ++ rest).dropWhile p = rest := by
  have all : ∀ c ∈ run, p c = true := by simpa using members
  rw [List.dropWhile_append_of_pos all]
  cases rest with
  | nil => rfl
  | cons c rest =>
    have stop := outside c (before c rfl)
    simp [stop]

/-! ## Shapes -/

namespace Shape

theorem char_cons (c : Char) (rest : List Char) : char c (c :: rest) = some 1 := by simp [char]

theorem char_eq_none {c : Char} {cs : List Char} (other : cs.head? ≠ some c) :
    char c cs = none := by
  cases cs with
  | nil => rfl
  | cons d rest =>
    have apart : d ≠ c := by simpa using other
    rw [char, if_neg apart]

theorem char_eq_none_of_before {c : Char} {stops cs : List Char} (before : Before stops cs)
    (other : c ∉ stops) : char c cs = none :=
  char_eq_none fun head => other (before c head)

theorem oneOf_eq_none {stops chars cs : List Char} (before : Before stops cs)
    (apart : ∀ c ∈ stops, c ∉ chars) : oneOf chars cs = none := by
  cases cs with
  | nil => rfl
  | cons d rest =>
    have outside := apart d (before d rfl)
    rw [oneOf, if_neg outside]

theorem word_append (w : String) (rest : List Char) :
    word w (w.toList ++ rest) = some w.length := by
  simp [word]

theorem exactly_append {n : Nat} {p : Char → Bool} {token : List Char} (rest : List Char)
    (length : token.length = n) (members : token.all p = true) :
    exactly n p (token ++ rest) = some n := by
  have fits : n ≤ (token ++ rest).length ∧ ((token ++ rest).take n).all p = true := by
    subst length
    simpa using members
  rw [exactly, if_pos fits]

theorem many_run {p : Char → Bool} {run rest stops : List Char} (members : run.all p = true)
    (before : Before stops rest) (outside : ∀ c ∈ stops, p c = false) :
    many p (run ++ rest) = some run.length := by
  rw [many, takeWhile_run members before outside]

theorem some'_run {p : Char → Bool} {run rest stops : List Char} (members : run.all p = true)
    (nonempty : run ≠ []) (before : Before stops rest) (outside : ∀ c ∈ stops, p c = false) :
    some' p (run ++ rest) = some run.length := by
  have positive : run.length ≠ 0 := by simpa using nonempty
  rw [some', takeWhile_run members before outside]
  exact if_neg positive

theorem some'_eq_none {p : Char → Bool} {cs : List Char} (head : ∀ c ∈ cs.head?, p c = false) :
    some' p cs = none := by
  cases cs with
  | nil => rfl
  | cons c rest =>
    have outside := head c rfl
    simp [some', outside]

theorem seq_nil (cs : List Char) : seq [] cs = some 0 := rfl

theorem seq_singleton (shape : Shape) (cs : List Char) : seq [shape] cs = shape cs := by
  cases fits : shape cs <;> simp [seq, fits]

theorem seq_cons {shape : Shape} {shapes : List Shape} {cs : List Char} {m n : Nat}
    (first : shape cs = some m) (others : seq shapes (cs.drop m) = some n) :
    seq (shape :: shapes) cs = some (m + n) := by
  simp [seq, first, others]

theorem seq_append {shape : Shape} {shapes : List Shape} {token rest : List Char} {n : Nat}
    (first : shape (token ++ rest) = some token.length) (others : seq shapes rest = some n) :
    seq (shape :: shapes) (token ++ rest) = some (token.length + n) := by
  simp [seq, first, others]

theorem seq_char (c : Char) {shapes : List Shape} {rest : List Char} {n : Nat}
    (others : seq shapes rest = some n) : seq (char c :: shapes) (c :: rest) = some (n + 1) := by
  simp [seq, char_cons, others, Nat.add_comm]

theorem seq_exactly {k n : Nat} {p : Char → Bool} {shapes : List Shape} {token rest : List Char}
    (length : token.length = k) (members : token.all p = true)
    (others : seq shapes rest = some n) :
    seq (exactly k p :: shapes) (token ++ rest) = some (k + n) := by
  subst length
  exact seq_append (exactly_append rest rfl members) others

theorem seq_eq_none {shape : Shape} {shapes : List Shape} {cs : List Char}
    (first : shape cs = none) : seq (shape :: shapes) cs = none := by
  simp [seq, first]

theorem seq_eq_none_of_append {shape : Shape} {shapes : List Shape} {token rest : List Char}
    (first : shape (token ++ rest) = some token.length) (others : seq shapes rest = none) :
    seq (shape :: shapes) (token ++ rest) = none := by
  simp [seq, first, others]

theorem seq_skip {shape : Shape} {cs : List Char} (shapes : List Shape)
    (first : shape cs = some 0) : seq (shape :: shapes) cs = seq shapes cs := by
  cases others : seq shapes cs <;> simp [seq, first, others]

theorem optional_append {shape : Shape} {token rest : List Char}
    (fits : shape (token ++ rest) = some token.length) :
    optional shape (token ++ rest) = some token.length := by
  simp [optional, fits]

theorem optional_none {shape : Shape} {cs : List Char} (unfit : shape cs = none) :
    optional shape cs = some 0 := by
  simp [optional, unfit]

theorem wholeWord_append {shape : Shape} {token rest stops : List Char}
    (fits : shape (token ++ rest) = some token.length) (before : Before stops rest)
    (outside : ∀ c ∈ stops, isWordChar c = false) :
    wholeWord shape (token ++ rest) = some token.length := by
  cases rest with
  | nil =>
    rw [List.append_nil] at fits
    simp [wholeWord, fits]
  | cons c rest =>
    have stop := outside c (before c rfl)
    simp [wholeWord, fits, stop]

theorem wholeWord_eq_none {shape : Shape} {cs : List Char} (unfit : shape cs = none) :
    wholeWord shape cs = none := by
  simp [wholeWord, unfit]

/-- A run that is shorter than a field and ends before characters outside the class. -/
theorem exactly_eq_none {n : Nat} {p : Char → Bool} {run rest stops : List Char}
    (short : run.length < n) (before : Before stops rest) (outside : ∀ c ∈ stops, p c = false) :
    exactly n p (run ++ rest) = none := by
  apply if_neg
  intro fits
  cases rest with
  | nil =>
    simp only [List.append_nil] at fits
    omega
  | cons c rest =>
    have inside : c ∈ (run ++ c :: rest).take n := by
      rw [List.take_append, List.mem_append]
      right
      obtain ⟨m, size⟩ : ∃ m, n - run.length = m + 1 := ⟨n - run.length - 1, by omega⟩
      rw [size, List.take_succ_cons]
      exact List.mem_cons_self
    have wrong := List.all_eq_true.mp fits.2 c inside
    rw [outside c (before c rfl)] at wrong
    contradiction

/-- A run without `sep` that ends before characters outside the class, and before no `sep`, is no
field of the class before `sep`. -/
theorem seq_exactly_char_eq_none {n : Nat} {p : Char → Bool} {sep : Char} {shapes : List Shape}
    {run rest stops : List Char} (apart : sep ∉ run) (before : Before stops rest)
    (outside : ∀ c ∈ stops, p c = false) (other : sep ∉ stops) :
    seq (exactly n p :: char sep :: shapes) (run ++ rest) = none := by
  by_cases short : run.length < n
  · exact seq_eq_none (exactly_eq_none short before outside)
  · have next : ((run ++ rest).drop n).head? ≠ some sep := by
      intro found
      rw [List.head?_drop] at found
      by_cases within : n < run.length
      · rw [List.getElem?_append_left within] at found
        exact apart (List.mem_of_getElem? found)
      · have size : n = run.length := by omega
        rw [size, List.getElem?_append_right (Nat.le_refl _), Nat.sub_self,
          ← List.head?_eq_getElem?] at found
        exact other (before sep found)
    have unfit : char sep ((run ++ rest).drop n) = none := char_eq_none next
    unfold seq
    cases field : exactly n p (run ++ rest) with
    | none => rfl
    | some m =>
      have size : m = n := by
        rw [exactly] at field
        split at field
        · exact (Option.some.inj field).symm
        · contradiction
      subst size
      simp [seq, unfit]

end Shape

namespace Cursor

/-! ## The text ahead -/

def ahead (c : Cursor) : List Char := c.rest.dropWhile isBlank

theorem rest_advance (c : Cursor) (n : Nat) : (c.advance n).rest = c.rest.drop n := rfl

theorem rest_skipBlanks (c : Cursor) : c.skipBlanks.rest = c.ahead := by
  have past : (c.rest.takeWhile isBlank ++ c.rest.dropWhile isBlank).drop
      (c.rest.takeWhile isBlank).length = c.rest.dropWhile isBlank := List.drop_left
  rw [List.takeWhile_append_dropWhile] at past
  rw [skipBlanks, rest_advance, ahead, past]

theorem ahead_skipBlanks (c : Cursor) : c.skipBlanks.ahead = c.ahead := by
  rw [ahead, rest_skipBlanks, ahead, List.dropWhile_idempotent]

theorem ahead_eq_rest {c : Cursor} (head : ∀ d ∈ c.rest.head?, isBlank d = false) :
    c.ahead = c.rest := by
  rw [ahead]
  cases rest : c.rest with
  | nil => rfl
  | cons d tail =>
    have visible := head d (by rw [rest]; rfl)
    simp [visible]

theorem ahead_of_char {c : Cursor} {ch : Char} {rest : List Char} (left : c.rest = ch :: rest)
    (visible : isBlank ch = false) : c.ahead = ch :: rest := by
  rw [ahead, left, List.dropWhile_cons]
  simp [visible]

theorem ahead_of_blank {c : Cursor} {cs : List Char} (rest : c.rest = ' ' :: cs)
    (head : ∀ d ∈ cs.head?, isBlank d = false) : c.ahead = cs := by
  have blank : isBlank ' ' = true := by decide
  rw [ahead, rest, List.dropWhile_cons, if_pos blank]
  cases cs with
  | nil => rfl
  | cons d tail =>
    have visible := head d rfl
    simp [visible]

theorem skipBlanks_token? {shape : Shape} {c : Cursor} (token : List Char) {rest : List Char}
    (text : c.ahead = token ++ rest) (fits : shape (token ++ rest) = some token.length) :
    ∃ next, c.skipBlanks.token? shape = some (String.ofList token, next) ∧ next.rest = rest := by
  refine ⟨c.skipBlanks.advance token.length, ?_, ?_⟩
  · simp [token?, rest_skipBlanks, text, fits]
  · rw [rest_advance, rest_skipBlanks, text, List.drop_left]

theorem skipBlanks_token?_eq_none {shape : Shape} {c : Cursor} (unfit : shape c.ahead = none) :
    c.skipBlanks.token? shape = none := by
  simp [token?, rest_skipBlanks, unfit]

/-! ## Characters -/

theorem char?_eq_some {c : Cursor} {ch : Char} {rest : List Char} (text : c.ahead = ch :: rest) :
    ∃ next, c.char? ch = some next ∧ next.rest = rest := by
  obtain ⟨next, token, left⟩ := skipBlanks_token? [ch] text (Shape.char_cons ch rest)
  exact ⟨next, by rw [char?, token]; rfl, left⟩

theorem char?_eq_none {c : Cursor} {ch : Char} (other : c.ahead.head? ≠ some ch) :
    c.char? ch = none := by
  rw [char?, skipBlanks_token?_eq_none (Shape.char_eq_none other)]
  rfl

theorem char?_eq_none_of_not_mem {c : Cursor} {ch : Char} (absent : ch ∉ c.rest) :
    c.char? ch = none := by
  apply char?_eq_none
  intro head
  exact absent ((List.dropWhile_sublist isBlank).mem (List.mem_of_mem_head? head))

/-- A token that is read stands ahead, before what is left. -/
theorem ahead_of_token? {shape : Shape} {c next : Cursor} {token : String}
    (found : c.skipBlanks.token? shape = some (token, next)) :
    c.ahead = token.toList ++ next.rest := by
  obtain ⟨n, -, same⟩ := Option.map_eq_some_iff.mp found
  cases same
  rw [String.toList_ofList, rest_advance, List.take_append_drop, rest_skipBlanks]

theorem ahead_sublist (c : Cursor) : c.ahead.Sublist c.rest := List.dropWhile_sublist isBlank

/-- What is left after a token was there before. -/
theorem mem_of_token? {shape : Shape} {c next : Cursor} {token : String}
    (found : c.skipBlanks.token? shape = some (token, next)) {ch : Char} (member : ch ∈ next.rest) :
    ch ∈ c.rest := by
  apply (ahead_sublist c).mem
  rw [ahead_of_token? found]
  exact List.mem_append_right token.toList member

theorem expectChar_eq_ok {c : Cursor} {ch : Char} {rest : List Char}
    (text : c.ahead = ch :: rest) : ∃ next, c.expectChar ch = .ok next ∧ next.rest = rest := by
  obtain ⟨next, found, left⟩ := char?_eq_some text
  exact ⟨next, by rw [expectChar, found], left⟩

theorem ahead_of_expectChar {c next : Cursor} {ch : Char} (found : c.expectChar ch = .ok next) :
    c.ahead = ch :: next.rest := by
  cases ahead : c.ahead with
  | nil =>
    rw [expectChar, char?_eq_none (by simp [ahead])] at found
    cases found
  | cons d rest =>
    by_cases same : d = ch
    · subst same
      obtain ⟨after, read, left⟩ := expectChar_eq_ok ahead
      cases read.symm.trans found
      rw [left]
    · rw [expectChar, char?_eq_none (by simp [ahead, same])] at found
      cases found

theorem expectEnd_eq_ok {c : Cursor} (text : c.ahead = []) : c.expectEnd = .ok () := by
  simp [expectEnd, atEnd, rest_skipBlanks, text]

/-! ## Words -/

/-- The letters, digits and underscores of ASCII that a text begins with. -/
def firstWord (cs : List Char) : List Char := cs.takeWhile isNameChar

theorem firstWord_run {w rest stops : List Char} (letters : w.all isNameChar = true)
    (before : Before stops rest) (outside : ∀ c ∈ stops, isNameChar c = false) :
    firstWord (w ++ rest) = w := takeWhile_run letters before outside

/-- A keyword fits a text exactly if it is the first word of the text. -/
theorem keywordShape_eq {w : String} (letters : w.toList.all isNameChar = true)
    (cs : List Char) :
    keywordShape w cs = if firstWord cs = w.toList then some w.length else none := by
  have all : ∀ c ∈ w.toList, isNameChar c = true := by simpa using letters
  by_cases starts : w.toList.isPrefixOf cs = true
  · obtain ⟨rest, rfl⟩ := List.isPrefixOf_iff_prefix.mp starts
    have next : (w.toList ++ rest)[w.length]? = rest.head? := by
      rw [← String.length_toList, List.getElem?_append_right (by omega), Nat.sub_self,
        List.head?_eq_getElem?]
    have word : firstWord (w.toList ++ rest) = w.toList ++ rest.takeWhile isNameChar :=
      List.takeWhile_append_of_pos all
    rw [keywordShape, Shape.word_append, word]
    simp only [Option.bind_eq_bind, Option.bind_some, next]
    cases rest with
    | nil => simp
    | cons c rest => cases name : isNameChar c <;> simp [name]
  · have unfit : Shape.word w cs = none := if_neg starts
    have other : firstWord cs ≠ w.toList := by
      intro word
      apply starts
      rw [← word]
      exact List.isPrefixOf_iff_prefix.mpr (List.takeWhile_prefix isNameChar)
    rw [keywordShape, unfit, if_neg other]
    rfl

theorem keywordShape_append (w : String) {rest stops : List Char} (before : Before stops rest)
    (outside : ∀ c ∈ stops, isNameChar c = false) :
    keywordShape w (w.toList ++ rest) = some w.toList.length := by
  have next : (w.toList ++ rest)[w.length]? = rest.head? := by
    rw [← String.length_toList, List.getElem?_append_right (by omega), Nat.sub_self,
      List.head?_eq_getElem?]
  rw [keywordShape, Shape.word_append, String.length_toList]
  simp only [Option.bind_eq_bind, Option.bind_some, next]
  cases rest with
  | nil => rfl
  | cons c rest =>
    have stop := outside c (before c rfl)
    simp [stop]

theorem keyword?_eq_some {c : Cursor} {w : String} {rest stops : List Char}
    (text : c.ahead = w.toList ++ rest) (before : Before stops rest)
    (outside : ∀ c ∈ stops, isNameChar c = false) :
    ∃ next, c.keyword? w = some next ∧ next.rest = rest := by
  have fits := keywordShape_append w before outside
  obtain ⟨next, token, left⟩ := skipBlanks_token? w.toList text fits
  exact ⟨next, by rw [keyword?, token]; rfl, left⟩

theorem keyword?_eq_none {c : Cursor} {w : String} (letters : w.toList.all isNameChar = true)
    (other : firstWord c.ahead ≠ w.toList) : c.keyword? w = none := by
  have unfit : keywordShape w c.ahead = none := by rw [keywordShape_eq letters, if_neg other]
  rw [keyword?, skipBlanks_token?_eq_none unfit]
  rfl

theorem keyword?_eq_none_of_isPrefixOf {c : Cursor} {w : String}
    (other : w.toList.isPrefixOf c.ahead = false) : c.keyword? w = none := by
  have unfit : keywordShape w c.ahead = none := by
    simp [keywordShape, Shape.word, other]
  rw [keyword?, skipBlanks_token?_eq_none unfit]
  rfl

theorem firstWord_ne {cs : List Char} {w : String} {c : Char} (head : w.toList.head? = some c)
    (other : cs.head? ≠ some c) : firstWord cs ≠ w.toList := by
  intro same
  apply other
  cases cs with
  | nil =>
    rw [← same] at head
    contradiction
  | cons d rest =>
    rw [← same, firstWord, List.takeWhile_cons] at head
    split at head
    · exact head
    · contradiction

/-! ## Brackets -/

theorem closingAt_cons (depth : Nat) (quoted : Bool) (c : Char) (rest : List Char) :
    closingAt depth quoted (c :: rest) =
      if c = '\'' then (closingAt depth (!quoted) rest).map (· + 1)
      else if quoted then (closingAt depth quoted rest).map (· + 1)
      else if c = '(' then (closingAt (depth + 1) quoted rest).map (· + 1)
      else if c = ')' then
        match depth with
        | 0 => none
        | 1 => some 0
        | depth + 1 => (closingAt depth quoted rest).map (· + 1)
      else (closingAt depth quoted rest).map (· + 1) :=
  closingAt.eq_def depth quoted (c :: rest)

/-- Whether the bracket after a text closes `depth` open ones, and no bracket in the text does. -/
def Closes (depth : Nat) (quoted : Bool) (inner : List Char) : Prop :=
  ∀ rest, closingAt depth quoted (inner ++ ')' :: rest) = some inner.length

theorem closes_nil : Closes 1 false [] := fun rest => by
  rw [List.nil_append, closingAt_cons]
  rfl

/-- A bracket that is found stands after a text that it closes. -/
theorem closes_of_closingAt {cs : List Char} :
    ∀ {depth n : Nat} {quoted : Bool}, closingAt depth quoted cs = some n →
      ∃ inner rest, cs = inner ++ ')' :: rest ∧ inner.length = n ∧ Closes depth quoted inner := by
  induction cs with
  | nil => intro depth n quoted found; cases found
  | cons c cs ih =>
    intro depth n quoted found
    -- Where a character is passed over, the search goes on in the state behind it.
    have later {behind : Nat} {inside : Bool}
        (step : ∀ rest, closingAt depth quoted (c :: rest) =
          (closingAt behind inside rest).map (· + 1)) :
        ∃ inner rest, c :: cs = inner ++ ')' :: rest ∧ inner.length = n ∧
          Closes depth quoted inner := by
      rw [step] at found
      obtain ⟨m, there, rfl⟩ := Option.map_eq_some_iff.mp found
      obtain ⟨inner, rest, rfl, rfl, closes⟩ := ih there
      refine ⟨c :: inner, rest, rfl, rfl, fun more => ?_⟩
      rw [List.cons_append, step, closes]
      rfl
    by_cases quote : c = '\''
    · exact later fun rest => by rw [closingAt_cons, if_pos quote]
    · by_cases inside : quoted = true
      · exact later fun rest => by rw [closingAt_cons, if_neg quote, if_pos inside]
      · by_cases opening : c = '('
        · exact later fun rest => by
            rw [closingAt_cons, if_neg quote, if_neg inside, if_pos opening]
        · by_cases closing : c = ')'
          · have here (rest : List Char) := closingAt_cons depth quoted c rest
            simp only [if_neg quote, if_neg inside, if_neg opening, if_pos closing] at here
            match depth with
            | 0 =>
              rw [here] at found
              cases found
            | 1 =>
              rw [here] at found
              cases found
              exact ⟨[], cs, by rw [closing]; rfl, rfl, fun rest => closing ▸ here rest⟩
            | depth + 2 => exact later here
          · exact later fun rest => by
              rw [closingAt_cons, if_neg quote, if_neg inside, if_neg opening, if_neg closing]

/-! ## Texts with paired brackets -/

/-- Whether the search for a closing bracket passes over a text, from inside or outside quotes to
inside or outside quotes. -/
def Passes (before after : Bool) (cs : List Char) : Prop :=
  ∀ depth rest,
    closingAt depth before (cs ++ rest) = (closingAt depth after rest).map (· + cs.length)

theorem passes_nil (quoted : Bool) : Passes quoted quoted [] := by
  intro depth rest
  cases found : closingAt depth quoted rest <;> simp [found]

theorem Passes.append {before middle after : Bool} {cs ds : List Char}
    (first : Passes before middle cs) (second : Passes middle after ds) :
    Passes before after (cs ++ ds) := by
  intro depth rest
  rw [List.append_assoc, first, second, Option.map_map, List.length_append]
  congr 1
  funext n
  simp only [Function.comp_apply]
  omega

theorem Passes.cons {before middle after : Bool} {c : Char} {cs : List Char}
    (first : Passes before middle [c]) (second : Passes middle after cs) :
    Passes before after (c :: cs) :=
  first.append second

theorem Passes.closes {inner : List Char} (passes : Passes false false inner) :
    Closes 1 false inner := by
  intro rest
  have here : closingAt 1 false (')' :: rest) = some 0 := closes_nil rest
  rw [passes, here, Option.map_some, Nat.zero_add]

theorem passes_quote (quoted : Bool) : Passes quoted (!quoted) ['\''] := by
  intro depth rest
  rw [List.singleton_append, closingAt_cons, if_pos rfl, List.length_singleton]

theorem passes_quoted {c : Char} (other : c ≠ '\'') : Passes true true [c] := by
  intro depth rest
  rw [List.singleton_append, closingAt_cons, if_neg other, if_pos rfl, List.length_singleton]

theorem passes_quoted_all {cs : List Char} (apart : '\'' ∉ cs) : Passes true true cs := by
  induction cs with
  | nil => exact passes_nil true
  | cons c rest ih =>
    rw [List.mem_cons, not_or] at apart
    exact (passes_quoted (Ne.symm apart.1)).cons (ih apart.2)

/-- Whether a character is no bracket and no quote. -/
def isInner (c : Char) : Bool := c != '\'' && c != '(' && c != ')'

theorem passes_inner {c : Char} (inner : isInner c = true) : Passes false false [c] := by
  have others : (c ≠ '\'' ∧ c ≠ '(') ∧ c ≠ ')' := by simpa [isInner] using inner
  intro depth rest
  rw [List.singleton_append, closingAt_cons, if_neg others.1.1, if_neg Bool.false_ne_true,
    if_neg others.1.2, if_neg others.2, List.length_singleton]

theorem passes_all {cs : List Char} (inner : cs.all isInner = true) : Passes false false cs := by
  induction cs with
  | nil => exact passes_nil false
  | cons c rest ih =>
    rw [List.all_cons, Bool.and_eq_true] at inner
    exact (passes_inner inner.1).cons (ih inner.2)

/-- No bracket closes a piece of a text with paired brackets. -/
theorem closingAt_eq_none {piece inner : List Char} (passes : Passes false false inner)
    (part : piece <+: inner) : closingAt 1 false piece = none := by
  cases found : closingAt 1 false piece with
  | none => rfl
  | some n =>
    obtain ⟨before, behind, rfl, -, closes⟩ := closes_of_closingAt found
    obtain ⟨rest, rfl⟩ := part
    have whole := passes.closes []
    rw [List.append_assoc, List.append_assoc, List.cons_append, closes, List.length_append] at whole
    simp only [Option.some.injEq, List.length_append, List.length_cons] at whole
    omega

/-! ## Reading a text in brackets -/

variable {c next : Cursor} {inner rest : List Char}

theorem parenthesized?_eq_some (text : c.ahead = '(' :: (inner ++ ')' :: rest))
    (closes : Closes 1 false inner) :
    ∃ next, c.parenthesized? = some (String.ofList inner, next) ∧ next.rest = rest := by
  refine ⟨c.skipBlanks.advance (inner.length + 2), ?_, ?_⟩
  · rw [parenthesized?]
    simp only [rest_skipBlanks, text, closes rest, Option.map_some, List.take_left]
  · have whole : '(' :: (inner ++ ')' :: rest) = ('(' :: inner ++ [')']) ++ rest := by simp
    rw [rest_advance, rest_skipBlanks, text, whole]
    exact List.drop_left' (by simp)

theorem parenthesized?_eq_none_of_closingAt (text : c.ahead = '(' :: inner)
    (unclosed : closingAt 1 false inner = none) : c.parenthesized? = none := by
  rw [parenthesized?]
  simp only [rest_skipBlanks, text, unclosed, Option.map_none]

theorem parenthesized?_eq_none (other : c.ahead.head? ≠ some '(') : c.parenthesized? = none := by
  rw [parenthesized?]
  simp only [rest_skipBlanks]
  split
  next text => exact absurd (congrArg List.head? text) other
  next => rfl

/-- What is read in brackets is closed by the bracket behind it. -/
theorem closes_of_parenthesized? {text : String} (found : c.parenthesized? = some (text, next)) :
    c.ahead = '(' :: (text.toList ++ ')' :: next.rest) ∧ Closes 1 false text.toList := by
  cases opening : c.ahead with
  | nil =>
    simp only [parenthesized?, rest_skipBlanks, opening] at found
    cases found
  | cons ch behind =>
    by_cases bracket : ch = '('
    · cases closing : closingAt 1 false behind with
      | none =>
        rw [bracket] at opening
        simp only [parenthesized?, rest_skipBlanks, opening, closing] at found
        cases found
      | some n =>
        obtain ⟨inner, rest, rfl, -, closes⟩ := closes_of_closingAt closing
        rw [bracket] at opening ⊢
        obtain ⟨again, read, left⟩ := parenthesized?_eq_some opening closes
        cases read.symm.trans found
        rw [String.toList_ofList, left]
        exact ⟨rfl, closes⟩
    · rw [parenthesized?_eq_none (by simp [opening, bracket])] at found
      cases found

end Cursor

end OData.Text
