import OData.Proofs.Text.Cursor

/-!
# Cursors: places of a text

A cursor is in a text if the text goes on at its offset with what is left at the cursor; so its
offset is a boundary between characters.  A cursor that moves over characters stays in the text, and
its offset grows by their bytes.  Tokens have characters, so a cursor that finds one moves on; only
for a shape that fits where it takes nothing that does not hold.
-/

set_option autoImplicit false

namespace OData.Text

/-- Whether a character of the text begins at an offset in bytes, or the text ends there. -/
def IsBoundary (text : String) (offset : Nat) : Prop := (String.Pos.Raw.mk offset).IsValid text

theorem IsBoundary.le {text : String} {offset : Nat} (boundary : IsBoundary text offset) :
    offset ≤ text.utf8ByteSize := boundary.le_rawEndPos

/-! ## Shapes that take something -/

namespace Shape

/-- Whether tokens of the shape have characters. -/
def IsFilled (shape : Shape) : Prop := ∀ cs n, shape cs = some n → cs.take n ≠ []

theorem isFilled_char (c : Char) : IsFilled (char c) := by
  intro cs n fits
  cases cs with
  | nil => cases fits
  | cons d rest =>
    rw [char] at fits
    split at fits
    · cases fits
      simp
    · cases fits

theorem isFilled_word {w : String} (nonempty : w ≠ "") : IsFilled (word w) := by
  intro cs n fits
  rw [word] at fits
  split at fits
  next starts =>
    cases fits
    obtain ⟨rest, rfl⟩ := List.isPrefixOf_iff_prefix.mp starts
    rw [← String.length_toList, List.take_left]
    simpa using nonempty
  next => cases fits

theorem isFilled_exactly (n : Nat) (p : Char → Bool) : IsFilled (exactly (n + 1) p) := by
  intro cs m fits
  rw [exactly] at fits
  split at fits
  next field =>
    cases fits
    cases cs with
    | nil => simp at field
    | cons c rest => simp
  next => cases fits

theorem isFilled_some' (p : Char → Bool) : IsFilled (some' p) := by
  intro cs n fits
  simp only [some'] at fits
  split at fits
  next => cases fits
  next run =>
    cases fits
    rw [Ne, List.take_eq_nil_iff, not_or]
    refine ⟨run, ?_⟩
    rintro rfl
    exact run rfl

/-- A token that has to end before a character that is not of a class is a token without that. -/
theorem eq_some_of_ends {found : Option Nat} {p : Char → Bool} {cs : List Char} {n : Nat}
    (fits : (do
      let n ← found
      match cs[n]? with
      | some c => if p c then none else some n
      | none => some n) = some n) : found = some n := by
  obtain ⟨m, first, ends⟩ := Option.bind_eq_some_iff.mp fits
  split at ends
  · split at ends
    · cases ends
    · cases ends
      exact first
  · cases ends
    exact first

theorem isFilled_wholeWord {shape : Shape} (filled : shape.IsFilled) :
    IsFilled (wholeWord shape) := fun cs n fits => filled cs n (eq_some_of_ends fits)

/-- A token has characters if one of its parts has. -/
theorem isFilled_seq {shape : Shape} {shapes : List Shape} (filled : shape.IsFilled)
    (member : shape ∈ shapes) : IsFilled (seq shapes) := by
  induction shapes with
  | nil => cases member
  | cons first others ih =>
    intro cs n fits
    obtain ⟨m, here, more⟩ := Option.bind_eq_some_iff.mp fits
    obtain ⟨k, there, same⟩ := Option.bind_eq_some_iff.mp more
    cases same
    rw [List.take_add, Ne, List.append_eq_nil_iff, not_and_or]
    rcases List.mem_cons.mp member with rfl | later
    · exact .inl (filled cs m here)
    · exact .inr (ih later (cs.drop m) k there)

end Shape

namespace Cursor

theorem isFilled_keywordShape {w : String} (nonempty : w ≠ "") :
    Shape.IsFilled (keywordShape w) := fun cs n fits =>
  Shape.isFilled_word nonempty cs n (Shape.eq_some_of_ends fits)

theorem isFilled_nameShape : Shape.IsFilled nameShape := by
  intro cs n fits
  cases cs with
  | nil => cases fits
  | cons c rest =>
    rw [nameShape] at fits
    split at fits
    · cases fits
      simp [Nat.add_comm 1]
    · cases fits

theorem isFilled_dottedNameShape : Shape.IsFilled dottedNameShape := by
  intro cs n fits
  cases cs with
  | nil => cases fits
  | cons c rest =>
    rw [dottedNameShape] at fits
    split at fits
    · cases fits
      simp [Nat.add_comm 1]
    · cases fits

/-! ## Moves -/

/-- Whether a cursor comes to another one over some characters. -/
structure Moves (c : Cursor) (taken : List Char) (next : Cursor) : Prop where
  rest : c.rest = taken ++ next.rest
  offset : next.offset = c.offset + (String.ofList taken).utf8ByteSize

/-- Whether a cursor comes to another one, perhaps over no characters. -/
def Reaches (c next : Cursor) : Prop := ∃ taken, c.Moves taken next

/-- Whether a cursor comes to another one over blanks, perhaps none. -/
def MovesOverBlanks (c next : Cursor) : Prop := ∃ taken, taken.all isBlank ∧ c.Moves taken next

/-- Whether a cursor comes to another one that stands behind it. -/
def MovesOn (c next : Cursor) : Prop := ∃ taken, taken ≠ [] ∧ c.Moves taken next

variable {text : String} {c d next : Cursor} {taken more : List Char} {shape : Shape}

theorem byteLength_eq (cs : List Char) : byteLength cs = (String.ofList cs).utf8ByteSize := by
  have added (n : Nat) : cs.foldl (fun n c => n + c.utf8Size) n =
      n + (String.ofList cs).utf8ByteSize := by
    induction cs generalizing n with
    | nil => rfl
    | cons c cs ih =>
      rw [List.foldl_cons, ih, String.ofList_cons, String.utf8ByteSize_append,
        String.utf8ByteSize_singleton, Nat.add_assoc]
  rw [byteLength, added, Nat.zero_add]

theorem Moves.refl (c : Cursor) : c.Moves [] c := ⟨rfl, rfl⟩

theorem Moves.trans (first : c.Moves taken d) (second : d.Moves more next) :
    c.Moves (taken ++ more) next where
  rest := by rw [first.rest, second.rest, List.append_assoc]
  offset := by
    rw [second.offset, first.offset, String.ofList_append, String.utf8ByteSize_append,
      Nat.add_assoc]

theorem moves_advance (c : Cursor) (n : Nat) : c.Moves (c.rest.take n) (c.advance n) where
  rest := (List.take_append_drop n c.rest).symm
  offset := by rw [advance, byteLength_eq]

theorem moves_skipBlanks (c : Cursor) : c.Moves (c.rest.takeWhile isBlank) c.skipBlanks := by
  have run : c.rest.take (c.rest.takeWhile isBlank).length = c.rest.takeWhile isBlank :=
    (List.prefix_iff_eq_take.mp (List.takeWhile_prefix isBlank)).symm
  have moves := moves_advance c (c.rest.takeWhile isBlank).length
  rwa [run] at moves

theorem moves_token? {token : String} (found : c.token? shape = some (token, next)) :
    c.Moves token.toList next := by
  obtain ⟨n, -, same⟩ := Option.map_eq_some_iff.mp found
  cases same
  rw [String.toList_ofList]
  exact moves_advance c n

theorem Moves.eq_of_nil (moves : c.Moves [] next) : next = c := by
  have rest : c.rest = next.rest := moves.rest
  have offset : next.offset = c.offset := moves.offset
  cases c
  cases next
  cases rest
  cases offset
  rfl

theorem Moves.le (moves : c.Moves taken next) : c.offset ≤ next.offset := by
  rw [moves.offset]
  exact Nat.le_add_right _ _

theorem Reaches.refl (c : Cursor) : c.Reaches c := ⟨[], .refl c⟩

theorem Reaches.trans (first : c.Reaches d) (second : d.Reaches next) : c.Reaches next := by
  obtain ⟨taken, first⟩ := first
  obtain ⟨more, second⟩ := second
  exact ⟨taken ++ more, first.trans second⟩

theorem Reaches.le (reaches : c.Reaches next) : c.offset ≤ next.offset := by
  obtain ⟨taken, moves⟩ := reaches
  exact moves.le

theorem MovesOn.reaches (moves : c.MovesOn next) : c.Reaches next := by
  obtain ⟨taken, -, moves⟩ := moves
  exact ⟨taken, moves⟩

theorem MovesOn.lt (moves : c.MovesOn next) : c.offset < next.offset := by
  obtain ⟨taken, nonempty, moves⟩ := moves
  have size : (String.ofList taken).utf8ByteSize ≠ 0 := by
    rw [Ne, String.utf8ByteSize_eq_zero_iff, String.ofList_eq_empty_iff]
    exact nonempty
  rw [moves.offset]
  omega

theorem Reaches.movesOn (first : c.Reaches d) (second : d.MovesOn next) : c.MovesOn next := by
  obtain ⟨taken, first⟩ := first
  obtain ⟨more, nonempty, second⟩ := second
  exact ⟨taken ++ more, by simp [nonempty], first.trans second⟩

theorem movesOverBlanks_refl (c : Cursor) : c.MovesOverBlanks c := ⟨[], rfl, .refl c⟩

theorem movesOverBlanks_skipBlanks (c : Cursor) : c.MovesOverBlanks c.skipBlanks :=
  ⟨_, List.all_takeWhile, moves_skipBlanks c⟩

theorem MovesOverBlanks.reaches (moves : c.MovesOverBlanks next) : c.Reaches next := by
  obtain ⟨taken, -, moves⟩ := moves
  exact ⟨taken, moves⟩

theorem reaches_skipBlanks (c : Cursor) : c.Reaches c.skipBlanks :=
  (movesOverBlanks_skipBlanks c).reaches

theorem reaches_advance (c : Cursor) (n : Nat) : c.Reaches (c.advance n) := ⟨_, moves_advance c n⟩

/-! ## Tokens behind blanks -/

theorem reaches_token? {token : String} (found : c.skipBlanks.token? shape = some (token, next)) :
    c.Reaches next :=
  (reaches_skipBlanks c).trans ⟨token.toList, moves_token? found⟩

theorem movesOn_token? (filled : shape.IsFilled) {token : String}
    (found : c.skipBlanks.token? shape = some (token, next)) : c.MovesOn next := by
  obtain ⟨n, fits, same⟩ := Option.map_eq_some_iff.mp found
  cases same
  exact (reaches_skipBlanks c).movesOn
    ⟨c.skipBlanks.rest.take n, filled _ n fits, moves_advance c.skipBlanks n⟩

theorem movesOn_char? {ch : Char} (found : c.char? ch = some next) : c.MovesOn next := by
  obtain ⟨⟨token, after⟩, read, rfl⟩ := Option.map_eq_some_iff.mp found
  exact movesOn_token? (Shape.isFilled_char ch) read

theorem reaches_keyword? {w : String} (found : c.keyword? w = some next) : c.Reaches next := by
  obtain ⟨⟨token, after⟩, read, rfl⟩ := Option.map_eq_some_iff.mp found
  exact reaches_token? read

theorem movesOn_keyword? {w : String} (nonempty : w ≠ "") (found : c.keyword? w = some next) :
    c.MovesOn next := by
  obtain ⟨⟨token, after⟩, read, rfl⟩ := Option.map_eq_some_iff.mp found
  exact movesOn_token? (isFilled_keywordShape nonempty) read

theorem movesOn_name? {name : String} (found : c.name? = some (name, next)) : c.MovesOn next :=
  movesOn_token? isFilled_nameShape found

theorem movesOn_dottedName? {name : String} (found : c.dottedName? = some (name, next)) :
    c.MovesOn next :=
  movesOn_token? isFilled_dottedNameShape found

theorem movesOn_systemName? {name : String} (found : c.systemName? = some (name, next)) :
    c.MovesOn next :=
  movesOn_token? (Shape.isFilled_seq (Shape.isFilled_char '$') List.mem_cons_self) found

theorem movesOn_unsigned? {n : Nat} (found : c.unsigned? = some (n, next)) : c.MovesOn next := by
  obtain ⟨⟨token, after⟩, read, small⟩ := Option.bind_eq_some_iff.mp found
  obtain ⟨m, -, bound⟩ := Option.bind_eq_some_iff.mp small
  split at bound
  · cases bound
    exact movesOn_token? (Shape.isFilled_some' isDecimalDigit) read
  · cases bound

theorem movesOn_parenthesized? {inner : String} (found : c.parenthesized? = some (inner, next)) :
    c.MovesOn next := by
  simp only [parenthesized?] at found
  split at found
  next rest opening =>
    obtain ⟨n, -, same⟩ := Option.map_eq_some_iff.mp found
    cases same
    refine (reaches_skipBlanks c).movesOn ⟨_, ?_, moves_advance c.skipBlanks (n + 2)⟩
    rw [opening]
    simp
  next => cases found

/-! ## Places -/

/-- Whether the text goes on at the offset with what is left at the cursor. -/
def IsIn (text : String) (c : Cursor) : Prop :=
  ∃ before, text = before ++ String.ofList c.rest ∧ c.offset = before.utf8ByteSize

theorem isIn_ofText (text : String) : IsIn text (ofText text) :=
  ⟨"", by rw [ofText, String.ofList_toList, String.empty_append], rfl⟩

theorem IsIn.of_reaches (place : c.IsIn text) (reaches : c.Reaches next) : next.IsIn text := by
  obtain ⟨before, whole, size⟩ := place
  obtain ⟨taken, moves⟩ := reaches
  refine ⟨before ++ String.ofList taken, ?_, ?_⟩
  · rw [whole, moves.rest, String.ofList_append, String.append_assoc]
  · rw [moves.offset, size, String.utf8ByteSize_append]

theorem IsIn.boundary (place : c.IsIn text) : IsBoundary text c.offset := by
  obtain ⟨before, whole, size⟩ := place
  exact String.Pos.Raw.isValid_iff_exists_append.mpr
    ⟨before, String.ofList c.rest, whole, congrArg String.Pos.Raw.mk size⟩

theorem IsIn.skipBlanks (place : c.IsIn text) : c.skipBlanks.IsIn text :=
  place.of_reaches (reaches_skipBlanks c)

theorem seekFrom_append (taken rest : List Char) (offset : Nat) :
    seekFrom (offset + (String.ofList taken).utf8ByteSize) (taken ++ rest) offset =
      ⟨rest, offset + (String.ofList taken).utf8ByteSize⟩ := by
  induction taken generalizing offset with
  | nil =>
    cases rest with
    | nil => rfl
    | cons c rest => exact if_neg (Nat.lt_irrefl offset)
  | cons c taken ih =>
    have size := c.utf8Size_pos
    have whole : offset + (String.ofList (c :: taken)).utf8ByteSize =
        offset + c.utf8Size + (String.ofList taken).utf8ByteSize := by
      rw [String.ofList_cons, String.utf8ByteSize_append, String.utf8ByteSize_singleton,
        Nat.add_assoc]
    rw [whole, List.cons_append, seekFrom, if_pos (by omega), ih]

/-- A cursor in the text is found again by its offset. -/
theorem IsIn.seek_eq (place : c.IsIn text) : (ofText text).seek c.offset = c := by
  obtain ⟨before, whole, size⟩ := place
  have parts : text.toList = before.toList ++ c.rest := by
    rw [whole, String.toList_append, String.toList_ofList]
  have found := seekFrom_append before.toList c.rest 0
  rw [String.ofList_toList, Nat.zero_add, ← size, ← parts] at found
  exact found

end Cursor

end OData.Text
