import OData.Proofs.Bound.Positions
import OData.Proofs.Sql.Truth

/-!
# Patterns find the texts that filters find

In a pattern a percent sign stands for any text, an underscore for any character, and the character
after a backslash for itself, as do all others.  A pattern is read as a list of such pieces, and a
text matches if the pieces make up the whole of it.  An escaped text is read as its own characters,
so a literal brings no wildcards into the pattern of a function, and what matches is what contains,
starts with or ends with the literal.
-/

set_option autoImplicit false

namespace OData

inductive PatternPiece where
  | anyText
  | anyCharacter
  | exactly (c : Char)
  deriving DecidableEq, Repr

namespace PatternPiece

/-- The pieces of a pattern, unless its last character is a backslash that escapes nothing. -/
def ofPattern? : List Char → Option (List PatternPiece)
  | [] => some []
  | '%' :: rest => (ofPattern? rest).map (anyText :: ·)
  | '_' :: rest => (ofPattern? rest).map (anyCharacter :: ·)
  | ['\\'] => none
  | '\\' :: c :: rest => (ofPattern? rest).map (exactly c :: ·)
  | c :: rest => (ofPattern? rest).map (exactly c :: ·)

/-- Whether the pieces make up the whole of a text. -/
def Spell : List PatternPiece → List Char → Prop
  | [], text => text = []
  | anyText :: rest, text => ∃ skipped tail, text = skipped ++ tail ∧ Spell rest tail
  | anyCharacter :: rest, text => ∃ c tail, text = c :: tail ∧ Spell rest tail
  | exactly c :: rest, text => ∃ tail, text = c :: tail ∧ Spell rest tail

end PatternPiece

/-- Whether a text is like a pattern. -/
def IsLike (text pattern : String) : Prop :=
  ∃ pieces, PatternPiece.ofPattern? pattern.toList = some pieces ∧
    PatternPiece.Spell pieces text.toList

namespace PatternPiece

open SqlExpr (escapePattern)

/-! ## Reading what was escaped -/

theorem ofPattern?_plain {c : Char} (plain : ¬(c = '%' ∨ c = '_' ∨ c = '\\')) (rest : List Char) :
    ofPattern? (c :: rest) = (ofPattern? rest).map (exactly c :: ·) := by
  obtain ⟨percent, underscore, backslash⟩ := by simpa [not_or] using plain
  rw [ofPattern?] <;> simp_all

theorem ofPattern?_escaped (c : Char) (rest : List Char) :
    ofPattern? ('\\' :: c :: rest) = (ofPattern? rest).map (exactly c :: ·) := by
  rw [ofPattern?]

/-- An escaped text is read as its characters, whatever follows it. -/
theorem ofPattern?_escapePattern_append (text rest : List Char) :
    ofPattern? (escapePattern text ++ rest) = (ofPattern? rest).map (text.map exactly ++ ·) := by
  induction text with
  | nil => simp [escapePattern]
  | cons c text ih =>
    have one : ofPattern? (escapePattern (c :: text) ++ rest) =
        (ofPattern? (escapePattern text ++ rest)).map (exactly c :: ·) := by
      rw [escapePattern]
      split
      next => exact ofPattern?_escaped c _
      next plain => exact ofPattern?_plain plain _
    rw [one, ih, Option.map_map]
    rfl

/-! ## Texts that are spelled -/

theorem spell_exactly_append {pieces : List PatternPiece} (text : List Char) :
    ∀ {whole : List Char}, Spell (text.map exactly ++ pieces) whole ↔
      ∃ tail, whole = text ++ tail ∧ Spell pieces tail := by
  induction text with
  | nil => simp
  | cons c text ih =>
    intro whole
    rw [List.map_cons, List.cons_append, Spell]
    constructor
    · rintro ⟨tail, rfl, spelled⟩
      obtain ⟨last, same, spelled⟩ := ih.mp spelled
      exact ⟨last, congrArg (c :: ·) same, spelled⟩
    · rintro ⟨last, rfl, spelled⟩
      exact ⟨text ++ last, rfl, ih.mpr ⟨last, rfl, spelled⟩⟩

theorem spell_exactly {text whole : List Char} :
    Spell (text.map exactly) whole ↔ whole = text := by
  have spelled : Spell (text.map exactly ++ []) whole ↔ _ := spell_exactly_append text
  rw [List.append_nil] at spelled
  simp [spelled, Spell]

theorem spell_anyText (whole : List Char) : Spell [anyText] whole :=
  ⟨whole, [], (List.append_nil whole).symm, rfl⟩

theorem spell_prefix_iff {text whole : List Char} :
    Spell (text.map exactly ++ [anyText]) whole ↔ text <+: whole := by
  rw [spell_exactly_append]
  constructor
  · rintro ⟨tail, rfl, -⟩
    exact List.prefix_append text tail
  · rintro ⟨tail, rfl⟩
    exact ⟨tail, rfl, spell_anyText tail⟩

theorem spell_suffix_iff {text whole : List Char} :
    Spell (anyText :: text.map exactly) whole ↔ text <:+ whole := by
  rw [Spell]
  constructor
  · rintro ⟨skipped, tail, rfl, spelled⟩
    rw [spell_exactly.mp spelled]
    exact List.suffix_append skipped text
  · rintro ⟨skipped, rfl⟩
    exact ⟨skipped, text, rfl, spell_exactly.mpr rfl⟩

theorem spell_infix_iff {text whole : List Char} :
    Spell (anyText :: (text.map exactly ++ [anyText])) whole ↔ text <:+: whole := by
  rw [Spell]
  constructor
  · rintro ⟨skipped, tail, rfl, spelled⟩
    obtain ⟨last, rfl⟩ := spell_prefix_iff.mp spelled
    exact ⟨skipped, last, List.append_assoc skipped text last⟩
  · rintro ⟨skipped, last, rfl⟩
    exact ⟨skipped, text ++ last, List.append_assoc skipped text last,
      spell_prefix_iff.mpr (List.prefix_append text last)⟩

end PatternPiece

open PatternPiece

theorem isLike_iff_of_pieces {text pattern : String} {pieces : List PatternPiece}
    (made : ofPattern? pattern.toList = some pieces) :
    IsLike text pattern ↔ Spell pieces text.toList := by
  rw [IsLike, made]
  simp

/-- A text is like the pattern of a function if and only if the function finds the literal in it. -/
theorem isLike_pattern_iff {f : CanonicalFunction} (kind : SqlExpr.isPattern f = true)
    (whole part : String) :
    IsLike whole (SqlExpr.pattern f part) ↔ Value.ofStrings f whole part = .bool true := by
  have escaped :
      ofPattern? (SqlExpr.escapePattern part.toList) = some (part.toList.map exactly) := by
    simpa [ofPattern?] using ofPattern?_escapePattern_append part.toList []
  have open' : ofPattern? (SqlExpr.escapePattern part.toList ++ ['%']) =
      some (part.toList.map exactly ++ [anyText]) :=
    ofPattern?_escapePattern_append part.toList ['%']
  cases f with
  | contains =>
    have made : ofPattern? (SqlExpr.pattern .contains part).toList =
        some (anyText :: (part.toList.map exactly ++ [anyText])) := by
      simp [SqlExpr.pattern, ofPattern?, open']
    rw [isLike_iff_of_pieces made, spell_infix_iff, ← Value.isSome_indexOf?_iff]
    simp [Value.ofStrings]
  | startsWith =>
    have made : ofPattern? (SqlExpr.pattern .startsWith part).toList =
        some (part.toList.map exactly ++ [anyText]) := by
      simp [SqlExpr.pattern, open']
    rw [isLike_iff_of_pieces made, spell_prefix_iff, ← List.isPrefixOf_iff_prefix]
    simp [Value.ofStrings]
  | endsWith =>
    have made : ofPattern? (SqlExpr.pattern .endsWith part).toList =
        some (anyText :: part.toList.map exactly) := by
      simp [SqlExpr.pattern, ofPattern?, escaped]
    rw [isLike_iff_of_pieces made, spell_suffix_iff, ← List.isSuffixOf_iff_suffix]
    simp [Value.ofStrings]
  | _ => exact absurd kind (by decide)

namespace BoundExpr

variable {f : CanonicalFunction}

theorem isTrue_iff {v : Value} : isTrue v = true ↔ v = .bool true := by
  unfold isTrue
  split <;> simp_all

theorem translate_pattern (kind : SqlExpr.isPattern f = true) (text : String) (e : BoundExpr) :
    SqlExpr.translate (.call f [e, .literal (.string text)]) =
      (do pure (.like (← SqlExpr.translate e) (SqlExpr.pattern f text))) := by
  rw [SqlExpr.translate, SqlExpr.translateCall, if_pos kind]

/-- A function that looks for a literal is translated to a pattern, and a string is like that
pattern if and only if the function is true of it. -/
theorem isLike_iff_holds (kind : SqlExpr.isPattern f = true) (text : String) :
    (∀ e, SqlExpr.translate (.call f [e, .literal (.string text)]) =
      (do pure (.like (← SqlExpr.translate e) (SqlExpr.pattern f text)))) ∧
    ∀ (e : BoundExpr) (record : Record) (subject : String), e.evaluate record = .string subject →
      (IsLike subject (SqlExpr.pattern f text) ↔
        (BoundExpr.call f [e, .literal (.string text)]).holds record = true) := by
  refine ⟨translate_pattern kind text, fun e record subject value => ?_⟩
  have result : (BoundExpr.call f [e, .literal (.string text)]).evaluate record =
      Value.ofStrings f subject text := by
    rw [evaluate, evaluateAll, evaluateAll, evaluateAll, value, evaluate, Value.call]
  rw [isLike_pattern_iff kind, holds, result, isTrue_iff]

/-- The percent sign and the underscore of a literal stand for themselves. -/
theorem isLike_iff_holds_discount :
    SqlExpr.isPattern .contains = true ∧
      SqlExpr.pattern .contains "50%_off" = "%50\\%\\_off%" ∧
      IsLike "Now 50%_off!" (SqlExpr.pattern .contains "50%_off") ∧
      ¬IsLike "Now 50 is off!" (SqlExpr.pattern .contains "50%_off") := by
  obtain ⟨-, spelled⟩ := isLike_iff_holds (f := .contains) rfl "50%_off"
  refine ⟨rfl, by rfl, ?_, fun like => ?_⟩
  · exact (spelled (.literal (.string "Now 50%_off!")) [] _ rfl).mpr (by rfl)
  · have found := (spelled (.literal (.string "Now 50 is off!")) [] _ rfl).mp like
    exact absurd found (by decide)

end BoundExpr

end OData
