import OData.Json.Raw
import OData.Json.Writer
import OData.Proofs.Text.Utf8

/-!
# Strings of JSON: reading what was written

`Reader.string` undoes the escapes of `quoted`, and `Raw.skipString` passes over the bytes of an
escaped text up to its closing quote.
-/

set_option autoImplicit false

namespace OData.Json

open Reader

theorem unicodeEscape_lowerDigits {n : Nat} (small : n < 32) (rest : List Char) :
    unicodeEscape (Text.Hex.lowerDigits n 4 ++ rest) = some (Char.ofNat n, rest) := by
  have number : Text.Hex.number? (Text.Hex.lowerDigits n 4) = some n := by
    have all : ∀ m ∈ List.range 32,
        Text.Hex.number? (Text.Hex.lowerDigits m 4) = some m := by decide
    exact all n (List.mem_range.mpr small)
  simp only [Text.Hex.lowerDigits] at number
  simp only [Text.Hex.lowerDigits, List.cons_append, List.nil_append, unicodeEscape, codeUnit,
    number, Option.map_some, Option.bind_eq_bind, Option.bind_some]
  rw [if_neg (by omega), if_neg (by omega)]

/-- How a character is written: with a letter of its own, by its code or as it is. -/
inductive Escaped (c : Char) : List Char → Prop
  | letter {e : Char} (known : simpleEscape e = some c) (ascii : e.toNat < 128) (other : e ≠ 'u') :
      Escaped c ['\\', e]
  | code (control : c.toNat < 32) : Escaped c ('\\' :: 'u' :: Text.Hex.lowerDigits c.toNat 4)
  | plain (quote : c ≠ '"') (backslash : c ≠ '\\') (printable : ¬ c.toNat < 32) : Escaped c [c]

theorem escaped_escapeChar (c : Char) : Escaped c (escapeChar c) := by
  have letter {d : Char} (e : Char) (same : c = d) (known : simpleEscape e = some d)
      (ascii : e.toNat < 128) (other : e ≠ 'u') : Escaped c ['\\', e] := by
    rw [← same] at known
    exact .letter known ascii other
  unfold escapeChar
  iterate 7
    split
    next same => exact letter _ same rfl (by decide) (by decide)
  split
  next control => exact .code control
  next quote backslash _ _ _ _ _ printable => exact .plain quote backslash printable

/-- What is written for a character is read as that character. -/
theorem stringFrom_escapeChar (c : Char) (fuel : Nat) (read rest : List Char) :
    stringFrom (fuel + 1) read (escapeChar c ++ rest) = stringFrom fuel (c :: read) rest := by
  have written := escaped_escapeChar c
  generalize escapeChar c = text at written ⊢
  cases written with
  | letter known _ _ => simp [stringFrom, known]
  | code control => simp [stringFrom, unicodeEscape_lowerDigits control]
  | plain quote backslash printable => simp [stringFrom, backslash, printable]

theorem stringFrom_escaped (s rest : List Char) :
    ∀ (fuel : Nat) (read : List Char), s.length < fuel →
      stringFrom fuel read (s.flatMap escapeChar ++ '"' :: rest) =
        some (String.ofList (read.reverse ++ s), rest) := by
  induction s with
  | nil =>
    intro fuel read enough
    obtain ⟨fuel, rfl⟩ := Nat.exists_eq_succ_of_ne_zero (show fuel ≠ 0 by omega)
    simp [stringFrom]
  | cons c s ih =>
    intro fuel read enough
    obtain ⟨fuel, rfl⟩ := Nat.exists_eq_succ_of_ne_zero (show fuel ≠ 0 by omega)
    rw [List.flatMap_cons, List.append_assoc, Nat.succ_eq_add_one, stringFrom_escapeChar,
      ih fuel (c :: read) (by simpa using enough)]
    simp

theorem length_le_escaped (s : List Char) : s.length ≤ (s.flatMap escapeChar).length := by
  induction s with
  | nil => exact Nat.le_refl _
  | cons c s ih =>
    have some : 1 ≤ (escapeChar c).length := by
      have written := escaped_escapeChar c
      generalize escapeChar c = text at written ⊢
      cases written <;> simp
    simp only [List.length_cons, List.flatMap_cons, List.length_append]
    omega

theorem string_escaped (s rest : List Char) :
    Reader.string (s.flatMap escapeChar ++ '"' :: rest) = some (String.ofList s, rest) := by
  have enough := length_le_escaped s
  rw [Reader.string, stringFrom_escaped s rest _ [] ?_]
  · rfl
  · rw [List.length_append]
    omega

theorem value_maxDepth : Reader.value maxDepth = valueWith (some (Reader.value 126)) := rfl

theorem ofText?_quoted (s : String) : ofText? (quoted s) = some (.str s) := by
  have start : skipBlanks (quoted s).toList = (quoted s).toList := by
    simp [quoted, skipBlanks, isBlank]
  rw [ofText?, start, quoted, String.toList_ofList]
  have first : Reader.value maxDepth ('"' :: (s.toList.flatMap escapeChar ++ ['"'])) =
      some (.str s, []) := by
    simp [value_maxDepth, valueWith, string_escaped]
  rw [first]
  rfl

/-! ## Bytes -/

namespace Raw

open Text.Utf8 (utf8EncodeChar_of_lt_128 le_of_mem_utf8EncodeChar)

/-- A byte that neither ends a text nor begins an escape is passed over. -/
theorem skipString_plain {b : UInt8} (rest : Bytes) (quote : b ≠ byte '"')
    (backslash : b ≠ byte '\\') (printable : ¬ b < 0x20) :
    skipString (b :: rest) = skipString rest := by
  rw [skipString.eq_def]
  simp only [quote, backslash, printable, if_false]

theorem skipString_high (bytes rest : Bytes) (high : ∀ b ∈ bytes, 128 ≤ b.toNat) :
    skipString (bytes ++ rest) = skipString rest := by
  induction bytes with
  | nil => rfl
  | cons b bytes ih =>
    have large := high b (by simp)
    rw [List.cons_append, skipString_plain]
    · exact ih fun a member => high a (by simp [member])
    · rintro rfl
      revert large
      decide
    · rintro rfl
      revert large
      decide
    · rw [UInt8.lt_iff_toNat_lt]
      simp only [UInt8.reduceToNat]
      omega

/-- The bytes of the four digits of a code unit. -/
theorem bytes_lowerDigits {n : Nat} (small : n < 32) :
    (Text.Hex.lowerDigits n 4).flatMap String.utf8EncodeChar =
        (Text.Hex.lowerDigits n 4).map byte ∧
      ((Text.Hex.lowerDigits n 4).map byte).all isHexDigit = true := by
  have all : ∀ m ∈ List.range 32,
      (Text.Hex.lowerDigits m 4).flatMap String.utf8EncodeChar =
          (Text.Hex.lowerDigits m 4).map byte ∧
        ((Text.Hex.lowerDigits m 4).map byte).all isHexDigit = true := by decide
  exact all n (List.mem_range.mpr small)

/-- The letter of an escape is passed over together with its backslash. -/
theorem skipString_letter {e : Char} (rest : Bytes) (known : (simpleEscape e).isSome)
    (ascii : e.toNat < 128) (other : e ≠ 'u') :
    skipString (byte '\\' :: UInt8.ofNat e.toNat :: rest) = skipString rest := by
  have code : (UInt8.ofNat e.toNat).toNat = e.toNat := by
    rw [UInt8.toNat_ofNat', Nat.mod_eq_of_lt (by omega)]
  have apart : UInt8.ofNat e.toNat ≠ 0x75 := by
    rw [ne_eq, Text.Utf8.ofNat_eq_iff (by omega)]
    exact fun same => other (Char.toNat_inj.mp same)
  rw [skipString.eq_def]
  simp [apart, code, known, byte]

/-- The bytes of what is written for a character lie inside the text. -/
theorem skipString_escapeChar (c : Char) (rest : Bytes) :
    skipString ((escapeChar c).flatMap String.utf8EncodeChar ++ rest) = skipString rest := by
  have written := escaped_escapeChar c
  generalize escapeChar c = text at written ⊢
  cases written with
  | letter known ascii other =>
    have begins : String.utf8EncodeChar '\\' = [byte '\\'] := by decide
    rw [List.flatMap_cons, List.flatMap_singleton, begins, utf8EncodeChar_of_lt_128 ascii]
    exact skipString_letter rest (Option.isSome_of_eq_some known) ascii other
  | code control =>
    obtain ⟨bytes, hex⟩ := bytes_lowerDigits control
    rw [List.flatMap_cons, List.flatMap_cons, bytes]
    simp only [Text.Hex.lowerDigits, List.map_cons, List.map_nil] at hex ⊢
    simp [skipString, utf8EncodeChar_of_lt_128, byte] at hex ⊢
    exact fun bad => absurd hex (by simpa using bad)
  | plain quote backslash printable =>
    rw [List.flatMap_singleton]
    rcases Nat.lt_or_ge c.toNat 128 with ascii | beyond
    · rw [utf8EncodeChar_of_lt_128 ascii, List.singleton_append]
      have code (d : Char) (small : d.toNat < 128) (ne : c ≠ d) : UInt8.ofNat c.toNat ≠ byte d := by
        intro same
        rw [byte, Text.Utf8.ofNat_eq_iff (by omega), UInt8.toNat_ofNat', Nat.mod_eq_of_lt
          (by omega)] at same
        exact ne (Char.toNat_inj.mp same)
      refine skipString_plain rest (code _ (by decide) quote) (code _ (by decide) backslash) ?_
      rw [UInt8.lt_iff_toNat_lt, UInt8.toNat_ofNat', Nat.mod_eq_of_lt (by omega)]
      exact printable
    · exact skipString_high _ rest fun b member => le_of_mem_utf8EncodeChar beyond member

theorem skipString_escaped (s : List Char) (rest : Bytes) :
    skipString ((s.flatMap escapeChar).flatMap String.utf8EncodeChar ++ byte '"' :: rest) =
      some rest := by
  induction s with
  | nil =>
    rw [List.flatMap_nil, List.flatMap_nil, List.nil_append, skipString.eq_def]
    simp only [if_true]
  | cons c s ih =>
    rw [List.flatMap_cons, List.flatMap_append, List.append_assoc, skipString_escapeChar, ih]

end Raw

end OData.Json
