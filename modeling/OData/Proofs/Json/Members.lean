import Mathlib.Data.List.TakeWhile
import OData.Proofs.Json.Strings
import OData.Proofs.Number.Digits

/-!
# Members of an object: taking apart what was written

A written value `Stands` if it is passed over as a whole before a comma or a closing bracket.
Natural numbers, null and texts stand; an object of standing values is taken apart into its
members, and each value is read back from its bytes.
-/

set_option autoImplicit false

namespace OData.Json

open Reader

/-! ## Numbers -/

theorem appendDigits_eq (cs : List Char) :
    ∀ significand : Nat, Nat.ofDigitChars 10 cs significand ≤ Numeral.maxSignificand →
      Numeral.appendDigits significand cs = (Nat.ofDigitChars 10 cs significand, cs.length) := by
  induction cs with
  | nil => intro significand _; rfl
  | cons c rest ih =>
    intro significand fits
    rw [Nat.ofDigitChars_cons, Nat.mul_comm] at fits ⊢
    have grows : significand * 10 + (c.toNat - '0'.toNat) ≤
        Nat.ofDigitChars 10 rest (significand * 10 + (c.toNat - '0'.toNat)) := by
      rw [Nat.ofDigitChars_eq_ofDigitChars_zero]
      have := Nat.le_mul_of_pos_left (significand * 10 + (c.toNat - '0'.toNat))
        (Nat.pow_pos (n := rest.length) (show 0 < 10 by decide))
      omega
    have next : significand * 10 + (c.toNat - 48) ≤ Numeral.maxSignificand :=
      Nat.le_trans grows fits
    rw [Numeral.appendDigits]
    simp only [next, if_true]
    rw [show significand * 10 + (c.toNat - 48) = significand * 10 + (c.toNat - '0'.toNat) from rfl,
      ih _ fits, List.length_cons]

theorem ofText?_toString {n : Nat} (small : n < 2 ^ 64) : ofText? (toString n) = some (.int n) := by
  have digit : ∀ c ∈ Nat.toDigits 10 n, c.isDigit = true := fun _ => Decimal.isDigit_of_mem_toDigits
  have whole := List.takeWhile_eq_self_iff.mpr digit
  have shape : ((Nat.toDigits 10 n).head? == some '0' && (Nat.toDigits 10 n).length != 1) =
      false := by
    by_contra zeros
    simp only [Bool.not_eq_false, Bool.and_eq_true, beq_iff_eq, bne_iff_ne] at zeros
    have zero := Decimal.eq_zero_of_head_toDigits zeros.1
    exact zeros.2 (by rw [zero]; rfl)
  have size : Numeral.readSize false (Nat.toDigits 10 n) = some (.int n, []) := by
    have appended := appendDigits_eq (Nat.toDigits 10 n) 0 (by
      rw [Nat.ofDigitChars_ten_toDigits]; exact Nat.le_sub_one_of_lt small)
    rw [Nat.ofDigitChars_ten_toDigits] at appended
    simp [Numeral.readSize, whole, shape, appended, Numeral.whole, Nat.toDigits_ne_nil]
  have text : (toString n).toList = Nat.toDigits 10 n := by
    rw [Nat.toString_eq_ofList_toDigits, String.toList_ofList]
  rw [ofText?, text]
  cases digits : Nat.toDigits 10 n with
  | nil => exact absurd digits Nat.toDigits_ne_nil
  | cons c rest =>
    have first : c.isDigit = true := digit c (by rw [digits]; exact List.mem_cons_self)
    have unlike (d : Char) (other : d.isDigit = false) : c ≠ d := by
      rintro rfl
      rw [first] at other
      cases other
    have start : skipBlanks (c :: rest) = c :: rest := by
      rw [skipBlanks, List.dropWhile_cons_of_neg]
      simp [isBlank, unlike ' ' rfl, unlike '\n' rfl, unlike '\t' rfl, unlike '\r' rfl]
    have value : Reader.value maxDepth (c :: rest) = some (.int n, []) := by
      rw [digits] at size
      simp only [value_maxDepth, valueWith, unlike 'n' rfl, unlike 't' rfl, unlike 'f' rfl,
        unlike '"' rfl, first, or_true, if_true, if_false]
      rw [Numeral.read, size]
      exact fun _ same => unlike '-' rfl (List.cons.inj same).1
    rw [start, value]
    rfl

/-! ## Values that are passed over -/

namespace Raw

open Text.Utf8 (encode_eq encode_append encode_ofList utf8EncodeChar_of_lt_128)

/-- A comma or the bracket that closes an object. -/
def isClosing (b : UInt8) : Bool := b == byte ',' || b == byte '\x7d'

/-- A written value of which exactly its own bytes are passed over, wherever it is a member. -/
def Stands (text : String) : Prop :=
  ∀ (b : UInt8) (rest : Bytes), isClosing b = true →
    value? (Text.Utf8.encode text ++ b :: rest) = some (Text.Utf8.encode text, b :: rest)

theorem stands_of_skipValue {text : String} {first : UInt8} {others : Bytes}
    (bytes : Text.Utf8.encode text = first :: others) (start : isBlank first = false)
    (skips : ∀ (fuel : Nat) (b : UInt8) (rest : Bytes), isClosing b = true →
      skipValue (fuel + 1) (first :: others ++ b :: rest) = some (b :: rest)) :
    Stands text := by
  intro b rest closing
  have begins : skipBlanks (first :: others ++ b :: rest) = first :: others ++ b :: rest := by
    rw [skipBlanks, List.cons_append, List.dropWhile_cons_of_neg (by simp [start])]
  rw [value?, bytes, begins]
  simp only [skips _ b rest closing, Option.bind_eq_bind, Option.bind_some]
  rw [List.length_append, Nat.add_sub_cancel, List.take_left]

theorem skipDigits_append {digits : Bytes} (rest : Bytes) (some : digits ≠ [])
    (all : ∀ b ∈ digits, isDigit b = true) (stop : ∀ b ∈ rest.head?, isDigit b = false) :
    skipDigits (digits ++ rest) = Option.some rest := by
  cases digits with
  | nil => exact absurd rfl some
  | cons b digits =>
    have ends : rest.dropWhile isDigit = rest := by
      cases rest with
      | nil => rfl
      | cons c rest => rw [List.dropWhile_cons_of_neg (by simp [stop c (by simp)])]
    rw [List.cons_append, skipDigits, if_pos (all b (by simp)),
      List.dropWhile_append_of_pos (fun a member => all a (by simp [member])), ends]

theorem isDigit_byte {c : Char} (digit : c.isDigit = true) :
    String.utf8EncodeChar c = [byte c] ∧ isDigit (byte c) = true := by
  rw [Char.isDigit_iff_toNat] at digit
  simp only [Char.reduceToNat] at digit
  refine ⟨utf8EncodeChar_of_lt_128 (by omega), ?_⟩
  simp only [isDigit, byte, UInt8.le_iff_toNat_le, UInt8.toNat_ofNat', Char.reduceToNat,
    Bool.and_eq_true, decide_eq_true_eq]
  omega

theorem encode_toString (n : Nat) :
    Text.Utf8.encode (toString n) = (Nat.toDigits 10 n).map byte := by
  rw [Nat.toString_eq_ofList_toDigits, encode_ofList, List.map_eq_flatMap, List.flatMap_def,
    List.flatMap_def]
  exact congrArg List.flatten (List.map_congr_left fun c member =>
    (isDigit_byte (Decimal.isDigit_of_mem_toDigits member)).1)

/-- What closes a member is neither blank nor part of a number. -/
theorem closing_facts {b : UInt8} (closing : isClosing b = true) :
    isBlank b = false ∧ isDigit b = false ∧ b ≠ byte '.' ∧ b ≠ byte 'e' ∧ b ≠ byte 'E' := by
  simp only [isClosing, Bool.or_eq_true, beq_iff_eq] at closing
  rcases closing with rfl | rfl <;> decide

theorem skipUnsigned_toDigits (n : Nat) {b : UInt8} (rest : Bytes) (closing : isClosing b = true) :
    skipUnsigned ((Nat.toDigits 10 n).map byte ++ b :: rest) = some (b :: rest) := by
  obtain ⟨_, digit, point, small, capital⟩ := closing_facts closing
  have digits : ∀ a ∈ (Nat.toDigits 10 n).map byte, isDigit a = true := by
    intro a member
    obtain ⟨c, inside, rfl⟩ := List.mem_map.mp member
    exact (isDigit_byte (Decimal.isDigit_of_mem_toDigits inside)).2
  have passed := skipDigits_append (b :: rest) (by simp [Nat.toDigits_ne_nil]) digits
    (by simp [digit])
  have leading : ¬ (((Nat.toDigits 10 n).map byte ++ b :: rest).head? = some (byte '0') ∧
      ((Nat.toDigits 10 n).map byte ++ b :: rest).length ≠ (b :: rest).length + 1) := by
    rintro ⟨zero, long⟩
    cases shape : Nat.toDigits 10 n with
    | nil => exact Nat.toDigits_ne_nil shape
    | cons c others =>
      have isDigit : c.isDigit = true :=
        Decimal.isDigit_of_mem_toDigits (by rw [shape]; exact List.mem_cons_self)
      rw [Char.isDigit_iff_toNat] at isDigit
      simp only [Char.reduceToNat] at isDigit
      have same : c = '0' := by
        rw [shape, List.map_cons, List.cons_append, List.head?_cons, Option.some.injEq, byte,
          Text.Utf8.ofNat_eq_iff (by omega)] at zero
        exact Char.toNat_inj.mp zero
      have none := Decimal.eq_zero_of_head_toDigits (n := n) (by rw [shape, same, List.head?_cons])
      rw [none] at long
      simp at long
  rw [skipUnsigned, passed]
  simp only [Option.bind_eq_bind, Option.bind_some, leading, if_false, point, skipExponent, small,
    capital, or_self]

theorem stands_toString (n : Nat) : Stands (toString n) := by
  cases shape : Nat.toDigits 10 n with
  | nil => exact absurd shape Nat.toDigits_ne_nil
  | cons c others =>
    have bytes := encode_toString n
    rw [shape, List.map_cons] at bytes
    have digit := (isDigit_byte (c := c) (Decimal.isDigit_of_mem_toDigits (n := n)
      (by rw [shape]; exact List.mem_cons_self))).2
    have unlike (d : Char) (other : isDigit (byte d) = false) : byte c ≠ byte d := by
      intro same
      rw [same, other] at digit
      cases digit
    refine stands_of_skipValue bytes ?_ fun fuel b rest closing => ?_
    · have blank (d : Char) (other : isDigit (byte d) = false) : byte c ≠ byte d := unlike d other
      simp only [isBlank, Bool.or_eq_false_iff, beq_eq_false_iff_ne]
      exact ⟨⟨⟨blank ' ' rfl, blank '\n' rfl⟩, blank '\t' rfl⟩, blank '\r' rfl⟩
    · have skips := skipUnsigned_toDigits n rest closing
      rw [shape, List.map_cons, List.cons_append] at skips
      rw [List.cons_append, skipValue]
      simp only [unlike 'n' rfl, unlike 't' rfl, unlike 'f' rfl, unlike '"' rfl, unlike '-' rfl,
        if_false, digit, if_true, skips]

theorem stands_null : Stands "null" := by
  have bytes : Text.Utf8.encode "null" = byte 'n' :: "ull".toList.map byte := by
    rw [encode_eq]
    rfl
  apply stands_of_skipValue bytes (by decide)
  intro fuel b rest closing
  simp [skipValue, skipWord, byte]

theorem encode_quoted (s : String) : Text.Utf8.encode (quoted s) = byte '"' ::
    ((s.toList.flatMap escapeChar).flatMap String.utf8EncodeChar ++ [byte '"']) := by
  rw [quoted, encode_ofList]
  simp [utf8EncodeChar_of_lt_128, byte]

theorem stands_quoted (s : String) : Stands (quoted s) := by
  apply stands_of_skipValue (encode_quoted s) (by decide)
  intro fuel b rest closing
  have skips := skipString_escaped s.toList (b :: rest)
  rw [List.cons_append, List.append_assoc, List.singleton_append, skipValue]
  simp only [skips, if_true]
  rw [if_neg (by decide), if_neg (by decide), if_neg (by decide)]

theorem read?_encode (text : String) : read? (Text.Utf8.encode text) = ofText? text := by
  rw [read?, Text.Utf8.decode?_encode]
  rfl

/-! ## Objects -/

theorem after?_byte {c : Char} (rest : Bytes) (solid : isBlank (byte c) = false) :
    after? c (byte c :: rest) = some rest := by
  rw [after?, skipBlanks, List.dropWhile_cons_of_neg (by simp [solid])]
  simp only [if_true]

theorem after?_other {c : Char} {b : UInt8} (rest : Bytes) (solid : isBlank b = false)
    (other : b ≠ byte c) : after? c (b :: rest) = none := by
  rw [after?, skipBlanks, List.dropWhile_cons_of_neg (by simp [solid])]
  simp only [other, if_false]

theorem name?_escaped (s : String) (rest : Bytes) :
    name? ((s.toList.flatMap escapeChar).flatMap String.utf8EncodeChar ++ byte '"' :: rest) =
      some (s, rest) := by
  have text : (s.toList.flatMap escapeChar).flatMap String.utf8EncodeChar ++ [byte '"'] =
      Text.Utf8.encode (String.ofList (s.toList.flatMap escapeChar ++ ['"'])) := by
    rw [encode_ofList, List.flatMap_append]
    simp [utf8EncodeChar_of_lt_128, byte]
  rw [name?, skipString_escaped]
  simp only [Option.bind_eq_bind, Option.bind_some]
  rw [← List.singleton_append, ← List.append_assoc, List.length_append, Nat.add_sub_cancel,
    List.take_left, text, Text.Utf8.decode?_encode]
  simp only [Option.bind_some, String.toList_ofList, string_escaped, String.ofList_toList]

/-- The text of a member as it is written. -/
def memberText (member : String × String) : String := quoted member.1 ++ ":" ++ member.2

theorem encode_memberText (member : String × String) (rest : Bytes) :
    Text.Utf8.encode (memberText member) ++ rest = byte '"' ::
      ((member.1.toList.flatMap escapeChar).flatMap String.utf8EncodeChar ++ byte '"' ::
        byte ':' :: (Text.Utf8.encode member.2 ++ rest)) := by
  have colon : Text.Utf8.encode ":" = [byte ':'] := by
    rw [encode_eq]
    rfl
  simp [memberText, encode_append, encode_quoted, colon]

/-- The bytes of members from the first one up to the closing bracket. -/
theorem membersFrom_written (members : List (String × String)) :
    ∀ (first : String × String) (fuel : Nat), members.length < fuel →
      (∀ member ∈ first :: members, Stands member.2) →
      membersFrom fuel (Text.Utf8.encode (",".intercalate ((first :: members).map memberText)
        ++ closeBrace)) =
        some ((first :: members).map fun member => (member.1, Text.Utf8.encode member.2), []) := by
  have close : Text.Utf8.encode closeBrace = [byte '\x7d'] := by
    rw [encode_eq]
    rfl
  have comma : Text.Utf8.encode "," = [byte ','] := by
    rw [encode_eq]
    rfl
  induction members with
  | nil =>
    intro first fuel enough stand
    obtain ⟨fuel, rfl⟩ := Nat.exists_eq_succ_of_ne_zero (show fuel ≠ 0 by omega)
    have stands := stand first List.mem_cons_self (byte '\x7d') [] (by decide)
    rw [List.map_singleton, String.intercalate_singleton, encode_append, close,
      encode_memberText, membersFrom, after?_byte _ (by decide)]
    simp only [Option.bind_eq_bind, Option.bind_some, name?_escaped,
      after?_byte _ (show isBlank (byte ':') = false by decide), stands,
      after?_other [] (show isBlank (byte '\x7d') = false by decide)
        (show byte '\x7d' ≠ byte ',' by decide),
      after?_byte _ (show isBlank (byte '\x7d') = false by decide), List.map_singleton]
  | cons second members ih =>
    intro first fuel enough stand
    obtain ⟨fuel, rfl⟩ := Nat.exists_eq_succ_of_ne_zero (show fuel ≠ 0 by omega)
    rw [List.length_cons] at enough
    have stands := stand first List.mem_cons_self (byte ',')
      (Text.Utf8.encode (",".intercalate ((second :: members).map memberText) ++ closeBrace))
      (by decide)
    have others := ih second fuel (by omega) fun member inside =>
      stand member (List.mem_cons_of_mem _ inside)
    rw [List.map_cons] at stands others
    rw [List.map_cons, List.map_cons, String.intercalate_cons_cons, String.append_assoc,
      String.append_assoc, encode_append, encode_append, comma, List.singleton_append,
      encode_memberText, membersFrom, after?_byte _ (by decide)]
    simp only [Option.bind_eq_bind, Option.bind_some, name?_escaped,
      after?_byte _ (show isBlank (byte ':') = false by decide), stands,
      after?_byte _ (show isBlank (byte ',') = false by decide), others, List.map_cons]

/-- Written members begin with a quote and have a byte for each further member. -/
theorem written_begins (members : List (String × String)) :
    ∀ first : String × String, ∃ others : Bytes,
      Text.Utf8.encode (",".intercalate ((first :: members).map memberText) ++ closeBrace) =
        byte '"' :: others ∧ members.length ≤ others.length := by
  induction members with
  | nil =>
    intro first
    rw [List.map_singleton, String.intercalate_singleton, encode_append, encode_memberText]
    exact ⟨_, rfl, Nat.zero_le _⟩
  | cons second members ih =>
    intro first
    obtain ⟨others, written, long⟩ := ih second
    rw [List.map_cons] at written
    rw [List.map_cons, List.map_cons, String.intercalate_cons_cons, String.append_assoc,
      String.append_assoc, encode_append, encode_append, written, encode_memberText]
    refine ⟨_, rfl, ?_⟩
    simp only [List.length_append, List.length_cons]
    omega

/-- A written object of standing values is taken apart into its members. -/
theorem members?_written (first : String × String) (members : List (String × String))
    (stand : ∀ member ∈ first :: members, Stands member.2) :
    members? (Text.Utf8.encode (openBrace ++ ",".intercalate ((first :: members).map memberText)
      ++ closeBrace)) =
      some ((first :: members).map fun member => (member.1, Text.Utf8.encode member.2)) := by
  have brace : Text.Utf8.encode openBrace = [byte '\x7b'] := by
    rw [encode_eq]
    rfl
  obtain ⟨others, written, long⟩ := written_begins members first
  have read := membersFrom_written members first ((byte '"' :: others).length + 1)
    (by rw [List.length_cons]; omega) stand
  rw [written] at read
  rw [String.append_assoc, encode_append, brace, List.singleton_append, written, members?,
    after?_byte _ (by decide)]
  simp only [Option.bind_eq_bind, Option.bind_some, read,
    after?_other others (show isBlank (byte '"') = false by decide)
      (show byte '"' ≠ byte '\x7d' by decide)]
  rfl

theorem compactMembers_eq (members : List (String × Json)) :
    compactMembers members =
      (members.map fun member => (member.1, compact member.2)).map memberText := by
  induction members with
  | nil => rfl
  | cons member members ih => rw [compactMembers, ih]; rfl

theorem members?_compact (first : String × Json) (members : List (String × Json))
    (stand : ∀ member ∈ first :: members, Stands (compact member.2)) :
    members? (Text.Utf8.encode (compact (.object (first :: members)))) =
      some ((first :: members).map fun member =>
        (member.1, Text.Utf8.encode (compact member.2))) := by
  rw [compact, compactMembers_eq, List.map_cons, members?_written]
  · rw [List.map_cons, List.map_cons, List.map_map]
    rfl
  · intro member inside
    rw [← List.map_cons (f := fun member : String × Json => (member.1, compact member.2))] at inside
    obtain ⟨json, among, rfl⟩ := List.mem_map.mp inside
    exact stand json among

end Raw

end OData.Json
