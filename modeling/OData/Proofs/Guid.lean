import OData.Guid
import OData.Proofs.Text.Characters

/-!
# Globally unique identifiers: reading what was written

The text of an identifier is five groups of hexadecimal digits, which are 32 together and name its
128 bits.
-/

set_option autoImplicit false

namespace OData

namespace Text.Hex

theorem length_lowerDigits (n width : Nat) : (lowerDigits n width).length = width := by
  induction width with
  | zero => rfl
  | succ width ih => rw [lowerDigits, List.length_cons, ih]

theorem isDigit_lowerDigit {n : Nat} (small : n < 16) : isDigit (lowerDigit n) = true := by
  rw [isDigit, value?_lowerDigit small]
  rfl

theorem isDigit_of_mem_lowerDigits {n width : Nat} {c : Char} (member : c ∈ lowerDigits n width) :
    isDigit c = true := by
  induction width with
  | zero => simp [lowerDigits] at member
  | succ width ih =>
    rw [lowerDigits, List.mem_cons] at member
    rcases member with rfl | later
    · exact isDigit_lowerDigit (Nat.mod_lt _ (by decide))
    · exact ih later

theorem foldlM_lowerDigits (n width read : Nat) :
    (lowerDigits n width).foldlM (fun n c => (value? c).map (n * 16 + ·)) read =
      some (read * 16 ^ width + n % 16 ^ width) := by
  induction width generalizing read with
  | zero => simp [lowerDigits, Nat.mod_one]
  | succ width ih =>
    have first := value?_lowerDigit (Nat.mod_lt (n / 16 ^ width) (show 0 < 16 by decide))
    have places : n % 16 ^ (width + 1) = n % 16 ^ width + 16 ^ width * (n / 16 ^ width % 16) :=
      Nat.mod_pow_succ
    rw [lowerDigits, List.foldlM_cons, first]
    simp only [Option.map_some, Option.bind_eq_bind, Option.bind_some]
    rw [ih, places, Nat.pow_succ, Nat.add_mul, Nat.mul_assoc, Nat.mul_comm 16 (16 ^ width),
      Nat.mul_comm (n / 16 ^ width % 16)]
    congr 1
    omega

theorem number?_lowerDigits (n width : Nat) :
    number? (lowerDigits n width) = some (n % 16 ^ width) := by
  rw [number?, foldlM_lowerDigits, Nat.zero_mul, Nat.zero_add]

theorem ne_hyphen_of_isDigit {c : Char} (digit : isDigit c = true) : c ≠ '-' := by
  rintro rfl
  contradiction

end Text.Hex

namespace Guid

open Text.Hex

theorem all_isDigit_lowerDigits (n width : Nat) : (lowerDigits n width).all isDigit = true :=
  List.all_eq_true.mpr fun _ member => isDigit_of_mem_lowerDigits member

/-- Five groups of 8, 4, 4, 4 and 12 digits joined by hyphens. -/
theorem exists_groups (g : Guid) : ∃ a b c d e : List Char,
    (a.length = 8 ∧ b.length = 4 ∧ c.length = 4 ∧ d.length = 4 ∧ e.length = 12) ∧
      lowerDigits g.bits.toNat 32 = a ++ (b ++ (c ++ (d ++ e))) ∧
      g.toChars = a ++ '-' :: (b ++ '-' :: (c ++ '-' :: (d ++ '-' :: e))) := by
  have size := length_lowerDigits g.bits.toNat 32
  rw [toChars]
  generalize lowerDigits g.bits.toNat 32 = digits at size ⊢
  refine ⟨digits.take 8, (digits.drop 8).take 4, (digits.drop 12).take 4,
    (digits.drop 16).take 4, digits.drop 20, ?_, ?_, ?_⟩
  · simp only [List.length_take, List.length_drop, size]
    decide
  · have fold : ∀ m n, (digits.drop m).take n ++ digits.drop (m + n) = digits.drop m := by
      intro m n
      rw [← List.drop_drop, List.take_append_drop]
    rw [fold 16 4, fold 12 4, fold 8 4, List.take_append_drop]
  · have last : (digits.drop 20).take 12 = digits.drop 20 :=
      List.take_of_length_le (by rw [List.length_drop]; omega)
    simp [pieces, groups, List.intercalate, List.intersperse, last]

theorem length_toChars (g : Guid) : g.toChars.length = 36 := by
  obtain ⟨a, b, c, d, e, lengths, _, text⟩ := exists_groups g
  rw [text]
  simp only [List.length_append, List.length_cons]
  omega

theorem filter_toChars (g : Guid) :
    g.toChars.filter (· != '-') = lowerDigits g.bits.toNat 32 := by
  have hex := all_isDigit_lowerDigits g.bits.toNat 32
  obtain ⟨a, b, c, d, e, _, digits, text⟩ := exists_groups g
  rw [digits] at hex
  have kept : ∀ cs : List Char, (∀ x ∈ cs, x ∈ a ++ (b ++ (c ++ (d ++ e)))) →
      cs.filter (· != '-') = cs := by
    intro cs inside
    apply List.filter_eq_self.mpr
    intro x member
    have digit := List.all_eq_true.mp hex x (inside x member)
    simpa using ne_hyphen_of_isDigit digit
  rw [text, digits]
  simp only [List.filter_append, List.filter_cons, bne_self_eq_false, Bool.false_eq_true, if_false]
  rw [kept a (by simp +contextual), kept b (by simp +contextual), kept c (by simp +contextual),
    kept d (by simp +contextual), kept e (by simp +contextual)]

theorem ofText?_toChars (g : Guid) : ofText? (String.ofList g.toChars) = some g := by
  have bits : g.bits.toNat % 16 ^ 32 = g.bits.toNat := Nat.mod_eq_of_lt g.bits.isLt
  have written : ['-'].intercalate (pieces groups (lowerDigits g.bits.toNat 32)) = g.toChars := rfl
  have hyphenated : ofHyphenated? g.toChars = some g := by
    rw [ofHyphenated?]
    simp only [filter_toChars]
    rw [if_pos written, ofDigits?, if_pos (length_lowerDigits _ _), number?_lowerDigits, bits]
    simp
  simp only [ofText?, String.toList_ofList, length_toChars]
  exact hyphenated

end Guid

end OData
