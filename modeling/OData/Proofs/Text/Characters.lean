import OData.Text.Characters
import OData.Text.Hex

/-!
# Characters of ASCII

Digits, hexadecimal digits and the characters of names lie in ASCII, where a statement about
characters is decided one by one.
-/

set_option autoImplicit false

namespace OData.Text

theorem ascii_induction {p : Char → Prop} (all : ∀ n ∈ List.range 128, p (Char.ofNat n)) {c : Char}
    (ascii : c.toNat < 128) : p c := by
  have found := all c.toNat (List.mem_range.mpr ascii)
  rwa [Char.ofNat_toNat] at found

theorem ascii_of_isDigit {c : Char} (digit : c.isDigit = true) : c.toNat < 128 := by
  have bounds := Char.isDigit_iff_toNat.mp digit
  have last : '9'.toNat = 57 := rfl
  omega

theorem ascii_of_isUpper {c : Char} (upper : c.isUpper = true) : c.toNat < 128 := by
  have last := (of_decide_eq_true upper).2
  exact Nat.lt_of_le_of_lt last (by decide)

theorem ascii_of_isLower {c : Char} (lower : c.isLower = true) : c.toNat < 128 := by
  have last := (Bool.and_eq_true_iff.mp lower).2
  exact Nat.lt_of_le_of_lt (of_decide_eq_true last) (by decide)

theorem ascii_of_isNameChar {c : Char} (name : isNameChar c = true) : c.toNat < 128 := by
  simp only [isNameChar, Char.isAlphanum, Bool.or_eq_true, beq_iff_eq] at name
  rcases name with (letter | digit) | underscore
  · rcases Bool.or_eq_true_iff.mp letter with upper | lower
    · exact ascii_of_isUpper upper
    · exact ascii_of_isLower lower
  · exact ascii_of_isDigit digit
  · rw [underscore]
    decide

theorem ascii_of_hex {c : Char} (digit : Hex.isDigit c = true) : c.toNat < 128 := by
  unfold Hex.isDigit Hex.value? at digit
  split at digit
  next bounds => exact Nat.lt_of_le_of_lt bounds.2 (by decide)
  · split at digit
    next bounds => exact Nat.lt_of_le_of_lt bounds.2 (by decide)
    · split at digit
      next bounds => exact Nat.lt_of_le_of_lt bounds.2 (by decide)
      next => contradiction

theorem of_isDigit {p : Char → Prop} (all : ∀ n ∈ List.range 128,
      (Char.ofNat n).isDigit = true → p (Char.ofNat n)) {c : Char} (digit : c.isDigit = true) :
    p c :=
  ascii_induction (p := fun c => c.isDigit = true → p c) all (ascii_of_isDigit digit) digit

theorem of_isNameChar {p : Char → Prop} (all : ∀ n ∈ List.range 128,
      isNameChar (Char.ofNat n) = true → p (Char.ofNat n)) {c : Char} (name : isNameChar c = true) :
    p c :=
  ascii_induction (p := fun c => isNameChar c = true → p c) all (ascii_of_isNameChar name) name

theorem of_hex {p : Char → Prop} (all : ∀ n ∈ List.range 128,
      Hex.isDigit (Char.ofNat n) = true → p (Char.ofNat n)) {c : Char}
    (digit : Hex.isDigit c = true) : p c :=
  ascii_induction (p := fun c => Hex.isDigit c = true → p c) all (ascii_of_hex digit) digit

theorem all_mono {p q : Char → Bool} (sub : ∀ c, p c = true → q c = true) {cs : List Char}
    (all : cs.all p = true) : cs.all q = true := by
  rw [List.all_eq_true] at all ⊢
  intro c member
  exact sub c (all c member)

theorem all_isNameChar_cons {c : Char} {run : List Char} (start : isNameStart c = true)
    (word : run.all isNameChar = true) : (c :: run).all isNameChar = true := by
  rw [List.all_cons, isNameChar_of_isNameStart c start, word]
  rfl

theorem isBlank_of_isDigit {c : Char} (digit : c.isDigit = true) : isBlank c = false :=
  of_isDigit (p := fun c => isBlank c = false) (by decide +kernel) digit

theorem isDecimalDigit_of_isDigit {c : Char} (digit : c.isDigit = true) :
    isDecimalDigit c = true := by
  simp [isDecimalDigit, digit]

theorem isBlank_of_isNameChar {c : Char} (name : isNameChar c = true) : isBlank c = false :=
  of_isNameChar (p := fun c => isBlank c = false) (by decide +kernel) name

theorem isDecimalDigit_of_isNameStart {c : Char} (start : isNameStart c = true) :
    isDecimalDigit c = false :=
  of_isNameChar (p := fun c => isNameStart c = true → isDecimalDigit c = false)
    (by decide +kernel)
    (isNameChar_of_isNameStart c start) start

/-- What is joined by separators is the first text and others behind separators. -/
theorem toList_intercalate_cons (sep first : String) (others : List String) :
    (sep.intercalate (first :: others)).toList =
      first.toList ++ others.flatMap fun other => sep.toList ++ other.toList := by
  induction others generalizing first with
  | nil => rw [String.intercalate_singleton, List.flatMap_nil, List.append_nil]
  | cons other others ih =>
    rw [String.intercalate_cons_cons, String.toList_append, String.toList_append, ih,
      List.flatMap_cons, List.append_assoc, List.append_assoc]

/-- There are at least as many characters as separators. -/
theorem length_le_flatMap {α : Type} (sep : Char) (chars : α → List Char) (items : List α) :
    items.length ≤ (items.flatMap fun item => sep :: chars item).length := by
  induction items with
  | nil => simp
  | cons item items ih =>
    rw [List.flatMap_cons, List.length_append, List.length_cons, List.length_cons]
    omega

/-- Texts are equal where a separator stands first. -/
theorem eq_of_append_cons {α : Type} {sep : α} {xs ys rest rest' : List α} (first : sep ∉ xs)
    (second : sep ∉ ys) (equal : xs ++ sep :: rest = ys ++ sep :: rest') :
    xs = ys ∧ rest = rest' := by
  induction xs generalizing ys with
  | nil =>
    cases ys with
    | nil => exact ⟨rfl, (List.cons.inj equal).2⟩
    | cons y ys => exact absurd ((List.cons.inj equal).1 ▸ List.mem_cons_self) second
  | cons x xs ih =>
    cases ys with
    | nil => exact absurd ((List.cons.inj equal).1 ▸ List.mem_cons_self) first
    | cons y ys =>
      obtain ⟨head, tail⟩ := List.cons.inj equal
      rw [List.mem_cons, not_or] at first second
      obtain ⟨same, ends⟩ := ih first.2 second.2 tail
      exact ⟨List.cons_eq_cons.mpr ⟨head, same⟩, ends⟩

/-- Texts are equal where a separator stands last. -/
theorem eq_of_append_cons_last {α : Type} {sep : α} {xs ys rest rest' : List α}
    (first : sep ∉ rest) (second : sep ∉ rest') (equal : xs ++ sep :: rest = ys ++ sep :: rest') :
    xs = ys ∧ rest = rest' := by
  have mirrored := congrArg List.reverse equal
  simp only [List.reverse_append, List.reverse_cons, List.append_assoc, List.singleton_append]
    at mirrored
  obtain ⟨ends, same⟩ := eq_of_append_cons (mt List.mem_reverse.mp first)
    (mt List.mem_reverse.mp second) mirrored
  exact ⟨List.reverse_inj.mp same, List.reverse_inj.mp ends⟩

end OData.Text
