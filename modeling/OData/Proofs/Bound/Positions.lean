import OData.Proofs.Bound.Integers
import OData.Proofs.Text.Utf8

/-!
# Positions in strings

A text is looked for among the bytes of another, but what is given is how many characters come
before it.  So `indexof`, `length` and `substring` count the same way: a text that is found is the
part of its length from its position on, and what stands before and after it completes the whole.
-/

set_option autoImplicit false

namespace OData.Value

/-! ## The first occurrence -/

section Occurrences

variable {α : Type} [BEq α] [LawfulBEq α] {part whole : List α}

theorem indexOf?_eq_some_iff {k : Nat} :
    indexOf? part whole = some k ↔
      part <+: whole.drop k ∧ ∀ j < k, ¬ part <+: whole.drop j := by
  induction whole generalizing k with
  | nil =>
    simp only [indexOf?, List.drop_nil, List.prefix_nil, List.isEmpty_iff]
    constructor
    · intro found
      split at found
      next empty =>
        cases found
        exact ⟨empty, by simp⟩
      next => cases found
    · rintro ⟨empty, least⟩
      obtain rfl : k = 0 := Nat.eq_zero_of_not_pos fun positive => least 0 positive empty
      exact if_pos empty
  | cons a rest ih =>
    rw [indexOf?]
    by_cases here : part.isPrefixOf (a :: rest) = true
    · rw [if_pos here]
      rw [List.isPrefixOf_iff_prefix] at here
      constructor
      · rintro ⟨⟩
        exact ⟨here, by simp⟩
      · rintro ⟨-, least⟩
        obtain rfl : k = 0 := Nat.eq_zero_of_not_pos fun positive => least 0 positive here
        rfl
    · rw [if_neg here, Option.map_eq_some_iff]
      rw [List.isPrefixOf_iff_prefix] at here
      constructor
      · rintro ⟨later, found, rfl⟩
        obtain ⟨begins, least⟩ := ih.mp found
        refine ⟨begins, fun j before => ?_⟩
        cases j with
        | zero => exact here
        | succ j => exact least j (Nat.lt_of_succ_lt_succ before)
      · rintro ⟨begins, least⟩
        cases k with
        | zero => exact absurd begins here
        | succ k =>
          exact ⟨k, ih.mpr ⟨begins, fun j before => least (j + 1) (Nat.succ_lt_succ before)⟩, rfl⟩

theorem isSome_indexOf?_iff : (indexOf? part whole).isSome = true ↔ part <:+: whole := by
  induction whole with
  | nil => simp [indexOf?, List.infix_nil]
  | cons a rest ih =>
    rw [indexOf?, List.infix_cons_iff, ← ih]
    split
    next first => simp [List.isPrefixOf_iff_prefix.mp first]
    next other =>
      rw [List.isPrefixOf_iff_prefix] at other
      simp [other]

/-- An occurrence lies within the whole. -/
theorem add_length_le_of_indexOf? {k : Nat} (found : indexOf? part whole = some k) :
    k + part.length ≤ whole.length := by
  obtain ⟨begins, least⟩ := indexOf?_eq_some_iff.mp found
  have fits := begins.length_le
  rw [List.length_drop] at fits
  rcases Nat.lt_or_ge whole.length k with beyond | within
  · have empty : part = [] := List.eq_nil_of_length_eq_zero (by omega)
    exact absurd (empty ▸ List.nil_prefix) (least 0 (Nat.zero_lt_of_lt beyond))
  · omega

theorem indexOf?_eq_none_iff :
    indexOf? part whole = none ↔ ∀ k, ¬ part <+: whole.drop k := by
  rw [← Option.not_isSome_iff_eq_none, isSome_indexOf?_iff]
  constructor
  · intro absent k begins
    exact absent (begins.isInfix.trans (List.drop_suffix k whole).isInfix)
  · rintro absent ⟨before, after, rfl⟩
    refine absent before.length ⟨after, ?_⟩
    rw [List.append_assoc, List.drop_left]

end Occurrences

open Text.Utf8

/-- The bytes of a text are found where its characters are. -/
theorem indexOf?_bytes (part whole : List Char) :
    indexOf? (bytes part) (bytes whole) =
      (indexOf? part whole).map fun k => (bytes (whole.take k)).length := by
  cases found : indexOf? part whole with
  | none =>
    have absent := indexOf?_eq_none_iff.mp found
    have nonempty : part ≠ [] := fun empty => absent 0 (empty ▸ List.nil_prefix)
    rw [Option.map_none, indexOf?_eq_none_iff]
    intro offset begins
    obtain ⟨k, -, here⟩ := exists_take_of_prefix nonempty begins
    exact absent k here
  | some k =>
    obtain ⟨begins, least⟩ := indexOf?_eq_some_iff.mp found
    rw [Option.map_some, indexOf?_eq_some_iff]
    constructor
    · obtain ⟨after, same⟩ := begins
      exact ⟨bytes after, by rw [← bytes_append, same, drop_bytes]⟩
    · intro offset before here
      have nonempty : part ≠ [] := by
        rintro rfl
        obtain rfl : k = 0 :=
          Nat.eq_zero_of_not_pos fun positive => least 0 positive List.nil_prefix
        exact Nat.not_lt_zero _ before
      obtain ⟨j, rfl, other⟩ := exists_take_of_prefix nonempty here
      have later : k ≤ j := Nat.le_of_not_lt fun earlier => least j earlier other
      exact absurd (length_bytes_take_le later whole) (Nat.not_le_of_lt before)

/-! ## Positions -/

variable {a b : String}

theorem call_contains (a b : String) :
    call .contains [string a, string b] = bool (indexOf? b.toList a.toList).isSome := rfl

/-- The position of a text is how many characters come before its first occurrence. -/
theorem call_indexOf (a b : String) :
    call .indexOf [string a, string b] = match indexOf? b.toList a.toList with
      | some k => int (charCount (a.toList.take k))
      | none => int (-1) := by
  rw [call, ofStrings, encode_eq, encode_eq, ← bytes, ← bytes, indexOf?_bytes]
  cases indexOf? b.toList a.toList with
  | some k => simp only [Option.map_some, charsBefore_length_bytes_take]
  | none => rfl

theorem call_length (a : String) : call .length [string a] = int (charCount a.toList) := rfl

theorem call_substring (a : String) (start length : Int64) :
    call .substring [string a, int start, int length] =
      string (String.ofList ((a.toList.drop start.toInt.toNat).take length.toInt.toNat)) := rfl

theorem call_substring_from (a : String) (start : Int64) :
    call .substring [string a, int start] =
      string (String.ofList (a.toList.drop start.toInt.toNat)) := rfl

theorem call_concat (a b : String) :
    call .concat [string a, string b] = string (a ++ b) := rfl

theorem toInt_charCount {cs : List Char} (small : cs.length < 2 ^ 63) :
    (charCount cs).toInt = cs.length := by
  rw [charCount]
  cases counted : checkedInt? cs.length with
  | some n => exact toInt_of_checkedInt? counted
  | none =>
    rw [checkedInt?_eq_none_iff, Exceeds] at counted
    omega

theorem arithmetic_add_int {i j : Int64} (fits : ¬Exceeds (i.toInt + j.toInt)) :
    ∃ m : Int64, m.toInt = i.toInt + j.toInt ∧ arithmetic .add (int i) (int j) = int m := by
  have exact : Operator.add.onIntegers? i.toInt j.toInt = some (i.toInt + j.toInt) := rfl
  rcases integerArithmetic_of_some exact with ⟨m, same, -, result⟩ | ⟨unchecked, -⟩
  · exact ⟨m, same, result⟩
  · rcases (checkedArithmetic_eq_none_iff exact).mp unchecked with exceeds | ⟨other, -⟩
    · exact absurd exceeds fits
    · cases other

theorem charCount_nonneg (cs : List Char) : 0 ≤ charCount cs := by
  rw [charCount]
  cases counted : checkedInt? cs.length with
  | some n =>
    have same := toInt_of_checkedInt? counted
    rw [Option.getD_some, Int64.le_iff_toInt_le, same]
    exact Int.natCast_nonneg _
  | none => decide

/-- The position of a text that is found: the least one at which the whole has the text, and what
stands before and after it completes the whole. -/
theorem exists_position {k : Nat} (small : a.length < 2 ^ 63)
    (found : indexOf? b.toList a.toList = some k) :
    ∃ i : Int64, call .indexOf [string a, string b] = int i ∧ 0 ≤ i ∧
      call .substring [string a, int i, call .length [string b]] = string b ∧
      (∀ j : Int64, 0 ≤ j →
        call .substring [string a, int j, call .length [string b]] = string b → i ≤ j) ∧
      call .concat
        [call .concat [call .substring [string a, int 0, int i], string b],
          call .substring [string a, arithmetic .add (int i) (call .length [string b])]] =
        string a := by
  obtain ⟨begins, least⟩ := indexOf?_eq_some_iff.mp found
  have within := add_length_le_of_indexOf? found
  rw [← String.length_toList] at small
  have before : (a.toList.take k).length = k := List.length_take_of_le (by omega)
  have position : (charCount (a.toList.take k)).toInt = k := by
    rw [toInt_charCount (by omega), before]
  have size : (charCount b.toList).toInt = b.toList.length := toInt_charCount (by omega)
  refine ⟨charCount (a.toList.take k), by rw [call_indexOf, found], charCount_nonneg _, ?_, ?_, ?_⟩
  · rw [call_length, call_substring, position, size, Int.toNat_natCast, Int.toNat_natCast,
      ← List.prefix_iff_eq_take.mp begins, String.ofList_toList]
  · intro j positive same
    rw [call_length, call_substring, size, Int.toNat_natCast, string.injEq] at same
    have other : b.toList <+: a.toList.drop j.toInt.toNat := by
      rw [← same, String.toList_ofList]
      exact List.take_prefix _ _
    have later : k ≤ j.toInt.toNat := Nat.le_of_not_lt fun earlier => least _ earlier other
    rw [Int64.le_iff_toInt_le, Int64.toInt_zero] at positive
    rw [Int64.le_iff_toInt_le, position]
    omega
  · have fits : ¬Exceeds ((charCount (a.toList.take k)).toInt + (charCount b.toList).toInt) := by
      rw [position, size, Exceeds]
      omega
    obtain ⟨m, sum, added⟩ := arithmetic_add_int fits
    have next : m.toInt.toNat = k + b.toList.length := by omega
    obtain ⟨after, same⟩ := begins
    have rest : a.toList.drop (k + b.toList.length) = after := by
      rw [← List.drop_drop, ← same, List.drop_left]
    rw [call_length, added, call_substring, call_substring_from, call_concat, call_concat,
      Int64.toInt_zero, Int.toNat_zero, List.drop_zero, position, Int.toNat_natCast, next, rest,
      string.injEq, ← String.toList_inj, String.toList_append, String.toList_append,
      String.toList_ofList, String.toList_ofList, List.append_assoc, same, List.take_append_drop]

/-- `indexof` gives minus one if and only if `contains` is false.  Else it gives the least position
from which `substring` takes the text that is looked for, and that text completes what `substring`
takes before and after it.  A text in memory has fewer than 2 ^ 63 bytes, so fewer characters. -/
theorem indexOf_spec (a b : String) (small : a.length < 2 ^ 63) :
    (call .indexOf [string a, string b] = int (-1) ↔
      call .contains [string a, string b] = bool false) ∧
    (call .contains [string a, string b] ≠ bool false →
      ∃ k : Int64, call .indexOf [string a, string b] = int k ∧ 0 ≤ k ∧
        call .substring [string a, int k, call .length [string b]] = string b ∧
        (∀ j : Int64, 0 ≤ j →
          call .substring [string a, int j, call .length [string b]] = string b → k ≤ j) ∧
        call .concat
          [call .concat [call .substring [string a, int 0, int k], string b],
            call .substring [string a, arithmetic .add (int k) (call .length [string b])]] =
          string a) := by
  cases found : indexOf? b.toList a.toList with
  | none =>
    have absent : call .contains [string a, string b] = bool false := by
      rw [call_contains, found, Option.isSome_none]
    have none : call .indexOf [string a, string b] = int (-1) := by rw [call_indexOf, found]
    exact ⟨⟨fun _ => absent, fun _ => none⟩, fun present => absurd absent present⟩
  | some k =>
    have present : call .contains [string a, string b] ≠ bool false := by
      rw [call_contains, found, Option.isSome_some]
      simp
    obtain ⟨i, position, positive, others⟩ := exists_position small found
    refine ⟨⟨fun negative => ?_, fun absent => absurd absent present⟩,
      fun _ => ⟨i, position, positive, others⟩⟩
    rw [position, int.injEq] at negative
    rw [negative] at positive
    exact absurd positive (by decide)

/-- Of two overlapping occurrences the first one counts, and characters of several bytes count as
one. -/
theorem indexOf_spec_doubled :
    "aß€€€𝄞".length < 2 ^ 63 ∧ call .indexOf [string "aß€€€𝄞", string "€€"] = int 2 ∧
      call .indexOf [string "aß€€€𝄞", string "€ß"] = int (-1) := by
  have small : "aß€€€𝄞".length < 2 ^ 63 := by decide
  obtain ⟨-, present⟩ := indexOf_spec "aß€€€𝄞" "€€" small
  obtain ⟨absent, -⟩ := indexOf_spec "aß€€€𝄞" "€ß" small
  refine ⟨small, ?_, absent.mpr rfl⟩
  obtain ⟨k, position, positive, here, least, -⟩ := present (by decide)
  have before : k ≤ 2 := least 2 (by decide) rfl
  obtain rfl | rfl | rfl : k = 0 ∨ k = 1 ∨ k = 2 := by
    rw [Int64.le_iff_toInt_le] at positive before
    have lower : 0 ≤ k.toInt := positive
    have upper : k.toInt ≤ 2 := before
    have listed : k.toInt = 0 ∨ k.toInt = 1 ∨ k.toInt = 2 := by omega
    exact listed.imp Int64.toInt_inj.mp (Or.imp Int64.toInt_inj.mp Int64.toInt_inj.mp)
  · exact absurd here (by decide)
  · exact absurd here (by decide)
  · exact position

end OData.Value
