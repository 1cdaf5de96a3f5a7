import OData.Proofs.Number.Decimal
import OData.Proofs.Number.Shortest
import OData.Proofs.Text.Characters

/-!
# The scientific layout tells numbers apart

Digits without trailing zeros stand for a point of the interval of their number, and different
numbers have no point in common; so a text with the digits and the exponent is the text of one
number only.
-/

set_option autoImplicit false

namespace OData

/-- The number that digits stand for. -/
def ShortestDigits.toRat (s : ShortestDigits) : ℚ :=
  Decimal.natOfDigits s.digits * 10 ^ (s.exponent + 1 - s.digits.length)

namespace Double

theorem exists_dropTrailingZeros (digits : List Char) : ∃ zeros : ℕ,
    digits = dropTrailingZeros digits ++ List.replicate zeros '0' := by
  have zeros : digits.reverse.takeWhile (· == '0') =
      List.replicate (digits.reverse.takeWhile (· == '0')).length '0' :=
    List.eq_replicate_of_mem fun c member => by
      simpa using List.mem_takeWhile_imp member
  refine ⟨(digits.reverse.takeWhile (· == '0')).length, ?_⟩
  rw [dropTrailingZeros, ← List.reverse_replicate, ← zeros, ← List.reverse_append,
    List.takeWhile_append_dropWhile, List.reverse_reverse]

theorem isDigit_of_mem_shortest {x : Double} {c : Char} (member : c ∈ x.shortest.digits) :
    c.isDigit = true := by
  rw [shortest] at member
  split at member
  next m q parts =>
    split at member
    · rw [List.mem_singleton.mp member]
      rfl
    · obtain ⟨zeros, all⟩ := exists_dropTrailingZeros
        (Nat.toDigits 10 (searchDigits (interval m q)
          (decimalExponent (interval m q).value (interval m q).den) 17 0).1)
      apply Decimal.isDigit_of_mem_toDigits
      rw [all]
      exact List.mem_append_left _ member

theorem toRat_dropTrailingZeros (c : ℕ) (g : ℤ) :
    (⟨dropTrailingZeros (Nat.toDigits 10 c), g + (Nat.toDigits 10 c).length - 1⟩ :
      ShortestDigits).toRat = c * 10 ^ g := by
  obtain ⟨zeros, all⟩ := exists_dropTrailingZeros (Nat.toDigits 10 c)
  generalize dropTrailingZeros (Nat.toDigits 10 c) = kept at all ⊢
  have value := Decimal.natOfDigits_toDigits c
  rw [all, Decimal.natOfDigits_append_replicate] at value
  have places : g + ((kept.length + zeros : ℕ) : ℤ) - 1 + 1 - kept.length = g + zeros := by
    push_cast
    ring
  rw [ShortestDigits.toRat, all, List.length_append, List.length_replicate, places,
    zpow_add₀ (by norm_num), zpow_natCast, ← value]
  push_cast
  ring

theorem shortest_of_size {x : Double} (zero : x.size = 0) : x.shortest = ⟨['0'], 0⟩ := by
  rw [shortest, parts_eq, zero]
  rfl

theorem holds_shortest {x : Double} (positive : 0 < x.size) :
    (intervalOf x.size).Holds x.shortest.toRat := by
  obtain ⟨whole, small, least⟩ := partsOf_bounds positive
  have found := holds_search whole small least
  rw [shortest, parts_eq, intervalOf]
  simp only
  rw [if_neg (Nat.ne_of_gt whole), toRat_dropTrailingZeros]
  exact found

theorem lower_intervalOf_pos {size : ℕ} (positive : 0 < size) : 0 < (intervalOf size).lower := by
  obtain ⟨whole, small, least⟩ := partsOf_bounds positive
  have power : (0 : ℚ) < 2 ^ (partsOf size).2 := zpow_pos (by norm_num) _
  have one : (1 : ℚ) ≤ (partsOf size).1 := by exact_mod_cast whole
  rw [intervalOf, lower_interval _ whole]
  split <;> nlinarith

theorem toRat_shortest_pos_iff {x : Double} : 0 < x.shortest.toRat ↔ 0 < x.size := by
  constructor
  · intro some
    by_contra none
    rw [shortest_of_size (Nat.eq_zero_of_not_pos none)] at some
    exact absurd some (by simp [ShortestDigits.toRat, Decimal.natOfDigits])
  · intro positive
    exact lt_of_lt_of_le (lower_intervalOf_pos positive) (holds_shortest positive).weaken.1

theorem size_eq_of_shortest_eq {x y : Double} (equal : x.shortest = y.shortest) :
    x.size = y.size := by
  have zero : 0 < x.size ↔ 0 < y.size := by
    rw [← toRat_shortest_pos_iff, ← toRat_shortest_pos_iff, equal]
  by_cases positive : 0 < x.size
  · have first := holds_shortest positive
    have second := holds_shortest (zero.mp positive)
    rw [← equal] at second
    obtain ⟨s, size⟩ := Nat.exists_eq_add_one.mpr positive
    obtain ⟨t, size'⟩ := Nat.exists_eq_add_one.mpr (zero.mp positive)
    rw [size] at first
    rw [size'] at second
    rw [size, size', eq_of_holds first second]
  · omega

theorem eq_of_size {x y : Double} (sizes : x.size = y.size)
    (signs : x.isNegative = y.isNegative) : x = y := by
  have small := x.bits.toNat_lt
  have small' := y.bits.toNat_lt
  rw [isNegative, isNegative, decide_eq_decide] at signs
  rw [size, size] at sizes
  have bits : x.bits.toNat = y.bits.toNat := by omega
  exact congrArg mk (UInt64.toNat_inj.mp bits)

/-- The digits with a point behind the first one. -/
def mantissaChars : List Char → List Char
  | [] => []
  | [d] => [d]
  | d :: rest => d :: '.' :: rest

theorem mantissaChars_inj {cs ds : List Char} (equal : mantissaChars cs = mantissaChars ds) :
    cs = ds := by
  match cs, ds with
  | [], [] => rfl
  | [], [_] => cases equal
  | [], _ :: _ :: _ => cases equal
  | [_], [] => cases equal
  | _ :: _ :: _, [] => cases equal
  | [c], [d] => exact equal
  | [c], d :: e :: ds => cases equal
  | c :: e :: cs, [d] => cases equal
  | c :: e :: cs, d :: f :: ds =>
    obtain ⟨first, rest⟩ := List.cons.inj equal
    rw [first, (List.cons.inj rest).2]

theorem mem_mantissaChars {c : Char} {cs : List Char} (member : c ∈ mantissaChars cs) :
    c ∈ cs ∨ c = '.' := by
  match cs with
  | [] => cases member
  | [d] => exact .inl member
  | d :: e :: cs =>
    rw [mantissaChars, List.mem_cons, List.mem_cons] at member
    · rcases member with rfl | rfl | more
      · exact .inl List.mem_cons_self
      · exact .inr rfl
      · exact .inl (List.mem_cons_of_mem _ more)
    · simp

theorem digits_shortest_ne_nil (x : Double) : x.shortest.digits ≠ [] := by
  intro none
  by_cases positive : 0 < x.size
  · have value := toRat_shortest_pos_iff.mpr positive
    rw [ShortestDigits.toRat, none] at value
    exact absurd value (by simp [Decimal.natOfDigits])
  · rw [shortest_of_size (Nat.eq_zero_of_not_pos positive)] at none
    cases none

theorem toList_scientific (x : Double) : x.scientific.toList =
    (if x.isNegative then ['-'] else []) ++
      (mantissaChars x.shortest.digits ++ 'e' :: (toString x.shortest.exponent).toList) := by
  have signs : ∀ cs : List Char, (String.ofList (if x.isNegative then '-' :: cs else cs)).toList =
      (if x.isNegative then ['-'] else []) ++ cs := by
    intro cs
    split <;> exact String.toList_ofList
  rw [scientific]
  split
  next none => exact absurd none (digits_shortest_ne_nil x)
  next d one =>
    rw [one]
    exact signs _
  next d rest more digits =>
    rw [digits, mantissaChars]
    · exact signs _
    · exact more

theorem exists_mantissaChars_eq_cons (x : Double) :
    ∃ c cs, mantissaChars x.shortest.digits = c :: cs ∧ c.isDigit = true := by
  match digits : x.shortest.digits with
  | [] => exact absurd digits (digits_shortest_ne_nil x)
  | [d] => exact ⟨d, [], rfl, isDigit_of_mem_shortest (digits ▸ List.mem_cons_self)⟩
  | d :: e :: rest =>
    exact ⟨d, '.' :: e :: rest, rfl, isDigit_of_mem_shortest (digits ▸ List.mem_cons_self)⟩

theorem e_notMem_mantissaChars (x : Double) : 'e' ∉ mantissaChars x.shortest.digits := by
  intro member
  rcases mem_mantissaChars member with digit | point
  · exact absurd (isDigit_of_mem_shortest digit) (by decide)
  · exact absurd point (by decide)

/-- The scientific layout tells all numbers apart. -/
theorem scientific_injective : Function.Injective scientific := by
  intro x y equal
  have chars := congrArg String.toList equal
  obtain ⟨c, cs, head, first⟩ := exists_mantissaChars_eq_cons x
  obtain ⟨d, ds, head', second⟩ := exists_mantissaChars_eq_cons y
  rw [toList_scientific, toList_scientific, head, head', List.cons_append,
    List.cons_append] at chars
  obtain ⟨signs, same⟩ := Decimal.sign_append_inj first second chars
  rw [← List.cons_append, ← List.cons_append, ← head, ← head'] at same
  obtain ⟨mantissas, exponents⟩ := Text.eq_of_append_cons (e_notMem_mantissaChars x)
    (e_notMem_mantissaChars y) same
  have shortest : x.shortest = y.shortest := by
    have digits := mantissaChars_inj mantissas
    have exponent := Decimal.toString_inj exponents
    generalize x.shortest = s at digits exponent ⊢
    generalize y.shortest = t at digits exponent ⊢
    cases s
    cases t
    rw [ShortestDigits.mk.injEq]
    exact ⟨digits, exponent⟩
  exact eq_of_size (size_eq_of_shortest_eq shortest) (Bool.eq_iff_iff.mpr signs)

end Double

end OData
