import OData.Proofs.Number.Rational
import OData.Proofs.Number.Rounding

/-!
# The layouts of floating-point numbers as decimals

A number has seventeen digits at most, and an exponent of three.  So its mixed layout, with or
without an exponent, is always read as a decimal, and the decimal is the number that the digits
show.
-/

set_option autoImplicit false

namespace OData.Double

open Decimal (minusChars withSign)

/-! ## How many digits there are -/

theorem lt_pow_length (n : ℕ) : n < 10 ^ (Nat.toDigits 10 n).length :=
  (Nat.length_toDigits_le_iff (by decide) Nat.length_toDigits_pos).mp (Nat.le_refl _)

theorem lt_zpow_length (num places : ℕ) {den : ℕ} (positive : 0 < den) : (num : ℚ) / den <
    10 ^ (((Nat.toDigits 10 (num * 10 ^ places / den)).length : ℤ) - (places : ℤ)) := by
  have high := lt_pow_length (num * 10 ^ places / den)
  rw [Nat.div_lt_iff_lt_mul positive] at high
  generalize (Nat.toDigits 10 (num * 10 ^ places / den)).length = length at high ⊢
  have bound : (num : ℚ) * 10 ^ places < 10 ^ length * den := by exact_mod_cast high
  have below : (0 : ℚ) < den := by exact_mod_cast positive
  rw [zpow_sub₀ (by norm_num), zpow_natCast, zpow_natCast, div_lt_div_iff₀ below (by positivity)]
  exact bound

theorem lt_zpow_decimalExponent (num : ℕ) {den : ℕ} (positive : 0 < den) :
    (num : ℚ) / den < 10 ^ (decimalExponent num den + 1) := by
  have high := lt_zpow_length num 400 positive
  rw [decimalExponent, show (401 : ℤ) = (400 : ℕ) + 1 from rfl, sub_add_eq_sub_sub, sub_add_cancel]
  exact high

/-- The digits of a number are those of an integer of seventeen digits, perhaps but for zeros. -/
theorem exists_shortest_eq {x : Double} (positive : 0 < x.size) : ∃ (c : ℕ) (g : ℤ),
    c ≤ 10 ^ 17 ∧ x.shortest =
      ⟨dropTrailingZeros (Nat.toDigits 10 c), g + (Nat.toDigits 10 c).length - 1⟩ := by
  obtain ⟨whole, small, least⟩ := partsOf_bounds positive
  obtain ⟨c, more, few, nearest, searched⟩ := exists_search_eq whole small least
  have den := interval_den_pos (partsOf x.size).1 (partsOf x.size).2
  have next := Interval.pred_le_of_nearest? den _ nearest
  have top := lt_zpow_decimalExponent (interval (partsOf x.size).1 (partsOf x.size).2).value den
  generalize exponent : decimalExponent (interval (partsOf x.size).1 (partsOf x.size).2).value
    (interval (partsOf x.size).1 (partsOf x.size).2).den = e at *
  refine ⟨c, e - more, ?_, ?_⟩
  · have power : (0 : ℚ) < 10 ^ (e - more) := zpow_pos (by norm_num) _
    have split : (10 : ℚ) ^ (e + 1) = 10 ^ (more + 1) * 10 ^ (e - more) := by
      rw [← zpow_natCast, ← zpow_add₀ (by norm_num)]
      congr 1
      push_cast
      ring
    have less : ((c : ℚ) - 1) * 10 ^ (e - more) < 10 ^ (more + 1) * 10 ^ (e - more) := by
      rw [← split]
      exact next.trans_lt top
    have digits : (c : ℚ) < 10 ^ (more + 1) + 1 := by
      linarith [lt_of_mul_lt_mul_right less power.le]
    have count : c < 10 ^ (more + 1) + 1 := by exact_mod_cast digits
    calc c ≤ 10 ^ (more + 1) := Nat.lt_succ_iff.mp count
      _ ≤ 10 ^ 17 := Nat.pow_le_pow_right (by decide) (by omega)
  · rw [shortest, parts_eq]
    simp only
    rw [if_neg (Nat.ne_of_gt whole), exponent, searched]

theorem dropTrailingZeros_append (digits : List Char) (zeros : ℕ) :
    dropTrailingZeros (digits ++ List.replicate zeros '0') = dropTrailingZeros digits := by
  rw [dropTrailingZeros, dropTrailingZeros, List.reverse_append, List.reverse_replicate,
    List.dropWhile_append_of_pos (by simp)]

theorem toDigits_ten_pow (n : ℕ) : Nat.toDigits 10 (10 ^ n) = '1' :: List.replicate n '0' := by
  induction n with
  | zero => rfl
  | succ n ih =>
    rw [Nat.pow_succ, Decimal.toDigits_mul_ten (Nat.pow_pos (by decide)), ih, List.cons_append,
      ← List.replicate_succ']

theorem length_dropTrailingZeros_le {c n : ℕ} (small : c ≤ 10 ^ n) (positive : 0 < n) :
    (dropTrailingZeros (Nat.toDigits 10 c)).length ≤ n := by
  rcases Nat.lt_or_eq_of_le small with less | rfl
  · obtain ⟨zeros, all⟩ := exists_dropTrailingZeros (Nat.toDigits 10 c)
    have length := (Nat.length_toDigits_le_iff (by decide) positive).mpr less
    rw [all, List.length_append] at length
    omega
  · rw [toDigits_ten_pow, ← List.singleton_append, dropTrailingZeros_append]
    exact positive

theorem length_digits_shortest_le (x : Double) : x.shortest.digits.length ≤ 17 := by
  rcases Nat.eq_zero_or_pos x.size with zero | positive
  · rw [shortest_of_size zero]
    decide
  · obtain ⟨c, g, small, digits⟩ := exists_shortest_eq positive
    rw [digits]
    exact length_dropTrailingZeros_le small (by decide)

/-! ## The exponent -/

theorem zpow_exponent_bounds {x : Double} (positive : 0 < x.size) :
    (10 : ℚ) ^ x.shortest.exponent ≤ x.shortest.toRat ∧
      x.shortest.toRat < 10 ^ (x.shortest.exponent + 1) := by
  have nonzero := toRat_shortest_pos_iff.mpr positive
  obtain ⟨c, g, -, digits⟩ := exists_shortest_eq positive
  rw [digits, toRat_dropTrailingZeros] at nonzero ⊢
  have whole : 0 < c := by
    by_contra none
    rw [Nat.eq_zero_of_not_pos none, Nat.cast_zero, zero_mul] at nonzero
    exact lt_irrefl _ nonzero
  obtain ⟨low, high⟩ := zpow_places_bounds whole g
  rw [sub_add_cancel]
  exact ⟨low, high⟩

theorem exponent_shortest_bounds (x : Double) :
    -400 ≤ x.shortest.exponent ∧ x.shortest.exponent ≤ 400 := by
  rcases Nat.eq_zero_or_pos x.size with zero | positive
  · rw [shortest_of_size zero]
    decide
  obtain ⟨low, high⟩ := zpow_exponent_bounds positive
  have holds := holds_shortest positive
  have large := half_lt_of_holds positive holds
  have bounded := le_of_holds positive holds
  have size : x.size < 2 ^ 63 := Nat.mod_lt _ (by decide)
  have exponent := partsOf_snd x.size
  constructor
  · by_contra few
    have tiny := calc x.shortest.toRat < 10 ^ (x.shortest.exponent + 1) := high
      _ ≤ 10 ^ (-400 : ℤ) := zpow_le_zpow_right₀ (by norm_num) (by omega)
      _ ≤ 2 ^ (-(3 * 400) : ℤ) := ten_zpow_neg_le (by norm_num)
      _ ≤ 2 ^ (-1074 - 1 : ℤ) := zpow_le_zpow_right₀ (by norm_num) (by norm_num)
      _ = 2 ^ (-1074 : ℤ) / 2 := by rw [zpow_sub_one₀ (by norm_num), div_eq_mul_inv]
    linarith
  · by_contra many
    have huge := calc x.shortest.toRat ≤ 2 ^ (53 + (partsOf x.size).2) := bounded
      _ ≤ 2 ^ (3 * 400 : ℤ) := zpow_le_zpow_right₀ (by norm_num) (by omega)
      _ ≤ 10 ^ (400 : ℤ) := two_zpow_le_ten_zpow (by norm_num)
      _ < 10 ^ x.shortest.exponent := zpow_lt_zpow_right₀ (by norm_num) (by omega)
    linarith

/-! ## Reading layouts as decimals -/

/-- The number that the digits show. -/
def shown (x : Double) : ℚ := if x.isNegative then -x.shortest.toRat else x.shortest.toRat

/-- The digits without the sign, as a decimal. -/
def shownSize (x : Double) : Decimal :=
  ⟨Decimal.natOfDigits x.shortest.digits, x.shortest.digits.length - 1 - x.shortest.exponent⟩

theorem toRat_shownSize (x : Double) : x.shownSize.toRat = x.shortest.toRat := by
  have places : -((x.shortest.digits.length : ℤ) - 1 - x.shortest.exponent) =
      x.shortest.exponent + 1 - x.shortest.digits.length := by ring
  rw [shownSize, Decimal.toRat, ShortestDigits.toRat, places]
  push_cast
  rfl

/-- Seventeen digits are shown at most. -/
theorem exists_digits_shown (x : Double) :
    ∃ (c : ℕ) (k : ℤ), c < 10 ^ 17 ∧ |x.shown| = c * 10 ^ k := by
  have digits := Decimal.natOfDigits_lt fun c (member : c ∈ x.shortest.digits) =>
    isDigit_of_mem_shortest member
  have size : |x.shown| = x.shortest.toRat := by
    have nonneg : 0 ≤ x.shortest.toRat := by
      rw [ShortestDigits.toRat]
      positivity
    rw [shown]
    split
    · rw [abs_neg, abs_of_nonneg nonneg]
    · exact abs_of_nonneg nonneg
  refine ⟨_, _, ?_, size⟩
  exact digits.trans_le (Nat.pow_le_pow_right (by decide) (length_digits_shortest_le x))

theorem toRat_withSign (negative : Bool) (n : ℕ) (scale : ℤ) :
    (⟨withSign negative n, scale⟩ : Decimal).toRat =
      if negative then -(⟨n, scale⟩ : Decimal).toRat else (⟨n, scale⟩ : Decimal).toRat := by
  cases negative with
  | true => simp [withSign, Decimal.toRat]
  | false => simp [withSign]

theorem scale_shownSize_bounds (x : Double) :
    -2 ^ 63 ≤ x.shownSize.scale ∧ x.shownSize.scale < 2 ^ 63 := by
  have length := length_digits_shortest_le x
  obtain ⟨low, high⟩ := exponent_shortest_bounds x
  rw [shownSize]
  constructor
  · simp only
    omega
  · simp only
    omega

theorem decimal_scientific (x : Double) : ∃ d, Decimal.ofText? x.scientific = some d ∧
    d.toRat = x.shown := by
  obtain ⟨mantissa, exponent⟩ := split_scientific x
  have read := readMantissa_mantissaChars x.isNegative (digits_shortest_ne_nil x)
    (all_isDigit_shortest x)
  have bounds := scale_shownSize_bounds x
  refine ⟨⟨withSign x.isNegative (Decimal.natOfDigits x.shortest.digits), x.shownSize.scale⟩,
    ?_, ?_⟩
  · rw [Decimal.ofText?]
    simp only [mantissa, exponent, read, readExponent_toString, Option.bind_eq_bind,
      Option.bind_some]
    exact if_pos bounds
  · rw [toRat_withSign, shown, ← toRat_shownSize]
    rfl

theorem toList_positional (x : Double) :
    x.positional.toList = minusChars x.isNegative ++ x.shownSize.plainChars := by
  have text : x.positional = String.ofList (if x.isNegative then '-' :: x.shownSize.plainChars
      else x.shownSize.plainChars) := rfl
  rw [text, String.toList_ofList, minusChars]
  cases x.isNegative <;> rfl

theorem signChars_shownSize (x : Double) : Decimal.signChars x.shownSize.digits = [] :=
  if_neg (by simp [shownSize])

/-- Without an exponent there is always a point. -/
theorem toList_mixed {x : Double} (near : ¬ (16 < x.shortest.exponent + 1 ∨
    x.shortest.exponent + 1 ≤ -5)) :
    x.mixed.toList = minusChars x.isNegative ++ x.shownSize.pointedChars := by
  have ending : ".0".toList = ['.', '0'] := rfl
  have whole_iff : (x.shortest.digits.length : ℤ) ≤ x.shortest.exponent + 1 ↔
      x.shownSize.scale ≤ 0 := by
    rw [shownSize]
    simp only
    omega
  rw [mixed, if_neg near]
  by_cases whole : x.shownSize.scale ≤ 0
  · rw [if_pos (whole_iff.mpr whole), String.toList_append, toList_positional, ending,
      Decimal.pointedChars_of_scale_le whole, Decimal.plainChars_eq, Decimal.sizeChars,
      if_pos whole]
    simp
  · rw [if_neg fun le => whole (whole_iff.mp le), toList_positional,
      Decimal.pointedChars_of_scale_lt whole]

theorem decimal_pointed (x : Double) :
    ∃ d, Decimal.ofText? (String.ofList (minusChars x.isNegative ++ x.shownSize.pointedChars)) =
      some d ∧ d.toRat = x.shown := by
  obtain ⟨lead, trail, zeros, pointed⟩ := Decimal.exists_pointed x.shownSize
  have small := pointed.length_lt_iff.mpr (scale_shownSize_bounds x).2
  rw [pointed.text, signChars_shownSize, List.nil_append,
    Decimal.ofText?_point _ pointed.lead_ne_nil pointed.digits, if_pos small]
  refine ⟨_, rfl, ?_⟩
  have same := (Decimal.same_iff _ _).mp (Decimal.same_withPoint x.shownSize)
  rw [pointed.withPoint] at same
  have digits : (x.shownSize.digits.natAbs : ℤ) = x.shownSize.digits := rfl
  have size : (⟨(Decimal.natOfDigits (lead ++ trail) : ℕ), trail.length⟩ : Decimal).toRat =
      x.shortest.toRat := by
    rw [pointed.value, ← toRat_shownSize, same, Nat.cast_mul, digits]
    push_cast
    rfl
  rw [toRat_withSign, size, shown]

/-- The mixed layout is read as a decimal with the value of its digits. -/
theorem decimal_mixed (x : Double) :
    ∃ d, Decimal.ofText? x.mixed = some d ∧ d.toRat = x.shown := by
  by_cases far : 16 < x.shortest.exponent + 1 ∨ x.shortest.exponent + 1 ≤ -5
  · have text : x.mixed = x.scientific := if_pos far
    rw [text]
    exact decimal_scientific x
  · rw [← String.ofList_toList (s := x.mixed), toList_mixed far]
    exact decimal_pointed x

end OData.Double
