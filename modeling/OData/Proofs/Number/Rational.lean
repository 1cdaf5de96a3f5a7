import Mathlib.Algebra.Field.Rat
import Mathlib.Algebra.GroupWithZero.Units.Basic
import Mathlib.Algebra.Order.Field.Rat
import Mathlib.Data.Int.CharZero
import Mathlib.Data.Rat.Cast.CharZero
import OData.Proofs.Number.Decimal

/-!
# Decimals: the numbers they stand for

Two decimals compare as equal if and only if they stand for one rational number, whatever their
scales.  So the plain text of a decimal is read as an equal one.  Decimal arithmetic is exact up to
division, whatever shortcut a zero or a one takes, and whole numbers stay whole under it.
-/

set_option autoImplicit false

namespace OData.Decimal

/-- The number that a decimal stands for. -/
def toRat (d : Decimal) : ℚ := d.digits * 10 ^ (-d.scale)

theorem toRat_ofInt (n : Int) : (ofInt n).toRat = n := by
  simp [toRat, ofInt]

theorem digitsAt_eq {d : Decimal} {scale : Int} (le : d.scale ≤ scale) :
    (d.digitsAt scale : ℚ) = d.toRat * 10 ^ scale := by
  have places : ((scale - d.scale).toNat : Int) = -d.scale + scale := by omega
  rw [digitsAt, Int.cast_mul, Int.cast_pow, toRat, mul_assoc, ← zpow_add₀ (by decide +kernel),
    ← places, zpow_natCast]
  rfl

/-- At a scale that reaches both, two decimals have the same digits if they are the same number. -/
theorem digitsAt_eq_iff {a b : Decimal} {scale : Int} (left : a.scale ≤ scale)
    (right : b.scale ≤ scale) : a.digitsAt scale = b.digitsAt scale ↔ a.toRat = b.toRat := by
  have power : (10 : ℚ) ^ scale ≠ 0 := zpow_ne_zero scale (by decide +kernel)
  rw [← Int.cast_inj (α := ℚ), digitsAt_eq left, digitsAt_eq right, mul_left_inj' power]

theorem compare_eq_iff (a b : Decimal) : a.compare b = .eq ↔ a.toRat = b.toRat := by
  have left : a.scale ≤ max a.scale b.scale := Int.le_max_left _ _
  have right : b.scale ≤ max a.scale b.scale := Int.le_max_right _ _
  rw [compare_eq_digitsAt left right, Std.LawfulEqCmp.compare_eq_iff_eq,
    digitsAt_eq_iff left right]

theorem same_iff (a b : Decimal) : a.same b = true ↔ a.toRat = b.toRat := by
  rw [same, beq_iff_eq, compare_eq_iff]

/-- The plain text of a decimal is read as its value. -/
theorem exists_ofText?_plain {d : Decimal} (small : d.scale < 2 ^ 63) :
    ∃ e, ofText? d.plain = some e ∧ e.toRat = d.toRat := by
  by_cases whole : d.scale ≤ 0
  · have digits : (Nat.toDigits 10 d.digits.natAbs ++
        List.replicate (-d.scale).toNat '0').all Char.isDigit = true := by
      rw [List.all_append, all_isDigit_toDigits, all_isDigit_replicate]
      rfl
    have nonempty : Nat.toDigits 10 d.digits.natAbs ++
        List.replicate (-d.scale).toNat '0' ≠ [] := by simp [Nat.toDigits_ne_nil]
    have places : ((-d.scale).toNat : Int) = -d.scale := by omega
    refine ⟨⟨d.digits * 10 ^ (-d.scale).toNat, 0⟩, ?_, ?_⟩
    · rw [plain, plainChars_eq, sizeChars, if_pos whole, ← minusChars_of_lt,
        ofText?_whole _ nonempty digits, natOfDigits_append_replicate, natOfDigits_toDigits,
        withSign_of_lt]
    · rw [toRat, toRat, neg_zero, zpow_zero, mul_one]
      push_cast
      rw [← zpow_natCast, places]
  · refine ⟨d.withPoint, ?_, ((same_iff _ _).mp (same_withPoint d)).symm⟩
    rw [plain, ← pointedChars_of_scale_lt whole, ofText?_pointedChars, if_pos small]

/-! ## Values of results -/

theorem toRat_digitsAt {d : Decimal} {scale : Int} (le : d.scale ≤ scale) :
    toRat ⟨d.digitsAt scale, scale⟩ = d.toRat := by
  rw [toRat, digitsAt_eq le, mul_assoc, ← zpow_add₀ (by decide +kernel)]
  simp

theorem toRat_of_isZero {d : Decimal} (zero : d.isZero = true) : d.toRat = 0 := by
  rw [isZero, beq_iff_eq] at zero
  simp [toRat, zero]

theorem toRat_lengthened (d : Decimal) (scale : Int) : (d.lengthened scale).toRat = d.toRat := by
  refine toRat_digitsAt ?_
  simp only [zeroPlaces]
  omega

theorem toRat_neg (a : Decimal) : a.neg.toRat = -a.toRat := by
  simp [toRat, neg]

theorem toRat_add (a b : Decimal) : (a.add b).toRat = a.toRat + b.toRat := by
  rw [add]
  split
  next zero => rw [toRat_lengthened, toRat_of_isZero zero, add_zero]
  next =>
    split
    next zero => rw [toRat_lengthened, toRat_of_isZero zero, zero_add]
    next =>
      have left := toRat_digitsAt (Int.le_max_left a.scale b.scale)
      have right := toRat_digitsAt (Int.le_max_right a.scale b.scale)
      rw [← left, ← right]
      simp only [toRat, Int.cast_add, add_mul]

theorem toRat_sub (a b : Decimal) : (a.sub b).toRat = a.toRat - b.toRat := by
  have left := toRat_digitsAt (Int.le_max_left a.scale b.scale)
  have right := toRat_digitsAt (Int.le_max_right a.scale b.scale)
  rw [← left, ← right]
  simp only [sub, toRat, Int.cast_sub, sub_mul]

theorem pow_trailingZeros_dvd (n : Nat) : 10 ^ trailingZeros n ∣ n := by
  induction n using trailingZeros.induct with
  | case1 n ends ih =>
    rw [trailingZeros, if_pos ends, Nat.pow_succ]
    have whole : n / 10 * 10 = n := Nat.div_mul_cancel (Nat.dvd_of_mod_eq_zero ends.2)
    conv => rhs; rw [← whole]
    exact Nat.mul_dvd_mul ih (Nat.dvd_refl 10)
  | case2 n ends =>
    rw [trailingZeros, if_neg ends, Nat.pow_zero]
    exact Nat.one_dvd n

theorem toRat_normalized (d : Decimal) : d.normalized.toRat = d.toRat := by
  rw [normalized]
  split
  next zero => rw [toRat_of_isZero zero, toRat_ofInt, Int.cast_zero]
  next =>
    have divides : (10 : Int) ^ trailingZeros d.digits.natAbs ∣ d.digits := by
      have natural := Int.natCast_dvd.mpr (pow_trailingZeros_dvd d.digits.natAbs)
      rwa [Int.natCast_pow] at natural
    have places : (d.scale - (d.scale - trailingZeros d.digits.natAbs)).toNat =
        trailingZeros d.digits.natAbs := by omega
    have digits : digitsAt ⟨d.digits.tdiv (10 ^ trailingZeros d.digits.natAbs),
        d.scale - trailingZeros d.digits.natAbs⟩ d.scale = d.digits := by
      rw [digitsAt, places, Int.tdiv_mul_cancel divides]
    have lower : d.scale - trailingZeros d.digits.natAbs ≤ d.scale := by omega
    rw [← toRat_digitsAt lower, digits]

theorem toRat_of_isOne {d : Decimal} (one : d.isOne = true) : d.toRat = 1 := by
  simp only [isOne, Bool.and_eq_true, decide_eq_true_eq, beq_iff_eq] at one
  obtain ⟨⟨nonnegative, -⟩, digits⟩ := one
  have places : (d.scale.toNat : Int) + -d.scale = 0 := by omega
  rw [toRat, digits, Int.cast_pow, Int.cast_ofNat, ← zpow_natCast, ← zpow_add₀ (by decide +kernel),
    places, zpow_zero]

theorem toRat_mul (a b : Decimal) : (a.mul b).toRat = a.toRat * b.toRat := by
  rw [mul]
  split
  next one => rw [toRat_normalized, toRat_of_isOne one, one_mul]
  next =>
    split
    next one => rw [toRat_normalized, toRat_of_isOne one, mul_one]
    next =>
      rw [toRat, toRat, toRat, Int.cast_mul, Int.neg_add, zpow_add₀ (by decide +kernel)]
      exact mul_mul_mul_comm _ _ _ _

/-- A remainder differs from the dividend by a multiple of the divisor. -/
theorem toRat_rem (a b : Decimal) : ∃ n : ℤ, (a.rem b).toRat = a.toRat - b.toRat * n := by
  have left := toRat_digitsAt (Int.le_max_left a.scale b.scale)
  have right := toRat_digitsAt (Int.le_max_right a.scale b.scale)
  refine ⟨(a.digitsAt (max a.scale b.scale)).tdiv (b.digitsAt (max a.scale b.scale)), ?_⟩
  rw [← left, ← right]
  simp only [rem, toRat, Int.tmod_def, Int.cast_sub, Int.cast_mul, sub_mul]
  rw [mul_right_comm]

/-! ## Whole numbers -/

theorem toRat_mul_unit (d : Decimal) : d.toRat * d.unit = d.whole := by
  have places : -d.scale + (d.scale.toNat : Int) = (-d.scale).toNat := by omega
  rw [toRat, unit, whole, Int.cast_mul, Int.cast_pow, Int.cast_pow, Int.cast_ofNat, mul_assoc,
    ← zpow_natCast, ← zpow_natCast, ← zpow_add₀ (by decide +kernel), places]

theorem unit_dvd_whole_iff (d : Decimal) : d.unit ∣ d.whole ↔ d.unit ∣ d.digits := by
  rw [unit, whole]
  rcases Int.le_total 0 d.scale with nonnegative | negative
  · rw [Int.toNat_of_nonpos (by omega : -d.scale ≤ 0), Int.pow_zero, Int.mul_one]
  · rw [Int.toNat_of_nonpos negative, Int.pow_zero]
    exact iff_of_true (Int.one_dvd _) (Int.one_dvd _)

/-- A decimal has no fraction if it stands for an integer. -/
theorem isInteger_iff (d : Decimal) : d.isInteger = true ↔ ∃ n : ℤ, d.toRat = n := by
  have nonzero : (d.unit : ℚ) ≠ 0 := by
    rw [unit, Int.cast_pow]
    exact pow_ne_zero _ (by decide +kernel)
  rw [isInteger, beq_iff_eq, ← Int.dvd_iff_tmod_eq_zero, ← unit_dvd_whole_iff]
  constructor
  · rintro ⟨n, whole⟩
    refine ⟨n, mul_right_cancel₀ nonzero ?_⟩
    rw [toRat_mul_unit, whole, Int.cast_mul, mul_comm]
  · rintro ⟨n, value⟩
    refine ⟨n, ?_⟩
    have product := toRat_mul_unit d
    rw [value, ← Int.cast_mul, Int.cast_inj] at product
    rw [← product, Int.mul_comm]

theorem isInteger_ofInt (n : Int) : (ofInt n).isInteger = true :=
  (isInteger_iff _).mpr ⟨n, toRat_ofInt n⟩

section Closure

variable {a b : Decimal} (left : a.isInteger = true) (right : b.isInteger = true)

include left

theorem isInteger_neg : a.neg.isInteger = true := by
  obtain ⟨m, value⟩ := (isInteger_iff a).mp left
  exact (isInteger_iff _).mpr ⟨-m, by rw [toRat_neg, value, Int.cast_neg]⟩

include right

theorem isInteger_add : (a.add b).isInteger = true := by
  obtain ⟨m, first⟩ := (isInteger_iff a).mp left
  obtain ⟨n, second⟩ := (isInteger_iff b).mp right
  exact (isInteger_iff _).mpr ⟨m + n, by rw [toRat_add, first, second, Int.cast_add]⟩

theorem isInteger_sub : (a.sub b).isInteger = true := by
  obtain ⟨m, first⟩ := (isInteger_iff a).mp left
  obtain ⟨n, second⟩ := (isInteger_iff b).mp right
  exact (isInteger_iff _).mpr ⟨m - n, by rw [toRat_sub, first, second, Int.cast_sub]⟩

theorem isInteger_mul : (a.mul b).isInteger = true := by
  obtain ⟨m, first⟩ := (isInteger_iff a).mp left
  obtain ⟨n, second⟩ := (isInteger_iff b).mp right
  exact (isInteger_iff _).mpr ⟨m * n, by rw [toRat_mul, first, second, Int.cast_mul]⟩

theorem isInteger_rem : (a.rem b).isInteger = true := by
  obtain ⟨m, first⟩ := (isInteger_iff a).mp left
  obtain ⟨n, second⟩ := (isInteger_iff b).mp right
  obtain ⟨q, value⟩ := toRat_rem a b
  refine (isInteger_iff _).mpr ⟨m - n * q, ?_⟩
  rw [value, first, second, Int.cast_sub, Int.cast_mul]

end Closure

end OData.Decimal
