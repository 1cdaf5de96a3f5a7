import OData.Proofs.Number.Double

/-!
# Floating-point numbers: conversions are no NaN

A product is NaN only if a factor is, or if zero meets infinity.  The factors of a conversion from
a decimal with trailing zeros are all at least one, and a rounded product of such numbers is one
again, so that no conversion of an integer or of a decimal gives NaN.
-/

set_option autoImplicit false

namespace OData.Double

open Float.Model Float.Model.UnpackedFloat

/-- The bits of one without the sign. -/
def oneSize : Nat := 0x3FF * 2 ^ 52

/-- A number, perhaps an infinite one, whose absolute value is one or more. -/
structure AtLeastOne (x : Double) : Prop where
  le : oneSize ≤ x.size
  ge : x.size ≤ infinitySize

theorem AtLeastOne.isNaN {x : Double} (large : AtLeastOne x) : x.isNaN = false := by
  simpa [Double.isNaN] using large.ge

theorem size_ofSize (negative : Bool) {n : Nat} (small : n < 2 ^ 63) :
    (ofSize negative n).size = n := by
  cases negative
  · simp only [size, ofSize, UInt64.toNat_ofNat', Bool.false_eq_true, if_false]
    omega
  · simp only [size, ofSize, UInt64.toNat_ofNat', if_true]
    omega

/-! ## Unpacked numbers -/

/-- An infinite number, or a finite one of full precision that is one or more. -/
inductive Large : UnpackedFloat → Prop
  | infinity (s : Sign) : Large (.infinity s)
  | finite (s : Sign) {m : Nat} {e : Int} (positive : 0 < m) (least : 2 ^ 52 ≤ m)
    (most : m < 2 ^ 53) (exponent : -52 ≤ e) : Large (.finite s m e positive)

theorem toNat_unpackExponent (b : BitVec (Format.binary64).numBits) :
    (unpackExponent b).toNat = b.toNat / 2 ^ 52 % 2 ^ 11 := by
  simp [unpackExponent, BitVec.extractLsb, BitVec.extractLsb'_toNat, Nat.shiftRight_eq_div_pow]

theorem toNat_unpackMantissa (b : BitVec (Format.binary64).numBits) :
    (unpackMantissa b).toNat = b.toNat % 2 ^ 52 := by
  simp [unpackMantissa, BitVec.extractLsb, BitVec.extractLsb'_toNat]

theorem toNat_implicit (b : BitVec 52) : (1#1 ++ b).toNat = 2 ^ 52 + b.toNat := by
  rw [BitVec.toNat_append, ← Nat.shiftLeft_add_eq_or_of_lt b.isLt]
  simp [Nat.shiftLeft_eq]

theorem toNat_packComponents (s : Sign) (e : BitVec 11) (m : BitVec 52) :
    (packComponents .binary64 s e m).toNat % 2 ^ 63 = e.toNat * 2 ^ 52 + m.toNat := by
  have exponent := e.isLt
  have mantissa := m.isLt
  rw [packComponents, BitVec.toNat_append, ← Nat.shiftLeft_add_eq_or_of_lt m.isLt,
    BitVec.toNat_append, ← Nat.shiftLeft_add_eq_or_of_lt e.isLt]
  simp only [Nat.shiftLeft_eq]
  omega

theorem size_packed (u : UnpackedFloat) :
    (packed u).size = (UnpackedFloat.pack .binary64 u).toNat % 2 ^ 63 := rfl

theorem packed_congr {u v : UnpackedFloat}
    (bits : UnpackedFloat.pack .binary64 u = UnpackedFloat.pack .binary64 v) :
    packed u = packed v :=
  congrArg (fun b => (⟨⟨b⟩⟩ : Double)) bits

/-- What the bits of a number that is one or more stand for. -/
theorem large_unpack {x : Double} (large : AtLeastOne x) :
    Large (UnpackedFloat.unpack .binary64 x.bits.toBitVec) := by
  obtain ⟨le, ge⟩ := large
  have exponent := toNat_unpackExponent x.bits.toBitVec
  have mantissa := toNat_unpackMantissa x.bits.toBitVec
  rw [UInt64.toNat_toBitVec] at exponent mantissa
  simp only [size, oneSize, infinitySize] at le ge
  unfold UnpackedFloat.unpack
  dsimp only
  by_cases full : @unpackExponent .binary64 x.bits.toBitVec = -1#11
  · rw [if_pos full]
    by_cases zero : @unpackMantissa .binary64 x.bits.toBitVec = 0#52
    · rw [if_pos zero]
      exact .infinity _
    · -- The only size with these bits of the exponent is that of infinity.
      rw [← BitVec.toNat_inj] at full zero
      simp only [BitVec.toNat_ofNat, BitVec.toNat_neg] at full zero
      omega
  · have positive : @unpackExponent .binary64 x.bits.toBitVec ≠ 0#11 := by
      rw [Ne, ← BitVec.toNat_inj]
      simp only [BitVec.toNat_ofNat]
      omega
    rw [if_neg full, if_neg positive]
    rw [← BitVec.toNat_inj] at full
    simp only [BitVec.toNat_ofNat, BitVec.toNat_neg] at full
    have implicit := toNat_implicit (@unpackMantissa .binary64 x.bits.toBitVec)
    refine .finite _ _ ?_ ?_ ?_
    · omega
    · omega
    · simp only [Format.exponentBias]
      omega

/-- The bits of an unpacked number that is one or more. -/
theorem atLeastOne_packed {u : UnpackedFloat} (large : Large u) : AtLeastOne (packed u) := by
  have infinite : ∀ s, AtLeastOne (packed (.infinity s)) := by
    intro s
    cases s <;> constructor <;> decide +kernel
  cases large with
  | infinity s => exact infinite s
  | @finite s m e positive least most exponent =>
    have digits : m.log2 = 52 := (Nat.log2_eq_iff (by omega)).mpr ⟨least, most⟩
    by_cases overflow : 2 ^ 11 ≤ (e + 1023 + 52).toNat + 1
    · have bits : UnpackedFloat.pack .binary64 (.finite s m e positive) =
          UnpackedFloat.pack .binary64 (.infinity s) := if_pos overflow
      rw [packed_congr bits]
      exact infinite s
    · have bits : UnpackedFloat.pack .binary64 (.finite s m e positive) =
          packComponents .binary64 s (BitVec.ofNat _ (e + 1023 + 52).toNat) (BitVec.ofNat _ m) :=
        (if_neg overflow).trans (if_pos (by rw [digits]; rfl))
      have size := size_packed (.finite s m e positive)
      rw [bits, toNat_packComponents, BitVec.toNat_ofNat, BitVec.toNat_ofNat] at size
      constructor
      · rw [size, oneSize]
        omega
      · rw [size, infinitySize]
        omega

/-! ## Products -/

theorem mantissa_repeat (n : Nat) (em : ExtendedMantissa) :
    (Nat.repeat ExtendedMantissa.shiftRightOne n em).mantissa = em.mantissa / 2 ^ n := by
  induction n with
  | zero => rw [Nat.repeat, Nat.pow_zero, Nat.div_one]
  | succ n ih => rw [Nat.repeat, ExtendedMantissa.shiftRightOne, ih, Nat.div_div_eq_div_mul,
      Nat.pow_succ]

theorem le_roundedMantissa (em : ExtendedMantissa) :
    em.mantissa ≤ em.roundedMantissa ∧ em.roundedMantissa ≤ em.mantissa + 1 := by
  rw [ExtendedMantissa.roundedMantissa]
  cases em.accuracy with
  | exact => exact ⟨Nat.le_refl _, Nat.le_succ _⟩
  | inexact order => cases order <;> simp only [Accuracy.roundToNearestEven] <;> omega

/-- A number with too many bits is cut to full precision. -/
theorem shiftToTargetExponent_eq {m : Nat} {e : Int} (least : 2 ^ 52 ≤ m)
    (exponent : -52 ≤ m.log2 - 52 + e) :
    let shifted := shiftToTargetExponent .binary64 m e .exact
    shifted.1.mantissa = m / 2 ^ (m.log2 - 52) ∧ shifted.2 = e + (m.log2 - 52 : Nat) := by
  have digits : 52 ≤ m.log2 := (Nat.le_log2 (by omega)).mpr least
  have bits : Format.mantissaBits .binary64 = 53 := rfl
  have target : (Format.targetExponent .binary64 (totalExponent m e) - e).toNat = m.log2 - 52 := by
    simp only [Format.targetExponent, totalExponent, bits, Format.minExponent]
    omega
  simp only [shiftToTargetExponent, shiftToExponent, target, ExtendedMantissa.ofMantissaAndAccuracy]
  exact ⟨mantissa_repeat _ _, trivial⟩

theorem shifted_bounds {m : Nat} (least : 2 ^ 52 ≤ m) :
    2 ^ 52 ≤ m / 2 ^ (m.log2 - 52) ∧ m / 2 ^ (m.log2 - 52) < 2 ^ 53 := by
  have digits : 52 ≤ m.log2 := (Nat.le_log2 (by omega)).mpr least
  have low : 2 ^ 52 * 2 ^ (m.log2 - 52) ≤ m := by
    rw [← Nat.pow_add, Nat.add_sub_cancel' digits]
    exact Nat.log2_self_le (by omega)
  have high : m < 2 ^ 53 * 2 ^ (m.log2 - 52) := by
    have places : 53 + (m.log2 - 52) = m.log2 + 1 := by omega
    rw [← Nat.pow_add, places]
    exact Nat.lt_log2_self
  exact ⟨(Nat.le_div_iff_mul_le (Nat.two_pow_pos _)).mpr low,
    (Nat.div_lt_iff_lt_mul (Nat.two_pow_pos _)).mpr high⟩

theorem large_roundWithAccuracy (s : Sign) {m : Nat} {e : Int} (least : 2 ^ 104 ≤ m)
    (exponent : -104 ≤ e) : Large (roundWithAccuracy .binary64 s m e .exact) := by
  have digits : 104 ≤ m.log2 := (Nat.le_log2 (by omega)).mpr least
  obtain ⟨first, firstExponent⟩ := shiftToTargetExponent_eq (m := m) (e := e) (by omega) (by omega)
  obtain ⟨low, high⟩ := shifted_bounds (m := m) (by omega)
  unfold roundWithAccuracy
  generalize shiftToTargetExponent .binary64 m e .exact = shifted at first firstExponent
  obtain ⟨em, e₁⟩ := shifted
  dsimp only at first firstExponent ⊢
  obtain ⟨roundedLow, roundedHigh⟩ := le_roundedMantissa em
  -- Rounding may carry into one more bit, which the second shift cuts off.
  have full : 2 ^ 52 ≤ em.roundedMantissa := by omega
  have more : 52 ≤ em.roundedMantissa.log2 := (Nat.le_log2 (by omega)).mpr full
  obtain ⟨second, secondExponent⟩ :=
    shiftToTargetExponent_eq (m := em.roundedMantissa) (e := e₁) full (by omega)
  obtain ⟨finalLow, finalHigh⟩ := shifted_bounds full
  rw [dif_neg (by omega)]
  exact .finite s _ (by omega) (by omega) (by omega)

theorem Large.mul {u v : UnpackedFloat} (left : Large u) (right : Large v) :
    Large (UnpackedFloat.mul .binary64 u v) := by
  cases left with
  | infinity s =>
    cases right with
    | infinity t => exact .infinity _
    | finite t positive least most exponent => exact .infinity _
  | @finite s m e positive least most exponent =>
    cases right with
    | infinity t => exact .infinity _
    | @finite t n f positive' least' most' exponent' =>
      refine large_roundWithAccuracy (s * t) ?_ (by omega)
      calc 2 ^ 104 = 2 ^ 52 * 2 ^ 52 := by decide
        _ ≤ m * n := Nat.mul_le_mul least least'

theorem AtLeastOne.large {x : Double} (large : AtLeastOne x) : Large x.unpacked :=
  -- Reading the bits of a number packs it once more.
  large_unpack (atLeastOne_packed (large_unpack large))

theorem AtLeastOne.mul {x y : Double} (left : AtLeastOne x) (right : AtLeastOne y) :
    AtLeastOne (x.mul y) :=
  atLeastOne_packed (left.large.mul right.large)

theorem atLeastOne_mulPower {start base : Double} (n : Nat) (first : AtLeastOne start)
    (factor : AtLeastOne base) : AtLeastOne (mulPower start base n) := by
  induction start, base, n using mulPower.induct with
  | case1 start base => rwa [mulPower, if_pos rfl]
  | case2 start base n positive ih =>
    rw [mulPower, if_neg positive]
    refine ih ?_ (factor.mul factor)
    split
    · exact first.mul factor
    · exact first

/-! ## Conversions -/

theorem isNaN_ofSize (negative : Bool) {n : Nat} (small : n ≤ infinitySize) :
    (ofSize negative n).isNaN = false := by
  have size := size_ofSize negative (n := n) (Nat.lt_of_le_of_lt small (by decide))
  simpa [Double.isNaN, size] using small

theorem isNaN_ofRatio (negative : Bool) (num den : Nat) :
    (ofRatio negative num den).isNaN = false := by
  rw [ofRatio]
  split
  · exact isNaN_ofSize negative (Nat.zero_le _)
  · exact isNaN_ofSize negative (Nat.min_le_right _ _)

theorem isNaN_ofInt (n : Int) : (ofInt n).isNaN = false := isNaN_ofRatio _ _ _

theorem isNaN_ofScaled (negative : Bool) (n : Nat) (e : Int) :
    (ofScaled negative n e).isNaN = false := by
  simp only [ofScaled]
  split
  · exact isNaN_ofSize negative (Nat.zero_le _)
  · split
    · exact isNaN_ofSize negative (Nat.le_refl _)
    · exact isNaN_ofRatio _ _ _

theorem binaryExponent_one {n : Nat} (positive : 0 < n) : binaryExponent n 1 = n.log2 := by
  have le : 2 ^ n.log2 ≤ n := Nat.log2_self_le (by omega)
  have one : Nat.log2 1 = 0 := rfl
  simp only [binaryExponent, one]
  rw [if_pos]
  · omega
  · simpa using le

theorem le_roundDiv (num den : Nat) : num / den ≤ roundDiv num den := by
  simp only [roundDiv]
  split
  · exact Nat.le_refl _
  · split <;> omega

/-- The digits that a positive integer is rounded to fill the precision. -/
theorem le_digits {n : Nat} (positive : 0 < n) {q : Int} (exponent : q = n.log2 - 52) :
    2 ^ 52 ≤ n * 2 ^ (-q).toNat / (1 * 2 ^ q.toNat) := by
  have le : 2 ^ n.log2 ≤ n := Nat.log2_self_le (by omega)
  rw [Nat.one_mul]
  rcases Nat.le_total 52 n.log2 with long | short
  · have places : q.toNat = n.log2 - 52 := by omega
    have none : (-q).toNat = 0 := by omega
    rw [places, none, Nat.pow_zero, Nat.mul_one]
    exact (shifted_bounds (Nat.le_trans (Nat.pow_le_pow_right (by decide) long) le)).1
  · have places : (-q).toNat = 52 - n.log2 := by omega
    have none : q.toNat = 0 := by omega
    rw [places, none, Nat.pow_zero, Nat.div_one]
    calc 2 ^ 52 = 2 ^ n.log2 * 2 ^ (52 - n.log2) := by rw [← Nat.pow_add, Nat.add_sub_cancel' short]
      _ ≤ n * 2 ^ (52 - n.log2) := Nat.mul_le_mul_right _ le

/-- A positive integer is converted to a number that is one or more. -/
theorem atLeastOne_ofRatio (negative : Bool) {n : Nat} (positive : 0 < n) :
    AtLeastOne (ofRatio negative n 1) := by
  have exponent : max (binaryExponent n 1 - 52) (-1074) = n.log2 - 52 := by
    rw [binaryExponent_one positive]
    omega
  have digits := Nat.le_trans (le_digits positive exponent) (le_roundDiv _ _)
  rw [ofRatio, if_neg (by omega)]
  simp only [if_neg (Nat.not_lt.mpr digits)]
  have small : ∀ k, min k infinitySize < 2 ^ 63 := fun k =>
    Nat.lt_of_le_of_lt (Nat.min_le_right _ _) (by decide)
  constructor
  · rw [size_ofSize negative (small _), oneSize, infinitySize]
    omega
  · rw [size_ofSize negative (small _)]
    exact Nat.min_le_right _ _

theorem atLeastOne_ofInt {n : Int} (positive : n ≠ 0) : AtLeastOne (ofInt n) :=
  atLeastOne_ofRatio _ (by omega)

/-! ## Digits that are left out -/

/-- Bounds `10 ^ 10 ^ k` by `m · 2 ^ e`, with a hundred bits of `m`. -/
def powerBound : Nat → Nat × Nat
  | 0 => (10, 0)
  | k + 1 =>
    let (m, e) := powerBound k
    let cut := (m ^ 10).log2 - 99
    ((m ^ 10 + (2 ^ cut - 1)) / 2 ^ cut, e * 10 + cut)

theorem le_ceilDiv_mul (n : Nat) {d : Nat} (positive : 0 < d) : n ≤ (n + (d - 1)) / d * d := by
  have split := Nat.div_add_mod (n + (d - 1)) d
  have rest := Nat.mod_lt (n + (d - 1)) positive
  rw [Nat.mul_comm] at split
  omega

theorem pow_le_powerBound (k : Nat) : 10 ^ 10 ^ k ≤ (powerBound k).1 * 2 ^ (powerBound k).2 := by
  induction k with
  | zero => decide
  | succ k ih =>
    simp only [powerBound]
    generalize powerBound k = bound at ih ⊢
    obtain ⟨m, e⟩ := bound
    generalize (m ^ 10).log2 - 99 = cut
    have above := le_ceilDiv_mul (m ^ 10) (Nat.two_pow_pos cut)
    calc 10 ^ 10 ^ (k + 1) = (10 ^ 10 ^ k) ^ 10 := by rw [← Nat.pow_mul, ← Nat.pow_succ]
      _ ≤ (m * 2 ^ e) ^ 10 := Nat.pow_le_pow_left ih 10
      _ = m ^ 10 * 2 ^ (e * 10) := by rw [Nat.mul_pow, Nat.pow_mul]
      _ ≤ (m ^ 10 + (2 ^ cut - 1)) / 2 ^ cut * 2 ^ cut * 2 ^ (e * 10) :=
        Nat.mul_le_mul_right _ above
      _ = (m ^ 10 + (2 ^ cut - 1)) / 2 ^ cut * 2 ^ (e * 10 + cut) := by
        rw [Nat.mul_assoc, ← Nat.pow_add, Nat.add_comm cut]

/-- A bound on one power of ten bounds all of them. -/
theorem pow_le_of_ratio {p q a b : Nat} (positive : p ≠ 0) (known : 10 ^ p ≤ 2 ^ q)
    (ratio : a * q ≤ b * p) : 10 ^ a ≤ 2 ^ b := by
  rw [← Nat.pow_le_pow_iff_left positive]
  calc (10 ^ a) ^ p = (10 ^ p) ^ a := Nat.pow_right_comm _ _ _
    _ ≤ (2 ^ q) ^ a := Nat.pow_le_pow_left known a
    _ = 2 ^ (a * q) := by rw [← Nat.pow_mul, Nat.mul_comm]
    _ ≤ 2 ^ (b * p) := Nat.pow_le_pow_right (by decide) ratio
    _ = (2 ^ b) ^ p := Nat.pow_mul _ _ _

/-- The constant of `estimatedDigits` is no less than the binary logarithm of ten. -/
theorem pow_le_two_pow {a b : Nat} (ratio : a * 3321928094887362348 ≤ b * 10 ^ 18) :
    10 ^ a ≤ 2 ^ b := by
  have size : (powerBound 18).1 ≤ 2 ^ 100 ∧ (powerBound 18).2 + 100 ≤ 3321928094887362348 := by
    decide +kernel
  refine pow_le_of_ratio (by decide) ?_ ratio
  calc 10 ^ 10 ^ 18 ≤ (powerBound 18).1 * 2 ^ (powerBound 18).2 := pow_le_powerBound 18
    _ ≤ 2 ^ 100 * 2 ^ (powerBound 18).2 := Nat.mul_le_mul_right _ size.1
    _ = 2 ^ ((powerBound 18).2 + 100) := by rw [← Nat.pow_add, Nat.add_comm]
    _ ≤ 2 ^ 3321928094887362348 := Nat.pow_le_pow_right (by decide) size.2

/-- Some digits are kept. -/
theorem pow_droppedDigits_le {n : Nat} (positive : 0 < n) : 10 ^ droppedDigits n ≤ n := by
  have estimate : 10 ^ estimatedDigits n ≤ 4 * n := by
    calc 10 ^ estimatedDigits n ≤ 2 ^ (n.log2 + 2) := pow_le_two_pow (Nat.div_mul_le_self _ _)
      _ = 2 ^ n.log2 * 4 := Nat.pow_add _ _ _
      _ ≤ 4 * n := by rw [Nat.mul_comm]; exact Nat.mul_le_mul_left 4 (Nat.log2_self_le (by omega))
  rcases Nat.lt_or_ge (estimatedDigits n) 25 with few | many
  · have none : droppedDigits n = 0 := by
      rw [droppedDigits]
      omega
    rw [none]
    exact positive
  · have kept : droppedDigits n + 25 ≤ estimatedDigits n := by
      rw [droppedDigits]
      omega
    have most : 10 ^ droppedDigits n * 10 ^ 25 ≤ 4 * n := by
      rw [← Nat.pow_add]
      exact Nat.le_trans (Nat.pow_le_pow_right (by decide) kept) estimate
    omega

theorem isNaN_ofDecimal (d : Decimal) : (ofDecimal d).isNaN = false := by
  rw [ofDecimal]
  split
  · exact isNaN_ofSize false (Nat.zero_le _)
  next nonzero =>
    have positive : 0 < d.digits.natAbs := by
      rw [Decimal.isZero, beq_iff_eq] at nonzero
      omega
    split
    · exact isNaN_ofRatio _ _ _
    · dsimp only
      split
      · exact isNaN_ofSize _ (Nat.le_refl _)
      · split
        · exact isNaN_ofScaled _ _ _
        · have kept : 0 < d.digits.natAbs / 10 ^ droppedDigits d.digits.natAbs :=
            Nat.div_pos (pow_droppedDigits_le positive) (Nat.pow_pos (by decide))
          have one : AtLeastOne (ofInt 1) := atLeastOne_ofInt (by decide)
          have ten : AtLeastOne (ofInt 10) := atLeastOne_ofInt (by decide)
          exact ((atLeastOne_ofRatio _ kept).mul (atLeastOne_mulPower _ one ten)).isNaN

end OData.Double
