import OData.Proofs.Number.Magnitude
import OData.Proofs.Number.Scientific
import OData.Proofs.Text.Cursor

/-!
# Rounding finds the number of an interval

`ofRatio` gives the number in whose interval a quotient lies.  The shortest digits of a number lie
in its interval, so that the scientific layout is read as the number it was written for.
-/

set_option autoImplicit false

namespace OData.Double

/-! ## Nearest integers -/

/-- Whether an integer is the nearest to a number, the even one of two. -/
structure Nearest (m : ℕ) (v : ℚ) : Prop where
  above : v ≤ m + 1 / 2
  below : (m : ℚ) ≤ v + 1 / 2
  even : v = m + 1 / 2 ∨ (m : ℚ) = v + 1 / 2 → m % 2 = 0

theorem roundDiv_even (num : ℕ) {den : ℕ} (positive : 0 < den)
    (half : 2 * num = 2 * (roundDiv num den * den) + den ∨
      2 * (roundDiv num den * den) = 2 * num + den) : roundDiv num den % 2 = 0 := by
  have whole : num / den * den + num % den = num := Nat.div_add_mod' num den
  have above : (num / den + 1) * den = num / den * den + den := Nat.succ_mul _ _
  have rest := Nat.mod_lt num positive
  revert half
  simp only [roundDiv]
  split
  · omega
  · split
    · omega
    · intro _
      omega

theorem nearest_roundDiv (num : ℕ) {den : ℕ} (positive : 0 < den) :
    Nearest (roundDiv num den) (num / den) := by
  obtain ⟨high, low⟩ := roundDiv_bounds num positive
  have even := roundDiv_even num positive
  generalize roundDiv num den = m at high low even
  have scale : (0 : ℚ) < den := by exact_mod_cast positive
  have highQ : 2 * ((m : ℚ) * den) ≤ 2 * num + den := by exact_mod_cast high
  have lowQ : 2 * (num : ℚ) ≤ 2 * (m * den) + den := by exact_mod_cast low
  refine ⟨?_, ?_, ?_⟩
  · rw [div_le_iff₀ scale]
    linarith
  · rw [← sub_le_iff_le_add, le_div_iff₀ scale]
    linarith
  · intro half
    apply even
    rcases half with up | down
    · left
      rw [div_eq_iff scale.ne'] at up
      have sum : 2 * (num : ℚ) = 2 * (m * den) + den := by linarith
      exact_mod_cast sum
    · right
      rw [← sub_eq_iff_eq_add, eq_div_iff scale.ne'] at down
      have sum : 2 * ((m : ℚ) * den) = 2 * num + den := by linarith
      exact_mod_cast sum

/-! ## The exponent of a quotient -/

theorem log2_bounds {n : ℕ} (positive : 0 < n) :
    (2 : ℚ) ^ (n.log2 : ℤ) ≤ n ∧ (n : ℚ) < 2 ^ ((n.log2 : ℤ) + 1) := by
  have low : 2 ^ n.log2 ≤ n := Nat.log2_self_le positive.ne'
  have high : n < 2 ^ (n.log2 + 1) := Nat.lt_log2_self
  constructor
  · rw [zpow_natCast]
    exact_mod_cast low
  · have power : ((n.log2 : ℤ) + 1) = ((n.log2 + 1 : ℕ) : ℤ) := by push_cast; rfl
    rw [power, zpow_natCast]
    exact_mod_cast high

theorem binaryExponent_bounds {num den : ℕ} (nonzero : 0 < num) (positive : 0 < den) :
    (2 : ℚ) ^ binaryExponent num den ≤ num / den ∧
      (num : ℚ) / den < 2 ^ (binaryExponent num den + 1) := by
  obtain ⟨numLow, numHigh⟩ := log2_bounds nonzero
  obtain ⟨denLow, denHigh⟩ := log2_bounds positive
  have scale : (0 : ℚ) < den := by exact_mod_cast positive
  generalize guessed : (num.log2 : ℤ) - den.log2 = guess
  have upper : (num : ℚ) / den < 2 ^ (guess + 1) := by
    have sum : (num.log2 : ℤ) + 1 = guess + 1 + den.log2 := by omega
    rw [div_lt_iff₀ scale]
    calc (num : ℚ) < 2 ^ (guess + 1) * 2 ^ (den.log2 : ℤ) := by
          rwa [← zpow_add₀ (by norm_num), ← sum]
      _ ≤ 2 ^ (guess + 1) * den := mul_le_mul_of_nonneg_left denLow (zpow_nonneg (by norm_num) _)
  have lower : (2 : ℚ) ^ (guess - 1) ≤ num / den := by
    have sum : (num.log2 : ℤ) = guess - 1 + (den.log2 + 1) := by omega
    rw [le_div_iff₀ scale]
    calc (2 : ℚ) ^ (guess - 1) * den
        ≤ 2 ^ (guess - 1) * 2 ^ ((den.log2 : ℤ) + 1) :=
          mul_le_mul_of_nonneg_left denHigh.le (zpow_nonneg (by norm_num) _)
      _ ≤ num := by rwa [← zpow_add₀ (by norm_num), ← sum]
  have tried : den * 2 ^ guess.toNat ≤ num * 2 ^ (-guess).toNat ↔
      (2 : ℚ) ^ guess ≤ num / den := by
    have power : (0 : ℚ) < 2 ^ (-guess).toNat := by positivity
    rw [zpow_eq_div (by norm_num), div_le_div_iff₀ power scale, mul_comm ((2 : ℚ) ^ guess.toNat)]
    exact_mod_cast Iff.rfl
  simp only [binaryExponent, guessed]
  split
  next fits => exact ⟨tried.mp fits, upper⟩
  next less =>
    rw [tried, not_le] at less
    refine ⟨lower, ?_⟩
    rwa [sub_add_cancel]

/-! ## Numbers from their parts -/

/-- The bits of the number with these parts. -/
def sizeOfParts (m : ℕ) (q : ℤ) : ℕ := m + (q + 1074).toNat * 2 ^ 52

section Parts

variable {m : ℕ} {q : ℤ}

theorem partsOf_sizeOfParts (least : -1074 ≤ q) (small : m < 2 ^ 53)
    (full : 2 ^ 52 ≤ m ∨ q = -1074) : partsOf (sizeOfParts m q) = (m, q) := by
  rw [partsOf, sizeOfParts]
  split
  · simp only [Prod.mk.injEq]
    omega
  · simp only [Prod.mk.injEq]
    omega

/-- Too many digits by one make the first number with the next exponent. -/
theorem partsOf_sizeOfParts_carry (least : -1074 ≤ q) :
    partsOf (sizeOfParts (2 ^ 53) q) = (2 ^ 52, q + 1) := by
  rw [partsOf, sizeOfParts, if_neg (by omega)]
  simp only [Prod.mk.injEq]
  omega

theorem Nearest.bounds {v : ℚ} (nearest : Nearest m v) (small : v < 2 ^ 53) :
    m ≤ 2 ^ 53 ∧ (2 ^ 52 ≤ v → 2 ^ 52 ≤ m) := by
  constructor
  · have below : (m : ℚ) < 2 ^ 53 + 1 := by linarith [nearest.below]
    have whole : m < 2 ^ 53 + 1 := by exact_mod_cast below
    omega
  · intro full
    have above : (2 ^ 52 : ℚ) < m + 1 := by linarith [nearest.above]
    have whole : 2 ^ 52 < m + 1 := by exact_mod_cast above
    omega

/-- What is nearest to the digits of a number lies in the interval of the number. -/
theorem Nearest.holds_interval {v : ℚ} (nearest : Nearest m v) (positive : 0 < m)
    (full : 2 ^ 52 ≤ v ∨ q = -1074) : (interval m q).Holds (v * 2 ^ q) := by
  have power : (0 : ℚ) < 2 ^ q := zpow_pos (by norm_num) q
  have closed : (interval m q).closed = (m % 2 == 0) := rfl
  have upper := upper_interval m q
  have lower := lower_interval q positive
  have high : v * 2 ^ q ≤ (m + 1 / 2) * 2 ^ q := mul_le_mul_of_nonneg_right nearest.above power.le
  have low : (m : ℚ) * 2 ^ q ≤ (v + 1 / 2) * 2 ^ q :=
    mul_le_mul_of_nonneg_right nearest.below power.le
  rw [Interval.Holds, upper, lower, closed]
  by_cases even : m % 2 = 0
  · rw [if_pos (beq_iff_eq.mpr even)]
    refine ⟨?_, by linarith⟩
    split
    next lowest =>
      have exact : (m : ℚ) = 2 ^ 52 := by exact_mod_cast lowest.1
      have first : (2 ^ 52 : ℚ) ≤ v := by
        rcases full with full | last
        · exact full
        · omega
      rw [exact]
      nlinarith
    next => linarith
  · have odd : m ≠ 2 ^ 52 := by
      rintro rfl
      exact even rfl
    have noHalf := mt nearest.even even
    rw [not_or] at noHalf
    rw [if_neg (by simpa using even), if_neg (by simp [odd])]
    have highest : v * 2 ^ q ≠ (m + 1 / 2) * 2 ^ q := fun equal =>
      noHalf.1 (mul_right_cancel₀ power.ne' equal)
    have lowest : (m : ℚ) * 2 ^ q ≠ (v + 1 / 2) * 2 ^ q := fun equal =>
      noHalf.2 (mul_right_cancel₀ power.ne' equal)
    constructor
    · linarith [lt_of_le_of_ne low lowest]
    · linarith [lt_of_le_of_ne high highest]

/-- Digits that round up to a power of two lie in the interval of that power. -/
theorem Nearest.holds_carry {v : ℚ} (nearest : Nearest (2 ^ 53) v) (least : -1074 ≤ q) :
    (interval (2 ^ 52) (q + 1)).Holds (v * 2 ^ q) := by
  have power : (0 : ℚ) < 2 ^ q := zpow_pos (by norm_num) q
  have next : (2 : ℚ) ^ (q + 1) = 2 ^ q * 2 := zpow_add_one₀ (by norm_num) _
  have upper := upper_interval (2 ^ 52) (q + 1)
  have lower := lower_interval (q + 1) (Nat.two_pow_pos 52)
  have closed : (interval (2 ^ 52) (q + 1)).closed = true := rfl
  have above := nearest.above
  have below := nearest.below
  rw [if_pos ⟨rfl, by omega⟩] at lower
  push_cast at above below upper lower
  rw [Interval.Holds, upper, lower, closed, next]
  simp only [if_true]
  constructor
  · nlinarith
  · nlinarith

theorem Nearest.holds {v : ℚ} (nearest : Nearest m v) (positive : 0 < m) (least : -1074 ≤ q)
    (full : 2 ^ 52 ≤ v ∨ q = -1074) (small : v < 2 ^ 53) :
    (intervalOf (sizeOfParts m q)).Holds (v * 2 ^ q) := by
  obtain ⟨most, digits⟩ := nearest.bounds small
  rw [intervalOf]
  rcases Nat.lt_or_eq_of_le most with inside | rfl
  · rw [partsOf_sizeOfParts least inside (full.imp_left digits)]
    exact nearest.holds_interval positive full
  · rw [partsOf_sizeOfParts_carry least]
    exact nearest.holds_carry least

end Parts

/-! ## Quotients -/

/-- A number that rounds to none that is zero is greater than half of the least one. -/
theorem half_lt_of_holds {size : ℕ} {p : ℚ} (nonzero : 0 < size)
    (holds : (intervalOf size).Holds p) : (2 : ℚ) ^ (-1074 : ℤ) / 2 < p := by
  have first : (intervalOf 1).lower = (2 : ℚ) ^ (-1074 : ℤ) / 2 := by
    have parts : partsOf 1 = (1, -1074) := rfl
    rw [intervalOf, parts, lower_interval _ (by decide), if_neg (by decide), Nat.cast_one]
    generalize (2 : ℚ) ^ (-1074 : ℤ) = least
    ring
  obtain ⟨size, rfl⟩ : ∃ s, size = s + 1 := ⟨size - 1, by omega⟩
  rw [← first]
  rcases Nat.eq_zero_or_pos size with rfl | more
  · rw [Interval.Holds, closed_intervalOf] at holds
    exact holds.1
  · exact lt_of_lt_of_le (strictMono_lower more) holds.weaken.1

theorem div_eq_mul_zpow (num : ℕ) {den : ℕ} (positive : 0 < den) (q : ℤ) : (num : ℚ) / den =
    ((num * 2 ^ (-q).toNat : ℕ) : ℚ) / ((den * 2 ^ q.toNat : ℕ) : ℚ) * 2 ^ q := by
  have scale : (den : ℚ) ≠ 0 := by exact_mod_cast positive.ne'
  rw [zpow_eq_div (by norm_num)]
  push_cast
  field_simp

/-- The last place that a quotient is rounded to. -/
def lastPlace (num den : ℕ) : ℤ := max (binaryExponent num den - 52) (-1074)

def roundedDigits (num den : ℕ) : ℕ :=
  roundDiv (num * 2 ^ (-lastPlace num den).toNat) (den * 2 ^ (lastPlace num den).toNat)

/-- The digits of a quotient fill the precision or reach the least place. -/
theorem exists_nearest {num den : ℕ} (numerator : 0 < num) (positive : 0 < den) :
    ∃ v : ℚ, (num : ℚ) / den = v * 2 ^ lastPlace num den ∧ Nearest (roundedDigits num den) v ∧
      (2 ^ 52 ≤ v ∨ lastPlace num den = -1074) ∧ v < 2 ^ 53 := by
  obtain ⟨low, high⟩ := binaryExponent_bounds numerator positive
  have value := div_eq_mul_zpow num positive (lastPlace num den)
  have power : (0 : ℚ) < 2 ^ lastPlace num den := zpow_pos (by norm_num) _
  refine ⟨_, value, nearest_roundDiv _ (Nat.mul_pos positive (Nat.two_pow_pos _)), ?_, ?_⟩
  · by_cases last : lastPlace num den = -1074
    · exact .inr last
    · left
      have here : binaryExponent num den = 52 + lastPlace num den := by
        rw [lastPlace] at last ⊢
        omega
      have sum : (2 : ℚ) ^ (52 + lastPlace num den) = 2 ^ 52 * 2 ^ lastPlace num den :=
        zpow_add₀ (by norm_num) 52 _
      rw [here, sum, value] at low
      exact le_of_mul_le_mul_right low power
  · have next : (2 : ℚ) ^ (binaryExponent num den + 1) ≤ 2 ^ 53 * 2 ^ lastPlace num den := by
      have sum : (2 : ℚ) ^ (53 + lastPlace num den) = 2 ^ 53 * 2 ^ lastPlace num den :=
        zpow_add₀ (by norm_num) 53 _
      rw [← sum]
      apply zpow_le_zpow_right₀ (by norm_num)
      rw [lastPlace]
      omega
    rw [value] at high
    exact lt_of_mul_lt_mul_right (lt_of_lt_of_le high next) power.le

theorem ofRatio_eq {num den : ℕ} (negative : Bool) (numerator : 0 < num)
    (full : 2 ^ 52 ≤ roundedDigits num den ∨ lastPlace num den = -1074) :
    ofRatio negative num den =
      ofSize negative (min (sizeOfParts (roundedDigits num den) (lastPlace num den))
        infinitySize) := by
  have size : (if roundedDigits num den < 2 ^ 52 then roundedDigits num den
      else (lastPlace num den + 1075).toNat * 2 ^ 52 + (roundedDigits num den - 2 ^ 52)) =
      sizeOfParts (roundedDigits num den) (lastPlace num den) := by
    have least : -1074 ≤ lastPlace num den := Int.le_max_right _ _
    rw [sizeOfParts]
    split <;> omega
  rw [← size, ofRatio, if_neg numerator.ne']
  rfl

/-- A quotient is rounded to the number in whose interval it lies. -/
theorem ofRatio_of_holds {num den size : ℕ} (negative : Bool) (positive : 0 < den)
    (nonzero : 0 < size) (holds : (intervalOf size).Holds (num / den)) :
    ofRatio negative num den = ofSize negative (min size infinitySize) := by
  have large := half_lt_of_holds nonzero holds
  have numerator : 0 < num := by
    by_contra none
    rw [Nat.eq_zero_of_not_pos none, Nat.cast_zero, zero_div] at large
    have least : (0 : ℚ) < 2 ^ (-1074 : ℤ) := zpow_pos (by norm_num) _
    linarith
  obtain ⟨v, value, nearest, full, small⟩ := exists_nearest numerator positive
  obtain ⟨_, most⟩ := nearest.bounds small
  have least : -1074 ≤ lastPlace num den := Int.le_max_right _ _
  rw [ofRatio_eq negative numerator (full.imp_left most)]
  generalize roundedDigits num den = m at nearest most ⊢
  generalize lastPlace num den = q at value full least ⊢
  rw [value] at large holds
  have digits : 0 < m := by
    by_contra none
    rw [Nat.eq_zero_of_not_pos none] at nearest
    have half := nearest.above
    rw [Nat.cast_zero, zero_add] at half
    rcases full with full | rfl
    · linarith
    · have power : (0 : ℚ) < 2 ^ (-1074 : ℤ) := zpow_pos (by norm_num) _
      nlinarith
  have found := nearest.holds digits least full small
  obtain ⟨s, parts⟩ : ∃ s, sizeOfParts m q = s + 1 := Nat.exists_eq_add_one.mpr (by
    rw [sizeOfParts]
    omega)
  obtain ⟨t, rfl⟩ := Nat.exists_eq_add_one.mpr nonzero
  rw [parts] at found ⊢
  rw [eq_of_holds found holds]

/-! ## Powers of ten -/

theorem two_zpow_le_ten_zpow {k : ℤ} (nonneg : 0 ≤ k) : (2 : ℚ) ^ (3 * k) ≤ 10 ^ k := by
  rw [zpow_mul]
  exact zpow_le_zpow_left₀ nonneg (by norm_num) (by norm_num)

theorem ten_zpow_neg_le {k : ℤ} (nonneg : 0 ≤ k) : (10 : ℚ) ^ (-k) ≤ 2 ^ (-(3 * k)) := by
  rw [zpow_neg, zpow_neg]
  exact inv_anti₀ (zpow_pos (by norm_num) _) (two_zpow_le_ten_zpow nonneg)

/-- How many digits a number with an exponent has tells its magnitude. -/
theorem zpow_places_bounds {n : ℕ} (positive : 0 < n) (e : ℤ) :
    (10 : ℚ) ^ (e + (Nat.toDigits 10 n).length - 1) ≤ n * 10 ^ e ∧
      (n : ℚ) * 10 ^ e < 10 ^ (e + (Nat.toDigits 10 n).length) := by
  have power : (0 : ℚ) < 10 ^ e := zpow_pos (by norm_num) e
  have length : 0 < (Nat.toDigits 10 n).length := Nat.length_toDigits_pos
  have low : (10 : ℚ) ^ ((Nat.toDigits 10 n).length - 1) ≤ n := by
    exact_mod_cast Decimal.pow_length_le positive
  have high : (n : ℚ) < 10 ^ (Nat.toDigits 10 n).length := by
    exact_mod_cast (Nat.length_toDigits_le_iff (by decide) length).mp (Nat.le_refl _)
  generalize (Nat.toDigits 10 n).length = places at length low high
  have before : e + (places : ℤ) - 1 = ((places - 1 : ℕ) : ℤ) + e := by omega
  constructor
  · rw [before, zpow_add₀ (by norm_num), zpow_natCast]
    exact mul_le_mul_of_nonneg_right low power.le
  · rw [add_comm, zpow_add₀ (by norm_num), zpow_natCast]
    exact mul_lt_mul_of_pos_right high power

/-- What rounds to a number is below the next power of two. -/
theorem le_of_holds {size : ℕ} {p : ℚ} (nonzero : 0 < size)
    (holds : (intervalOf size).Holds p) : p ≤ 2 ^ (53 + (partsOf size).2) := by
  obtain ⟨_, small, _⟩ := partsOf_bounds nonzero
  have power : (0 : ℚ) < 2 ^ (partsOf size).2 := zpow_pos (by norm_num) _
  have top : (2 : ℚ) ^ (53 + (partsOf size).2) = 2 ^ 53 * 2 ^ (partsOf size).2 :=
    zpow_add₀ (by norm_num) 53 _
  have digits : ((partsOf size).1 : ℚ) + 1 ≤ 2 ^ 53 := by exact_mod_cast small
  have above := holds.weaken.2
  rw [intervalOf, upper_interval] at above
  rw [top]
  nlinarith

theorem partsOf_snd (size : ℕ) : (partsOf size).2 ≤ (size / 2 ^ 52 : ℕ) - 1074 := by
  rw [partsOf]
  split
  · simp only
    omega
  · simp only
    omega

theorem le_of_holds_finite {size : ℕ} {p : ℚ} (nonzero : 0 < size) (finite : size < infinitySize)
    (holds : (intervalOf size).Holds p) : p ≤ 2 ^ (1025 : ℤ) := by
  have exponent := partsOf_snd size
  rw [infinitySize] at finite
  exact (le_of_holds nonzero holds).trans (zpow_le_zpow_right₀ (by norm_num) (by omega))

/-! ## Reading digits -/

/-- The number nearest to `n · 10 ^ e` is the one in whose interval that lies. -/
theorem ofScaled_of_holds {n size : ℕ} {e : ℤ} (negative : Bool) (nonzero : 0 < size)
    (finite : size < infinitySize) (holds : (intervalOf size).Holds (n * 10 ^ e)) :
    ofScaled negative n e = ofSize negative size := by
  have large := half_lt_of_holds nonzero holds
  have bounded := le_of_holds_finite nonzero finite holds
  have least : (2 : ℚ) ^ (-1075 : ℤ) = 2 ^ (-1074 : ℤ) / 2 := by
    rw [show (-1075 : ℤ) = -1074 - 1 by norm_num, zpow_sub_one₀ (by norm_num), div_eq_mul_inv]
  rw [← least] at large
  have positive : 0 < n := by
    by_contra none
    have below : (0 : ℚ) < 2 ^ (-1075 : ℤ) := zpow_pos (by norm_num) _
    rw [Nat.eq_zero_of_not_pos none, Nat.cast_zero, zero_mul] at large
    linarith
  obtain ⟨low, high⟩ := zpow_places_bounds positive e
  have enough : ¬ e + ((Nat.toDigits 10 n).length : ℤ) < -400 := by
    intro few
    have tiny := calc (n : ℚ) * 10 ^ e < 10 ^ (e + ((Nat.toDigits 10 n).length : ℤ)) := high
      _ ≤ 10 ^ (-400 : ℤ) := zpow_le_zpow_right₀ (by norm_num) few.le
      _ ≤ 2 ^ (-(3 * 400) : ℤ) := ten_zpow_neg_le (by norm_num)
      _ ≤ 2 ^ (-1075 : ℤ) := zpow_le_zpow_right₀ (by norm_num) (by norm_num)
    linarith
  have few : ¬ 400 < e + ((Nat.toDigits 10 n).length : ℤ) := by
    intro many
    have huge := calc (2 : ℚ) ^ (1025 : ℤ) < 2 ^ (3 * 400 : ℤ) :=
          zpow_lt_zpow_right₀ (by norm_num) (by norm_num)
      _ ≤ 10 ^ (400 : ℤ) := two_zpow_le_ten_zpow (by norm_num)
      _ ≤ 10 ^ (e + (Nat.toDigits 10 n).length - 1) :=
          zpow_le_zpow_right₀ (by norm_num) (by omega)
      _ ≤ n * 10 ^ e := low
    linarith
  have value : (n : ℚ) * 10 ^ e =
      ((n * 10 ^ e.toNat : ℕ) : ℚ) / ((10 ^ (-e).toNat : ℕ) : ℚ) := by
    rw [zpow_eq_div (by norm_num), mul_div_assoc']
    push_cast
    rfl
  rw [value] at holds
  rw [ofScaled, if_neg (by omega), if_neg few,
    ofRatio_of_holds negative (Nat.pow_pos (by decide)) nonzero holds, Nat.min_eq_left finite.le]

theorem readExponent_toString (e : ℤ) : Decimal.readExponent (toString e).toList = some e := by
  have digits := Decimal.all_isDigit_toDigits e.natAbs
  have value : Decimal.natOfDigits (Nat.toDigits 10 e.natAbs) = e.natAbs * 10 ^ 0 := by
    rw [Decimal.natOfDigits_toDigits, pow_zero, mul_one]
  have read := Decimal.readInteger_signChars 0 Nat.toDigits_ne_nil digits value
  have noUnderscore : (Decimal.signChars e ++ Nat.toDigits 10 e.natAbs).contains '_' = false := by
    rw [List.contains_eq_mem, decide_eq_false_iff_not, List.mem_append]
    rintro (sign | digit)
    · exact absurd (Decimal.eq_of_mem_signChars sign) (by decide)
    · exact absurd (List.all_eq_true.mp digits '_' digit) (by decide)
  rw [pow_zero, mul_one] at read
  rw [Decimal.toList_toString, Decimal.readExponent, noUnderscore, read]
  rfl

theorem readMantissa_mantissaChars (negative : Bool) {digits : List Char} (nonempty : digits ≠ [])
    (members : digits.all Char.isDigit = true) :
    Decimal.readMantissa (Decimal.minusChars negative ++ mantissaChars digits) =
      some (Decimal.withSign negative (Decimal.natOfDigits digits), (digits.length : ℤ) - 1) := by
  match digits with
  | [] => contradiction
  | [d] => exact Decimal.readMantissa_whole negative nonempty members
  | d :: e :: rest =>
    have lead : ([d] : List Char) ≠ [] := by simp
    have read := Decimal.readMantissa_point negative lead members
    have places : ((d :: e :: rest).length : ℤ) - 1 = ((e :: rest).length : ℤ) := by
      simp only [List.length_cons]
      omega
    rw [places]
    exact read

theorem all_isDigit_shortest (x : Double) : x.shortest.digits.all Char.isDigit = true :=
  List.all_eq_true.mpr fun _ member => isDigit_of_mem_shortest member

/-- The mantissa of the scientific layout ends where the exponent begins. -/
theorem split_scientific (x : Double) :
    x.scientific.toList.takeWhile (fun c => c != 'e' && c != 'E') =
        Decimal.minusChars x.isNegative ++ mantissaChars x.shortest.digits ∧
      x.scientific.toList.drop
          (Decimal.minusChars x.isNegative ++ mantissaChars x.shortest.digits).length =
        'e' :: (toString x.shortest.exponent).toList := by
  have text : x.scientific.toList =
      (Decimal.minusChars x.isNegative ++ mantissaChars x.shortest.digits) ++
        'e' :: (toString x.shortest.exponent).toList := by
    rw [toList_scientific, ← List.append_assoc]
    rfl
  have members : (Decimal.minusChars x.isNegative ++ mantissaChars x.shortest.digits).all
      (fun c => c != 'e' && c != 'E') = true := by
    rw [List.all_append, Bool.and_eq_true]
    constructor
    · cases x.isNegative <;> rfl
    · apply List.all_eq_true.mpr
      intro c member
      rcases mem_mantissaChars member with digit | rfl
      · have digit := isDigit_of_mem_shortest digit
        have small := Decimal.ne_of_isDigit digit (d := 'e') rfl
        have large := Decimal.ne_of_isDigit digit (d := 'E') rfl
        simp [small, large]
      · rfl
  constructor
  · rw [text]
    exact Text.takeWhile_run members (Text.Before.singleton 'e' _) (by decide)
  · rw [text, List.drop_left]

theorem head?_scientific (x : Double) :
    (x.scientific.toList.head? == some '-') = x.isNegative := by
  obtain ⟨c, cs, mantissa, digit⟩ := exists_mantissaChars_eq_cons x
  have other : c ≠ '-' := Decimal.ne_of_isDigit digit rfl
  rw [toList_scientific, mantissa]
  cases x.isNegative <;> simp [other]

theorem isNegative_ofSize (negative : Bool) {n : ℕ} (small : n < 2 ^ 63) :
    (ofSize negative n).isNegative = negative := by
  cases negative
  · simp only [isNegative, ofSize, UInt64.toNat_ofNat', Bool.false_eq_true, if_false,
      decide_eq_false_iff_not]
    omega
  · simp only [isNegative, ofSize, UInt64.toNat_ofNat', if_true, decide_eq_true_eq]
    omega

/-- A number is told by its sign and its other bits. -/
theorem ofSize_size (x : Double) : ofSize x.isNegative x.size = x := by
  have small : x.size < 2 ^ 63 := Nat.mod_lt _ (by decide)
  exact eq_of_size (size_ofSize _ small) (isNegative_ofSize _ small)

/-- The scientific layout of a finite number is read as the number. -/
theorem ofText?_scientific {x : Double} (finite : x.isFinite = true) :
    ofText? x.scientific = some x := by
  obtain ⟨mantissa, exponent⟩ := split_scientific x
  have read := readMantissa_mantissaChars x.isNegative (digits_shortest_ne_nil x)
    (all_isDigit_shortest x)
  have number : ofScaled x.isNegative (Decimal.natOfDigits x.shortest.digits)
      (x.shortest.exponent - (x.shortest.digits.length - 1)) = ofSize x.isNegative x.size := by
    rcases Nat.eq_zero_or_pos x.size with zero | positive
    · have none : Decimal.natOfDigits ['0'] = 0 := rfl
      rw [shortest_of_size zero, zero, none, ofScaled, if_pos (Or.inl rfl)]
    · have holds := holds_shortest positive
      have places : x.shortest.exponent + 1 - (x.shortest.digits.length : ℤ) =
          x.shortest.exponent - (x.shortest.digits.length - 1) := by omega
      rw [ShortestDigits.toRat, places] at holds
      exact ofScaled_of_holds _ positive (by simpa [isFinite] using finite) holds
  rw [ofText?]
  simp only [mantissa, exponent, read, readExponent_toString, head?_scientific,
    Option.bind_eq_bind, Option.bind_some, Decimal.natAbs_withSign, number, ofSize_size]

end OData.Double
