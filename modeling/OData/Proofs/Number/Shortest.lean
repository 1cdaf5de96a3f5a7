import Mathlib.Algebra.Order.Field.Power
import Mathlib.Algebra.Order.Ring.Rat
import Mathlib.Data.Rat.Cast.Order
import Mathlib.Order.Monotone.Basic
import Mathlib.Tactic.FieldSimp
import Mathlib.Tactic.Linarith
import Mathlib.Tactic.Positivity
import Mathlib.Tactic.Ring
import OData.Number.Shortest
import OData.Proofs.Number.Digits

/-!
# Shortest digits tell numbers apart

The shortest digits of a finite number lie in the interval of what rounds to it.  The intervals of
the numbers above zero follow one another: where two of them meet, the point between them belongs to
the one whose last place is even.
-/

set_option autoImplicit false

namespace OData

/-- A power with an exponent of either sign as a quotient of two powers. -/
theorem zpow_eq_div {b : ℚ} (nonzero : b ≠ 0) (g : ℤ) :
    b ^ g = b ^ g.toNat / b ^ (-g).toNat := by
  have split : g = (g.toNat : ℤ) - ((-g).toNat : ℤ) := by omega
  conv_lhs => rw [split]
  rw [zpow_sub₀ nonzero, zpow_natCast, zpow_natCast]

theorem Decimal.pow_length_le {n : ℕ} (positive : 0 < n) :
    10 ^ ((Nat.toDigits 10 n).length - 1) ≤ n := by
  by_contra small
  rw [not_le] at small
  rcases Nat.eq_zero_or_pos ((Nat.toDigits 10 n).length - 1) with one | more
  · rw [one] at small
    omega
  · have short := length_toDigits_le more small
    omega

namespace Double

/-- The nearest integer to a quotient is off by half of the denominator at most. -/
theorem roundDiv_le (num den : ℕ) : roundDiv num den ≤ num / den + 1 := by
  simp only [roundDiv]
  split
  · omega
  · split <;> omega

theorem roundDiv_bounds (num : ℕ) {den : ℕ} (positive : 0 < den) :
    2 * (roundDiv num den * den) ≤ 2 * num + den ∧
      2 * num ≤ 2 * (roundDiv num den * den) + den := by
  have whole : den * (num / den) + num % den = num := Nat.div_add_mod num den
  have above : (num / den + 1) * den = den * (num / den) + den := by ring
  have below : num / den * den = den * (num / den) := Nat.mul_comm _ _
  have rest := Nat.mod_lt num positive
  simp only [roundDiv]
  split
  · omega
  · split
    · omega
    · rcases Nat.mod_two_eq_zero_or_one (num / den) with even | odd
      · rw [even, Nat.add_zero]
        omega
      · rw [odd]
        omega

namespace Interval

def lower (i : Interval) : ℚ := i.low / i.den

def middle (i : Interval) : ℚ := i.value / i.den

def upper (i : Interval) : ℚ := i.high / i.den

/-- Whether a number lies in the interval. -/
def Holds (i : Interval) (p : ℚ) : Prop :=
  if i.closed then i.lower ≤ p ∧ p ≤ i.upper else i.lower < p ∧ p < i.upper

theorem Holds.weaken {i : Interval} {p : ℚ} (holds : i.Holds p) : i.lower ≤ p ∧ p ≤ i.upper := by
  rw [Holds] at holds
  split at holds
  · exact holds
  · exact ⟨holds.1.le, holds.2.le⟩

theorem holds_of_lt {i : Interval} {p : ℚ} (low : i.lower < p) (high : p < i.upper) :
    i.Holds p := by
  rw [Holds]
  split
  · exact ⟨low.le, high.le⟩
  · exact ⟨low, high⟩

section Points

variable {i : Interval} (positive : 0 < i.den) (c : ℕ) (g : ℤ)

include positive

theorem div_le_point_iff (n : ℕ) : (n : ℚ) / i.den ≤ c * 10 ^ g ↔
    n * 10 ^ (-g).toNat ≤ c * 10 ^ g.toNat * i.den := by
  have den : (0 : ℚ) < i.den := by exact_mod_cast positive
  have power : (0 : ℚ) < 10 ^ (-g).toNat := by positivity
  rw [zpow_eq_div (by norm_num), ← mul_div_assoc, div_le_div_iff₀ den power]
  exact_mod_cast Iff.rfl

theorem point_le_div_iff (n : ℕ) : c * 10 ^ g ≤ (n : ℚ) / i.den ↔
    c * 10 ^ g.toNat * i.den ≤ n * 10 ^ (-g).toNat := by
  have den : (0 : ℚ) < i.den := by exact_mod_cast positive
  have power : (0 : ℚ) < 10 ^ (-g).toNat := by positivity
  rw [zpow_eq_div (by norm_num), ← mul_div_assoc, div_le_div_iff₀ power den]
  exact_mod_cast Iff.rfl

theorem contains_iff : i.contains c g = true ↔ i.Holds (c * 10 ^ g) := by
  rw [contains, Holds]
  by_cases closed : i.closed = true
  · simp only [closed, if_true, Bool.and_eq_true, decide_eq_true_eq, lower, upper,
      div_le_point_iff positive, point_le_div_iff positive]
  · simp only [closed, Bool.false_eq_true, if_false, Bool.and_eq_true, decide_eq_true_eq, lower,
      upper, ← not_le, div_le_point_iff positive, point_le_div_iff positive]

/-- Two points of a grid are tried, and the first is the nearest to the number. -/
theorem exists_nearest?_eq : ∃ nearer farther : ℕ,
    nearer ≤ i.value * 10 ^ (-g).toNat / (i.den * 10 ^ g.toNat) + 1 ∧
      farther ≤ i.value * 10 ^ (-g).toNat / (i.den * 10 ^ g.toNat) + 1 ∧
      |(nearer : ℚ) * 10 ^ g - i.middle| ≤ 10 ^ g / 2 ∧
      i.nearest? g = if i.contains nearer g then some nearer
        else if i.contains farther g then some farther else none := by
  have scaled : 0 < i.den * 10 ^ g.toNat := Nat.mul_pos positive (Nat.pow_pos (by decide))
  obtain ⟨high, low⟩ := roundDiv_bounds (i.value * 10 ^ (-g).toNat) scaled
  have other (nearer below : ℕ) : (if nearer = below then below + 1 else below) ≤ below + 1 := by
    split <;> omega
  refine ⟨roundDiv (i.value * 10 ^ (-g).toNat) (i.den * 10 ^ g.toNat), _, roundDiv_le _ _,
    other _ _, ?_, rfl⟩
  generalize roundDiv (i.value * 10 ^ (-g).toNat) (i.den * 10 ^ g.toNat) = nearer at high low
  have den : (0 : ℚ) < i.den := by exact_mod_cast positive
  have power : (0 : ℚ) < 10 ^ (-g).toNat := by positivity
  have above : 2 * ((nearer : ℚ) * (i.den * 10 ^ g.toNat)) ≤
      2 * (i.value * 10 ^ (-g).toNat) + i.den * 10 ^ g.toNat := by exact_mod_cast high
  have below : 2 * ((i.value : ℚ) * 10 ^ (-g).toNat) ≤
      2 * (nearer * (i.den * 10 ^ g.toNat)) + i.den * 10 ^ g.toNat := by exact_mod_cast low
  have scale : (0 : ℚ) < i.den * 10 ^ (-g).toNat := mul_pos den power
  have apart : (nearer : ℚ) * 10 ^ g - i.middle =
      (nearer * (i.den * 10 ^ g.toNat) - i.value * 10 ^ (-g).toNat) /
        (i.den * 10 ^ (-g).toNat) := by
    rw [zpow_eq_div (by norm_num), middle]
    field_simp
  have half : (10 : ℚ) ^ g / 2 = i.den * 10 ^ g.toNat / 2 / (i.den * 10 ^ (-g).toNat) := by
    rw [zpow_eq_div (by norm_num)]
    field_simp
  rw [apart, half, abs_div, abs_of_pos scale, div_le_div_iff_of_pos_right scale, abs_le]
  constructor <;> linarith

theorem holds_of_nearest? {digits : ℕ} (found : i.nearest? g = some digits) :
    i.Holds (digits * 10 ^ g) := by
  rw [← contains_iff positive]
  obtain ⟨nearer, farther, _, _, _, tried⟩ := exists_nearest?_eq positive g
  rw [tried] at found
  split at found
  next first => cases found; exact first
  next =>
    split at found
    next second => cases found; exact second
    next => cases found

/-- Both points that are tried are next to the number. -/
theorem pred_le_of_nearest? {digits : ℕ} (found : i.nearest? g = some digits) :
    ((digits : ℚ) - 1) * 10 ^ g ≤ i.middle := by
  have small : digits ≤ i.value * 10 ^ (-g).toNat / (i.den * 10 ^ g.toNat) + 1 := by
    obtain ⟨nearer, farther, next, other, _, tried⟩ := exists_nearest?_eq positive g
    rw [tried] at found
    split at found
    next => cases found; exact next
    next =>
      split at found
      next => cases found; exact other
      next => cases found
  have den : (0 : ℚ) < i.den := by exact_mod_cast positive
  have floor : (i.value * 10 ^ (-g).toNat / (i.den * 10 ^ g.toNat)) * (i.den * 10 ^ g.toNat) ≤
      i.value * 10 ^ (-g).toNat := Nat.div_mul_le_self _ _
  have below : ((digits : ℚ) - 1) * (i.den * 10 ^ g.toNat) ≤ i.value * 10 ^ (-g).toNat := by
    have step : digits * (i.den * 10 ^ g.toNat) ≤
        i.value * 10 ^ (-g).toNat + i.den * 10 ^ g.toNat := by
      calc digits * (i.den * 10 ^ g.toNat)
          ≤ (i.value * 10 ^ (-g).toNat / (i.den * 10 ^ g.toNat) + 1) * (i.den * 10 ^ g.toNat) :=
            Nat.mul_le_mul_right _ small
        _ ≤ i.value * 10 ^ (-g).toNat + i.den * 10 ^ g.toNat := by
            rw [Nat.succ_mul]
            omega
    have cast : (digits : ℚ) * (i.den * 10 ^ g.toNat) ≤
        i.value * 10 ^ (-g).toNat + i.den * 10 ^ g.toNat := by exact_mod_cast step
    linarith
  rw [zpow_eq_div (by norm_num), middle, ← mul_div_assoc, div_le_div_iff₀ (by positivity) den]
  linarith

/-- Where the grid is fine enough, a point of it is found. -/
theorem exists_nearest? (low : i.lower < i.middle - 10 ^ g / 2)
    (high : i.middle + 10 ^ g / 2 < i.upper) : ∃ digits, i.nearest? g = some digits := by
  obtain ⟨nearer, farther, _, _, close, tried⟩ := exists_nearest?_eq positive g
  rw [abs_le] at close
  have holds : i.Holds (nearer * 10 ^ g) := holds_of_lt (by linarith) (by linarith)
  rw [tried, if_pos ((contains_iff positive nearer g).mpr holds)]
  exact ⟨_, rfl⟩

end Points

/-- Seventeen digits are always enough. -/
theorem exists_searchDigits_eq {i : Interval} (positive : 0 < i.den) {e : ℤ}
    (low : i.lower < i.middle - 10 ^ (e - 16) / 2)
    (high : i.middle + 10 ^ (e - 16) / 2 < i.upper) :
    ∀ {fuel count : ℕ}, count ≤ 16 → count + fuel = 17 →
      ∃ (digits more : ℕ), more ≤ 16 ∧ i.nearest? (e - more) = some digits ∧
        searchDigits i e fuel count = (digits, e - more) := by
  intro fuel
  induction fuel with
  | zero => intro count few all; omega
  | succ fuel ih =>
    intro count few all
    rw [searchDigits]
    cases found : i.nearest? (e - count) with
    | some digits => exact ⟨digits, count, few, found, rfl⟩
    | none =>
      apply ih _ (by omega)
      by_contra last
      obtain rfl : count = 16 := by omega
      obtain ⟨digits, some⟩ := exists_nearest? positive (e - (16 : ℕ)) low high
      rw [found] at some
      cases some

end Interval

/-! ## The intervals of all numbers -/

section Parts

variable (m : ℕ) (q : ℤ)

theorem interval_den_pos : 0 < (interval m q).den := Nat.pow_pos (by decide)

theorem quarter_eq : (2 : ℚ) ^ (q - 2).toNat / 2 ^ (2 - q).toNat = 2 ^ q / 4 := by
  have opposite : 2 - q = -(q - 2) := by ring
  rw [opposite, ← zpow_eq_div (by norm_num), zpow_sub₀ (by norm_num)]
  norm_num

theorem interval_div (n : ℕ) : ((n * 2 ^ (q - 2).toNat : ℕ) : ℚ) / (2 ^ (2 - q).toNat : ℕ) =
    n * (2 ^ q / 4) := by
  rw [← quarter_eq, mul_div_assoc', Nat.cast_mul]
  norm_cast

theorem middle_interval : (interval m q).middle = m * 2 ^ q := by
  have value := interval_div q (4 * m)
  rw [Interval.middle, interval, value]
  push_cast
  ring

theorem upper_interval : (interval m q).upper = m * 2 ^ q + 2 ^ q / 2 := by
  have value := interval_div q (4 * m + 2)
  rw [Interval.upper, interval, value]
  push_cast
  ring

/-- Below a power of two the numbers are twice as close. -/
theorem lower_interval {m : ℕ} (positive : 0 < m) : (interval m q).lower =
    m * 2 ^ q - 2 ^ q / if m = 2 ^ 52 ∧ -1074 < q then 4 else 2 := by
  have value := interval_div q (4 * m - if m = 2 ^ 52 ∧ -1074 < q then 1 else 2)
  rw [Interval.lower, interval, value]
  split
  · rw [Nat.cast_sub (by omega)]
    push_cast
    ring
  · rw [Nat.cast_sub (by omega)]
    push_cast
    ring

end Parts

theorem decimalExponent_eq (num den : ℕ) : decimalExponent num den =
    ((Nat.toDigits 10 (num * 10 ^ 400 / den)).length - 1 : ℕ) - (400 : ℕ) := by
  rw [decimalExponent]
  have digits : 0 < (Nat.toDigits 10 (num * 10 ^ 400 / den)).length :=
    List.length_pos_of_ne_nil Nat.toDigits_ne_nil
  generalize (Nat.toDigits 10 (num * 10 ^ 400 / den)).length = length at digits ⊢
  omega

/-- A number has its first digit where the digits of a multiple begin, or further up. -/
theorem zpow_length_le {num den places : ℕ} (positive : 0 < den)
    (enough : den ≤ num * 10 ^ places) :
    (10 : ℚ) ^ (((Nat.toDigits 10 (num * 10 ^ places / den)).length - 1 : ℕ) - (places : ℤ)) ≤
      num / den := by
  have size := Decimal.pow_length_le (Nat.div_pos enough positive)
  rw [Nat.le_div_iff_mul_le positive] at size
  have bound : (10 : ℚ) ^ ((Nat.toDigits 10 (num * 10 ^ places / den)).length - 1) * den ≤
      num * 10 ^ places := by exact_mod_cast size
  have below : (0 : ℚ) < den := by exact_mod_cast positive
  rw [zpow_sub₀ (by norm_num), zpow_natCast, zpow_natCast, div_le_div_iff₀ (by positivity) below]
  exact bound

theorem two_pow_le_ten_pow (n : ℕ) : 2 ^ (3 * n) ≤ 10 ^ n := by
  rw [Nat.pow_mul]
  exact Nat.pow_le_pow_left (by decide) n

variable {m : ℕ} {q : ℤ}

theorem zpow_decimalExponent_interval_le (positive : 0 < m) (least : -1074 ≤ q) :
    (10 : ℚ) ^ decimalExponent (interval m q).value (interval m q).den ≤ m * 2 ^ q := by
  rw [← middle_interval, decimalExponent_eq]
  apply zpow_length_le (interval_den_pos m q)
  have unit : 0 < (interval m q).value :=
    Nat.mul_pos (Nat.mul_pos (by decide) positive) (Nat.pow_pos (by decide))
  have places : (2 - q).toNat ≤ 3 * 400 := by omega
  calc (interval m q).den ≤ 2 ^ (3 * 400) := Nat.pow_le_pow_right Nat.two_pos places
    _ ≤ 10 ^ 400 := two_pow_le_ten_pow 400
    _ ≤ (interval m q).value * 10 ^ 400 := Nat.le_mul_of_pos_left _ unit

/-- A point is found before the search ends. -/
theorem exists_search_eq (positive : 0 < m) (small : m < 2 ^ 53) (least : -1074 ≤ q) :
    let i := interval m q
    let e := decimalExponent i.value i.den
    ∃ (digits more : ℕ), more ≤ 16 ∧ i.nearest? (e - more) = some digits ∧
      searchDigits i e 17 0 = (digits, e - more) := by
  intro i e
  have size := zpow_decimalExponent_interval_le positive least
  have power : (0 : ℚ) < 2 ^ q := zpow_pos (by norm_num) q
  have grid : (10 : ℚ) ^ (e - 16) ≤ m * 2 ^ q / 10 ^ 16 := by
    rw [zpow_sub₀ (by norm_num)]
    exact div_le_div_of_nonneg_right size (by norm_num)
  have top : (m : ℚ) + 1 ≤ 2 ^ 53 := by exact_mod_cast small
  apply Interval.exists_searchDigits_eq (interval_den_pos m q) _ _ (by decide) rfl
  · rw [lower_interval q positive, middle_interval]
    split
    next lowest =>
      have exact : (m : ℚ) = 2 ^ 52 := by exact_mod_cast lowest.1
      rw [exact] at grid ⊢
      nlinarith
    next => nlinarith
  · rw [upper_interval, middle_interval]
    nlinarith

/-- The digits that are found lie in the interval. -/
theorem holds_search (positive : 0 < m) (small : m < 2 ^ 53) (least : -1074 ≤ q) :
    let i := interval m q
    let found := searchDigits i (decimalExponent i.value i.den) 17 0
    i.Holds (found.1 * 10 ^ found.2) := by
  intro i found
  obtain ⟨digits, more, _, nearest, searched⟩ := exists_search_eq positive small least
  have equal : found = (digits, decimalExponent i.value i.den - more) := searched
  rw [equal]
  exact Interval.holds_of_nearest? (interval_den_pos m q) _ nearest

/-! ## Numbers one after the other -/

/-- The integers of the number with some bits. -/
def partsOf (size : ℕ) : ℕ × ℤ :=
  if size / 2 ^ 52 = 0 then (size % 2 ^ 52, -1074)
  else (2 ^ 52 + size % 2 ^ 52, (size / 2 ^ 52 : ℕ) - 1075)

theorem parts_eq (x : Double) : x.parts = partsOf x.size := rfl

def intervalOf (size : ℕ) : Interval := interval (partsOf size).1 (partsOf size).2

theorem partsOf_bounds {size : ℕ} (positive : 0 < size) :
    0 < (partsOf size).1 ∧ (partsOf size).1 < 2 ^ 53 ∧ -1074 ≤ (partsOf size).2 := by
  rw [partsOf]
  split
  · simp only
    omega
  · simp only
    omega

/-- The last place is even where the bits are. -/
theorem closed_intervalOf (size : ℕ) : (intervalOf size).closed = (size % 2 == 0) := by
  have even : (partsOf size).1 % 2 = size % 2 := by
    rw [partsOf]
    split
    · simp only
      omega
    · simp only
      omega
  rw [intervalOf, interval, even]

/-- The next number is one last place further, or the first one with the next exponent. -/
theorem partsOf_succ (size : ℕ) :
    partsOf (size + 1) = ((partsOf size).1 + 1, (partsOf size).2) ∧
        ¬ ((partsOf size).1 + 1 = 2 ^ 52 ∧ -1074 < (partsOf size).2) ∨
      (partsOf size).1 + 1 = 2 ^ 53 ∧ partsOf (size + 1) = (2 ^ 52, (partsOf size).2 + 1) ∧
        -1074 < (partsOf size).2 + 1 := by
  have next : (size + 1) / 2 ^ 52 = size / 2 ^ 52 ∧ (size + 1) % 2 ^ 52 = size % 2 ^ 52 + 1 ∨
      (size + 1) / 2 ^ 52 = size / 2 ^ 52 + 1 ∧ (size + 1) % 2 ^ 52 = 0 ∧
        size % 2 ^ 52 + 1 = 2 ^ 52 := by omega
  rcases next with ⟨quotient, rest⟩ | ⟨quotient, rest, last⟩
  · left
    rw [partsOf, quotient, rest, partsOf]
    split
    · simp
    · simp only [Prod.mk.injEq, and_true]
      omega
  · rw [partsOf, quotient, rest, if_neg (by omega), partsOf]
    split
    next low =>
      left
      simp only [low, last]
      simp
    next high =>
      right
      have size : ((size / 2 ^ 52 + 1 : ℕ) : ℤ) = (size / 2 ^ 52 : ℕ) + 1 := by push_cast; rfl
      simp only [Prod.mk.injEq, size, Nat.add_zero, true_and]
      omega

/-- An interval begins where the one before it ends. -/
theorem lower_intervalOf_succ (size : ℕ) :
    (intervalOf (size + 1)).lower = (intervalOf size).upper := by
  have power : (2 : ℚ) ^ ((partsOf size).2 + 1) = 2 ^ (partsOf size).2 * 2 :=
    zpow_add_one₀ (by norm_num) _
  rw [intervalOf, intervalOf, upper_interval]
  rcases partsOf_succ size with ⟨next, inside⟩ | ⟨last, next, above⟩
  · rw [next, lower_interval _ (Nat.succ_pos _), if_neg inside]
    push_cast
    ring
  · rw [next, lower_interval _ (Nat.two_pow_pos 52), if_pos ⟨rfl, above⟩, power]
    have exact : ((partsOf size).1 : ℚ) = 2 ^ 53 - 1 := by
      have sum : ((partsOf size).1 : ℚ) + 1 = 2 ^ 53 := by exact_mod_cast last
      linarith
    rw [exact]
    push_cast
    ring

theorem strictMono_lower : StrictMono fun size => (intervalOf (size + 1)).lower := by
  apply strictMono_nat_of_lt_succ
  intro size
  rw [lower_intervalOf_succ (size + 1), intervalOf, upper_interval,
    lower_interval _ (partsOf_bounds (Nat.succ_pos size)).1]
  have power : (0 : ℚ) < 2 ^ (partsOf (size + 1)).2 := zpow_pos (by norm_num) _
  split <;> linarith

/-- No point lies in the intervals of two numbers. -/
theorem eq_of_holds {s t : ℕ} {p : ℚ} (first : (intervalOf (s + 1)).Holds p)
    (second : (intervalOf (t + 1)).Holds p) : s = t := by
  wlog le : s ≤ t generalizing s t
  · exact (this second first (Nat.le_of_not_le le)).symm
  by_contra apart
  have above := first.weaken.2
  have below := second.weaken.1
  rw [← lower_intervalOf_succ] at above
  have next : s + 1 ≤ t := Nat.lt_of_le_of_ne le apart
  have order : (intervalOf (s + 1 + 1)).lower ≤ (intervalOf (t + 1)).lower :=
    strictMono_lower.monotone next
  have point : (intervalOf (s + 1 + 1)).lower = (intervalOf (t + 1)).lower := by linarith
  have adjacent : s + 1 = t := strictMono_lower.injective point
  subst adjacent
  -- the point is the end of the one and the beginning of the other
  rw [Interval.Holds, closed_intervalOf] at first second
  rw [lower_intervalOf_succ (s + 1)] at below
  split at first
  next even =>
    split at second
    next odd =>
      rw [beq_iff_eq] at even odd
      omega
    next =>
      rw [lower_intervalOf_succ (s + 1)] at second
      linarith [first.2, second.1]
  next => linarith [first.2]

end Double

end OData
