import OData.Bound.Arithmetic

/-!
# Arithmetic on integers is exact

An operation on two integers of 64 bits gives its exact result: as an integer if the operation can
be done in 64 bits, else as a decimal.  Decimal quotients are not whole in general, but the only
quotients of 64-bit integers that have more bits are those by minus one.
-/

set_option autoImplicit false

namespace OData

/-- The exact result of an operation on integers: of a division the quotient without its fraction
or the remainder with the sign of the dividend.  A division by zero has none. -/
def Operator.onIntegers? (op : Operator) (a b : Int) : Option Int :=
  match op with
  | .add => some (a + b)
  | .sub => some (a - b)
  | .mul => some (a * b)
  | .div => if b = 0 then none else some (a.tdiv b)
  | .mod => if b = 0 then none else some (a.tmod b)
  | _ => none

/-! ## Decimals of integers -/

namespace Decimal

theorem isZero_ofInt {n : Int} : (ofInt n).isZero = true ↔ n = 0 := by
  simp [isZero, ofInt]

theorem isOne_ofInt {n : Int} : (ofInt n).isOne = true ↔ n = 1 := by
  simp [isOne, ofInt]

theorem add_ofInt (m n : Int) : (ofInt m).add (ofInt n) = ofInt (m + n) := by
  have places : min zeroPlaces 0 = 0 := by decide
  have same : ∀ k : Int, (ofInt k).lengthened 0 = ofInt k := by
    intro k
    simp [lengthened, ofInt, digitsAt, places]
  rw [add]
  split
  next zero =>
    rw [isZero_ofInt] at zero
    rw [zero, Int.add_zero]
    exact same m
  next =>
    split
    next zero =>
      rw [isZero_ofInt] at zero
      rw [zero, Int.zero_add]
      exact same n
    next =>
      simp [ofInt, digitsAt]

theorem sub_ofInt (m n : Int) : (ofInt m).sub (ofInt n) = ofInt (m - n) := by
  simp [sub, ofInt, digitsAt]

theorem mul_ofInt {m n : Int} (left : m ≠ 1) (right : n ≠ 1) :
    (ofInt m).mul (ofInt n) = ofInt (m * n) := by
  rw [mul, if_neg (mt isOne_ofInt.mp left), if_neg (mt isOne_ofInt.mp right)]
  simp [ofInt]

theorem rem_ofInt (m n : Int) : (ofInt m).rem (ofInt n) = ofInt (m.tmod n) := by
  simp [rem, ofInt, digitsAt]

theorem neg_ofInt (n : Int) : (ofInt n).neg = ofInt (-n) := rfl

/-- There are no digits to append where nothing is left. -/
theorem appendDigits_zero (den more quotient count : Nat) :
    appendDigits den more quotient 0 count = (quotient, 0, count) := by
  cases more <;> simp [appendDigits]

theorem divideNat_one (n : Nat) (scale : Int) : divideNat n 1 scale = ⟨n, scale⟩ := by
  have whole : ¬(0 < n ∧ n < 1) := by omega
  rw [divideNat, liftNumerator, if_neg whole]
  simp [Nat.mod_one, appendDigits_zero]

/-- The quotient by minus one is whole. -/
theorem div_negOne (n : Int) : (ofInt n).div (ofInt (-1)) = ofInt (-n) := by
  rw [div]
  split
  next zero =>
    have none : n = 0 := by simpa [isZero_ofInt, isOne_ofInt] using zero
    rw [none, Int.neg_zero]
  next nonzero =>
    have size : n ≠ 0 := by simpa [isZero_ofInt, isOne_ofInt] using nonzero
    simp only [ofInt, Int.sub_zero, Int.natAbs_neg, Int.natAbs_one, divideNat_one, neg]
    split
    next same => rw [same, Int.neg_neg]
    next =>
      by_cases negative : n < 0
      · rw [if_pos (by simp [negative]), Int.ofNat_natAbs_of_nonpos (by omega)]
      · rw [if_neg (by simp [negative]), Int.natAbs_of_nonneg (by omega)]

end Decimal

namespace Value

/-! ## 64 bits -/

/-- Whether an integer has more than 64 bits. -/
def Exceeds (n : Int) : Prop := n < -2 ^ 63 ∨ 2 ^ 63 ≤ n

theorem toInt_of_checkedInt? {n : Int} {m : Int64} (checked : checkedInt? n = some m) :
    m.toInt = n := by
  rw [checkedInt?] at checked
  split at checked
  next bounds =>
    cases checked
    exact Int64.toInt_ofInt_of_le bounds.1 bounds.2
  next => cases checked

theorem checkedInt?_eq_none_iff {n : Int} : checkedInt? n = none ↔ Exceeds n := by
  rw [checkedInt?, Exceeds, ite_eq_right_iff]
  simp only [reduceCtorEq, imp_false]
  omega

/-- The quotient of two integers of 64 bits has more bits only if it is by minus one. -/
theorem of_exceeds_tdiv {a b : Int64} (nonzero : b ≠ 0)
    (exceeds : Exceeds (a.toInt.tdiv b.toInt)) : a.toInt = -2 ^ 63 ∧ b.toInt = -1 := by
  have lower : -2 ^ 63 ≤ a.toInt := Int64.le_toInt a
  have upper : a.toInt < 2 ^ 63 := Int64.toInt_lt a
  have size : (a.toInt.tdiv b.toInt).natAbs = a.toInt.natAbs / b.toInt.natAbs :=
    Int.natAbs_tdiv _ _
  have divisor : b.toInt ≠ 0 := fun zero => nonzero (Int64.toInt_inj.mp zero)
  have small : b.toInt.natAbs < 2 := by
    refine Nat.lt_of_not_le fun two => ?_
    have half : a.toInt.natAbs / b.toInt.natAbs ≤ a.toInt.natAbs / 2 :=
      Nat.div_le_div_left two (by decide)
    rw [Exceeds] at exceeds
    omega
  obtain one | negOne : b.toInt = 1 ∨ b.toInt = -1 := by omega
  · rw [one, Int.tdiv_one, Exceeds] at exceeds
    omega
  · refine ⟨?_, negOne⟩
    rw [negOne, Int.tdiv_neg, Int.tdiv_one, Exceeds] at exceeds
    omega

theorem not_exceeds (n : Int64) : ¬Exceeds n.toInt := by
  have lower := Int64.le_toInt n
  have upper := Int64.toInt_lt n
  rw [Exceeds]
  omega

theorem toInt_eq_zero_iff {n : Int64} : n.toInt = 0 ↔ n = 0 :=
  ⟨fun zero => Int64.toInt_inj.mp zero, fun zero => zero ▸ Int64.toInt_zero⟩

/-! ## Operations -/

/-- The one remainder that has 64 bits while its quotient has more. -/
def IsLastRemainder (op : Operator) (a b : Int64) : Prop :=
  op = .mod ∧ a.toInt = -2 ^ 63 ∧ b.toInt = -1

instance (op : Operator) (a b : Int64) : Decidable (IsLastRemainder op a b) :=
  inferInstanceAs (Decidable (_ ∧ _))

section Operations

variable {op : Operator} {a b : Int64} {n : Int}

theorem checkedArithmetic_of_none (none : op.onIntegers? a.toInt b.toInt = none) :
    checkedArithmetic op a b = some null := by
  cases op with
  | add | sub | mul => cases none
  | div | mod =>
    simp only [Operator.onIntegers?, ite_eq_left_iff, reduceCtorEq, imp_false, Decidable.not_not]
      at none
    exact if_pos (toInt_eq_zero_iff.mp none)
  | _ => rfl

/-- In 64 bits an operation is done if its result has 64 bits, but for one remainder. -/
theorem checkedArithmetic_of_some (exact : op.onIntegers? a.toInt b.toInt = some n) :
    checkedArithmetic op a b =
      if IsLastRemainder op a b then none else (checkedInt? n).map int := by
  cases op with
  | add | sub | mul =>
    cases exact
    rw [if_neg (by simp [IsLastRemainder])]
    rfl
  | div =>
    simp only [Operator.onIntegers?, Option.ite_none_left_eq_some, Option.some.injEq] at exact
    obtain ⟨nonzero, rfl⟩ := exact
    rw [if_neg (by simp [IsLastRemainder]), checkedArithmetic,
      if_neg (mt toInt_eq_zero_iff.mpr nonzero)]
  | mod =>
    simp only [Operator.onIntegers?, Option.ite_none_left_eq_some, Option.some.injEq] at exact
    obtain ⟨nonzero, rfl⟩ := exact
    have divisor : b ≠ 0 := mt toInt_eq_zero_iff.mpr nonzero
    rw [checkedArithmetic, if_neg divisor]
    split
    next last =>
      obtain ⟨-, least, negOne⟩ := last
      rw [least, negOne]
      rfl
    next other =>
      cases quotient : checkedInt? (a.toInt.tdiv b.toInt) with
      | none =>
        have both := of_exceeds_tdiv divisor (checkedInt?_eq_none_iff.mp quotient)
        exact absurd ⟨rfl, both⟩ other
      | some q => rfl
  | _ => cases exact

theorem checkedArithmetic_eq_none_iff (exact : op.onIntegers? a.toInt b.toInt = some n) :
    checkedArithmetic op a b = none ↔ Exceeds n ∨ IsLastRemainder op a b := by
  rw [checkedArithmetic_of_some exact]
  split
  next last => simp [last]
  next other => simp [other, checkedInt?_eq_none_iff]

/-- Where 64 bits do not do, decimals give the same integer. -/
theorem decimalArithmetic_of_unchecked (exact : op.onIntegers? a.toInt b.toInt = some n)
    (unchecked : checkedArithmetic op a b = none) :
    decimalArithmetic op (Decimal.ofInt a.toInt) (Decimal.ofInt b.toInt) =
      decimal (Decimal.ofInt n) := by
  have cause := (checkedArithmetic_eq_none_iff exact).mp unchecked
  cases op with
  | add =>
    cases exact
    rw [decimalArithmetic, Decimal.add_ofInt]
  | sub =>
    cases exact
    rw [decimalArithmetic, Decimal.sub_ofInt]
  | mul =>
    cases exact
    have exceeds : Exceeds (a.toInt * b.toInt) := by simpa [IsLastRemainder] using cause
    have left : a.toInt ≠ 1 := by
      intro one
      rw [one, Int.one_mul] at exceeds
      exact not_exceeds b exceeds
    have right : b.toInt ≠ 1 := by
      intro one
      rw [one, Int.mul_one] at exceeds
      exact not_exceeds a exceeds
    rw [decimalArithmetic, Decimal.mul_ofInt left right]
  | div =>
    simp only [Operator.onIntegers?, Option.ite_none_left_eq_some, Option.some.injEq] at exact
    obtain ⟨nonzero, rfl⟩ := exact
    have exceeds : Exceeds (a.toInt.tdiv b.toInt) := by simpa [IsLastRemainder] using cause
    obtain ⟨-, negOne⟩ := of_exceeds_tdiv (mt toInt_eq_zero_iff.mpr nonzero) exceeds
    rw [decimalArithmetic, if_neg (mt Decimal.isZero_ofInt.mp nonzero), negOne,
      Decimal.div_negOne, Int.tdiv_neg, Int.tdiv_one]
  | mod =>
    simp only [Operator.onIntegers?, Option.ite_none_left_eq_some, Option.some.injEq] at exact
    obtain ⟨nonzero, rfl⟩ := exact
    rw [decimalArithmetic, if_neg (mt Decimal.isZero_ofInt.mp nonzero), Decimal.rem_ofInt]
  | _ => cases exact

theorem integerArithmetic_of_none (none : op.onIntegers? a.toInt b.toInt = none) :
    integerArithmetic op a b = null := by
  rw [integerArithmetic, checkedArithmetic_of_none none, Option.getD_some]

/-- The result of an operation is exact, an integer if 64 bits do. -/
theorem integerArithmetic_of_some (exact : op.onIntegers? a.toInt b.toInt = some n) :
    (∃ m : Int64, m.toInt = n ∧ checkedArithmetic op a b = some (int m) ∧
      integerArithmetic op a b = int m) ∨
    (checkedArithmetic op a b = none ∧
      integerArithmetic op a b = decimal (Decimal.ofInt n)) := by
  cases checked : checkedArithmetic op a b with
  | none =>
    refine .inr ⟨rfl, ?_⟩
    rw [integerArithmetic, checked, Option.getD_none,
      decimalArithmetic_of_unchecked exact checked]
  | some v =>
    have done := checkedArithmetic_of_some exact
    split at done
    next => exact absurd (checked.symm.trans done) (by simp)
    next =>
      obtain ⟨m, fits, rfl⟩ := Option.map_eq_some_iff.mp (done.symm.trans checked)
      refine .inl ⟨m, toInt_of_checkedInt? fits, rfl, ?_⟩
      rw [integerArithmetic, checked, Option.getD_some]

end Operations

/-- A negated integer is exact; that of the least one has more bits. -/
theorem negate_int (n : Int64) :
    (∃ m : Int64, m.toInt = -n.toInt ∧ negate (int n) = int m) ∨
    (Exceeds (-n.toInt) ∧ negate (int n) = decimal (Decimal.ofInt (-n.toInt))) := by
  rw [negate]
  split
  next m fits => exact .inl ⟨m, toInt_of_checkedInt? fits, rfl⟩
  next exceeds => exact .inr ⟨checkedInt?_eq_none_iff.mp exceeds, rfl⟩

/-! ## Exactness -/

theorem onIntegers?_eq_none_iff {op : Operator} (kind : op.isArithmetic = true) {a b : Int} :
    op.onIntegers? a b = none ↔ (op = .div ∨ op = .mod) ∧ b = 0 := by
  cases op with
  | add | sub | mul | div | mod => simp [Operator.onIntegers?]
  | _ => exact absurd kind (by decide)

/-- Arithmetic on integers of 64 bits gives null if and only if it divides by zero, and else the
exact result: as an integer if the operation can be done in 64 bits, as a decimal if its result has
more bits or is the remainder of the least integer by minus one.  A negated integer is exact as
well. -/
theorem arithmetic_int_exact {op : Operator} (kind : op.isArithmetic = true) (a b : Int64) :
    (arithmetic op (int a) (int b) = null ↔ (op = .div ∨ op = .mod) ∧ b = 0) ∧
    (¬((op = .div ∨ op = .mod) ∧ b = 0) → ∃ n, op.onIntegers? a.toInt b.toInt = some n ∧
      ((∃ m : Int64, m.toInt = n ∧ checkedArithmetic op a b = some (int m) ∧
          arithmetic op (int a) (int b) = int m) ∨
        (checkedArithmetic op a b = none ∧
          arithmetic op (int a) (int b) = decimal (Decimal.ofInt n))) ∧
      (checkedArithmetic op a b = none ↔ Exceeds n ∨ IsLastRemainder op a b)) ∧
    ((∃ m : Int64, m.toInt = -a.toInt ∧ negate (int a) = int m) ∨
      (Exceeds (-a.toInt) ∧ negate (int a) = decimal (Decimal.ofInt (-a.toInt)))) := by
  have byZero : op.onIntegers? a.toInt b.toInt = none ↔ (op = .div ∨ op = .mod) ∧ b = 0 := by
    rw [onIntegers?_eq_none_iff kind, toInt_eq_zero_iff]
  cases exact : op.onIntegers? a.toInt b.toInt with
  | none =>
    have zero := byZero.mp exact
    exact ⟨⟨fun _ => zero, fun _ => integerArithmetic_of_none exact⟩,
      fun nonzero => absurd zero nonzero, negate_int a⟩
  | some n =>
    have nonzero : ¬((op = .div ∨ op = .mod) ∧ b = 0) := by
      rw [← byZero, exact]
      exact Option.some_ne_none n
    have result := integerArithmetic_of_some exact
    refine ⟨⟨fun isNull => ?_, fun zero => absurd zero nonzero⟩, fun _ => ⟨n, rfl, result,
      checkedArithmetic_eq_none_iff exact⟩, negate_int a⟩
    rw [arithmetic] at isNull
    rcases result with ⟨m, -, -, done⟩ | ⟨-, done⟩
    · exact absurd (done.symm.trans isNull) (by simp)
    · exact absurd (done.symm.trans isNull) (by simp)

/-- The least integer divided by minus one has more than 64 bits, and its remainder is the decimal
zero. -/
theorem arithmetic_int_exact_least :
    Operator.div.isArithmetic = true ∧ Operator.mod.isArithmetic = true ∧
      arithmetic .div (int Int64.minValue) (int (-1)) = decimal (Decimal.ofInt (2 ^ 63)) ∧
      arithmetic .mod (int Int64.minValue) (int (-1)) = decimal (Decimal.ofInt 0) := by
  have divides : ¬((Operator.div = .div ∨ Operator.div = .mod) ∧ (-1 : Int64) = 0) := by decide
  have leaves : ¬((Operator.mod = .div ∨ Operator.mod = .mod) ∧ (-1 : Int64) = 0) := by decide
  have tooLarge : checkedArithmetic .div Int64.minValue (-1) = none := by decide
  have unchecked : checkedArithmetic .mod Int64.minValue (-1) = none := by decide
  obtain ⟨-, quotient, -⟩ := arithmetic_int_exact (rfl : Operator.div.isArithmetic = true)
    Int64.minValue (-1)
  obtain ⟨-, remainder, -⟩ := arithmetic_int_exact (rfl : Operator.mod.isArithmetic = true)
    Int64.minValue (-1)
  obtain ⟨q, whole, ⟨_, _, done, _⟩ | ⟨_, result⟩, _⟩ := quotient divides
  · exact absurd (tooLarge.symm.trans done) (by simp)
  obtain ⟨r, rest, ⟨_, _, done, _⟩ | ⟨_, last⟩, _⟩ := remainder leaves
  · exact absurd (unchecked.symm.trans done) (by simp)
  cases whole
  cases rest
  exact ⟨rfl, rfl, result, last⟩

end Value

end OData
