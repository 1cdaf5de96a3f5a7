import OData.Number.Double

/-!
# Floating-point numbers: the two zeros

There are two zeros, and no order and no result of arithmetic tells them apart but by the sign of
another zero.  Hence a number subtracted from zero is the negated number, up to the sign of a zero.
-/

set_option autoImplicit false

namespace OData.Double

open Float.Model

/-- The same number, or two zeros. -/
inductive Alike : Double → Double → Prop
  | refl (x : Double) : Alike x x
  | zeros {x y : Double} (left : x.isZero = true) (right : y.isZero = true) : Alike x y

namespace Alike

variable {x x' y y' : Double}

theorem isZero_eq (alike : Alike x y) : x.isZero = y.isZero := by
  cases alike with
  | refl => rfl
  | zeros left right => rw [left, right]

end Alike

theorem size_of_isZero {x : Double} (zero : x.isZero = true) : x.size = 0 := by
  rwa [isZero, beq_iff_eq] at zero

/-! ## Unpacked numbers -/

def unpacked (x : Double) : UnpackedFloat := x.toFloat.toModel.unpack

def packed (u : UnpackedFloat) : Double := ofFloat ⟨pack u⟩

theorem isZero_iff (x : Double) : x.isZero = true ↔ x.bits = 0 ∨ x.bits = 0x8000000000000000 := by
  have bound := x.bits.toNat_lt
  rw [isZero, size, beq_iff_eq, ← UInt64.toNat_inj, ← UInt64.toNat_inj]
  simp only [UInt64.toNat_ofNat]
  omega

theorem exists_unpacked_zero {x : Double} (zero : x.isZero = true) :
    ∃ sign, x.unpacked = .zero sign := by
  obtain ⟨bits⟩ := x
  rcases (isZero_iff ⟨bits⟩).mp zero with positive | negative
  · cases positive
    exact ⟨.positive, rfl⟩
  · cases negative
    exact ⟨.negative, rfl⟩

theorem isZero_packed (sign : UnpackedFloat.Sign) : (packed (.zero sign)).isZero = true := by
  cases sign <;> decide +kernel

/-- The same unpacked number, or two zeros. -/
inductive Near : UnpackedFloat → UnpackedFloat → Prop
  | refl (u : UnpackedFloat) : Near u u
  | zeros (s t : UnpackedFloat.Sign) : Near (.zero s) (.zero t)

theorem Alike.near {x y : Double} (alike : Alike x y) : Near x.unpacked y.unpacked := by
  cases alike with
  | refl => exact .refl _
  | zeros left right =>
    obtain ⟨s, unpackedLeft⟩ := exists_unpacked_zero left
    obtain ⟨t, unpackedRight⟩ := exists_unpacked_zero right
    rw [unpackedLeft, unpackedRight]
    exact .zeros s t

theorem Near.trans {u v w : UnpackedFloat} (first : Near u v) (second : Near v w) : Near u w := by
  cases first with
  | refl => exact second
  | zeros s t =>
    cases second with
    | refl => exact .zeros s t
    | zeros _ r => exact .zeros s r

theorem Near.alike {u v : UnpackedFloat} (near : Near u v) : Alike (packed u) (packed v) := by
  cases near with
  | refl => exact .refl _
  | zeros s t => exact .zeros (isZero_packed s) (isZero_packed t)

section Operations

variable {u u' v v' : UnpackedFloat}

theorem near_zero_ite (p q : Prop) [Decidable p] [Decidable q] (s t s' t' : UnpackedFloat.Sign) :
    Near (if p then .zero s else .zero t) (if q then .zero s' else .zero t') := by
  split
  · split
    · exact .zeros s s'
    · exact .zeros s t'
  · split
    · exact .zeros t s'
    · exact .zeros t t'

/-- An operation that does not tell two zeros apart on either side is one of the numbers up to the
signs of zeros. -/
theorem near_binary {op : UnpackedFloat → UnpackedFloat → UnpackedFloat}
    (onLeft : ∀ s t w, Near (op (.zero s) w) (op (.zero t) w))
    (onRight : ∀ w s t, Near (op w (.zero s)) (op w (.zero t)))
    (left : Near u u') (right : Near v v') : Near (op u v) (op u' v') := by
  have first : Near (op u v) (op u' v) := by
    cases left with
    | refl => exact .refl _
    | zeros s t => exact onLeft s t v
  have second : Near (op u' v) (op u' v') := by
    cases right with
    | refl => exact .refl _
    | zeros s t => exact onRight u' s t
  exact first.trans second

theorem near_add (left : Near u u') (right : Near v v') :
    Near (UnpackedFloat.add .binary64 u v) (UnpackedFloat.add .binary64 u' v') := by
  refine near_binary (fun s t w => ?_) (fun w s t => ?_) left right
  · cases w with
    | zero r => exact near_zero_ite _ _ _ _ _ _
    | _ => exact .refl _
  · cases w with
    | zero r => exact near_zero_ite _ _ _ _ _ _
    | _ => exact .refl _

theorem near_sub (left : Near u u') (right : Near v v') :
    Near (UnpackedFloat.sub .binary64 u v) (UnpackedFloat.sub .binary64 u' v') := by
  refine near_binary (fun s t w => ?_) (fun w s t => ?_) left right
  · cases w with
    | zero r => exact near_zero_ite _ _ _ _ _ _
    | _ => exact .refl _
  · cases w with
    | zero r => exact near_zero_ite _ _ _ _ _ _
    | _ => exact .refl _

/-- A product with a zero is a zero or not a number, whatever the signs. -/
theorem near_mul (left : Near u u') (right : Near v v') :
    Near (UnpackedFloat.mul .binary64 u v) (UnpackedFloat.mul .binary64 u' v') := by
  refine near_binary (fun s t w => ?_) (fun w s t => ?_) left right
  · cases w with
    | zero r => exact .zeros _ _
    | finite r m e positive => exact .zeros _ _
    | _ => exact .refl _
  · cases w with
    | zero r => exact .zeros _ _
    | finite r m e positive => exact .zeros _ _
    | _ => exact .refl _

theorem near_div (left : Near u u') (v : UnpackedFloat) :
    Near (UnpackedFloat.div .binary64 u v) (UnpackedFloat.div .binary64 u' v) := by
  cases left with
  | refl => exact .refl _
  | zeros s t =>
    cases v with
    | finite r m e positive => exact .zeros _ _
    | infinity r => exact .zeros _ _
    | _ => exact .refl _

/-- Zero minus a number is the negated number. -/
theorem near_neg (sign : UnpackedFloat.Sign) (u : UnpackedFloat) :
    Near (UnpackedFloat.neg u) (UnpackedFloat.sub .binary64 (.zero sign) u) := by
  cases u with
  | zero r => cases sign <;> cases r <;> exact .zeros _ _
  | _ => exact .refl _

end Operations

/-! ## Arithmetic -/

namespace Alike

variable {x x' y y' : Double}

theorem add (left : Alike x x') (right : Alike y y') : Alike (x.add y) (x'.add y') :=
  (near_add left.near right.near).alike

theorem sub (left : Alike x x') (right : Alike y y') : Alike (x.sub y) (x'.sub y') :=
  (near_sub left.near right.near).alike

theorem mul (left : Alike x x') (right : Alike y y') : Alike (x.mul y) (x'.mul y') :=
  (near_mul left.near right.near).alike

theorem div (left : Alike x x') (y : Double) : Alike (x.div y) (x'.div y) :=
  (near_div left.near y.unpacked).alike

theorem neg (alike : Alike x y) {zero : Double} (isZero : zero.isZero = true) :
    Alike x.neg (zero.sub y) := by
  have flipped : Alike x.neg (zero.sub x) := by
    obtain ⟨sign, unpackedZero⟩ := exists_unpacked_zero isZero
    have near := near_neg sign x.unpacked
    rw [← unpackedZero] at near
    exact near.alike
  cases alike with
  | refl => exact flipped
  | zeros left right =>
    have negated : x.neg.isZero = true := by
      obtain ⟨sign, unpackedZero⟩ := exists_unpacked_zero left
      have unfolded : x.neg = packed (UnpackedFloat.neg x.unpacked) := rfl
      rw [unfolded, unpackedZero]
      exact isZero_packed _
    have same := (Alike.sub (.refl zero) (.zeros left right)).isZero_eq
    rw [← flipped.isZero_eq, negated] at same
    exact .zeros negated same.symm

/-- The remainder of a zero is a zero. -/
theorem rem (left : Alike x x') (y : Double) : Alike (x.rem y) (x'.rem y) := by
  cases left with
  | refl => exact .refl _
  | zeros left right =>
    have remainder : ∀ {z : Double}, z.isZero = true → z.rem y =
        if y.isNaN || y.isZero then nan else if !y.isFinite then z else ofSize z.isNegative 0 := by
      intro z zero
      have size := size_of_isZero zero
      have finite : z.isFinite = true := by
        rw [isFinite, size]
        decide
      have parts : z.parts = (0, -1074) := by
        rw [Double.parts, size]
        rfl
      rw [Double.rem, finite, parts]
      simp only [Nat.zero_mul, Nat.zero_mod, ofRatio, Bool.not_true, Bool.false_or, if_true]
    have signed : ∀ negative, (ofSize negative 0).isZero = true := by decide
    rw [remainder left, remainder right]
    split
    · exact .refl _
    · split
      · exact .zeros left right
      · exact .zeros (signed _) (signed _)

/-! ## Order -/

theorem orderKey_eq (alike : Alike x y) : x.orderKey = y.orderKey ∧ x.isNaN = y.isNaN := by
  cases alike with
  | refl => exact ⟨rfl, rfl⟩
  | zeros left right =>
    have sizeLeft := size_of_isZero left
    have sizeRight := size_of_isZero right
    simp [orderKey, isNaN, sizeLeft, sizeRight]

theorem compare_eq (left : Alike x x') (right : Alike y y') : x.compare y = x'.compare y' := by
  obtain ⟨keyLeft, nanLeft⟩ := left.orderKey_eq
  obtain ⟨keyRight, nanRight⟩ := right.orderKey_eq
  rw [compare, compare, keyLeft, nanLeft, keyRight, nanRight]

end Alike

end OData.Double
