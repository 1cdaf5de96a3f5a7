import OData.Proofs.Bound.Typing
import OData.Proofs.Number.Rational

/-!
# Whole numbers

An expression of an integer type evaluates to null, to an integer, or to the decimal that an integer
beyond 64 bits becomes.  Sums, differences, products, remainders and functions keep such a decimal
whole.  A quotient does not: integers are divided without a fraction, but decimals with one, so that
a fraction comes from a division of which an operand was beyond 64 bits, and from nothing else.
-/

set_option autoImplicit false

namespace OData

namespace Value

/-- Null, an integer, or a decimal without a fraction. -/
def isWhole : Value → Bool
  | null | int _ => true
  | decimal d => d.isInteger
  | _ => false

/-- A decimal with a fraction. -/
def hasFraction : Value → Bool
  | decimal d => !d.isInteger
  | _ => false

theorem isInteger_of_hasFraction {d : Decimal} (whole : (decimal d).hasFraction = false) :
    d.isInteger = true := by
  simpa [hasFraction] using whole

theorem hasFraction_of_isWhole {v : Value} (whole : v.isWhole = true) : v.hasFraction = false := by
  cases v with
  | decimal d =>
    rw [hasFraction, show d.isInteger = true from whole]
    rfl
  | _ => rfl

/-- The values of an integer type. -/
theorem kind_of_fits {v : Value} {t : PrimitiveType} (fits : v.Fits (some t))
    (integral : t.isIntegral = true) :
    v = null ∨ v.type? = some .int64 ∨ v.type? = some .decimal := by
  cases v with
  | null => exact .inl rfl
  | int n => exact .inr (.inl rfl)
  | decimal d => exact .inr (.inr rfl)
  | _ =>
    cases t <;> cases fits
    cases integral

theorem isWhole_of_fits {v : Value} {t : PrimitiveType} (fits : v.Fits (some t))
    (integral : t.isIntegral = true) : v.isWhole = !v.hasFraction := by
  rcases kind_of_fits fits integral with rfl | typed | typed
  · rfl
  · cases v <;> cases typed
    rfl
  · cases v <;> cases typed
    simp [isWhole, hasFraction]

/-! ## Operations -/

theorem hasFraction_of_integral {v : Value} (integral : v.Integral) : v.hasFraction = false := by
  cases integral with
  | null => rfl
  | int n => rfl
  | decimal n =>
    rw [hasFraction, Decimal.isInteger_ofInt]
    rfl

/-- Decimals without a fraction give one only by division. -/
theorem hasFraction_decimalArithmetic {op : Operator} {a b : Decimal} (other : op ≠ .div)
    (left : a.isInteger = true) (right : b.isInteger = true) :
    (decimalArithmetic op a b).hasFraction = false := by
  cases op with
  | add => simp [decimalArithmetic, hasFraction, Decimal.isInteger_add left right]
  | sub => simp [decimalArithmetic, hasFraction, Decimal.isInteger_sub left right]
  | mul => simp [decimalArithmetic, hasFraction, Decimal.isInteger_mul left right]
  | div => exact absurd rfl other
  | mod =>
    rw [decimalArithmetic]
    split
    · rfl
    · simp [hasFraction, Decimal.isInteger_rem left right]
  | _ => rfl

theorem hasFraction_doubleArithmetic (op : Operator) (x y : Double) :
    (doubleArithmetic op x y).hasFraction = false := by
  rcases doubleArithmetic_eq op x y with equal | ⟨z, equal⟩
  · rw [equal]
    rfl
  · rw [equal]
    rfl

/-- Arithmetic gives a fraction only if it divides and an operand is a decimal. -/
theorem hasFraction_arithmetic {op : Operator} {a b : Value} (left : a.hasFraction = false)
    (right : b.hasFraction = false)
    (exact : op = .div → a.type? ≠ some .decimal ∧ b.type? ≠ some .decimal) :
    (arithmetic op a b).hasFraction = false := by
  have doubles := hasFraction_doubleArithmetic op
  cases a with
  | int m =>
    cases b with
    | int n => exact hasFraction_of_integral (integral_integerArithmetic op _ _)
    | decimal e =>
      exact hasFraction_decimalArithmetic (fun divides => (exact divides).2 rfl)
        (Decimal.isInteger_ofInt _) (isInteger_of_hasFraction right)
    | double y => exact doubles _ _
    | _ => rfl
  | decimal d =>
    have other : op ≠ .div := fun divides => (exact divides).1 rfl
    have first := isInteger_of_hasFraction left
    cases b with
    | int n => exact hasFraction_decimalArithmetic other first (Decimal.isInteger_ofInt _)
    | decimal e => exact hasFraction_decimalArithmetic other first (isInteger_of_hasFraction right)
    | double y => exact doubles _ _
    | _ => rfl
  | double x =>
    cases b with
    | int n => exact doubles _ _
    | decimal e => exact doubles _ _
    | double y => exact doubles _ _
    | _ => rfl
  | _ => rfl

theorem hasFraction_negate {v : Value} (whole : v.hasFraction = false) :
    v.negate.hasFraction = false := by
  cases v with
  | int n => exact hasFraction_of_integral (integral_negate _)
  | decimal d =>
    simp [negate, hasFraction, Decimal.isInteger_neg (isInteger_of_hasFraction whole)]
  | _ => rfl

/-- Functions give no fraction: those that round a decimal give integers. -/
theorem hasFraction_of_gives {f : CanonicalFunction} {first : Option Value} {v : Value}
    (given : f.Gives first v) : v.hasFraction = false := by
  cases given with
  | null => rfl
  | bool b _ => rfl
  | string s _ => rfl
  | integer integral _ => exact hasFraction_of_integral integral
  | rounded _ _ _ whole =>
    cases v with
    | decimal d => exact hasFraction_of_integral (whole d rfl)
    | _ => rfl

end Value

namespace BoundExpr

variable {ty : EntityType} {record : Record}

/-- Whether a static type is one of integers, or there is none. -/
def IsInteger (type : Option PrimitiveType) : Prop := ∀ t ∈ type, t.isIntegral = true

theorem isInteger_none : IsInteger none := by simp [IsInteger]

theorem isInteger_of_widen {s t : Option PrimitiveType} (left : IsNumber s) (right : IsNumber t)
    (integer : IsInteger (widen s t)) : IsInteger s ∧ IsInteger t := by
  cases s with
  | none => cases t <;> exact ⟨isInteger_none, integer⟩
  | some a =>
    cases t with
    | none => exact ⟨integer, isInteger_none⟩
    | some b =>
      have numeric := left a rfl
      have numeric' := right b rfl
      cases a <;> cases numeric <;> cases b <;> cases numeric' <;> first
        | exact ⟨fun _ same => by cases same; rfl, fun _ same => by cases same; rfl⟩
        | cases integer _ rfl

/-- Whether the divisions with an integer type in an expression that have a decimal operand give
whole quotients. -/
def WholeQuotients (record : Record) (e : BoundExpr) : Prop :=
  ∀ l r t, arithmetic .div l r ∈ e.parts → (arithmetic .div l r).type? = some t →
    t.isIntegral = true →
    (l.evaluate record).type? = some .decimal ∨ (r.evaluate record).type? = some .decimal →
    ((arithmetic .div l r).evaluate record).isWhole = true

theorem WholeQuotients.part {e part : BoundExpr} (quotients : WholeQuotients record e)
    (inside : part ∈ e.parts) : WholeQuotients record part :=
  fun l r t among => quotients l r t (parts_subset inside among)

theorem WholeQuotients.child {e child : BoundExpr} (quotients : WholeQuotients record e)
    (inside : child ∈ e.children) : WholeQuotients record child :=
  quotients.part (mem_parts_iff.mpr (.inr ⟨child, inside, mem_parts_self child⟩))

theorem hasFraction_evaluate {e : BoundExpr} (types : ty.Types record) (checked : Checked ty e)
    (integer : IsInteger e.type?) (quotients : WholeQuotients record e) :
    (e.evaluate record).hasFraction = false := by
  induction checked with
  | literal v =>
    cases v with
    | decimal d => cases integer _ rfl
    | _ => rfl
  | @property property declared =>
    rw [evaluate]
    cases value : record.value property.name with
    | decimal d =>
      have found := types property (List.mem_of_find?_eq_some declared)
      have integral := integer _ rfl
      rw [value] at found
      rcases found with null | typed | ⟨typed, -⟩
      · cases null
      · cases Option.some.inj typed.symm ▸ integral
      · cases typed
    | _ => rfl
  | @arithmetic op l r left right numberL numberR ihL ihR =>
    obtain ⟨integerL, integerR⟩ := isInteger_of_widen numberL numberR integer
    have first := ihL integerL (quotients.child (by simp [children]))
    have second := ihR integerR (quotients.child (by simp [children]))
    by_cases decimals : op = .div ∧
      ((l.evaluate record).type? = some .decimal ∨ (r.evaluate record).type? = some .decimal)
    · obtain ⟨rfl, operand⟩ := decimals
      cases typed : (arithmetic .div l r).type? with
      | some t =>
        exact Value.hasFraction_of_isWhole
          (quotients l r t (mem_parts_self _) typed (integer t typed) operand)
      | none =>
        have quotient : Checked ty (BoundExpr.arithmetic .div l r) :=
          .arithmetic left right numberL numberR
        have fits := fits_evaluate types quotient
        rw [typed] at fits
        rw [fits]
        rfl
    · refine Value.hasFraction_arithmetic first second fun divides => ?_
      rw [← not_or]
      exact fun operand => decimals ⟨divides, operand⟩
  | @negate e operand ih =>
    exact Value.hasFraction_negate (ih integer (quotients.child (by simp [children])))
  | call each ih => exact Value.hasFraction_of_gives (Value.gives_call _ _)
  | _ => rfl

/-- An expression of an integer type is null, an integer or a decimal.  All these are whole if and
only if the quotients of decimals among them are. -/
theorem isWhole_iff_of_bind {e : Expr} {bound : BoundExpr} (accepted : bind ty e = .ok bound)
    (types : ty.Types record) :
    (∀ part ∈ bound.parts, ∀ t, part.type? = some t → t.isIntegral = true →
      part.evaluate record = .null ∨ (part.evaluate record).type? = some .int64 ∨
        (part.evaluate record).type? = some .decimal) ∧
    ((∀ part ∈ bound.parts, ∀ t, part.type? = some t → t.isIntegral = true →
      (part.evaluate record).isWhole = true) ↔ WholeQuotients record bound) := by
  have checked := checked_of_bind accepted
  have fits : ∀ part ∈ bound.parts, ∀ t, part.type? = some t →
      (part.evaluate record).Fits (some t) := by
    intro part inside t typed
    rw [← typed]
    exact fits_evaluate types (checked.part inside)
  refine ⟨?_, ?_, ?_⟩
  · intro part inside t typed integral
    exact Value.kind_of_fits (fits part inside t typed) integral
  · intro whole l r t inside typed integral _
    exact whole _ inside t typed integral
  · intro quotients part inside t typed integral
    have integer : IsInteger part.type? := by
      rw [typed]
      rintro _ ⟨⟩
      exact integral
    rw [Value.isWhole_of_fits (fits part inside t typed) integral,
      hasFraction_evaluate types (checked.part inside) integer (quotients.part inside)]
    rfl

/-- A quarter of a sum beyond 64 bits that four divides. -/
def quarter : BoundExpr :=
  arithmetic .div (arithmetic .add (literal (.int 9223372036854775807))
    (property years.name .int32)) (literal (.int 4))

theorem isWhole_iff_of_bind_lion : (quarter.evaluate lion).isWhole = true := by
  have accepted : bind animal (.binary .div (.binary .add (.literal (.int 9223372036854775807))
      (.path ["years"])) (.literal (.int 4))) = .ok quarter := rfl
  have value : quarter.evaluate lion = .decimal ⟨2305843009213693954, 0⟩ := by decide +kernel
  have quotients : WholeQuotients lion quarter := by
    intro l r t inside _ _ _
    have only : arithmetic .div l r = quarter := by simpa [quarter, parts] using inside
    rw [only, value]
    rfl
  exact (isWhole_iff_of_bind accepted types_lion).2.mpr quotients quarter (mem_parts_self _) .int64
    rfl rfl

/-- A third of the first integer beyond 64 bits has a fraction. -/
example : ((arithmetic .div (arithmetic .add (literal (.int 9223372036854775807))
    (literal (.int 1))) (literal (.int 3))).evaluate lion).isWhole = false := by decide +kernel

end BoundExpr

end OData
