import OData.Proofs.Bound.Binding
import OData.Proofs.Bound.Operations
import OData.Proofs.Number.Magnitude
import OData.Proofs.Value.Order

/-!
# Static types

The binder compares operands only if their types have an order among them.  An expression evaluates
to null or to a value that its static type admits: one of the type, and for an integer type also the
decimal that an integer beyond 64 bits becomes.  Hence a comparison in a bound expression finds an
order between any two values but null and NaN.
-/

set_option autoImplicit false

namespace OData

namespace BoundExpr

/-! ## Subexpressions -/

mutual

/-- An expression and all expressions inside it. -/
def parts : BoundExpr → List BoundExpr
  | literal v => [literal v]
  | property name type => [property name type]
  | compare op l r => compare op l r :: (l.parts ++ r.parts)
  | and l r => and l r :: (l.parts ++ r.parts)
  | or l r => or l r :: (l.parts ++ r.parts)
  | not e => not e :: e.parts
  | arithmetic op l r => arithmetic op l r :: (l.parts ++ r.parts)
  | negate e => negate e :: e.parts
  | member e items => member e items :: (e.parts ++ partsAll items)
  | call f arguments => call f arguments :: partsAll arguments

def partsAll : List BoundExpr → List BoundExpr
  | [] => []
  | e :: rest => e.parts ++ partsAll rest

end

theorem mem_partsAll {part : BoundExpr} {items : List BoundExpr} :
    part ∈ partsAll items ↔ ∃ item ∈ items, part ∈ item.parts := by
  induction items with
  | nil => simp [partsAll]
  | cons e rest ih => simp [partsAll, ih]

/-- The operands of an expression. -/
def children : BoundExpr → List BoundExpr
  | literal _ | property _ _ => []
  | compare _ l r | and l r | or l r | arithmetic _ l r => [l, r]
  | not e | negate e => [e]
  | member e items => e :: items
  | call _ arguments => arguments

theorem mem_parts_iff {e part : BoundExpr} :
    part ∈ e.parts ↔ part = e ∨ ∃ child ∈ e.children, part ∈ child.parts := by
  cases e <;> simp [parts, children, mem_partsAll]

theorem mem_parts_self (e : BoundExpr) : e ∈ e.parts := mem_parts_iff.mpr (.inl rfl)

theorem sizeOf_child {e child : BoundExpr} (inside : child ∈ e.children) :
    sizeOf child < sizeOf e := by
  cases e with
  | literal _ => cases inside
  | property _ _ => cases inside
  | call f arguments =>
    have smaller : sizeOf child < sizeOf arguments := List.sizeOf_lt_of_mem inside
    simp only [call.sizeOf_spec]
    omega
  | member e items =>
    rcases List.mem_cons.mp inside with rfl | inside
    · simp only [member.sizeOf_spec]
      omega
    · have smaller := List.sizeOf_lt_of_mem inside
      simp only [member.sizeOf_spec]
      omega
  | not e | negate e =>
    rw [children, List.mem_singleton] at inside
    subst inside
    simp only [not.sizeOf_spec, negate.sizeOf_spec]
    omega
  | and l r | or l r | compare op l r | arithmetic op l r =>
    simp only [children, List.mem_cons, List.not_mem_nil, or_false] at inside
    simp only [and.sizeOf_spec, or.sizeOf_spec, compare.sizeOf_spec, arithmetic.sizeOf_spec]
    rcases inside with rfl | rfl
    · omega
    · omega

/-- What passes from the operands to an expression holds of all expressions. -/
theorem children_induct {P : BoundExpr → Prop}
    (step : ∀ e, (∀ child ∈ e.children, P child) → P e) (e : BoundExpr) : P e := by
  induction size : sizeOf e using Nat.strong_induction_on generalizing e with
  | _ n ih =>
    subst size
    exact step e fun child inside => ih _ (sizeOf_child inside) child rfl

/-- A subexpression contains its own subexpressions. -/
theorem parts_subset {e part : BoundExpr} (inside : part ∈ e.parts) : part.parts ⊆ e.parts := by
  induction e using children_induct with
  | step e ih =>
    rcases mem_parts_iff.mp inside with rfl | ⟨child, among, found⟩
    · exact List.Subset.refl _
    · intro inner within
      exact mem_parts_iff.mpr (.inr ⟨child, among, ih child among found within⟩)

/-! ## What the binder checks -/

/-- Whether values of two static types can be compared; an expression without a type is null. -/
def Comparable (s t : Option PrimitiveType) : Prop := ∀ a ∈ s, ∀ b ∈ t, a.comparable b = true

/-- Static types of one expression before and after coercion. -/
def Related : Option PrimitiveType → Option PrimitiveType → Prop :=
  Option.Rel fun a b => a.comparable b = true

theorem Related.refl (t : Option PrimitiveType) : Related t t := by
  cases t with
  | none => exact .none
  | some a => exact .some a.comparable_self

theorem Related.trans {s t u : Option PrimitiveType} (first : Related s t) (second : Related t u) :
    Related s u := by
  cases first with
  | none => exact second
  | some here =>
    cases second with
    | some there => exact .some (PrimitiveType.comparable_trans here there)

theorem Comparable.symm {s t : Option PrimitiveType} (comparable : Comparable s t) :
    Comparable t s := by
  intro b right a left
  rw [PrimitiveType.comparable_comm]
  exact comparable a left b right

theorem Comparable.of_related {s t u : Option PrimitiveType} (comparable : Comparable s u)
    (related : Related s t) : Comparable t u := by
  cases related with
  | none => exact comparable
  | @some a b here =>
    intro b' same c typed
    cases same
    rw [PrimitiveType.comparable_comm] at here
    exact PrimitiveType.comparable_trans here (comparable a rfl c typed)

/-- Bound expressions over the properties of a type whose comparisons are between comparable types
and whose arithmetic is among numbers. -/
inductive Checked (ty : EntityType) : BoundExpr → Prop
  | literal (v : Value) : Checked ty (literal v)
  | property {property : Property} (declared : ty.property? property.name.text = some property) :
    Checked ty (BoundExpr.property property.name property.type)
  | compare {op : Operator} {l r : BoundExpr} (left : Checked ty l) (right : Checked ty r)
    (comparable : Comparable l.type? r.type?) : Checked ty (compare op l r)
  | and {l r : BoundExpr} (left : Checked ty l) (right : Checked ty r) : Checked ty (and l r)
  | or {l r : BoundExpr} (left : Checked ty l) (right : Checked ty r) : Checked ty (or l r)
  | not {e : BoundExpr} (operand : Checked ty e) : Checked ty (not e)
  | arithmetic {op : Operator} {l r : BoundExpr} (left : Checked ty l) (right : Checked ty r)
    (numberL : IsNumber l.type?) (numberR : IsNumber r.type?) : Checked ty (arithmetic op l r)
  | negate {e : BoundExpr} (operand : Checked ty e) : Checked ty (negate e)
  | member {e : BoundExpr} {items : List BoundExpr} (element : Checked ty e)
    (each : ∀ item ∈ items, Checked ty item)
    (comparable : ∀ item ∈ items, Comparable e.type? item.type?) : Checked ty (member e items)
  | call {f : CanonicalFunction} {arguments : List BoundExpr}
    (each : ∀ argument ∈ arguments, Checked ty argument) : Checked ty (call f arguments)

/-- A coercion changes at most the type of a literal number. -/
structure Coerced (before after : BoundExpr) : Prop where
  related : Related before.type? after.type?
  literal : before = after ∨ ∃ v, after = literal v

theorem Coerced.refl (e : BoundExpr) : Coerced e e := ⟨.refl _, .inl rfl⟩

theorem Coerced.trans {first next last : BoundExpr} (before : Coerced first next)
    (after : Coerced next last) : Coerced first last := by
  refine ⟨before.related.trans after.related, ?_⟩
  rcases after.literal with rfl | literal
  · exact before.literal
  · exact .inr literal

theorem Coerced.checked {ty : EntityType} {before after : BoundExpr}
    (coerced : Coerced before after) (checked : Checked ty before) : Checked ty after := by
  rcases coerced.literal with rfl | ⟨v, rfl⟩
  · exact checked
  · exact .literal v

theorem coerced_of_coerceTo {v w : Value} {s t : PrimitiveType} (typed : v.type? = some s)
    (coerced : v.coerceTo t = .ok w) : Coerced (literal v) (literal w) := by
  refine ⟨?_, .inr ⟨w, rfl⟩⟩
  have present : w ≠ .null := by
    rintro rfl
    have null := Value.isNull_iff.mp (Value.isNull_of_coerceTo coerced).symm
    subst null
    cases typed
  obtain ⟨b, after⟩ := Value.exists_type? present
  rw [type?, type?, typed, after]
  exact .some (Value.comparable_of_coerceTo coerced typed after)

/-- Operands are accepted for a comparison if their types are comparable. -/
theorem comparable_of_coercePair {l r : BoundExpr} {p : BoundExpr × BoundExpr}
    (pair : coercePair l r = .ok p) : Comparable l.type? r.type? := by
  intro s left t right
  rw [Option.mem_def] at left right
  rw [coercePair, left, right] at pair
  simp only at pair
  split at pair
  next same => exact same ▸ s.comparable_self
  next =>
    split at pair
    next numbers => rw [PrimitiveType.comparable, numbers, Bool.or_true]
    next => cases pair

theorem coerced_of_coercePair {l r : BoundExpr} {p : BoundExpr × BoundExpr}
    (pair : coercePair l r = .ok p) :
    Comparable l.type? r.type? ∧ Coerced l p.1 ∧ Coerced r p.2 := by
  refine ⟨comparable_of_coercePair pair, ?_⟩
  cases coercesTo_of_coercePair pair with
  | kept => exact ⟨.refl _, .refl _⟩
  | first typed _ coerced => exact ⟨coerced_of_coerceTo typed coerced, .refl _⟩
  | second typed _ coerced => exact ⟨.refl _, coerced_of_coerceTo typed coerced⟩

theorem Comparable.of_coerced {l l' r r' : BoundExpr} (comparable : Comparable l.type? r.type?)
    (left : Coerced l l') (right : Coerced r r') : Comparable l'.type? r'.type? :=
  ((comparable.of_related left.related).symm.of_related right.related).symm

/-- The element of a membership is comparable with each item, also after it was coerced again. -/
theorem checked_of_bindItems {ty : EntityType} {items : List Expr} {element : BoundExpr}
    {p : BoundExpr × List BoundExpr} (checked : Checked ty element)
    (each : ∀ e ∈ items, ∀ {bound}, bind ty e = .ok bound → Checked ty bound)
    (accepted : bindItems ty element items = .ok p) : Coerced element p.1 ∧
      ∀ item ∈ p.2, Checked ty item ∧ Comparable p.1.type? item.type? := by
  induction items generalizing element p with
  | nil =>
    cases accepted
    exact ⟨.refl _, fun _ found => absurd found List.not_mem_nil⟩
  | cons e rest ih =>
    obtain ⟨here, later⟩ := List.forall_mem_cons.mp each
    obtain ⟨item, ⟨next, taken⟩, ⟨last, others⟩, bound, pair, boundRest, rfl⟩ :=
      bindItems_cons_eq_ok.mp accepted
    obtain ⟨comparable, first, second⟩ := coerced_of_coercePair pair
    obtain ⟨again, checkedRest⟩ := ih (first.checked checked) later boundRest
    have whole := first.trans again
    exact ⟨whole, List.forall_mem_cons.mpr
      ⟨⟨second.checked (here bound), comparable.of_coerced whole second⟩, checkedRest⟩⟩

theorem checked_of_bind {ty : EntityType} {e : Expr} {bound : BoundExpr}
    (accepted : bind ty e = .ok bound) : Checked ty bound := by
  refine bind_induct (P := fun _ bound => Checked ty bound)
    ?literal ?property ?and ?or ?compare ?arithmetic ?not ?negate ?member ?call accepted
  case literal => exact .literal
  case property =>
    intro p found resolved
    exact .property (property?_of_resolve resolved)
  case and =>
    intro _ _ _ _ left right _ _
    exact .and left right
  case or =>
    intro _ _ _ _ left right _ _
    exact .or left right
  case compare =>
    intro _ _ _ _ _ p _ left right pair
    obtain ⟨comparable, first, second⟩ := coerced_of_coercePair pair
    exact .compare (first.checked left) (second.checked right) (comparable.of_coerced first second)
  case arithmetic =>
    intro _ _ _ _ _ _ left right numberL numberR
    exact .arithmetic left right numberL numberR
  case not =>
    intro _ _ operand _
    exact .not operand
  case negate =>
    intro _ _ operand _
    exact .negate operand
  case member =>
    intro _ items a p element each boundItems
    obtain ⟨coerced, checked⟩ := checked_of_bindItems element each boundItems
    exact .member (coerced.checked element) (fun item inside => (checked item inside).1)
      fun item inside => (checked item inside).2
  case call =>
    intro _ arguments bounds each _
    refine .call fun argument inside => ?_
    obtain ⟨_, -, checked⟩ := exists_of_mem_forall₂ each inside
    exact checked

theorem Checked.child {ty : EntityType} {e child : BoundExpr} (checked : Checked ty e)
    (inside : child ∈ e.children) : Checked ty child := by
  have both : ∀ {l r}, Checked ty l → Checked ty r → ∀ operand ∈ [l, r], Checked ty operand :=
    fun left right => List.forall_mem_cons.mpr ⟨left, List.forall_mem_singleton.mpr right⟩
  cases checked with
  | literal _ => cases inside
  | property _ => cases inside
  | compare left right _ => exact both left right child inside
  | and left right => exact both left right child inside
  | or left right => exact both left right child inside
  | arithmetic left right _ _ => exact both left right child inside
  | not operand => exact List.forall_mem_singleton.mpr operand child inside
  | negate operand => exact List.forall_mem_singleton.mpr operand child inside
  | member element each _ => exact List.forall_mem_cons.mpr ⟨element, each⟩ child inside
  | call each => exact each child inside

theorem Checked.part {ty : EntityType} {e part : BoundExpr} (checked : Checked ty e)
    (inside : part ∈ e.parts) : Checked ty part := by
  induction e using children_induct with
  | step e ih =>
    rcases mem_parts_iff.mp inside with rfl | ⟨child, among, found⟩
    · exact checked
    · exact ih child among (checked.child among) found

end BoundExpr

/-! ## Values of a type -/

namespace PrimitiveType

/-- Whether an expression of a type may have a value; an integer may have become a decimal. -/
def admits (t : PrimitiveType) (v : Value) : Bool :=
  v.isNull || v.type? == some t ||
    (t.isIntegral && (v.type? == some .int64 || v.type? == some .decimal))

/-- An integer type or the one of decimals. -/
def isExact (t : PrimitiveType) : Bool := t.isIntegral || t == .decimal

theorem isExact_of_isIntegral {t : PrimitiveType} (integral : t.isIntegral = true) :
    t.isExact = true := by
  rw [isExact, integral, Bool.true_or]

theorem admits_null (t : PrimitiveType) : t.admits .null = true := rfl

end PrimitiveType

/-- Whether an expression of a static type, or of none, may have a value. -/
def Value.Fits (v : Value) : Option PrimitiveType → Prop
  | none => v = null
  | some t => t.admits v = true

/-- Whether a record has null or a value of the type for each property.  Integers of any size count
for both integer types. -/
def EntityType.Types (ty : EntityType) (record : Record) : Prop :=
  ∀ property ∈ ty.properties, (record.value property.name).isNull = true ∨
    (record.value property.name).type? = some property.type ∨
    (record.value property.name).type? = some .int64 ∧ property.type = .int32

namespace BoundExpr

theorem widen_integral {s t : PrimitiveType} (left : s.isIntegral = true)
    (right : t.isIntegral = true) :
    ∃ u, widen (some s) (some t) = some u ∧ u.isIntegral = true := by
  cases s <;> cases left <;> cases t <;> cases right <;> exact ⟨_, rfl, rfl⟩

theorem widen_exact {s t : PrimitiveType} (left : s.isExact = true) (right : t.isExact = true) :
    ∃ u, widen (some s) (some t) = some u ∧ u.isExact = true := by
  cases s <;> cases left <;> cases t <;> cases right <;> exact ⟨_, rfl, rfl⟩

theorem widen_double (s : PrimitiveType) : widen (some s) (some .double) = some .double := by
  cases s <;> rfl

theorem double_widen (t : PrimitiveType) : widen (some .double) (some t) = some .double := by
  cases t <;> rfl

end BoundExpr

namespace Value

theorem fits_null (t : Option PrimitiveType) : null.Fits t := by
  cases t with
  | none => rfl
  | some t => exact t.admits_null

theorem fits_decimal {t : PrimitiveType} (exact : t.isExact = true) (d : Decimal) :
    (decimal d).Fits (some t) := by
  cases t <;> cases exact <;> rfl

theorem fits_of_integral {v : Value} {t : PrimitiveType} (integral : v.Integral)
    (type : t.isIntegral = true) : v.Fits (some t) := by
  cases integral with
  | null => exact fits_null _
  | int n => simp [Fits, PrimitiveType.admits, type, type?]
  | decimal n => exact fits_decimal (PrimitiveType.isExact_of_isIntegral type) _

/-- What a static type admits depends on nothing else of a value than its own type. -/
theorem fits_of_type?_eq {v w : Value} {t : Option PrimitiveType} (kind : w.type? = v.type?)
    (fits : v.Fits t) : w.Fits t := by
  cases t with
  | none =>
    cases fits
    cases w <;> cases kind
    rfl
  | some t =>
    cases v <;> cases w <;> cases kind <;> exact fits

theorem exists_of_fits_int {n : Int64} {t : Option PrimitiveType} (fits : (int n).Fits t) :
    ∃ a, t = some a ∧ a.isIntegral = true := by
  cases t with
  | none => cases fits
  | some a => exact ⟨a, rfl, by cases a <;> cases fits <;> rfl⟩

theorem exists_of_fits_decimal {d : Decimal} {t : Option PrimitiveType}
    (fits : (decimal d).Fits t) : ∃ a, t = some a ∧ a.isExact = true := by
  cases t with
  | none => cases fits
  | some a => exact ⟨a, rfl, by cases a <;> cases fits <;> rfl⟩

theorem eq_of_fits_double {x : Double} {t : Option PrimitiveType} (fits : (double x).Fits t) :
    t = some .double := by
  cases t with
  | none => cases fits
  | some a => cases a <;> cases fits; rfl

/-! ### Arithmetic -/

theorem fits_decimalArithmetic {t : PrimitiveType} (exact : t.isExact = true) (op : Operator)
    (a b : Decimal) : (decimalArithmetic op a b).Fits (some t) := by
  have each := fits_decimal exact
  cases op with
  | add => exact each _
  | sub => exact each _
  | mul => exact each _
  | div =>
    rw [decimalArithmetic]
    split
    · exact fits_null _
    · exact each _
  | mod =>
    rw [decimalArithmetic]
    split
    · exact fits_null _
    · exact each _
  | _ => exact fits_null _

theorem fits_doubleArithmetic (op : Operator) (x y : Double) :
    (doubleArithmetic op x y).Fits (some .double) := by
  rcases doubleArithmetic_eq op x y with equal | ⟨z, equal⟩
  · rw [equal]
    exact fits_null _
  · rw [equal]
    rfl

/-- Arithmetic keeps to the wider static type: where an operand is no number it gives null. -/
theorem fits_arithmetic {op : Operator} {a b : Value} {s t : Option PrimitiveType} (left : a.Fits s)
    (right : b.Fits t) : (arithmetic op a b).Fits (BoundExpr.widen s t) := by
  cases a with
  | int m =>
    obtain ⟨u, rfl, integralL⟩ := exists_of_fits_int left
    cases b with
    | int n =>
      obtain ⟨v, rfl, integralR⟩ := exists_of_fits_int right
      obtain ⟨w, wider, integral⟩ := BoundExpr.widen_integral integralL integralR
      rw [wider]
      exact fits_of_integral (integral_integerArithmetic op _ _) integral
    | decimal e =>
      obtain ⟨v, rfl, exactR⟩ := exists_of_fits_decimal right
      obtain ⟨w, wider, exact⟩ :=
        BoundExpr.widen_exact (PrimitiveType.isExact_of_isIntegral integralL) exactR
      rw [wider]
      exact fits_decimalArithmetic exact op _ _
    | double y =>
      rw [eq_of_fits_double right, BoundExpr.widen_double]
      exact fits_doubleArithmetic op _ _
    | _ => exact fits_null _
  | decimal d =>
    obtain ⟨u, rfl, exactL⟩ := exists_of_fits_decimal left
    cases b with
    | int n =>
      obtain ⟨v, rfl, integralR⟩ := exists_of_fits_int right
      obtain ⟨w, wider, exact⟩ :=
        BoundExpr.widen_exact exactL (PrimitiveType.isExact_of_isIntegral integralR)
      rw [wider]
      exact fits_decimalArithmetic exact op _ _
    | decimal e =>
      obtain ⟨v, rfl, exactR⟩ := exists_of_fits_decimal right
      obtain ⟨w, wider, exact⟩ := BoundExpr.widen_exact exactL exactR
      rw [wider]
      exact fits_decimalArithmetic exact op _ _
    | double y =>
      rw [eq_of_fits_double right, BoundExpr.widen_double]
      exact fits_doubleArithmetic op _ _
    | _ => exact fits_null _
  | double x =>
    rw [eq_of_fits_double left]
    cases b with
    | int n =>
      obtain ⟨v, rfl, integral⟩ := exists_of_fits_int right
      rw [BoundExpr.double_widen]
      exact fits_doubleArithmetic op _ _
    | decimal e =>
      obtain ⟨v, rfl, exact⟩ := exists_of_fits_decimal right
      rw [BoundExpr.double_widen]
      exact fits_doubleArithmetic op _ _
    | double y =>
      rw [eq_of_fits_double right, BoundExpr.double_widen]
      exact fits_doubleArithmetic op _ _
    | _ => exact fits_null _
  | _ => exact fits_null _

theorem fits_negate {v : Value} {t : Option PrimitiveType} (fits : v.Fits t) : v.negate.Fits t := by
  cases v with
  | int n =>
    obtain ⟨a, rfl, integral⟩ := exists_of_fits_int fits
    exact fits_of_integral (integral_negate _) integral
  | decimal d =>
    obtain ⟨a, rfl, exact⟩ := exists_of_fits_decimal fits
    exact fits_decimal exact _
  | double x =>
    rw [eq_of_fits_double fits]
    rfl
  | _ => exact fits_null _

/-- A function keeps to its static type. -/
theorem fits_of_gives {f : CanonicalFunction} {first : Option Value} {v : Value}
    {t : Option PrimitiveType} (given : f.Gives first v) (fits : ∀ w ∈ first, w.Fits t) :
    v.Fits (f.result? t) := by
  cases given with
  | null => exact fits_null _
  | bool b type =>
    rw [type]
    rfl
  | string s type =>
    rw [type]
    rfl
  | integer integral type =>
    rw [type]
    exact fits_of_integral integral rfl
  | rounded argument type kind _ =>
    rw [type]
    exact fits_of_type?_eq kind (fits _ argument)

/-! ### Comparison -/

theorem fits_type? (v : Value) : v.Fits v.type? := by
  cases v <;> rfl

theorem fits_of_types {ty : EntityType} {record : Record} {property : Property}
    (types : ty.Types record) (declared : property ∈ ty.properties) :
    (record.value property.name).Fits (some property.type) := by
  rcases types property declared with null | typed | ⟨typed, narrow⟩
  · rw [isNull_iff.mp null]
    exact fits_null _
  · rw [← typed]
    exact fits_type? _
  · rw [narrow]
    simp [Fits, PrimitiveType.admits, typed, PrimitiveType.isIntegral]

/-- Whether a value is a number of any type. -/
def isNumber : Value → Bool
  | int _ | decimal _ | double _ => true
  | _ => false

theorem isNumber_of_fits {v : Value} {t : PrimitiveType} (fits : v.Fits (some t))
    (present : v.isOrdered = true) (numeric : t.isNumeric = true) : v.isNumber = true := by
  cases v with
  | null => cases present
  | int n => rfl
  | decimal d => rfl
  | double x => rfl
  | _ =>
    cases t <;> cases fits
    cases numeric

theorem type?_of_fits {v : Value} {t : PrimitiveType} (fits : v.Fits (some t))
    (present : v.isOrdered = true) (other : t.isNumeric = false) : v.type? = some t := by
  cases v with
  | null => cases present
  | _ => cases t <;> cases fits <;> first | rfl | cases other

/-- Numbers of any types have an order; the conversions among them are no NaN. -/
theorem isSome_compare_of_isNumber {v w : Value} (left : v.isNumber = true)
    (right : w.isNumber = true) (orderedL : v.isOrdered = true) (orderedR : w.isOrdered = true) :
    (v.compare w).isSome = true := by
  have numbers : ∀ {x y : Double}, x.isNaN = false → y.isNaN = false →
      (x.compare y).isSome = true := by
    intro x y first second
    simp [Double.compare, first, second]
  cases v with
  | int m =>
    cases w with
    | double y => exact numbers (Double.isNaN_ofInt _) (by simpa [isOrdered] using orderedR)
    | _ => first | rfl | cases right
  | decimal d =>
    cases w with
    | double y => exact numbers (Double.isNaN_ofDecimal _) (by simpa [isOrdered] using orderedR)
    | _ => first | rfl | cases right
  | double x =>
    have first : x.isNaN = false := by simpa [isOrdered] using orderedL
    cases w with
    | int n => exact numbers first (Double.isNaN_ofInt _)
    | decimal e => exact numbers first (Double.isNaN_ofDecimal _)
    | double y => exact numbers first (by simpa [isOrdered] using orderedR)
    | _ => cases right
  | _ => cases left

theorem isSome_compare_of_type? {v w : Value} (same : v.type? = w.type?)
    (orderedL : v.isOrdered = true) (orderedR : w.isOrdered = true) :
    (v.compare w).isSome = true := by
  cases v <;> cases w <;> cases same <;> first
    | rfl
    | exact isSome_compare_of_isNumber rfl rfl orderedL orderedR
    | cases orderedL

/-- Values of comparable types have an order, unless one is null or NaN. -/
theorem isSome_compare {v w : Value} {s t : Option PrimitiveType} (left : v.Fits s)
    (right : w.Fits t) (comparable : BoundExpr.Comparable s t) (orderedL : v.isOrdered = true)
    (orderedR : w.isOrdered = true) : (v.compare w).isSome = true := by
  cases s with
  | none => cases left; cases orderedL
  | some a =>
    cases t with
    | none => cases right; cases orderedR
    | some b =>
      have kin := comparable a rfl b rfl
      rw [PrimitiveType.comparable, Bool.or_eq_true, Bool.and_eq_true, beq_iff_eq] at kin
      cases numeric : a.isNumeric with
      | true =>
        have numeric' : b.isNumeric = true := by
          rcases kin with rfl | both
          · exact numeric
          · exact both.2
        exact isSome_compare_of_isNumber (isNumber_of_fits left orderedL numeric)
          (isNumber_of_fits right orderedR numeric') orderedL orderedR
      | false =>
        have same : a = b := kin.resolve_right fun both => by simp [numeric] at both
        subst same
        exact isSome_compare_of_type? ((type?_of_fits left orderedL numeric).trans
          (type?_of_fits right orderedR numeric).symm) orderedL orderedR

end Value

namespace BoundExpr

variable {ty : EntityType} {record : Record}

/-- An expression evaluates to null or to a value that its static type admits. -/
theorem fits_evaluate {e : BoundExpr} (types : ty.Types record) (checked : Checked ty e) :
    (e.evaluate record).Fits e.type? := by
  induction checked with
  | literal v => exact Value.fits_type? v
  | property declared =>
    exact Value.fits_of_types types (List.mem_of_find?_eq_some declared)
  | compare _ _ _ _ _ => rfl
  | and _ _ _ _ => rfl
  | or _ _ _ _ => rfl
  | not _ _ => rfl
  | arithmetic _ _ _ _ left right => exact Value.fits_arithmetic left right
  | negate _ ih => exact Value.fits_negate ih
  | member _ _ _ _ _ => rfl
  | @call f arguments _ each =>
    rw [type?_call]
    refine Value.fits_of_gives (Value.gives_call f _) ?_
    cases arguments with
    | nil => rintro v ⟨⟩
    | cons first rest =>
      rintro v ⟨⟩
      exact each first List.mem_cons_self

/-- Every comparison in a bound expression finds an order between any two values but null and NaN,
and an expression without a static type is null. -/
theorem isSome_compare_of_bind {e : Expr} {bound : BoundExpr} (accepted : bind ty e = .ok bound)
    (types : ty.Types record) :
    (∀ op l r, compare op l r ∈ bound.parts → (l.evaluate record).isOrdered = true →
      (r.evaluate record).isOrdered = true →
      ((l.evaluate record).compare (r.evaluate record)).isSome = true) ∧
    (∀ element items, member element items ∈ bound.parts → ∀ item ∈ items,
      (element.evaluate record).isOrdered = true → (item.evaluate record).isOrdered = true →
      ((element.evaluate record).compare (item.evaluate record)).isSome = true) ∧
    ∀ part ∈ bound.parts, part.type? = none → part.evaluate record = .null := by
  have checked : ∀ part ∈ bound.parts, Checked ty part :=
    fun _ inside => (checked_of_bind accepted).part inside
  refine ⟨?_, ?_, ?_⟩
  · intro op l r inside
    cases checked _ inside with
    | compare left right comparable =>
      exact Value.isSome_compare (fits_evaluate types left) (fits_evaluate types right) comparable
  · intro element items inside item among
    cases checked _ inside with
    | member first each comparable =>
      exact Value.isSome_compare (fits_evaluate types first) (fits_evaluate types (each item among))
        (comparable item among)
  · intro part inside free
    have fits := fits_evaluate types (checked part inside)
    rwa [free] at fits

def lion : Record := [(years.name, .int 9), (weight.name, .decimal ⟨1905, 1⟩)]

theorem types_lion : animal.Types lion := by
  intro property declared
  simp only [animal, List.mem_cons, List.not_mem_nil, or_false] at declared
  rcases declared with rfl | rfl
  · exact .inr (.inl rfl)
  · exact .inr (.inr ⟨rfl, rfl⟩)

/-- The sum of an integer and a decimal has an order with a number that was an integer literal. -/
theorem isSome_compare_of_bind_lion :
    (((arithmetic .add (property years.name .int32) (property weight.name .decimal)).evaluate
      lion).compare ((literal (.decimal ⟨200, 0⟩)).evaluate lion)).isSome = true := by
  have accepted : bind animal (.binary .lt (.binary .add (.path ["years"]) (.path ["weight"]))
      (.literal (.int 200))) = .ok (compare .lt (arithmetic .add (property years.name .int32)
        (property weight.name .decimal)) (literal (.decimal ⟨200, 0⟩))) := rfl
  exact (isSome_compare_of_bind accepted types_lion).1 .lt _ _ List.mem_cons_self (by decide)
    (by decide)

end BoundExpr

end OData
