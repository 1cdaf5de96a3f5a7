import OData.Proofs.Number.Decimal
import OData.Proofs.Schema.Conformity
import OData.Proofs.Value.Order

/-!
# The order for sorting

Comparing two values in the other order gives the reverse.  Values of one kind are in a total order,
but for NaN, which compares with nothing.  `sortCompare` counts what cannot be compared as equal, so
that it is transitive unless NaN stands between two numbers that are in the wrong order.
-/

set_option autoImplicit false

namespace OData

/-! ## Values of one kind -/

/-- Items are in a total order if a part of them is. -/
theorem transCmp_part {α β : Type} (part : α → β) (order : β → β → Ordering)
    [Std.TransCmp order] : Std.TransCmp fun a b => order (part a) (part b) where
  eq_swap := Std.OrientedCmp.eq_swap
  isLE_trans := Std.TransCmp.isLE_trans

instance Decimal.transCmp_compare : Std.TransCmp Decimal.compare where
  eq_swap := by
    intro a b
    have left : a.scale ≤ max a.scale b.scale := Int.le_max_left _ _
    have right : b.scale ≤ max a.scale b.scale := Int.le_max_right _ _
    rw [compare_eq_digitsAt left right, compare_eq_digitsAt right left]
    exact Std.OrientedCmp.eq_swap
  isLE_trans := by
    intro a b c first second
    have left : a.scale ≤ max (max a.scale b.scale) c.scale := by omega
    have middle : b.scale ≤ max (max a.scale b.scale) c.scale := by omega
    have right : c.scale ≤ max (max a.scale b.scale) c.scale := by omega
    rw [compare_eq_digitsAt left middle] at first
    rw [compare_eq_digitsAt middle right] at second
    rw [compare_eq_digitsAt left right]
    exact Std.TransCmp.isLE_trans first second

instance Guid.transCmp_compare : Std.TransCmp Guid.compare :=
  inferInstanceAs (Std.TransCmp (compareOn fun g : Guid => g.bits.toNat))

instance Date.transCmp_compare : Std.TransCmp Date.compare :=
  inferInstanceAs (Std.TransCmp
    (compareLex (compareOn Date.year) (compareLex (compareOn Date.month) (compareOn Date.day))))

instance TimeOfDay.transCmp_compare : Std.TransCmp TimeOfDay.compare :=
  inferInstanceAs (Std.TransCmp
    (compareLex (compareOn TimeOfDay.seconds) (compareOn TimeOfDay.nanoseconds)))

instance Instant.transCmp_compare : Std.TransCmp Instant.compare :=
  have := transCmp_part Instant.date Date.compare
  have := transCmp_part Instant.time TimeOfDay.compare
  inferInstanceAs (Std.TransCmp (compareLex (fun i j : Instant => i.date.compare j.date)
    fun i j => i.time.compare j.time))

namespace Double

theorem compare_swap (x y : Double) : y.compare x = (x.compare y).map Ordering.swap := by
  rw [compare, compare, Bool.or_comm]
  split
  · rfl
  · exact congrArg some Std.OrientedCmp.eq_swap

theorem nan_compare {x : Double} (nan : x.isNaN = true) (y : Double) : x.compare y = none := by
  rw [compare, nan, Bool.true_or, if_pos rfl]

/-- Numbers are ordered by their keys, and a NaN at one end counts as equal to the number at the
other. -/
theorem isLE_compare_trans {x y z : Double} (number : y.isNaN = false)
    (first : ((x.compare y).getD .eq).isLE = true)
    (second : ((y.compare z).getD .eq).isLE = true) :
    ((x.compare z).getD .eq).isLE = true := by
  cases left : x.isNaN with
  | true =>
    rw [nan_compare left]
    rfl
  | false =>
    cases right : z.isNaN with
    | true =>
      rw [compare_swap, nan_compare right]
      rfl
    | false =>
      simp only [compare, left, number, right, Bool.or_self, Bool.false_eq_true, if_false,
        Option.getD_some] at first second ⊢
      exact Std.TransCmp.isLE_trans first second

end Double

namespace Value

/-- Comparing in the other order gives the reverse. -/
theorem compare_swap (v w : Value) : w.compare v = (v.compare w).map Ordering.swap := by
  cases v with
  | null =>
    rw [compare_null, null_compare]
    rfl
  | double x =>
    cases w with
    | int n => exact x.compare_swap _
    | decimal d => exact x.compare_swap _
    | double y => exact x.compare_swap y
    | _ => rfl
  | int m =>
    cases w with
    | int n => exact congrArg some Std.OrientedCmp.eq_swap
    | decimal d => exact congrArg some Std.OrientedCmp.eq_swap
    | double y => exact Double.compare_swap _ y
    | _ => rfl
  | decimal d =>
    cases w with
    | int n => exact congrArg some Std.OrientedCmp.eq_swap
    | decimal e => exact congrArg some Std.OrientedCmp.eq_swap
    | double y => exact Double.compare_swap _ y
    | _ => rfl
  | bool p =>
    cases w with
    | bool q => exact congrArg some Std.OrientedCmp.eq_swap
    | _ => rfl
  | string s =>
    cases w with
    | string t => exact congrArg some Std.OrientedCmp.eq_swap
    | _ => rfl
  | guid g =>
    cases w with
    | guid h => exact congrArg some Std.OrientedCmp.eq_swap
    | _ => rfl
  | date d =>
    cases w with
    | date e => exact congrArg some Std.OrientedCmp.eq_swap
    | _ => rfl
  | dateTimeOffset i =>
    cases w with
    | dateTimeOffset j => exact congrArg some Std.OrientedCmp.eq_swap
    | _ => rfl
  | timeOfDay t =>
    cases w with
    | timeOfDay u => exact congrArg some Std.OrientedCmp.eq_swap
    | _ => rfl
  | binary p =>
    cases w with
    | binary q => exact congrArg some Std.OrientedCmp.eq_swap
    | _ => rfl

/-- Being equal is symmetric. -/
theorem compare_eq_comm {v w : Value} : v.compare w = some .eq ↔ w.compare v = some .eq := by
  rw [compare_swap v w]
  cases v.compare w with
  | none => simp
  | some order => cases order <;> simp

/-! ## The order for sorting -/

theorem sortCompare_of_present {v w : Value} (left : v.isNull = false) (right : w.isNull = false) :
    v.sortCompare w = (v.compare w).getD .eq := by
  rw [sortCompare, left, right]

theorem sortCompare_swap (v w : Value) : w.sortCompare v = (v.sortCompare w).swap := by
  rw [sortCompare, sortCompare, compare_swap v w]
  cases v.isNull with
  | true => cases w.isNull <;> rfl
  | false =>
    cases w.isNull with
    | true => rfl
    | false => cases v.compare w <;> rfl

/-- Nothing comes before null. -/
theorem isLE_of_isNull {v : Value} (null : v.isNull = true) (w : Value) :
    (v.sortCompare w).isLE = true := by
  rw [sortCompare, null]
  cases w.isNull <;> rfl

theorem isNull_of_isLE {v w : Value} (present : v.isNull = false)
    (le : (v.sortCompare w).isLE = true) : w.isNull = false := by
  cases null : w.isNull with
  | false => rfl
  | true =>
    rw [sortCompare, present, null] at le
    cases le

/-- Whether a value is null or says that it is of a type. -/
def IsOfType (type : PrimitiveType) (v : Value) : Prop := v.isNull = true ∨ v.type? = some type

/-- Nulls and the values of one type are in order, up to NaN. -/
theorem isLE_sortCompare_trans {type : PrimitiveType} {a b c : Value} (left : a.IsOfType type)
    (middle : b.IsOfType type) (right : c.IsOfType type) (number : b.isNaN = false)
    (first : (a.sortCompare b).isLE = true) (second : (b.sortCompare c).isLE = true) :
    (a.sortCompare c).isLE = true := by
  cases null : a.isNull with
  | true => exact isLE_of_isNull null c
  | false =>
    have presentB := isNull_of_isLE null first
    have presentC := isNull_of_isLE presentB second
    have left := left.resolve_left (by simp [null])
    have middle := middle.resolve_left (by simp [presentB])
    have right := right.resolve_left (by simp [presentC])
    clear null presentB presentC
    -- all three have one constructor
    cases a <;> cases left <;> cases b <;> cases middle <;> cases c <;> cases right
    · exact @Std.TransCmp.isLE_trans Bool Ord.compare _ _ _ _ first second
    · exact @Std.TransCmp.isLE_trans _ (compareOn Int64.toInt) _ _ _ _ first second
    · exact @Std.TransCmp.isLE_trans _ Decimal.compare _ _ _ _ first second
    · exact Double.isLE_compare_trans number first second
    · exact @Std.TransCmp.isLE_trans String Ord.compare _ _ _ _ first second
    · exact @Std.TransCmp.isLE_trans _ Guid.compare _ _ _ _ first second
    · exact @Std.TransCmp.isLE_trans _ Date.compare _ _ _ _ first second
    · exact @Std.TransCmp.isLE_trans _ Instant.compare _ _ _ _ first second
    · exact @Std.TransCmp.isLE_trans _ TimeOfDay.compare _ _ _ _ first second
    · exact @Std.TransCmp.isLE_trans (List UInt8) Ord.compare _ _ _ _ first second

end Value

/-! ## Values that were read -/

namespace PrimitiveType

/-- The type that a value of a type says it is of: all integers are of 64 bits. -/
def stored : PrimitiveType → PrimitiveType
  | int32 => int64
  | type => type

theorem type?_of_holds {type : PrimitiveType} {v : Value} (held : type.holds v = true) :
    v.type? = some type.stored := by
  cases type <;> cases v <;> first | rfl | cases held

theorem eq_double_of_stored {type : PrimitiveType} (same : type.stored = double) :
    type = double := by
  cases type <;> first | rfl | cases same

end PrimitiveType

namespace Value

theorem isOfType_of_ofJson {type : PrimitiveType} {json : Json} {v : Value}
    (read : ofJson type json = .ok v) : v.IsOfType type.stored := by
  rw [ofJson] at read
  split at read
  next =>
    cases read
    exact .inl rfl
  next =>
    split at read
    next w found =>
      cases read
      exact .inr (PrimitiveType.type?_of_holds (PrimitiveType.holds_of_ofJson? found))
    next => cases read

theorem isNull_of_isNaN {v : Value} (nan : v.isNaN = true) : v.isNull = false := by
  cases v with
  | null => cases nan
  | _ => rfl

/-- NaN counts as equal to all values but null. -/
theorem nan_sortCompare {v w : Value} (nan : v.isNaN = true) (present : w.isNull = false) :
    v.sortCompare w = .eq := by
  rw [sortCompare_of_present (isNull_of_isNaN nan) present]
  cases v with
  | double x =>
    have none : (double x).compare w = w.toDouble?.bind x.compare := by cases w <;> rfl
    rw [none]
    cases w.toDouble? with
    | none => rfl
    | some y =>
      rw [Option.bind_some, Double.nan_compare nan]
      rfl
  | _ => cases nan

/-- Sorting with the values exchanged gives the reverse.  Values that were read for one type are in
order, unless the middle one is NaN and the first one is greater than the last one, which is not
null. -/
theorem sortCompare_trans_iff {type : PrimitiveType} {first second third : Json} {a b c : Value}
    (readA : ofJson type first = .ok a) (readB : ofJson type second = .ok b)
    (readC : ofJson type third = .ok c) :
    b.sortCompare a = (a.sortCompare b).swap ∧
      (b.isNaN = true → type = .double) ∧
      ((a.sortCompare b ≠ .gt → b.sortCompare c ≠ .gt → a.sortCompare c ≠ .gt) ↔
        ¬ (b.isNaN = true ∧ c.isNull = false ∧ a.sortCompare c = .gt)) := by
  have typeA := isOfType_of_ofJson readA
  have typeB := isOfType_of_ofJson readB
  have typeC := isOfType_of_ofJson readC
  refine ⟨sortCompare_swap a b, fun nan => ?_, ?_, ?_⟩
  · have typed := typeB.resolve_left (by simp [isNull_of_isNaN nan])
    cases b with
    | double x => exact PrimitiveType.eq_double_of_stored (Option.some.inj typed).symm
    | _ => cases nan
  · rintro ordered ⟨nan, present, greater⟩
    have presentA : a.isNull = false := by
      refine Bool.eq_false_iff.mpr fun null => ?_
      have le := isLE_of_isNull null c
      rw [greater] at le
      cases le
    have left : a.sortCompare b = .eq := by
      rw [sortCompare_swap b a, nan_sortCompare nan presentA]
      rfl
    have right : b.sortCompare c = .eq := nan_sortCompare nan present
    exact ordered (by simp [left]) (by simp [right]) greater
  · intro ordered left right greater
    have left := Ordering.isLE_iff_ne_gt.mpr left
    have right := Ordering.isLE_iff_ne_gt.mpr right
    cases number : b.isNaN with
    | false =>
      have le := isLE_sortCompare_trans typeA typeB typeC number left right
      rw [greater] at le
      cases le
    | true =>
      exact ordered ⟨number, isNull_of_isLE (isNull_of_isNaN number) right, greater⟩

/-- Two is not after NaN, and NaN is not after one, but two is after one. -/
theorem sortCompare_not_trans_nan :
    ¬ ((double (Double.ofInt 2)).sortCompare (double Double.nan) ≠ .gt →
      (double Double.nan).sortCompare (double (Double.ofInt 1)) ≠ .gt →
        (double (Double.ofInt 2)).sortCompare (double (Double.ofInt 1)) ≠ .gt) := by
  have two : ofJson .double (.int 2) = .ok (double (Double.ofInt 2)) := rfl
  have nan : ofJson .double (.str "NaN") = .ok (double Double.nan) := rfl
  have one : ofJson .double (.int 1) = .ok (double (Double.ofInt 1)) := rfl
  have greater : (double (Double.ofInt 2)).sortCompare (double (Double.ofInt 1)) = .gt := by
    decide
  exact fun ordered =>
    (sortCompare_trans_iff two nan one).2.2.mp ordered ⟨by decide, rfl, greater⟩

end Value

end OData
