import OData.Proofs.Bound.Binding
import OData.Proofs.Number.Decimal
import OData.Proofs.Value.Order

/-!
# Membership

`left in (items)` asks whether `left` equals one of the items.  It is the disjunction of these
equalities, unless `left` is a literal: a literal is coerced to the type of one item after the
other, and the last of these coercions is compared with all items.  Hence no item may ask for a
smaller type than one before it, and beside one floating-point item all items are compared as
floating-point numbers.
-/

set_option autoImplicit false

namespace OData

/-- Whether a literal that was coerced to the first type is still one for the second. -/
def PrimitiveType.leadsTo (s t : PrimitiveType) : Bool := s.isIntegral || s == t || t == .double

theorem Double.ofDecimal_ofInt (n : Int) : ofDecimal (Decimal.ofInt n) = ofInt n := by
  by_cases zero : n = 0
  · subst zero
    rfl
  · have nonzero : (Decimal.ofInt n).isZero = false := by simpa [Decimal.isZero, Decimal.ofInt]
    simp only [ofDecimal, nonzero]
    rfl

namespace Value

/-- An integer compares as the decimal of its digits does. -/
theorem compare_decimal_ofInt (n : Int64) (w : Value) :
    (decimal (Decimal.ofInt n.toInt)).compare w = (int n).compare w := by
  cases w with
  | int m => exact congrArg some (Decimal.compare_ofInt _ _)
  | double y => simp only [compare, toDouble?, Double.ofDecimal_ofInt]
  | _ => rfl

theorem exists_double {v : Value} (typed : v.type? = some .double) : ∃ x, v = double x := by
  cases v <;> cases typed
  exact ⟨_, rfl⟩

theorem eq_double {v : Value} {x : Double} (typed : v.type? = some .double)
    (size : v.toDouble? = some x) : v = double x := by
  obtain ⟨y, rfl⟩ := exists_double typed
  cases size
  rfl

/-- How a literal and what it became for some types are related: it compares alike unless it became
a floating-point number, and has the same value as such a number. -/
structure Kept (v w : Value) (types : List PrimitiveType) : Prop where
  toDouble : w.toDouble? = v.toDouble?
  exact : .double ∉ types → ∀ u, w.compare u = v.compare u
  double : .double ∈ types ∨ v.type? = some .double → w.type? = some .double

theorem Kept.refl (v : Value) : Kept v v [] :=
  ⟨rfl, fun _ _ => rfl, fun typed => typed.resolve_left List.not_mem_nil⟩

theorem kept_of_coerceTo {v w : Value} {t : PrimitiveType} (coerced : v.coerceTo t = .ok w) :
    w.toDouble? = v.toDouble? ∧ (t ≠ .double → ∀ u, w.compare u = v.compare u) := by
  cases v with
  | int n =>
    cases t with
    | decimal =>
      cases coerced
      exact ⟨by rw [toDouble?, toDouble?, Double.ofDecimal_ofInt],
        fun _ u => compare_decimal_ofInt n u⟩
    | double =>
      cases coerced
      exact ⟨rfl, fun other => absurd rfl other⟩
    | _ => cases coerced <;> exact ⟨rfl, fun _ _ => rfl⟩
  | decimal d =>
    cases t with
    | double =>
      cases coerced
      exact ⟨rfl, fun other => absurd rfl other⟩
    | _ => cases coerced <;> exact ⟨rfl, fun _ _ => rfl⟩
  | _ => cases t <;> cases coerced <;> exact ⟨rfl, fun _ _ => rfl⟩

theorem double_of_coerceTo {v w : Value} {t : PrimitiveType} (present : v ≠ null)
    (double : t = .double ∨ v.type? = some .double) (coerced : v.coerceTo t = .ok w) :
    w.type? = some .double := by
  cases v <;> cases t <;> cases coerced <;> simp_all [type?]

theorem Kept.cons {v w u : Value} {t : PrimitiveType} {types : List PrimitiveType}
    (present : v ≠ null) (coerced : v.coerceTo t = .ok w) (later : Kept w u types) :
    Kept v u (t :: types) := by
  obtain ⟨toDouble, exact⟩ := kept_of_coerceTo coerced
  refine ⟨later.toDouble.trans toDouble, ?_, ?_⟩
  · intro absent x
    rw [List.mem_cons, not_or] at absent
    rw [later.exact absent.2, exact (Ne.symm absent.1)]
  · intro double
    rw [List.mem_cons, or_assoc, or_left_comm] at double
    rcases double with among | double
    · exact later.double (.inl among)
    · exact later.double (.inr (double_of_coerceTo present (double.imp_left Eq.symm) coerced))

/-- A literal that no operand turns into a floating-point number compares alike with all values. -/
theorem Kept.compare_eq {v w : Value} {types : List PrimitiveType} (kept : Kept v w types)
    (stays : .double ∈ types → v.type? = some .double) (u : Value) : w.compare u = v.compare u := by
  by_cases among : .double ∈ types
  · have before := stays among
    obtain ⟨x, rfl⟩ := exists_double before
    rw [eq_double (kept.double (.inl among)) kept.toDouble]
  · exact kept.exact among u

/-- After a coercion those types remain that the first one leads to. -/
theorem coerceTo_iff {v w : Value} {s t : PrimitiveType} (present : v ≠ null)
    (coerced : v.coerceTo s = .ok w) :
    (∃ u, w.coerceTo t = .ok u) ↔ (∃ u, v.coerceTo t = .ok u) ∧ s.leadsTo t = true := by
  cases v with
  | null => exact absurd rfl present
  | _ => cases s <;> cases coerced <;> cases t <;> simp [coerceTo, type?] <;> rfl

end Value

namespace BoundExpr

variable {ty : EntityType} {record : Record}

/-! ## Binding a list -/

/-- Each bound item is what binding one of the items gives. -/
theorem forall_mem_bindAll {items : List Expr} {P : BoundExpr → Prop} :
    (∃ bounds, bindAll ty items = .ok bounds ∧ ∀ b ∈ bounds, P b) ↔
      ∀ item ∈ items, ∃ b, bind ty item = .ok b ∧ P b := by
  induction items with
  | nil => simp [bindAll]
  | cons e rest ih =>
    simp only [bindAll, Result.bind_eq_ok, Result.pure_eq_ok, List.forall_mem_cons, ← ih]
    constructor
    · rintro ⟨-, ⟨b, first, others, later, rfl⟩, each⟩
      rw [List.forall_mem_cons] at each
      exact ⟨⟨b, first, each.1⟩, others, later, each.2⟩
    · rintro ⟨⟨b, first, here⟩, others, later, each⟩
      exact ⟨_, ⟨b, first, others, later, rfl⟩, List.forall_mem_cons.mpr ⟨here, each⟩⟩

theorem exists_mem_bindAll {items : List Expr} {bounds : List BoundExpr} {P : BoundExpr → Prop}
    (accepted : bindAll ty items = .ok bounds) :
    (∃ b ∈ bounds, P b) ↔ ∃ item ∈ items, ∃ b, bind ty item = .ok b ∧ P b := by
  induction items generalizing bounds with
  | nil =>
    cases accepted
    simp
  | cons e rest ih =>
    obtain ⟨b, first, accepted⟩ := Result.bind_eq_ok.mp accepted
    obtain ⟨others, later, accepted⟩ := Result.bind_eq_ok.mp accepted
    cases accepted
    simp [ih later, first]

/-- Whether two operands can be compared. -/
def Meets (l r : BoundExpr) : Prop := ∃ p, coercePair l r = .ok p

theorem bind_eq_iff {l r : Expr} {bound : BoundExpr} :
    bind ty (.binary .eq l r) = .ok bound ↔ ∃ a b p, bind ty l = .ok a ∧ bind ty r = .ok b ∧
      coercePair a b = .ok p ∧ bound = compare .eq p.1 p.2 := by
  have comparison : bind ty (.binary .eq l r) = (do
      let a ← bind ty l
      let b ← bind ty r
      let p ← coercePair a b
      pure (compare .eq p.1 p.2)) := by
    rw [bind]
    rfl
  simp only [comparison, Result.bind_eq_ok, Result.pure_eq_ok]
  constructor
  · rintro ⟨a, left, b, right, p, pair, rfl⟩
    exact ⟨a, b, p, left, right, pair, rfl⟩
  · rintro ⟨a, b, p, left, right, pair, rfl⟩
    exact ⟨a, left, b, right, p, pair, rfl⟩

theorem bind_member_iff {l : Expr} {items : List Expr} {bound : BoundExpr} :
    bind ty (.member l items) = .ok bound ↔ ∃ a p, bind ty l = .ok a ∧
      bindItems ty a items = .ok p ∧ bound = member p.1 p.2 := by
  rw [bind]
  simp only [Result.bind_eq_ok, Result.pure_eq_ok]
  constructor
  · rintro ⟨a, left, p, pair, rfl⟩
    exact ⟨a, p, left, pair, rfl⟩
  · rintro ⟨a, p, left, pair, rfl⟩
    exact ⟨a, left, p, pair, rfl⟩

theorem exists_bind_member_iff {l : Expr} {items : List Expr} :
    (∃ bound, bind ty (.member l items) = .ok bound) ↔
      ∃ a, bind ty l = .ok a ∧ ∃ p, bindItems ty a items = .ok p := by
  simp only [bind_member_iff]
  constructor
  · rintro ⟨-, a, p, left, accepted, rfl⟩
    exact ⟨a, left, p, accepted⟩
  · rintro ⟨a, left, p, accepted⟩
    exact ⟨_, a, p, left, accepted, rfl⟩

/-- All equalities bind if and only if the operands do and each item meets the element. -/
theorem equalities_iff {l : Expr} {items : List Expr} (nonempty : items ≠ []) :
    (∀ item ∈ items, ∃ bound, bind ty (.binary .eq l item) = .ok bound) ↔
      ∃ a, bind ty l = .ok a ∧
        ∃ bounds, bindAll ty items = .ok bounds ∧ ∀ e ∈ bounds, Meets a e := by
  constructor
  · intro each
    obtain ⟨first, rest, rfl⟩ := List.exists_cons_of_ne_nil nonempty
    obtain ⟨bound, equality⟩ := each first List.mem_cons_self
    obtain ⟨a, -, -, left, -⟩ := bind_eq_iff.mp equality
    refine ⟨a, left, forall_mem_bindAll.mpr ?_⟩
    intro item inside
    obtain ⟨bound, equality⟩ := each item inside
    obtain ⟨a', b, p, left', right, pair, -⟩ := bind_eq_iff.mp equality
    cases left.symm.trans left'
    exact ⟨b, right, p, pair⟩
  · rintro ⟨a, left, accepted⟩ item inside
    obtain ⟨b, right, p, pair⟩ := forall_mem_bindAll.mp accepted item inside
    exact ⟨_, bind_eq_iff.mpr ⟨a, b, p, left, right, pair, rfl⟩⟩

/-! ## A literal as the element -/

section Literal

variable {v w : Value} {e k : BoundExpr}

theorem literal_of_coercePair {p : BoundExpr × BoundExpr} (present : v ≠ .null)
    (pair : coercePair (literal v) e = .ok p) :
    ∃ w, p = (literal w, e) ∧
      (e.imposed? = none ∧ w = v ∨ ∃ t, e.imposed? = some t ∧ v.coerceTo t = .ok w) := by
  cases asked : e.imposed? with
  | none => exact ⟨v, ((coercePair_literal_free asked).mp pair).1, .inl ⟨rfl, rfl⟩⟩
  | some t =>
    obtain ⟨w, coerced, shape⟩ := (coercePair_literal present asked).mp pair
    exact ⟨w, shape, .inr ⟨t, rfl, coerced⟩⟩

theorem meets_literal {t : PrimitiveType} (present : v ≠ .null) (asked : e.imposed? = some t) :
    Meets (literal v) e ↔ ∃ w, v.coerceTo t = .ok w := by
  simp [Meets, coercePair_literal present asked]

theorem meets_literal_free (free : e.imposed? = none) :
    Meets (literal v) e ↔ ∀ s ∈ v.type?, ∀ t ∈ e.type?, s.comparable t = true := by
  simp [Meets, coercePair_literal_free free]

theorem ne_null_of_coerceTo {t : PrimitiveType} (present : v ≠ .null)
    (coerced : v.coerceTo t = .ok w) : w ≠ .null := by
  rintro rfl
  have same := Value.isNull_of_coerceTo coerced
  exact present (Value.isNull_iff.mp same.symm)

theorem ne_null_of_pair (present : v ≠ .null)
    (pair : coercePair (literal v) e = .ok (literal w, e)) : w ≠ .null := by
  obtain ⟨u, shape, step⟩ := literal_of_coercePair present pair
  cases shape
  rcases step with ⟨-, rfl⟩ | ⟨t, -, coerced⟩
  · exact present
  · exact ne_null_of_coerceTo present coerced

/-- A literal that was coerced for one operand meets the others that it met before, up to those
whose type the first one does not lead to. -/
theorem meets_of_coerceTo {s : PrimitiveType} (present : v ≠ .null)
    (coerced : v.coerceTo s = .ok w) :
    Meets (literal w) k ↔ Meets (literal v) k ∧ ∀ t ∈ k.imposed?, s.leadsTo t = true := by
  cases asked : k.imposed? with
  | some t =>
    rw [meets_literal present asked, meets_literal (ne_null_of_coerceTo present coerced) asked,
      Value.coerceTo_iff present coerced]
    simp
  | none =>
    obtain ⟨a, before⟩ := Value.exists_type? present
    obtain ⟨b, after⟩ := Value.exists_type? (ne_null_of_coerceTo present coerced)
    have alike := Value.comparable_of_coerceTo coerced before after
    rw [meets_literal_free asked, meets_literal_free asked, before, after]
    simp only [Option.mem_def, Option.some.injEq, forall_eq', reduceCtorEq, false_imp_iff,
      implies_true, and_true]
    refine forall₂_congr fun t _ => ?_
    constructor
    · exact PrimitiveType.comparable_trans alike
    · exact PrimitiveType.comparable_trans ((PrimitiveType.comparable_comm b a).trans alike)

/-- The items are bound as they are, and the literal is coerced for each of them. -/
theorem kept_of_bindItems {items : List Expr} {p : BoundExpr × List BoundExpr}
    (present : v ≠ .null) (accepted : bindItems ty (literal v) items = .ok p) :
    bindAll ty items = .ok p.2 ∧
      ∃ w, p.1 = literal w ∧ Value.Kept v w (p.2.filterMap imposed?) := by
  induction items generalizing v p with
  | nil =>
    cases accepted
    exact ⟨rfl, v, rfl, .refl v⟩
  | cons item rest ih =>
    obtain ⟨e, q, others, bound, pair, boundRest, rfl⟩ := bindItems_cons_eq_ok.mp accepted
    obtain ⟨w, rfl, step⟩ := literal_of_coercePair present pair
    rcases step with ⟨free, rfl⟩ | ⟨t, asked, coerced⟩
    · obtain ⟨all, u, shape, kept⟩ := ih present boundRest
      refine ⟨by simp [bindAll, bound, all, Result.bind_eq_ok], u, shape, ?_⟩
      rwa [List.filterMap_cons_none free]
    · obtain ⟨all, u, shape, kept⟩ := ih (ne_null_of_coerceTo present coerced) boundRest
      refine ⟨by simp [bindAll, bound, all, Result.bind_eq_ok], u, shape, ?_⟩
      rw [List.filterMap_cons_some asked]
      exact .cons present coerced kept

/-- No type that a bound item asks for is narrower than one that an item before it asks for. -/
def Widening (bounds : List BoundExpr) : Prop :=
  (bounds.filterMap imposed?).Pairwise fun s t => s.leadsTo t = true

instance (bounds : List BoundExpr) : Decidable (Widening bounds) :=
  inferInstanceAs (Decidable ((bounds.filterMap imposed?).Pairwise fun s t => s.leadsTo t = true))

theorem widening_cons_iff {bounds : List BoundExpr} : Widening (e :: bounds) ↔
    (∀ s ∈ e.imposed?, ∀ k ∈ bounds, ∀ t ∈ k.imposed?, s.leadsTo t = true) ∧ Widening bounds := by
  cases asked : e.imposed? with
  | none => simp [Widening, List.filterMap_cons_none asked]
  | some s =>
    rw [Widening, List.filterMap_cons_some asked, List.pairwise_cons]
    refine and_congr_left fun _ => ?_
    simp only [List.mem_filterMap, Option.mem_def, Option.some.injEq, forall_eq']
    constructor
    · exact fun leads k inside t asks => leads t ⟨k, inside, asks⟩
    · rintro leads t ⟨k, inside, asks⟩
      exact leads k inside t asks

/-- What is left to check after the first item is what is to be checked of the other items. -/
theorem meets_rest_iff {bounds : List BoundExpr} (present : v ≠ .null)
    (pair : coercePair (literal v) e = .ok (literal w, e)) :
    (∀ k ∈ bounds, Meets (literal w) k) ∧ Widening bounds ↔
      (∀ k ∈ bounds, Meets (literal v) k) ∧ Widening (e :: bounds) := by
  rw [widening_cons_iff, ← and_assoc]
  refine and_congr_left fun _ => ?_
  obtain ⟨u, shape, step⟩ := literal_of_coercePair present pair
  cases shape
  rcases step with ⟨free, rfl⟩ | ⟨s, asked, coerced⟩
  · simp [free]
  · simp only [meets_of_coerceTo present coerced, asked, Option.mem_def, Option.some.injEq,
      forall_eq', ← forall_and]

/-- A literal is accepted as the element of a list whose items all meet it and widen it. -/
theorem exists_bindItems_iff {items : List Expr} (present : v ≠ .null) :
    (∃ p, bindItems ty (literal v) items = .ok p) ↔
      ∃ bounds, bindAll ty items = .ok bounds ∧ (∀ e ∈ bounds, Meets (literal v) e) ∧
        Widening bounds := by
  induction items generalizing v with
  | nil => simp [bindItems, bindAll, Widening]
  | cons item rest ih =>
    constructor
    · rintro ⟨p, accepted⟩
      obtain ⟨e, q, others, bound, pair, boundRest, -⟩ := bindItems_cons_eq_ok.mp accepted
      obtain ⟨w, rfl, -⟩ := literal_of_coercePair present pair
      obtain ⟨bounds, all, checked⟩ := (ih (ne_null_of_pair present pair)).mp ⟨others, boundRest⟩
      obtain ⟨meets, widening⟩ := (meets_rest_iff present pair).mp checked
      exact ⟨e :: bounds, by simp [bindAll, bound, all, Result.bind_eq_ok],
        List.forall_mem_cons.mpr ⟨⟨_, pair⟩, meets⟩, widening⟩
    · rintro ⟨bounds, accepted, meets, widening⟩
      obtain ⟨e, bound, accepted⟩ := Result.bind_eq_ok.mp accepted
      obtain ⟨others, boundRest, accepted⟩ := Result.bind_eq_ok.mp accepted
      cases accepted
      obtain ⟨⟨p, pair⟩, later⟩ := List.forall_mem_cons.mp meets
      obtain ⟨w, rfl, -⟩ := literal_of_coercePair present pair
      obtain ⟨p, last⟩ := (ih (ne_null_of_pair present pair)).mpr
        ⟨others, boundRest, (meets_rest_iff present pair).mpr ⟨later, widening⟩⟩
      exact ⟨_, bindItems_cons_eq_ok.mpr ⟨e, _, p, bound, pair, last, rfl⟩⟩

end Literal

/-! ## Another element -/

section Other

variable {a : BoundExpr} (other : ∀ v, a ≠ literal v)

include other

theorem eq_of_coercePair {e : BoundExpr} {p : BoundExpr × BoundExpr}
    (pair : coercePair a e = .ok p) : p.1 = a := by
  cases coercesTo_of_coercePair pair with
  | kept => rfl
  | first => exact absurd rfl (other _)
  | second => rfl

/-- An element that is no literal stays as it is, and meets each item by itself. -/
theorem exists_bindItems_other_iff {items : List Expr} :
    (∃ p, bindItems ty a items = .ok p) ↔
      ∃ bounds, bindAll ty items = .ok bounds ∧ ∀ e ∈ bounds, Meets a e := by
  rw [forall_mem_bindAll]
  induction items with
  | nil => simp [bindItems]
  | cons item rest ih =>
    rw [List.forall_mem_cons, ← ih]
    constructor
    · rintro ⟨p, accepted⟩
      obtain ⟨e, q, others, bound, pair, boundRest, -⟩ := bindItems_cons_eq_ok.mp accepted
      rw [eq_of_coercePair other pair] at boundRest
      exact ⟨⟨e, bound, q, pair⟩, others, boundRest⟩
    · rintro ⟨⟨e, bound, q, pair⟩, others, boundRest⟩
      rw [← eq_of_coercePair other pair] at boundRest
      exact ⟨_, bindItems_cons_eq_ok.mpr ⟨e, q, others, bound, pair, boundRest, rfl⟩⟩

theorem exists_mem_bindItems {items : List Expr} {p : BoundExpr × List BoundExpr}
    {P : BoundExpr → Prop} (accepted : bindItems ty a items = .ok p) :
    p.1 = a ∧ ((∃ e ∈ p.2, P e) ↔
      ∃ item ∈ items, ∃ b, bind ty item = .ok b ∧ ∃ e, coercePair a b = .ok (a, e) ∧ P e) := by
  induction items generalizing p with
  | nil =>
    cases accepted
    simp
  | cons item rest ih =>
    obtain ⟨b, ⟨next, e⟩, others, bound, pair, boundRest, rfl⟩ := bindItems_cons_eq_ok.mp accepted
    cases eq_of_coercePair other pair
    obtain ⟨same, later⟩ := ih boundRest
    refine ⟨same, ?_⟩
    simp [later, bound, pair]

end Other

/-! ## Truth -/

theorem isNullLiteral_literal (v : Value) : (literal v).isNullLiteral = v.isNull := by
  cases v <;> rfl

theorem isNullLiteral_of_coercePair {l r : BoundExpr} {p : BoundExpr × BoundExpr}
    (pair : coercePair l r = .ok p) :
    p.1.isNullLiteral = l.isNullLiteral ∧ p.2.isNullLiteral = r.isNullLiteral := by
  cases coercesTo_of_coercePair pair with
  | kept => exact ⟨rfl, rfl⟩
  | first _ _ coerced => simp [isNullLiteral_literal, Value.isNull_of_coerceTo coerced]
  | second _ _ coerced => simp [isNullLiteral_literal, Value.isNull_of_coerceTo coerced]

/-- Only a literal is bound to a literal. -/
theorem literal_of_bind {e : Expr} {v : Value} (accepted : bind ty e = .ok (literal v)) :
    e = .literal v := by
  have only : ∀ w, literal v = literal w → e = .literal w := by
    refine bind_induct (P := fun e b => ∀ w, b = literal w → e = .literal w)
      ?literal ?property ?and ?or ?compare ?arithmetic ?not ?negate ?member ?call accepted
    case literal =>
      rintro v w same
      rw [literal.inj same]
    all_goals
      intros
      contradiction
  exact only v rfl

theorem isNullLiteral_of_bind {e : Expr} {bound : BoundExpr} (present : e ≠ .literal .null)
    (accepted : bind ty e = .ok bound) : bound.isNullLiteral = false := by
  cases null : bound.isNullLiteral with
  | false => rfl
  | true =>
    cases bound with
    | literal v =>
      rw [isNullLiteral_literal, Value.isNull_iff] at null
      subst null
      exact absurd (literal_of_bind accepted) present
    | _ => cases null

theorem evaluateAll_eq (record : Record) (items : List BoundExpr) :
    evaluateAll record items = items.map (evaluate record) := by
  induction items with
  | nil => rfl
  | cons e rest ih => rw [evaluateAll, ih, List.map_cons]

theorem isTrue_bool (b : Bool) : isTrue (.bool b) = b := by
  cases b <;> rfl

theorem holds_member_iff {e : BoundExpr} {items : List BoundExpr} :
    (member e items).holds record = true ↔
      ∃ item ∈ items, (e.evaluate record).compare (item.evaluate record) = some .eq := by
  simp [holds, evaluate, evaluateAll_eq, isTrue_bool]

theorem holds_eq_iff {l r : BoundExpr} (left : l.isNullLiteral = false)
    (right : r.isNullLiteral = false) : (compare .eq l r).holds record = true ↔
      (l.evaluate record).compare (r.evaluate record) = some .eq := by
  simp only [holds, evaluate, left, right, isTrue_bool, compareValues]
  cases (l.evaluate record).compare (r.evaluate record) with
  | none => simp
  | some order => simp [Operator.holds]

/-- The truth of an equality is that of the comparison of its coerced operands. -/
theorem equality_holds_iff {l r : Expr} {a : BoundExpr} (present : l ≠ .literal .null)
    (other : r ≠ .literal .null) (left : bind ty l = .ok a) :
    (∃ equality, bind ty (.binary .eq l r) = .ok equality ∧ equality.holds record = true) ↔
      ∃ b, bind ty r = .ok b ∧ ∃ p, coercePair a b = .ok p ∧
        (p.1.evaluate record).compare (p.2.evaluate record) = some .eq := by
  have alike : ∀ {b p}, bind ty r = .ok b → coercePair a b = .ok p →
      ((compare .eq p.1 p.2).holds record = true ↔
        (p.1.evaluate record).compare (p.2.evaluate record) = some .eq) := by
    intro b p right pair
    obtain ⟨first, second⟩ := isNullLiteral_of_coercePair pair
    exact holds_eq_iff (first.trans (isNullLiteral_of_bind present left))
      (second.trans (isNullLiteral_of_bind other right))
  simp only [bind_eq_iff]
  constructor
  · rintro ⟨-, ⟨a', b, p, left', right, pair, rfl⟩, holds⟩
    cases left.symm.trans left'
    exact ⟨b, right, p, pair, (alike right pair).mp holds⟩
  · rintro ⟨b, right, p, pair, equal⟩
    exact ⟨_, ⟨a, b, p, left, right, pair, rfl⟩, (alike right pair).mpr equal⟩

/-- Whether a literal number, other than a floating-point one, is compared with all items as the
floating-point number `x`, because one of them is such a number. -/
def Rounded (left : Expr) (bounds : List BoundExpr) (x : Double) : Prop :=
  ∃ v, left = .literal v ∧ v.type? ≠ some .double ∧ v.toDouble? = some x ∧
    ∃ e ∈ bounds, e.imposed? = some .double

section Literal

variable {v : Value} {items : List Expr} {p : BoundExpr × List BoundExpr} (present : v ≠ .null)
  (accepted : bindItems ty (literal v) items = .ok p)

include present accepted

/-- A literal is compared with all items as what it was coerced to last. -/
theorem holds_literal_iff (record : Record) : ∃ w, Value.Kept v w (p.2.filterMap imposed?) ∧
    ((member p.1 p.2).holds record = true ↔
      ∃ e ∈ p.2, w.compare (e.evaluate record) = some .eq) := by
  obtain ⟨-, w, first, kept⟩ := kept_of_bindItems present accepted
  refine ⟨w, kept, ?_⟩
  rw [holds_member_iff, first]
  rfl

/-- Where no coercion rounds the literal, a membership is the disjunction of the equalities. -/
theorem holds_literal_iff_equality (others : ∀ item ∈ items, item ≠ .literal .null)
    (exact : ∀ e ∈ p.2, e.imposed? = some .double → v.type? = some .double) :
    (member p.1 p.2).holds record = true ↔ ∃ item ∈ items, ∃ equality,
      bind ty (.binary .eq (.literal v) item) = .ok equality ∧ equality.holds record = true := by
  obtain ⟨w, kept, holds⟩ := holds_literal_iff present accepted record
  have all := (kept_of_bindItems present accepted).1
  have stays : .double ∈ p.2.filterMap imposed? → v.type? = some .double := by
    intro among
    obtain ⟨e, inside, asked⟩ := List.mem_filterMap.mp among
    exact exact e inside asked
  have meets : ∀ e ∈ p.2, Meets (literal v) e := by
    obtain ⟨bounds, all', meets, -⟩ := (exists_bindItems_iff present).mp ⟨p, accepted⟩
    cases all.symm.trans all'
    exact meets
  have left : bind ty (.literal v) = .ok (literal v) := rfl
  have nonnull : Expr.literal v ≠ .literal .null := fun same => present (Expr.literal.inj same)
  rw [holds, exists_mem_bindAll all]
  refine exists_congr fun item => and_congr_right fun inside => ?_
  rw [equality_holds_iff nonnull (others item inside) left]
  refine exists_congr fun b => and_congr_right fun bound => ?_
  have among : b ∈ p.2 := by
    obtain ⟨e, found, rfl⟩ :=
      (exists_mem_bindAll (P := (· = b)) all).mpr ⟨item, inside, b, bound, rfl⟩
    exact found
  obtain ⟨q, pair⟩ := meets b among
  obtain ⟨u, rfl, step⟩ := literal_of_coercePair present pair
  have alike : u.compare (b.evaluate record) = v.compare (b.evaluate record) := by
    rcases step with ⟨-, rfl⟩ | ⟨t, asked, coerced⟩
    · rfl
    · have single : Value.Kept v u [t] := .cons present coerced (.refl u)
      refine single.compare_eq (fun double => exact b among ?_) _
      rw [asked, List.mem_singleton.mp double]
  simp [pair, evaluate, kept.compare_eq stays, alike]

theorem holds_of_not_rounded (others : ∀ item ∈ items, item ≠ .literal .null)
    (precise : ∀ x, ¬ Rounded (.literal v) p.2 x) :
    (member p.1 p.2).holds record = true ↔ ∃ item ∈ items, ∃ equality,
      bind ty (.binary .eq (.literal v) item) = .ok equality ∧ equality.holds record = true := by
  refine holds_literal_iff_equality present accepted others fun e inside asked => ?_
  by_contra notDouble
  obtain ⟨w, kept, -⟩ := holds_literal_iff present accepted record
  have among : .double ∈ p.2.filterMap imposed? := List.mem_filterMap.mpr ⟨e, inside, asked⟩
  obtain ⟨x, rfl⟩ := Value.exists_double (kept.double (.inl among))
  exact precise x ⟨v, rfl, notDouble, kept.toDouble.symm, e, inside, asked⟩

theorem holds_of_rounded {x : Double} (rounded : Rounded (.literal v) p.2 x) :
    (member p.1 p.2).holds record = true ↔
      ∃ e ∈ p.2, (Value.double x).compare (e.evaluate record) = some .eq := by
  obtain ⟨u, same, -, size, e, inside, asked⟩ := rounded
  cases same
  obtain ⟨w, kept, holds⟩ := holds_literal_iff present accepted record
  have among : .double ∈ p.2.filterMap imposed? := List.mem_filterMap.mpr ⟨e, inside, asked⟩
  rwa [Value.eq_double (kept.double (.inl among)) (kept.toDouble.trans size)] at holds

end Literal

/-- Any other element is compared with each item by itself. -/
theorem holds_other_iff {left : Expr} {a : BoundExpr} {items : List Expr}
    {p : BoundExpr × List BoundExpr} (present : left ≠ .literal .null)
    (others : ∀ item ∈ items, item ≠ .literal .null) (bound : bind ty left = .ok a)
    (other : ∀ v, a ≠ literal v) (accepted : bindItems ty a items = .ok p) :
    (member p.1 p.2).holds record = true ↔ ∃ item ∈ items, ∃ equality,
      bind ty (.binary .eq left item) = .ok equality ∧ equality.holds record = true := by
  obtain ⟨same, taken⟩ := exists_mem_bindItems other accepted
    (P := fun e => (a.evaluate record).compare (e.evaluate record) = some .eq)
  rw [holds_member_iff, same, taken]
  refine exists_congr fun item => and_congr_right fun inside => ?_
  rw [equality_holds_iff present (others item inside) bound]
  refine exists_congr fun b => and_congr_right fun _ => ?_
  constructor
  · rintro ⟨e, pair, equal⟩
    exact ⟨(a, e), pair, equal⟩
  · rintro ⟨⟨a', e⟩, pair, equal⟩
    cases eq_of_coercePair other pair
    exact ⟨e, pair, equal⟩

/-- A membership binds if its equalities do and, where it is one of a literal, the items widen the
literal.  It is the disjunction of the equalities, unless it rounds the literal. -/
theorem membership (ty : EntityType) (left : Expr) (items : List Expr)
    (present : left ≠ .literal .null) (nonempty : items ≠ [])
    (others : ∀ item ∈ items, item ≠ .literal .null) :
    ((∃ bound, bind ty (.member left items) = .ok bound) ↔
      (∀ item ∈ items, ∃ bound, bind ty (.binary .eq left item) = .ok bound) ∧
        ∀ v, left = .literal v → ∀ bounds, bindAll ty items = .ok bounds → Widening bounds) ∧
    ∀ bound, bind ty (.member left items) = .ok bound →
      ∃ bounds, bindAll ty items = .ok bounds ∧ ∀ record : Record,
        ((∀ x, ¬ Rounded left bounds x) → (bound.holds record = true ↔ ∃ item ∈ items, ∃ equality,
          bind ty (.binary .eq left item) = .ok equality ∧ equality.holds record = true)) ∧
        ∀ x, Rounded left bounds x → (bound.holds record = true ↔
          ∃ e ∈ bounds, (Value.double x).compare (e.evaluate record) = some .eq) := by
  rw [equalities_iff nonempty, exists_bind_member_iff]
  by_cases isLiteral : ∃ v, left = .literal v
  · obtain ⟨v, rfl⟩ := isLiteral
    have nonnull : v ≠ .null := fun same => present (congrArg _ same)
    have left : bind ty (.literal v) = .ok (literal v) := rfl
    refine ⟨?_, ?_⟩
    · simp only [left, Except.ok.injEq, exists_eq_left', Expr.literal.injEq, forall_eq',
        exists_bindItems_iff nonnull]
      constructor
      · rintro ⟨bounds, all, meets, widening⟩
        refine ⟨⟨bounds, all, meets⟩, fun bounds' all' => ?_⟩
        cases all.symm.trans all'
        exact widening
      · rintro ⟨⟨bounds, all, meets⟩, widening⟩
        exact ⟨bounds, all, meets, widening bounds all⟩
    · intro bound accepted
      obtain ⟨a, p, left', boundItems, rfl⟩ := bind_member_iff.mp accepted
      cases left.symm.trans left'
      exact ⟨p.2, (kept_of_bindItems nonnull boundItems).1, fun record =>
        ⟨holds_of_not_rounded nonnull boundItems others,
          fun x => holds_of_rounded nonnull boundItems⟩⟩
  · have free : ∀ v, left ≠ .literal v := fun v same => isLiteral ⟨v, same⟩
    have other : ∀ {a}, bind ty left = .ok a → ∀ v, a ≠ literal v := by
      rintro a bound v rfl
      exact free v (literal_of_bind bound)
    refine ⟨?_, ?_⟩
    · have vacuous : ∀ v, left = .literal v → ∀ bounds, bindAll ty items = .ok bounds →
          Widening bounds := fun v same => absurd same (free v)
      rw [and_iff_left vacuous]
      exact exists_congr fun a => and_congr_right fun left =>
        exists_bindItems_other_iff (other left)
    · intro bound accepted
      obtain ⟨a, p, left, boundItems, rfl⟩ := bind_member_iff.mp accepted
      obtain ⟨bounds, all, -⟩ := (exists_bindItems_other_iff (other left)).mp ⟨p, boundItems⟩
      refine ⟨bounds, all, fun record => ⟨fun _ => ?_, ?_⟩⟩
      · exact holds_other_iff present others left (other left) boundItems
      · rintro x ⟨v, same, -⟩
        exact absurd same (free v)

/-- A literal integer takes an integer and then a decimal beside it, but not the other way round. -/
theorem membership_animal :
    (∃ bound, bind animal (.member (.literal (.int 5)) [.path ["years"], .path ["weight"]]) =
      .ok bound) ∧
    ¬ ∃ bound, bind animal (.member (.literal (.int 5)) [.path ["weight"], .path ["years"]]) =
      .ok bound := by
  have ascending := membership animal (.literal (.int 5)) [.path ["years"], .path ["weight"]]
    (by simp) (by simp) (by simp)
  have descending := membership animal (.literal (.int 5)) [.path ["weight"], .path ["years"]]
    (by simp) (by simp) (by simp)
  constructor
  · refine ascending.1.mpr ⟨?_, ?_⟩
    · rintro item inside
      simp only [List.mem_cons, List.not_mem_nil, or_false] at inside
      rcases inside with rfl | rfl
      · exact ⟨_, rfl⟩
      · exact ⟨_, rfl⟩
    · rintro v - bounds accepted
      cases (show Except.ok [property years.name .int32, property weight.name .decimal] = _ from
        accepted)
      decide
  · intro accepted
    have widening := (descending.1.mp accepted).2 (.int 5) rfl
      [property weight.name .decimal, property years.name .int32] rfl
    revert widening
    decide

end BoundExpr

end OData
