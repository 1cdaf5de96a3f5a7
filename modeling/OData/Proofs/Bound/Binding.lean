import OData.Bound.Binder
import OData.Bound.Evaluate
import OData.Proofs.Expr.Readable
import OData.Proofs.Result

/-!
# Coercion of literals and induction over binding

Two operands can be compared if they have one type or are both numbers.  A literal beside a number
of another type takes this type, so that a coercion of operands is one of a literal to a type.  What
holds of the bound expressions that each step of the binder makes holds of all that it accepts.
-/

set_option autoImplicit false

namespace OData

namespace PrimitiveType

/-- Whether the values of two types have an order among them. -/
def comparable (s t : PrimitiveType) : Bool := s == t || (s.isNumeric && t.isNumeric)

theorem comparable_comm (s t : PrimitiveType) : s.comparable t = t.comparable s := by
  rw [comparable, comparable, Bool.and_comm, Bool.beq_comm]

theorem comparable_self (t : PrimitiveType) : t.comparable t = true := by
  rw [comparable, beq_self_eq_true, Bool.true_or]

theorem comparable_trans {s t u : PrimitiveType} (first : s.comparable t = true)
    (second : t.comparable u = true) : s.comparable u = true := by
  simp only [comparable, Bool.or_eq_true, beq_iff_eq, Bool.and_eq_true] at first second ⊢
  rcases first with rfl | first
  · exact second
  · rcases second with rfl | second
    · exact .inr first
    · exact .inr ⟨first.1, second.2⟩

end PrimitiveType

namespace Value

theorem exists_type? {v : Value} (present : v ≠ null) : ∃ t, v.type? = some t := by
  cases v with
  | null => exact absurd rfl present
  | _ => exact ⟨_, rfl⟩

theorem coerceTo_type? {v : Value} {t : PrimitiveType} (typed : v.type? = some t) :
    v.coerceTo t = .ok v := by
  cases v <;> cases typed <;> rfl

theorem isNull_of_coerceTo {v w : Value} {t : PrimitiveType} (coerced : v.coerceTo t = .ok w) :
    w.isNull = v.isNull := by
  cases v <;> cases t <;> cases coerced <;> rfl

/-- A value is coerced to its own type or from one number to another. -/
theorem literalWidens_of_coerceTo {v w : Value} {s t : PrimitiveType} (typed : v.type? = some s)
    (coerced : v.coerceTo t = .ok w) :
    s = t ∨ (s.isNumeric && t.isNumeric) = true ∧ s.literalWidens t = true := by
  cases v <;> cases typed <;> cases t <;> cases coerced <;> decide

theorem comparable_of_coerceTo {v w : Value} {a b t : PrimitiveType}
    (coerced : v.coerceTo t = .ok w) (before : v.type? = some a) (after : w.type? = some b) :
    a.comparable b = true := by
  cases v <;> cases before <;> cases t <;> cases coerced <;> cases after <;> decide

end Value

namespace BoundExpr

/-- The type that a literal beside an operand is coerced to; another literal asks for none. -/
def imposed? : BoundExpr → Option PrimitiveType
  | literal _ => none
  | e => e.type?

theorem imposed?_eq {e : BoundExpr} (other : ∀ v, e ≠ literal v) : e.imposed? = e.type? := by
  cases e with
  | literal v => exact absurd rfl (other v)
  | _ => rfl

theorem ne_literal_of_imposed? {e : BoundExpr} {t : PrimitiveType} (asked : e.imposed? = some t) :
    ∀ v, e ≠ literal v := by
  rintro v rfl
  cases asked

theorem type?_of_imposed? {e : BoundExpr} {t : PrimitiveType} (asked : e.imposed? = some t) :
    e.type? = some t := by
  rw [← imposed?_eq (ne_literal_of_imposed? asked), asked]

theorem exists_literal_of_imposed? {e : BoundExpr} {t : PrimitiveType} (free : e.imposed? = none)
    (typed : e.type? = some t) : ∃ v, e = literal v := by
  cases e with
  | literal v => exact ⟨v, rfl⟩
  | _ => exact absurd (free.symm.trans typed) (by simp)

/-! ## One literal -/

/-- The checks of `literalFits` pass for all that coercion passes for. -/
theorem literalFits_eq_ok {v w : Value} {s t : PrimitiveType} (typed : v.type? = some s)
    (differ : s ≠ t) : literalFits v s t = .ok w ↔ v.coerceTo t = .ok w := by
  rw [literalFits]
  split
  next => rfl
  next narrow =>
    refine iff_of_false (by rintro ⟨⟩) fun coerced => ?_
    have fits := (Value.literalWidens_of_coerceTo typed coerced).resolve_left differ
    exact narrow fits.2

/-- What two operands become together: a literal takes the type that the other one asks for, or both
stay as they are. -/
inductive CoercesTo : BoundExpr → BoundExpr → BoundExpr × BoundExpr → Prop
  | kept (l r : BoundExpr) : CoercesTo l r (l, r)
  | first {v w : Value} {r : BoundExpr} {s t : PrimitiveType} (typed : v.type? = some s)
    (asked : r.imposed? = some t) (coerced : v.coerceTo t = .ok w) :
    CoercesTo (literal v) r (literal w, r)
  | second {l : BoundExpr} {v w : Value} {s t : PrimitiveType} (typed : v.type? = some s)
    (asked : l.imposed? = some t) (coerced : v.coerceTo t = .ok w) :
    CoercesTo l (literal v) (l, literal w)

theorem coerceTo_of_literalFits {v w : Value} {s t : PrimitiveType}
    (fitted : literalFits v s t = .ok w) : v.coerceTo t = .ok w := by
  rw [literalFits] at fitted
  split at fitted
  next => exact fitted
  next => cases fitted

theorem coercesTo_of_coerceNumbers {l r : BoundExpr} {s t : PrimitiveType}
    {p : BoundExpr × BoundExpr} (left : l.type? = some s) (right : r.type? = some t)
    (numbers : coerceNumbers l r s t = .ok p) : CoercesTo l r p := by
  unfold coerceNumbers at numbers
  split at numbers
  next =>
    cases numbers
    exact .kept _ _
  next v r other =>
    obtain ⟨w, fitted, same⟩ := Result.bind_eq_ok.mp numbers
    cases same
    exact .first left ((imposed?_eq other).trans right) (coerceTo_of_literalFits fitted)
  next l v other =>
    obtain ⟨w, fitted, same⟩ := Result.bind_eq_ok.mp numbers
    cases same
    exact .second right ((imposed?_eq other).trans left) (coerceTo_of_literalFits fitted)
  next =>
    cases numbers
    exact .kept _ _

theorem coercesTo_of_coercePair {l r : BoundExpr} {p : BoundExpr × BoundExpr}
    (pair : coercePair l r = .ok p) : CoercesTo l r p := by
  rw [coercePair] at pair
  split at pair
  next s t left right =>
    split at pair
    next =>
      cases pair
      exact .kept l r
    next =>
      split at pair
      next => exact coercesTo_of_coerceNumbers left right pair
      next => cases pair
  next =>
    cases pair
    exact .kept l r

theorem coercePair_of_type?_none {l r : BoundExpr} (free : l.type? = none ∨ r.type? = none) :
    coercePair l r = .ok (l, r) := by
  rw [coercePair]
  split
  next left right => simp [left, right] at free
  next => rfl

/-- A literal takes the type that the operand beside it asks for. -/
theorem coercePair_literal {v : Value} {e : BoundExpr} {t : PrimitiveType}
    {p : BoundExpr × BoundExpr} (present : v ≠ .null) (asked : e.imposed? = some t) :
    coercePair (literal v) e = .ok p ↔ ∃ w, v.coerceTo t = .ok w ∧ p = (literal w, e) := by
  obtain ⟨s, typed⟩ := Value.exists_type? present
  have kind : (literal v).type? = some s := typed
  simp only [coercePair, kind, type?_of_imposed? asked]
  split
  next same =>
    subst same
    simp [Value.coerceTo_type? typed, eq_comm]
  next differ =>
    split
    next numbers =>
      have other := ne_literal_of_imposed? asked
      have fits : coerceNumbers (literal v) e s t =
          (do pure (literal (← literalFits v s t), e)) := by
        cases e with
        | literal u => exact absurd rfl (other u)
        | _ => rfl
      simp only [fits, Result.bind_eq_ok, literalFits_eq_ok typed differ, Result.pure_eq_ok]
      simp only [eq_comm]
    next mixed =>
      refine iff_of_false (by rintro ⟨⟩) ?_
      rintro ⟨w, coerced, -⟩
      exact mixed ((Value.literalWidens_of_coerceTo typed coerced).resolve_left differ).1

/-- Beside an operand that asks for no type a literal stays as it is. -/
theorem coercePair_literal_free {v : Value} {e : BoundExpr} {p : BoundExpr × BoundExpr}
    (free : e.imposed? = none) : coercePair (literal v) e = .ok p ↔
      p = (literal v, e) ∧ ∀ s ∈ v.type?, ∀ t ∈ e.type?, s.comparable t = true := by
  have kept : (Except.ok (literal v, e) : Result _) = .ok p ↔ p = (literal v, e) := by
    rw [Except.ok.injEq, eq_comm]
  have kind : (literal v).type? = v.type? := rfl
  cases typed : v.type? with
  | none =>
    rw [coercePair_of_type?_none (.inl (kind.trans typed)), kept]
    simp
  | some s =>
    cases other : e.type? with
    | none =>
      rw [coercePair_of_type?_none (.inr other), kept]
      simp
    | some t =>
      obtain ⟨u, rfl⟩ := exists_literal_of_imposed? free other
      simp only [coercePair, kind, typed, other, Option.mem_some, forall_eq',
        PrimitiveType.comparable]
      split
      next same => simp [kept, same]
      next differ =>
        split
        next numbers => simp [coerceNumbers, kept, numbers]
        next mixed => exact iff_of_false (by rintro ⟨⟩) fun both => by simp [differ, mixed] at both

end BoundExpr

/-! ## Binding -/

namespace BoundExpr

theorem requireBoolean_eq_ok {e : Expr} {bound checked : BoundExpr} :
    requireBoolean e bound = .ok checked ↔ bound = checked ∧ bound.type? = some .boolean := by
  rw [requireBoolean]
  split
  next boolean => simp [boolean]
  next other => exact iff_of_false (by rintro ⟨⟩) fun both => other both.2

/-- Whether a static type is one of numbers, or there is none. -/
def IsNumber (type : Option PrimitiveType) : Prop := ∀ t ∈ type, t.isNumeric = true

theorem requireNumber_eq_ok {e : Expr} {bound checked : BoundExpr} :
    requireNumber e bound = .ok checked ↔ bound = checked ∧ IsNumber bound.type? := by
  rw [requireNumber]
  split
  next none => simp [IsNumber, none]
  next t typed =>
    split
    next numeric => simp [IsNumber, typed, numeric]
    next other => exact iff_of_false (by rintro ⟨⟩) fun both => other (both.2 t typed)

theorem property?_of_resolve {ty : EntityType} {p : PropertyPath} {property : Property}
    (found : ty.resolve p = .ok property) : ty.property? property.name.text = some property := by
  unfold EntityType.resolve at found
  split at found
  · split at found
    next declared =>
      cases found
      have named := List.find?_some declared
      rw [beq_iff_eq] at named
      rwa [named]
    next => split at found <;> cases found
  · cases found

/-- The first item is coerced against the element, which goes on to the other items. -/
theorem bindItems_cons_eq_ok {ty : EntityType} {a : BoundExpr} {e : Expr} {rest : List Expr}
    {p : BoundExpr × List BoundExpr} : bindItems ty a (e :: rest) = .ok p ↔
      ∃ b q others, bind ty e = .ok b ∧ coercePair a b = .ok q ∧
        bindItems ty q.1 rest = .ok others ∧ p = (others.1, q.2 :: others.2) := by
  rw [bindItems]
  simp only [Result.bind_eq_ok, Result.pure_eq_ok]
  constructor
  · rintro ⟨b, bound, q, pair, others, boundRest, rfl⟩
    exact ⟨b, q, others, bound, pair, boundRest, rfl⟩
  · rintro ⟨b, q, others, bound, pair, boundRest, rfl⟩
    exact ⟨b, bound, q, pair, others, boundRest, rfl⟩

theorem forall₂_of_bindAll {ty : EntityType} {P : Expr → BoundExpr → Prop} {items : List Expr}
    {bounds : List BoundExpr} (each : ∀ e ∈ items, ∀ {b}, bind ty e = .ok b → P e b)
    (accepted : bindAll ty items = .ok bounds) : List.Forall₂ P items bounds := by
  induction items generalizing bounds with
  | nil =>
    cases accepted
    exact .nil
  | cons e rest ih =>
    obtain ⟨here, later⟩ := List.forall_mem_cons.mp each
    obtain ⟨b, bound, accepted⟩ := Result.bind_eq_ok.mp accepted
    obtain ⟨others, boundRest, accepted⟩ := Result.bind_eq_ok.mp accepted
    cases accepted
    exact .cons (here bound) (ih later boundRest)

theorem exists_of_mem_forall₂ {P : Expr → BoundExpr → Prop} {items : List Expr}
    {bounds : List BoundExpr} (each : List.Forall₂ P items bounds) {b : BoundExpr}
    (inside : b ∈ bounds) : ∃ e ∈ items, P e b := by
  induction each with
  | nil => cases inside
  | cons here _ ih =>
    rcases List.mem_cons.mp inside with rfl | later
    · exact ⟨_, List.mem_cons_self, here⟩
    · obtain ⟨e, among, holds⟩ := ih later
      exact ⟨e, List.mem_cons_of_mem _ among, holds⟩

section Induction

variable {ty : EntityType} {P : Expr → BoundExpr → Prop}

/-- Induction over the steps of the binder.  The items of a membership are bound one by one and
coerced against the element. -/
theorem bind_induct
    (literal : ∀ v, P (.literal v) (literal v))
    (property : ∀ p found, ty.resolve p = .ok found →
      P (.path p) (property found.name found.type))
    (and : ∀ l r a b, P l a → P r b → a.type? = some .boolean → b.type? = some .boolean →
      P (.binary .and l r) (and a b))
    (or : ∀ l r a b, P l a → P r b → a.type? = some .boolean → b.type? = some .boolean →
      P (.binary .or l r) (or a b))
    (compare : ∀ op l r a b p, op.isComparison = true → P l a → P r b → coercePair a b = .ok p →
      P (.binary op l r) (compare op p.1 p.2))
    (arithmetic : ∀ op l r a b, op.isArithmetic = true → P l a → P r b → IsNumber a.type? →
      IsNumber b.type? → P (.binary op l r) (arithmetic op a b))
    (not : ∀ e a, P e a → a.type? = some .boolean → P (.not e) (not a))
    (negate : ∀ e a, P e a → IsNumber a.type? → P (.negate e) (negate a))
    (member : ∀ e items a p, P e a →
      (∀ item ∈ items, ∀ {b}, bind ty item = .ok b → P item b) → bindItems ty a items = .ok p →
      P (.member e items) (member p.1 p.2))
    (call : ∀ f arguments bounds, List.Forall₂ P arguments bounds →
      checkArguments f 0 bounds = .ok () → P (.call f arguments) (call f bounds))
    {e : Expr} {bound : BoundExpr} (accepted : bind ty e = .ok bound) : P e bound := by
  induction e generalizing bound with
  | literal v =>
    cases accepted
    exact literal v
  | path p =>
    obtain ⟨found, resolved, accepted⟩ := Result.bind_eq_ok.mp accepted
    cases accepted
    exact property p found resolved
  | binary op l r left right =>
    rw [bind] at accepted
    split at accepted
    next logical =>
      simp only [Result.bind_eq_ok, Result.pure_eq_ok, requireBoolean_eq_ok] at accepted
      obtain ⟨a, boundL, _, ⟨rfl, booleanL⟩, b, boundR, _, ⟨rfl, booleanR⟩, rfl⟩ := accepted
      split
      next conjunction =>
        subst conjunction
        exact and l r a b (left boundL) (right boundR) booleanL booleanR
      next other =>
        have disjunction : op = .or := by simpa [Operator.isLogical, other] using logical
        subst disjunction
        exact or l r a b (left boundL) (right boundR) booleanL booleanR
    next notLogical =>
      split at accepted
      next comparison =>
        obtain ⟨a, boundL, accepted⟩ := Result.bind_eq_ok.mp accepted
        obtain ⟨b, boundR, accepted⟩ := Result.bind_eq_ok.mp accepted
        obtain ⟨p, pair, accepted⟩ := Result.bind_eq_ok.mp accepted
        cases accepted
        exact compare op l r a b p comparison (left boundL) (right boundR) pair
      next notComparison =>
        have numeric : op.isArithmetic = true := by
          cases op <;> first | rfl | exact absurd rfl notLogical | exact absurd rfl notComparison
        simp only [Result.bind_eq_ok, Result.pure_eq_ok, requireNumber_eq_ok] at accepted
        obtain ⟨a, boundL, _, ⟨rfl, numberL⟩, b, boundR, _, ⟨rfl, numberR⟩, rfl⟩ := accepted
        exact arithmetic op l r a b numeric (left boundL) (right boundR) numberL numberR
  | not e ih =>
    simp only [bind, Result.bind_eq_ok, Result.pure_eq_ok, requireBoolean_eq_ok] at accepted
    obtain ⟨a, boundE, _, ⟨rfl, boolean⟩, rfl⟩ := accepted
    exact not e a (ih boundE) boolean
  | negate e ih =>
    simp only [bind, Result.bind_eq_ok, Result.pure_eq_ok, requireNumber_eq_ok] at accepted
    obtain ⟨a, boundE, _, ⟨rfl, number⟩, rfl⟩ := accepted
    exact negate e a (ih boundE) number
  | member e items element each =>
    obtain ⟨a, boundE, accepted⟩ := Result.bind_eq_ok.mp accepted
    obtain ⟨p, boundItems, accepted⟩ := Result.bind_eq_ok.mp accepted
    cases accepted
    exact member e items a p (element boundE) each boundItems
  | call f arguments each =>
    obtain ⟨⟨⟩, _, accepted⟩ := Result.bind_eq_ok.mp accepted
    obtain ⟨bounds, boundAll, accepted⟩ := Result.bind_eq_ok.mp accepted
    obtain ⟨⟨⟩, checked, accepted⟩ := Result.bind_eq_ok.mp accepted
    cases accepted
    exact call f arguments bounds (forall₂_of_bindAll each boundAll) checked

end Induction

/-! ## A sample type -/

def weight : Property := ⟨⟨"weight", by decide⟩, .decimal, true⟩

def years : Property := ⟨⟨"years", by decide⟩, .int32, true⟩

def animal : EntityType := ⟨⟨"Animal", by decide⟩, [weight, years], [], []⟩

end BoundExpr

end OData
