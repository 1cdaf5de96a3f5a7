import OData.Proofs.Bound.Built
import OData.Proofs.Sql.Truth

/-!
# SQL conditions select what filters hold for

A condition may be unknown where the filter is false; both select no row.  The conditions that
`and`, `or` and `not` join may be unknown, since a negation reads unknown as false.  A comparison
or a list may not: unknown there is neither equal to false nor different from it.
-/

set_option autoImplicit false

namespace OData

namespace BoundExpr

open SqlExpr (Agrees)

/-! ## Translation succeeds -/

theorem exists_binary (op : Operator) {l r : BoundExpr}
    (left : ∃ condition, SqlExpr.translate l = .ok condition)
    (right : ∃ condition, SqlExpr.translate r = .ok condition) :
    ∃ condition, (do
      let first ← SqlExpr.translate l
      pure (SqlExpr.binary op first (← SqlExpr.translate r))) = .ok condition := by
  obtain ⟨first, translatedL⟩ := left
  obtain ⟨second, translatedR⟩ := right
  rw [translatedL, translatedR]
  exact ⟨_, rfl⟩

mutual

theorem exists_translate : ∀ {e : BoundExpr}, e.isPlain = true →
    ∃ condition, SqlExpr.translate e = .ok condition
  | literal v, _ => ⟨_, rfl⟩
  | property name ty, _ => ⟨_, rfl⟩
  | compare op l r, plain => by
    obtain ⟨-, plainL, plainR⟩ := by simpa [isPlain] using plain
    obtain ⟨left, translatedL⟩ := exists_translate plainL
    obtain ⟨right, translatedR⟩ := exists_translate plainR
    rw [SqlExpr.translate, translatedL, translatedR]
    split
    · exact ⟨_, rfl⟩
    · split <;> exact ⟨_, rfl⟩
  | arithmetic op l r, plain => by
    obtain ⟨-, plainL, plainR⟩ := by simpa [isPlain] using plain
    exact exists_binary op (exists_translate plainL) (exists_translate plainR)
  | and l r, plain => by
    obtain ⟨plainL, plainR⟩ := (Bool.and_eq_true _ _).mp plain
    exact exists_binary .and (exists_translate plainL) (exists_translate plainR)
  | or l r, plain => by
    obtain ⟨plainL, plainR⟩ := (Bool.and_eq_true _ _).mp plain
    exact exists_binary .or (exists_translate plainL) (exists_translate plainR)
  | not e, plain => by
    obtain ⟨operand, translated⟩ := exists_translate (e := e) plain
    rw [SqlExpr.translate, translated]
    exact ⟨_, rfl⟩
  | negate e, plain => by
    obtain ⟨operand, translated⟩ := exists_translate (e := e) plain
    rw [SqlExpr.translate, translated]
    exact ⟨_, rfl⟩
  | member e items, plain => by
    obtain ⟨plainE, plainItems⟩ := (Bool.and_eq_true _ _).mp plain
    obtain ⟨element, translated⟩ := exists_translate plainE
    obtain ⟨list, translatedItems⟩ := exists_translateItems plainItems
    rw [SqlExpr.translate, translated, translatedItems]
    cases list <;> exact ⟨_, rfl⟩

theorem exists_translateItems : ∀ {items : List BoundExpr}, arePlain items = true →
    ∃ list, SqlExpr.translateItems items = .ok list
  | [], _ => ⟨[], rfl⟩
  | item :: rest, plain => by
    obtain ⟨plainItem, plainRest⟩ := (Bool.and_eq_true _ _).mp plain
    obtain ⟨first, translated⟩ := exists_translate plainItem
    obtain ⟨list, translatedRest⟩ := exists_translateItems plainRest
    rw [SqlExpr.translateItems, translated, translatedRest]
    split <;> exact ⟨_, rfl⟩

end

/-! ## What SQL keeps of a value -/

section Faithful

variable (dialect : SqlDialect) (record : Record)

/-- The value of the condition of an expression; null without one. -/
def sqlValue (e : BoundExpr) : Value :=
  match SqlExpr.translate e with
  | .ok condition => condition.evaluate dialect record
  | .error _ => .null

/-- Whether SQL knows the value of an expression. -/
def isKnown (e : BoundExpr) : Bool :=
  SqlExpr.isKnown (e.evaluate record) (e.sqlValue dialect record)

/-- Whether a comparison is seen in SQL: its operands are known, or do not compare so anyway. -/
def isSeen (op : Operator) (l r : BoundExpr) : Bool :=
  l.isKnown dialect record && r.isKnown dialect record
    || !compareValues op false (l.evaluate record) (r.evaluate record)

mutual

/-- Whether all comparisons are seen in SQL, those with the items of lists included, all operands
that are asked whether they are null are known, and no negated decimal has a negative scale. -/
def isFaithful : BoundExpr → Bool
  | literal _ | property _ _ | call _ _ => true
  | compare op l r => (l.isFaithful && r.isFaithful)
    && if l.isNullLiteral || r.isNullLiteral then
        l.isKnown dialect record && r.isKnown dialect record
      else isSeen dialect record op l r
  | arithmetic _ l r | and l r | or l r => l.isFaithful && r.isFaithful
  | not e => e.isFaithful
  | negate e => e.isFaithful && (e.evaluate record).isPlaced
  | member e items => e.isFaithful && areFaithful e items

def areFaithful (e : BoundExpr) : List BoundExpr → Bool
  | [] => true
  | item :: rest =>
    (item.isFaithful && isSeen dialect record .eq e item) && areFaithful e rest

end

variable {dialect record}

theorem sqlValue_eq {e : BoundExpr} {condition : SqlExpr}
    (translated : SqlExpr.translate e = .ok condition) :
    e.sqlValue dialect record = condition.evaluate dialect record := by
  rw [sqlValue, translated]

theorem evaluate_of_isNullLiteral {e : BoundExpr} (null : e.isNullLiteral = true) :
    e.evaluate record = .null := by
  unfold isNullLiteral at null
  split at null
  · rfl
  · exact absurd null Bool.false_ne_true

theorem compareValues_eq (a b : Value) :
    compareValues .eq false a b = (a.compare b == some .eq) := by
  rw [compareValues, if_neg Bool.false_ne_true]
  cases a.compare b <;> rfl

theorem alike_of_isKnown {e : BoundExpr} {condition : SqlExpr}
    (translated : SqlExpr.translate e = .ok condition)
    (agrees : Agrees (e.evaluate record) (condition.evaluate dialect record))
    (known : e.isKnown dialect record = true) :
    Value.Alike (e.evaluate record) (condition.evaluate dialect record) := by
  rw [isKnown, sqlValue_eq translated] at known
  exact agrees.alike_of_known known

theorem isTrue_comparison_of_isSeen {op : Operator} {l r : BoundExpr} {left right : SqlExpr}
    (translatedL : SqlExpr.translate l = .ok left)
    (translatedR : SqlExpr.translate r = .ok right)
    (agreesL : Agrees (l.evaluate record) (left.evaluate dialect record))
    (agreesR : Agrees (r.evaluate record) (right.evaluate dialect record))
    (seen : isSeen dialect record op l r = true) :
    isTrue (SqlExpr.comparison op (left.evaluate dialect record) (right.evaluate dialect record)) =
      compareValues op false (l.evaluate record) (r.evaluate record) := by
  rw [isSeen, isKnown, isKnown, sqlValue_eq translatedL, sqlValue_eq translatedR] at seen
  exact SqlExpr.isTrue_comparison op agreesL agreesR seen

theorem agrees_compare {op : Operator} {l r : BoundExpr} {left right condition : SqlExpr}
    (comparison : op.isComparison = true)
    (translatedL : SqlExpr.translate l = .ok left)
    (translatedR : SqlExpr.translate r = .ok right)
    (agreesL : Agrees (l.evaluate record) (left.evaluate dialect record))
    (agreesR : Agrees (r.evaluate record) (right.evaluate dialect record))
    (seen : (if l.isNullLiteral || r.isNullLiteral then
      l.isKnown dialect record && r.isKnown dialect record
      else isSeen dialect record op l r) = true)
    (translated : SqlExpr.translate (compare op l r) = .ok condition) :
    Agrees ((compare op l r).evaluate record) (condition.evaluate dialect record) := by
  rw [SqlExpr.translate, translatedL, translatedR] at translated
  rw [evaluate]
  by_cases nullR : r.isNullLiteral = true
  · rw [nullR, Bool.or_true, if_pos rfl] at seen
    have alikeL := alike_of_isKnown translatedL agreesL ((Bool.and_eq_true _ _).mp seen).1
    rw [if_pos nullR] at translated
    cases translated
    rw [SqlExpr.evaluate_compareNull, SqlExpr.compareNull_eq op alikeL,
      evaluate_of_isNullLiteral nullR, nullR, Bool.or_true, compareValues, if_pos rfl]
    exact .alike (.refl _)
  · by_cases nullL : l.isNullLiteral = true
    · rw [nullL, Bool.true_or, if_pos rfl] at seen
      have alikeR := alike_of_isKnown translatedR agreesR ((Bool.and_eq_true _ _).mp seen).2
      rw [if_neg nullR, if_pos nullL] at translated
      cases translated
      rw [SqlExpr.evaluate_compareNull, SqlExpr.compareNull_eq op alikeR,
        SqlExpr.compareNull_comm, evaluate_of_isNullLiteral nullL, nullL, Bool.true_or,
        compareValues, if_pos rfl]
      exact .alike (.refl _)
    · rw [if_neg nullR, if_neg nullL] at translated
      cases translated
      rw [Bool.eq_false_iff.mpr nullR, Bool.eq_false_iff.mpr nullL, Bool.or_false] at seen ⊢
      rw [if_neg Bool.false_ne_true] at seen
      rw [SqlExpr.evaluate_comparison comparison]
      exact (SqlExpr.isTruth_comparison _ _ _).agrees
        (isTrue_comparison_of_isSeen translatedL translatedR agreesL agreesR seen).symm

mutual

/-- A value and its form in SQL agree. -/
theorem agrees_of_translate : ∀ {e : BoundExpr} {condition : SqlExpr}, e.isPlain = true →
    SqlExpr.translate e = .ok condition → e.isFaithful dialect record = true →
      Agrees (e.evaluate record) (condition.evaluate dialect record)
  | literal v, condition, _, translated, _ => by
    cases translated
    cases v <;> exact .alike (.refl _)
  | property name ty, condition, _, translated, _ => by
    cases translated
    exact .alike (.refl _)
  | compare op l r, condition, plain, translated, faithful => by
    obtain ⟨comparison, plainL, plainR⟩ := by simpa [isPlain] using plain
    obtain ⟨faithfulBoth, seen⟩ := (Bool.and_eq_true _ _).mp faithful
    obtain ⟨faithfulL, faithfulR⟩ := (Bool.and_eq_true _ _).mp faithfulBoth
    obtain ⟨left, translatedL⟩ := exists_translate plainL
    obtain ⟨right, translatedR⟩ := exists_translate plainR
    exact agrees_compare comparison translatedL translatedR
      (agrees_of_translate plainL translatedL faithfulL)
      (agrees_of_translate plainR translatedR faithfulR) seen translated
  | arithmetic op l r, condition, plain, translated, faithful => by
    obtain ⟨numeric, plainL, plainR⟩ := by simpa [isPlain] using plain
    obtain ⟨faithfulL, faithfulR⟩ := (Bool.and_eq_true _ _).mp faithful
    obtain ⟨left, translatedL, translated⟩ := Result.bind_eq_ok.mp translated
    obtain ⟨right, translatedR, translated⟩ := Result.bind_eq_ok.mp translated
    cases translated
    rw [SqlExpr.evaluate_arithmetic numeric]
    exact .alike (SqlExpr.alike_computation op (agrees_of_translate plainL translatedL faithfulL)
      (agrees_of_translate plainR translatedR faithfulR))
  | and l r, condition, plain, translated, faithful => by
    obtain ⟨plainL, plainR⟩ := (Bool.and_eq_true _ _).mp plain
    obtain ⟨faithfulL, faithfulR⟩ := (Bool.and_eq_true _ _).mp faithful
    obtain ⟨left, translatedL, translated⟩ := Result.bind_eq_ok.mp translated
    obtain ⟨right, translatedR, translated⟩ := Result.bind_eq_ok.mp translated
    cases translated
    have sameL := (agrees_of_translate plainL translatedL faithfulL).isTrue_eq
    have sameR := (agrees_of_translate plainR translatedR faithfulR).isTrue_eq
    refine (SqlExpr.isTruth_conjunction _ _).agrees ?_
    rw [SqlExpr.isTrue_conjunction, sameL, sameR]
  | or l r, condition, plain, translated, faithful => by
    obtain ⟨plainL, plainR⟩ := (Bool.and_eq_true _ _).mp plain
    obtain ⟨faithfulL, faithfulR⟩ := (Bool.and_eq_true _ _).mp faithful
    obtain ⟨left, translatedL, translated⟩ := Result.bind_eq_ok.mp translated
    obtain ⟨right, translatedR, translated⟩ := Result.bind_eq_ok.mp translated
    cases translated
    have sameL := (agrees_of_translate plainL translatedL faithfulL).isTrue_eq
    have sameR := (agrees_of_translate plainR translatedR faithfulR).isTrue_eq
    refine (SqlExpr.isTruth_disjunction _ _).agrees ?_
    rw [SqlExpr.isTrue_disjunction, sameL, sameR]
  | not e, condition, plain, translated, faithful => by
    obtain ⟨operand, translatedE, translated⟩ := Result.bind_eq_ok.mp translated
    cases translated
    have same := (agrees_of_translate (e := e) plain translatedE faithful).isTrue_eq
    have value : (SqlExpr.not (.call .coalesce [operand, .value (.bool false)])).evaluate
        dialect record = .bool (!isTrue (operand.evaluate dialect record)) :=
      SqlExpr.negation_coalesce _
    rw [value, evaluate, same]
    exact .alike (.refl _)
  | negate e, condition, plain, translated, faithful => by
    obtain ⟨faithfulE, placed⟩ := (Bool.and_eq_true _ _).mp faithful
    obtain ⟨operand, translatedE, translated⟩ := Result.bind_eq_ok.mp translated
    cases translated
    exact .alike (SqlExpr.alike_negate (agrees_of_translate (e := e) plain translatedE faithfulE)
      placed)
  | member e items, condition, plain, translated, faithful => by
    obtain ⟨plainE, plainItems⟩ := (Bool.and_eq_true _ _).mp plain
    obtain ⟨faithfulE, faithfulItems⟩ := (Bool.and_eq_true _ _).mp faithful
    obtain ⟨list, translatedItems, translated⟩ := Result.bind_eq_ok.mp translated
    obtain ⟨element, translatedE⟩ := exists_translate plainE
    have agrees := agrees_of_translate plainE translatedE faithfulE
    have value : condition.evaluate dialect record = SqlExpr.membership
        (element.evaluate dialect record) (SqlExpr.evaluateAll dialect record list) := by
      cases list with
      | nil =>
        cases translated
        rfl
      | cons first rest =>
        rw [translatedE] at translated
        cases translated
        rfl
    rw [value, evaluate]
    exact (SqlExpr.isTruth_membership _ _).agrees
      (isTrue_membership translatedE agrees plainItems translatedItems faithfulItems).symm

/-- A list without its null literals has the same elements. -/
theorem isTrue_membership {e : BoundExpr} {element : SqlExpr}
    (translatedE : SqlExpr.translate e = .ok element)
    (agrees : Agrees (e.evaluate record) (element.evaluate dialect record)) :
    ∀ {items : List BoundExpr} {list : List SqlExpr}, arePlain items = true →
      SqlExpr.translateItems items = .ok list → areFaithful dialect record e items = true →
        isTrue (SqlExpr.membership (element.evaluate dialect record)
          (SqlExpr.evaluateAll dialect record list)) =
            (evaluateAll record items).any fun w => (e.evaluate record).compare w == some .eq
  | [], list, _, translated, _ => by
    cases translated
    rfl
  | item :: rest, list, plain, translated, faithful => by
    obtain ⟨plainItem, plainRest⟩ := (Bool.and_eq_true _ _).mp plain
    obtain ⟨faithfulFirst, faithfulRest⟩ := (Bool.and_eq_true _ _).mp faithful
    obtain ⟨faithfulItem, seen⟩ := (Bool.and_eq_true _ _).mp faithfulFirst
    rw [evaluateAll, List.any_cons]
    rw [SqlExpr.translateItems] at translated
    split at translated
    next null =>
      rw [evaluate_of_isNullLiteral null, Value.compare_null]
      exact isTrue_membership translatedE agrees plainRest translated faithfulRest
    next =>
      obtain ⟨first, translatedItem, translated⟩ := Result.bind_eq_ok.mp translated
      obtain ⟨others, translatedRest, translated⟩ := Result.bind_eq_ok.mp translated
      cases translated
      have same := isTrue_comparison_of_isSeen translatedE translatedItem agrees
        (agrees_of_translate plainItem translatedItem faithfulItem) seen
      rw [SqlExpr.evaluateAll, SqlExpr.membership, SqlExpr.isTrue_disjunction, same,
        isTrue_membership translatedE agrees plainRest translatedRest faithfulRest,
        compareValues_eq]

end

/-- A condition that SQL leaves unknown, where the filter is false, does not equal false. -/
theorem not_selects_of_unknown {e : BoundExpr} {condition : SqlExpr}
    (translated : SqlExpr.translate e = .ok condition)
    (failed : e.evaluate record = .bool false)
    (unknown : condition.evaluate dialect record = .null) :
    (compare .eq e (literal (.bool false))).holds record = true ∧
      ∃ compared, SqlExpr.translate (compare .eq e (literal (.bool false))) = .ok compared ∧
        compared.selects dialect record = false := by
  have notNull : e.isNullLiteral = false := by
    cases null : e.isNullLiteral with
    | false => rfl
    | true =>
      rw [evaluate_of_isNullLiteral null] at failed
      cases failed
  refine ⟨?_, .binary .eq condition (.value (.bool false)), ?_, ?_⟩
  · rw [holds, evaluate, failed, notNull]
    rfl
  · rw [SqlExpr.translate, translated, notNull]
    rfl
  · rw [SqlExpr.selects, SqlExpr.evaluate_comparison rfl, unknown]
    rfl

/-! ## Filters that compare no conditions -/

/-- Whether an expression is computed from properties and literals by arithmetic alone. -/
def isOperand : BoundExpr → Bool
  | literal _ | property _ _ => true
  | arithmetic _ l r => l.isOperand && r.isOperand
  | _ => false

/-- Whether all operands of comparisons and items of lists are computed by arithmetic. -/
def isFlat : BoundExpr → Bool
  | compare _ l r => l.isOperand && r.isOperand
  | and l r | or l r => l.isFlat && r.isFlat
  | not e => e.isFlat
  | member e items => e.isOperand && items.all isOperand
  | e => e.isOperand

theorem sqlValue_of_isOperand : ∀ {e : BoundExpr}, e.isOperand = true → e.isPlain = true →
    e.sqlValue dialect record = e.evaluate record
  | literal v, _, _ => by cases v <;> rfl
  | property name ty, _, _ => rfl
  | arithmetic op l r, operand, plain => by
    obtain ⟨operandL, operandR⟩ := (Bool.and_eq_true _ _).mp operand
    obtain ⟨numeric, plainL, plainR⟩ := by simpa [isPlain] using plain
    obtain ⟨left, translatedL⟩ := exists_translate plainL
    obtain ⟨right, translatedR⟩ := exists_translate plainR
    have sameL := sqlValue_of_isOperand operandL plainL
    have sameR := sqlValue_of_isOperand operandR plainR
    rw [sqlValue_eq translatedL] at sameL
    rw [sqlValue_eq translatedR] at sameR
    have translated : SqlExpr.translate (arithmetic op l r) = .ok (.binary op left right) := by
      rw [SqlExpr.translate, translatedL, translatedR]
      rfl
    rw [sqlValue_eq translated, SqlExpr.evaluate_arithmetic numeric, sameL, sameR,
      SqlExpr.computation_eq, evaluate]

theorem isKnown_of_isOperand {e : BoundExpr} (operand : e.isOperand = true)
    (plain : e.isPlain = true) : e.isKnown dialect record = true := by
  rw [isKnown, SqlExpr.isKnown, sqlValue_of_isOperand operand plain, Bool.or_not_self]

theorem isSeen_of_isOperand {op : Operator} {l r : BoundExpr} (operandL : l.isOperand = true)
    (operandR : r.isOperand = true) (plainL : l.isPlain = true) (plainR : r.isPlain = true) :
    isSeen dialect record op l r = true := by
  rw [isSeen, isKnown_of_isOperand operandL plainL, isKnown_of_isOperand operandR plainR]
  rfl

theorem isFaithful_of_isOperand : ∀ {e : BoundExpr}, e.isOperand = true →
    e.isFaithful dialect record = true
  | literal v, _ => rfl
  | property name ty, _ => rfl
  | arithmetic op l r, operand => by
    obtain ⟨operandL, operandR⟩ := (Bool.and_eq_true _ _).mp operand
    rw [isFaithful, isFaithful_of_isOperand operandL, isFaithful_of_isOperand operandR]
    rfl

theorem areFaithful_of_isOperand {e : BoundExpr} {items : List BoundExpr}
    (operandE : e.isOperand = true) (plainE : e.isPlain = true)
    (operands : items.all isOperand = true) (plain : arePlain items = true) :
    areFaithful dialect record e items = true := by
  induction items with
  | nil => rfl
  | cons item rest ih =>
    obtain ⟨operand, operandsRest⟩ := (Bool.and_eq_true _ _).mp operands
    obtain ⟨plainItem, plainRest⟩ := (Bool.and_eq_true _ _).mp plain
    rw [areFaithful, isFaithful_of_isOperand operand,
      isSeen_of_isOperand operandE operand plainE plainItem, ih operandsRest plainRest]
    rfl

/-- Whatever the record. -/
theorem isFaithful_of_isFlat : ∀ {e : BoundExpr}, e.isFlat = true → e.isPlain = true →
    e.isFaithful dialect record = true
  | compare op l r, flat, plain => by
    obtain ⟨operandL, operandR⟩ := (Bool.and_eq_true _ _).mp flat
    obtain ⟨-, plainL, plainR⟩ := by simpa [isPlain] using plain
    rw [isFaithful, isFaithful_of_isOperand operandL, isFaithful_of_isOperand operandR,
      isKnown_of_isOperand operandL plainL, isKnown_of_isOperand operandR plainR,
      isSeen_of_isOperand operandL operandR plainL plainR, Bool.and_self, ite_self, Bool.and_self]
  | and l r, flat, plain => by
    obtain ⟨flatL, flatR⟩ := (Bool.and_eq_true _ _).mp flat
    obtain ⟨plainL, plainR⟩ := (Bool.and_eq_true _ _).mp plain
    rw [isFaithful, isFaithful_of_isFlat flatL plainL, isFaithful_of_isFlat flatR plainR]
    rfl
  | or l r, flat, plain => by
    obtain ⟨flatL, flatR⟩ := (Bool.and_eq_true _ _).mp flat
    obtain ⟨plainL, plainR⟩ := (Bool.and_eq_true _ _).mp plain
    rw [isFaithful, isFaithful_of_isFlat flatL plainL, isFaithful_of_isFlat flatR plainR]
    rfl
  | not e, flat, plain => isFaithful_of_isFlat (e := e) flat plain
  | member e items, flat, plain => by
    obtain ⟨operand, operands⟩ := (Bool.and_eq_true _ _).mp flat
    obtain ⟨plainE, plainItems⟩ := (Bool.and_eq_true _ _).mp plain
    rw [isFaithful, isFaithful_of_isOperand operand,
      areFaithful_of_isOperand operand plainE operands plainItems]
    rfl
  | literal v, _, _ => rfl
  | property name ty, _, _ => rfl
  | arithmetic op l r, flat, _ => isFaithful_of_isOperand (e := .arithmetic op l r) flat

end Faithful

/-! ## Filters and their conditions -/

/-- A filter without function calls has a condition.  The condition selects the records that the
filter holds for as long as no comparison of the filter is unknown in SQL alone, and so it does for
every record if no operand of a comparison and no item of a list is a condition or negated. -/
theorem selects_eq_holds (dialect : SqlDialect) {ty : EntityType} {filter : Expr}
    {bound : BoundExpr} (callFree : filter.isCallFree = true)
    (accepted : bindFilter ty filter = .ok bound) :
    ∃ condition, SqlExpr.translate bound = .ok condition ∧
      (∀ record, bound.isFaithful dialect record = true →
        condition.selects dialect record = bound.holds record) ∧
      (bound.isFlat = true →
        ∀ record, condition.selects dialect record = bound.holds record) := by
  obtain ⟨checked, boundE, accepted⟩ := Result.bind_eq_ok.mp accepted
  have same : checked = bound := by
    split at accepted
    · exact Except.ok.inj accepted
    · cases accepted
  cases same
  have plain := isPlain_of_bind callFree boundE
  obtain ⟨condition, translated⟩ := exists_translate plain
  have selected : ∀ record, bound.isFaithful dialect record = true →
      condition.selects dialect record = bound.holds record := fun record faithful =>
    (agrees_of_translate plain translated faithful).isTrue_eq.symm
  exact ⟨condition, translated, selected,
    fun flat record => selected record (isFaithful_of_isFlat flat plain)⟩

/-! Pets with a number and perhaps an age. -/

def petNumber : Property := ⟨⟨"id", by decide⟩, .int64, false⟩

def petAge : Property := ⟨⟨"age", by decide⟩, .int64, true⟩

def pet : EntityType := ⟨⟨"Pet", by decide⟩, [petNumber, petAge], [petNumber.name], []⟩

/-- The filter `not (age eq 1) and not (-id lt age)`. -/
def notOne : Expr :=
  .and (.not (.binary .eq (.property "age") (.literal (.int 1))))
    (.not (.binary .lt (.negate (.property "id")) (.property "age")))

def boundNotOne : BoundExpr :=
  .and (.not (.compare .eq (.property petAge.name .int64) (.literal (.int 1))))
    (.not (.compare .lt (.negate (.property petNumber.name .int64))
      (.property petAge.name .int64)))

def ageless : Record := [(petNumber.name, .int 1), (petAge.name, .null)]

def noDialect : SqlDialect := ⟨fun _ _ => .null, fun _ _ => .null⟩

/-- A pet without an age is none of age one, in SQL as well. -/
theorem selects_eq_holds_ageless :
    notOne.isCallFree = true ∧ bindFilter pet notOne = .ok boundNotOne ∧
      boundNotOne.isFaithful noDialect ageless = true ∧
      ∃ condition, SqlExpr.translate boundNotOne = .ok condition ∧
        condition.selects noDialect ageless = true := by
  have callFree : notOne.isCallFree = true := rfl
  have accepted : bindFilter pet notOne = .ok boundNotOne := by rfl
  have faithful : boundNotOne.isFaithful noDialect ageless = true := by rfl
  have holds : boundNotOne.holds ageless = true := by rfl
  obtain ⟨condition, translated, selected, -⟩ := selects_eq_holds noDialect callFree accepted
  exact ⟨callFree, accepted, faithful, condition, translated,
    (selected ageless faithful).trans holds⟩

end BoundExpr

end OData
