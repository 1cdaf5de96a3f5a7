import OData.Proofs.Expr.Operands

/-!
# Expressions: reading what was written

`startsText` follows the level of an expression through its canonical text, by induction on the
tree; `parse_toText` is the case of a whole text.
-/

set_option autoImplicit false

namespace OData.Expr

open Text (Cursor Before)
open Value (endings)
open Readers (around ofLevels)

/-- With enough levels left, the text of the expression is read at the level of its outermost
operator. -/
def StartsText (e : Expr) : Prop :=
  ∀ levels, e.nesting ≤ levels →
    Starts (ofLevels levels) e.precedence e.toChars e.reread

/-! ## How the text of an expression begins -/

theorem beginsNot_of_standsAt {e : Expr} {p : Nat} {condition : Bool}
    (stands : standsAt condition p e = true) (exposed : condition = true ∨ p ≤ notPrecedence) :
    e.beginsNot = false := by
  rw [standsAt, Bool.not_eq_true'] at stands
  have found : (condition || decide (p ≤ notPrecedence)) = true := by
    rw [Bool.or_eq_true, decide_eq_true_eq]
    exact exposed
  rwa [found, Bool.true_and] at stands

theorem le_of_decide_lt_eq_false {m n : Nat} (tight : decide (m < n) = false) : n ≤ m :=
  Nat.le_of_not_lt (of_decide_eq_false tight)

theorem opens_parenthesized (p q : Nat) (cs : List Char) : Opens p q ('(' :: (cs ++ [')'])) :=
  Opens.of_char _ (by decide)

/-- Whether an operand begins with `not` is seen only without brackets. -/
theorem opens_parenthesizeIf {e : Expr} {p q : Nat} {condition : Bool}
    (opens : (p ≤ notPrecedence → e.beginsNot = false) → Opens p e.precedence e.toChars)
    (free : p ≤ notPrecedence → (!condition && e.beginsNot) = false)
    (bound : condition = false → q ≤ e.precedence) :
    Opens p q (parenthesizeIf condition e.toChars) := by
  cases condition with
  | false => exact (opens free).mono (Nat.le_refl p) (bound rfl)
  | true => exact opens_parenthesized p q e.toChars

theorem opens_toChars {e : Expr} (legible : isLegible Value.isReadable e = true) {p : Nat}
    (free : p ≤ notPrecedence → e.beginsNot = false) : Opens p e.precedence e.toChars := by
  induction e with
  | literal v =>
    rw [isLegible] at legible
    rw [toChars_literal]
    exact opens_literal legible p
  | path names =>
    rw [isLegible] at legible
    obtain ⟨named, word⟩ := named_path legible
    rw [toChars_path]
    apply named.opens
    intro low same
    rw [word, String.toList_inj] at same
    have other := free low
    rw [beginsNot, same] at other
    contradiction
  | binary op l r left right =>
    simp only [isLegible, Bool.and_eq_true] at legible
    have low : op.precedence < primaryPrecedence := by cases op <;> decide
    have operand := opens_parenthesizeIf (left legible.1.1) free le_of_decide_lt_eq_false
    rw [toChars_binary]
    exact operand.append low (Before.cons (by decide) _) (by simp)
  | not e ih =>
    rw [toChars_not]
    refine ⟨⟨'n', _, rfl, by decide, by decide⟩, ?_, ?_⟩
    · intro _ enough
      exact absurd enough (by simp [precedence, notPrecedence, comparisonPrecedence])
    · intro enough
      exact absurd enough (by simp [precedence, notPrecedence, primaryPrecedence])
  | negate e ih =>
    rw [toChars_negate]
    refine ⟨⟨'-', _, rfl, by decide, by decide⟩, ?_, ?_⟩
    · intro _ _ rest _
      exact Cursor.firstWord_ne (c := 'n') (by rfl) (by simp)
    · intro enough
      exact absurd enough (by simp [precedence, unaryPrecedence, primaryPrecedence])
  | member e items element each =>
    simp only [isLegible, Bool.and_eq_true] at legible
    have operand := opens_parenthesizeIf (element legible.1.1) free le_of_decide_lt_eq_false
    rw [toChars_member, List.append_assoc, List.append_assoc]
    exact operand.append (by decide) (Before.cons (by decide) _) (by simp)
  | call f arguments each =>
    rw [toChars_call]
    exact opens_call f _ p

/-! ## Operands -/

theorem opens_operand {e : Expr} {p q : Nat} {condition : Bool}
    (legible : isLegible Value.isReadable e = true) (stands : standsAt condition p e = true)
    (bound : condition = false → q ≤ e.precedence) :
    Opens p q (parenthesizeIf condition e.toChars) := by
  apply opens_parenthesizeIf (opens_toChars legible) _ bound
  intro low
  rw [beginsNot_of_standsAt stands (Or.inr low), Bool.and_false]

/-- An operand is in brackets or binds tightly enough. -/
theorem starts_parenthesizeIf {e : Expr} {p levels : Nat} {condition : Bool}
    (starts : StartsText e) (legible : isLegible Value.isReadable e = true)
    (stands : standsAt condition p e = true) (bound : condition = false → p ≤ e.precedence)
    (first : 1 ≤ p) (last : p ≤ primaryPrecedence) (enough : condition.toNat + e.nesting ≤ levels) :
    Starts (ofLevels levels) p (parenthesizeIf condition e.toChars) e.reread := by
  obtain ⟨least, most⟩ := precedence_bounds e
  cases condition with
  | false =>
    rw [Bool.toNat_false, Nat.zero_add] at enough
    have opens := opens_toChars legible fun low => beginsNot_of_standsAt stands (Or.inr low)
    exact (starts levels enough).of_le opens first (bound rfl) most
  | true =>
    rw [Bool.toNat_true] at enough
    obtain ⟨inside, rfl⟩ : ∃ inside, levels = inside + 1 := ⟨levels - 1, by omega⟩
    have opens : Opens 1 e.precedence e.toChars :=
      opens_toChars legible fun _ => beginsNot_of_standsAt stands (Or.inl rfl)
    have within := (starts inside (by omega)).of_le opens (Nat.le_refl 1) least most
    have bracketed := within.reads.parenthesized opens
    have whole := bracketed.starts rfl
    exact whole.of_le (opens_parenthesized _ _ _) first last (Nat.le_refl _)

theorem readsItem_of_startsText {e : Expr} {levels : Nat} (starts : StartsText e)
    (legible : isLegible Value.isReadable e = true) (free : e.beginsNot = false)
    (enough : e.nesting ≤ levels) : ReadsItem (ofLevels levels) e := by
  obtain ⟨least, most⟩ := precedence_bounds e
  have opens : Opens 1 e.precedence e.toChars := opens_toChars legible fun _ => free
  exact ⟨((starts levels enough).of_le opens (Nat.le_refl 1) least most).reads,
    opens.mono (Nat.le_refl 1) least⟩

/-! ## Minus -/

theorem isPrefixOf_infinity {text rest : List Char} (before : Before endings rest)
    (other : "INF".toList.isPrefixOf text = false) :
    "INF".toList.isPrefixOf (text ++ rest) = false := by
  rw [Bool.eq_false_iff]
  intro starts
  have whole := List.isPrefixOf_iff_prefix.mp starts
  have noPrefix : ¬ "INF".toList <+: text := by
    intro found
    rw [List.isPrefixOf_iff_prefix.mpr found] at other
    contradiction
  rcases List.prefix_or_prefix_of_prefix whole (List.prefix_append text rest) with inside | shorter
  · exact noPrefix inside
  · obtain ⟨more, joined⟩ := shorter
    cases more with
    | nil =>
      rw [List.append_nil] at joined
      exact noPrefix (joined ▸ List.prefix_rfl)
    | cons ch more =>
      have letter : ch ∈ "INF".toList := by
        rw [← joined]
        simp
      rw [← joined, List.prefix_append_right_inj] at whole
      obtain ⟨tail, rfl⟩ := whole
      have stops : ∀ c ∈ "INF".toList, c ∉ endings := by decide
      exact stops ch letter (before ch rfl)

/-- A minus in front of an operand begins no literal. -/
theorem signsLiteral_operand {e : Expr} (legible : isLegible Value.isReadable e = true)
    (finite : e.beginsInfinity = false) {rest : List Char} (before : Before endings rest) :
    Readers.signsLiteral ('-' :: (parenthesizeIf (!e.isName) e.toChars ++ rest)) = false := by
  cases e with
  | path p =>
    rw [isLegible] at legible
    rw [beginsInfinity] at finite
    have named := (named_path legible).1.append before
    have token : parenthesizeIf (!(path p).isName) (path p).toChars =
        (PropertyPath.toText p).toList := by
      rw [toChars_path]
      rfl
    rw [token, named.signsLiteral_eq]
    exact isPrefixOf_infinity before finite
  | call f arguments =>
    have named := (named_call f (commaSeparated (listChars arguments) ++ [')'])).append before
    have token : parenthesizeIf (!(call f arguments).isName) (call f arguments).toChars =
        f.name.toList ++ '(' :: (commaSeparated (listChars arguments) ++ [')']) := by
      rw [toChars_call]
      rfl
    rw [token, named.signsLiteral_eq]
    cases f <;> rfl
  | _ => rfl

/-! ## One lemma for each kind of tree -/

theorem ofLevels_succ (levels : Nat) : ofLevels (levels + 1) = around (ofLevels levels) := rfl

theorem exists_inside {n levels : Nat} (enough : n + 1 ≤ levels) :
    ∃ inside, levels = inside + 1 ∧ n ≤ inside := by
  cases levels with
  | zero => contradiction
  | succ inside => exact ⟨inside, rfl, Nat.le_of_succ_le_succ enough⟩

theorem readsItem_of_mem {items : List Expr} {levels : Nat}
    (each : ∀ item ∈ items, isLegible Value.isReadable item = true → item.keepsSigns = true →
      StartsText item)
    (legible : areLegible Value.isReadable items = true) (signs : keepSigns items = true)
    (enough : nestingOfList items ≤ levels) : ∀ item ∈ items, ReadsItem (ofLevels levels) item := by
  intro item found
  obtain ⟨legibleItem, free⟩ := areLegible_iff.mp legible item found
  have starts := each item found legibleItem (keepSigns_iff.mp signs item found)
  have within := Nat.le_trans (nesting_le_of_mem found) enough
  exact readsItem_of_startsText starts legibleItem free within

theorem startsText_literal {v : Value} (readable : v.isReadable = true) :
    StartsText (literal v) := by
  intro levels _
  rw [toChars_literal, reread]
  exact (reads_literal readable).starts rfl

theorem startsText_path {p : PropertyPath} (named : p.isNamed = true) :
    StartsText (path p) := by
  intro levels _
  rw [toChars_path, reread]
  exact (reads_path named).starts rfl

theorem looser_of_decide_le_eq_false {m n : Nat} (tight : decide (m ≤ n) = false) : n + 1 ≤ m :=
  Nat.lt_of_not_le (of_decide_eq_false tight)

theorem startsText_binary (op : Operator) {l r : Expr} (left : StartsText l)
    (right : StartsText r) (legible : isLegible Value.isReadable (binary op l r) = true) :
    StartsText (binary op l r) := by
  intro levels enough
  simp only [isLegible, Bool.and_eq_true] at legible
  obtain ⟨⟨legibleLeft, placeLeft⟩, legibleRight, placeRight⟩ := legible
  rw [nesting_binary, Nat.max_le] at enough
  obtain ⟨least, most⟩ := operator_bounds op
  have first := starts_parenthesizeIf left legibleLeft placeLeft le_of_decide_lt_eq_false least
    (Nat.le_of_lt (Nat.lt_succ_of_lt most)) enough.1
  have second := starts_parenthesizeIf right legibleRight placeRight looser_of_decide_le_eq_false
    (Nat.succ_pos _) (Nat.le_succ_of_le most) enough.2
  have opens := opens_operand legibleRight placeRight looser_of_decide_le_eq_false
  rw [toChars_binary, reread]
  exact first.binary second.reads opens

theorem startsText_not {e : Expr} (starts : StartsText e)
    (legible : isLegible Value.isReadable (not e) = true) : StartsText (not e) := by
  intro levels enough
  rw [isLegible, Bool.and_eq_true] at legible
  obtain ⟨legibleOperand, place⟩ := legible
  rw [nesting_not] at enough
  obtain ⟨inside, rfl, within⟩ := exists_inside enough
  have operand := starts_parenthesizeIf starts legibleOperand place le_of_decide_lt_eq_false
    (by decide) (by decide) within
  have opens := opens_operand legibleOperand place le_of_decide_lt_eq_false
  rw [toChars_not, reread, ofLevels_succ]
  exact (operand.reads.not opens).starts rfl

/-- A name binds more tightly than a minus. -/
theorem unaryPrecedence_le_of_isName {e : Expr} (name : (!e.isName) = false) :
    unaryPrecedence ≤ e.precedence := by
  cases e with
  | path p => simp [precedence, unaryPrecedence, primaryPrecedence]
  | call f arguments => simp [precedence, unaryPrecedence, primaryPrecedence]
  | _ => contradiction

theorem startsText_negate {e : Expr} (starts : StartsText e)
    (legible : isLegible Value.isReadable (negate e) = true) (finite : e.beginsInfinity = false) :
    StartsText (negate e) := by
  intro levels enough
  rw [isLegible, Bool.and_eq_true] at legible
  obtain ⟨legibleOperand, place⟩ := legible
  rw [nesting_negate] at enough
  obtain ⟨inside, rfl, within⟩ := exists_inside enough
  have operand := starts_parenthesizeIf starts legibleOperand place unaryPrecedence_le_of_isName
    (by decide) (by decide) within
  have opens := opens_operand legibleOperand place unaryPrecedence_le_of_isName
  rw [toChars_negate, reread, ofLevels_succ]
  apply Reads.starts _ rfl
  apply operand.reads.negate opens
  intro rest before
  exact signsLiteral_operand legibleOperand finite before

theorem startsText_member {e : Expr} {items : List Expr} (element : StartsText e)
    (each : ∀ item ∈ items, isLegible Value.isReadable item = true → item.keepsSigns = true →
      StartsText item)
    (legible : isLegible Value.isReadable (member e items) = true)
    (signs : keepSigns items = true) : StartsText (member e items) := by
  intro levels enough
  simp only [isLegible, Bool.and_eq_true] at legible
  obtain ⟨⟨legibleElement, place⟩, some, legibleItems⟩ := legible
  have nonempty : items ≠ [] := by
    rintro rfl
    contradiction
  rw [nesting_member, Nat.max_le] at enough
  obtain ⟨inside, rfl, within⟩ := exists_inside enough.2
  have operand := starts_parenthesizeIf element legibleElement place le_of_decide_lt_eq_false
    (by decide) (by decide) enough.1
  have readsItems := readsItem_of_mem each legibleItems signs within
  rw [toChars_member, reread, listChars_eq_map, rereadList_eq_map]
  exact operand.member readsItems nonempty

theorem startsText_call (f : CanonicalFunction) {arguments : List Expr}
    (each : ∀ item ∈ arguments, isLegible Value.isReadable item = true →
      item.keepsSigns = true → StartsText item)
    (legible : areLegible Value.isReadable arguments = true)
    (signs : keepSigns arguments = true) : StartsText (call f arguments) := by
  intro levels enough
  rw [nesting_call] at enough
  obtain ⟨inside, rfl, within⟩ := exists_inside enough
  have readsArguments := readsItem_of_mem each legible signs within
  rw [toChars_call, reread, listChars_eq_map, rereadList_eq_map, ofLevels_succ]
  exact (reads_call f readsArguments).starts rfl

/-! ## All trees -/

theorem startsText (e : Expr) (legible : isLegible Value.isReadable e = true)
    (signs : e.keepsSigns = true) : StartsText e := by
  induction e with
  | literal v =>
    rw [isLegible] at legible
    exact startsText_literal legible
  | path p =>
    rw [isLegible] at legible
    exact startsText_path legible
  | binary op l r left right =>
    have parts := legible
    simp only [isLegible, Bool.and_eq_true] at parts
    rw [keepsSigns, Bool.and_eq_true] at signs
    exact startsText_binary op (left parts.1.1 signs.1) (right parts.2.1 signs.2) legible
  | not e ih =>
    have parts := legible
    rw [isLegible, Bool.and_eq_true] at parts
    rw [keepsSigns] at signs
    exact startsText_not (ih parts.1 signs) legible
  | negate e ih =>
    have parts := legible
    rw [isLegible, Bool.and_eq_true] at parts
    rw [keepsSigns, Bool.and_eq_true, Bool.not_eq_true'] at signs
    exact startsText_negate (ih parts.1 signs.1) legible signs.2
  | member e items element each =>
    have parts := legible
    simp only [isLegible, Bool.and_eq_true] at parts
    rw [keepsSigns, Bool.and_eq_true] at signs
    exact startsText_member (element parts.1.1 signs.1) each legible signs.2
  | call f arguments each =>
    rw [isLegible] at legible
    rw [keepsSigns] at signs
    exact startsText_call f each legible signs

theorem rest_ofText_toText (e : Expr) : (Cursor.ofText e.toText).rest = e.toChars ++ [] := by
  rw [Cursor.ofText, toText, String.toList_ofList, List.append_nil]

/-- Reading what was written gives the tree with its decimals in the form they were written in. -/
theorem parse_toText_of_isLegible {e : Expr} (legible : isLegible Value.isReadable e = true)
    (free : e.beginsNot = false) (signs : e.keepsSigns = true)
    (shallow : e.nesting ≤ maxNesting) : parse e.toText = .ok e.reread := by
  obtain ⟨reads, opens⟩ :=
    readsItem_of_startsText (startsText e legible signs) legible free shallow
  obtain ⟨next, read, left⟩ :=
    reads _ [] .finish (opens.ahead_of_rest (rest_ofText_toText e))
  have finished : next.expectEnd = .ok () := by
    apply Cursor.expectEnd_eq_ok
    rw [Cursor.ahead_eq_rest, left]
    rw [left]
    intro d head
    contradiction
  have whole : expression maxNesting (Cursor.ofText e.toText) = .ok (e.reread, next) := read
  rw [parse, parseWhole, whole]
  show (next.expectEnd >>= fun _ => pure e.reread) = .ok e.reread
  rw [finished]
  rfl

theorem parse_toText_eq {e : Expr} (readable : e.isReadable = true)
    (shallow : e.nesting ≤ maxNesting) : parse e.toText = .ok e.reread :=
  parse_toText_of_isLegible (isLegible_of_isReadable readable) (beginsNot_of_isReadable readable)
    (keepsSigns_of_isReadable readable) shallow

/-- Reading undoes writing: a tree of readable literals and paths in which at most `maxNesting`
minuses, `not` and brackets are open around one point is read back from its text as the same tree,
with decimals of the same value. -/
theorem parse_toText (e : Expr) (readable : e.isReadable = true)
    (shallow : e.nesting ≤ maxNesting) :
    ∃ read, parse e.toText = .ok read ∧ e.same read = true := by
  have parsed := parse_toText_eq readable shallow
  have same := same_reread e readable
  exact ⟨e.reread, parsed, same⟩

/-- A filter with brackets where the operators would bind otherwise. -/
def discounted : Expr :=
  binary .or
    (not (member (path ["Sales.Order", "rate"])
      [literal (.decimal ⟨-50, 2⟩), negate (path ["tax"])]))
    (binary .and
      (binary .eq (binary .sub (path ["price"]) (binary .add (path ["paid"]) (literal (.int 1))))
        (negate (literal (.int 3))))
      (call .contains [path ["note"], literal (.string "it's")]))

example : discounted.toText = "not Sales.Order/rate in (-0.50, -tax) or " ++
    "price sub (paid add 1) eq -(3) and contains(note, 'it''s')" := by decide +kernel

theorem parse_toText_discounted : discounted.isReadable = true ∧ discounted.nesting ≤ maxNesting ∧
    ∃ read, parse discounted.toText = .ok read ∧ discounted.same read = true := by
  have readable : discounted.isReadable = true := by decide +kernel
  have shallow : discounted.nesting ≤ maxNesting := by decide +kernel
  exact ⟨readable, shallow, parse_toText discounted readable shallow⟩

end OData.Expr
