import OData.Proofs.Expr.Tokens

/-!
# Expressions: levels of precedence

`level inner p` reads an operand of precedence `p`.  At each level an operand is read and then
extended to the right as often as it can be.  `Starts` follows the first operand and the extensions
that its text brings; `Reads` also has the extensions come to an end, where nothing follows that the
level goes on with.
-/

set_option autoImplicit false

namespace OData.Expr

open Text (Cursor Before)
open Value (endings)
open Readers (chain extendBinary extendComparison)

def level (inner : Readers) : Nat → Rule Expr
  | 0 | 1 => Readers.expression' inner
  | 2 => Readers.binaryChain [.and] (Readers.negation' inner)
  | 3 => Readers.negation' inner
  | 4 => Readers.comparison inner
  | 5 => Readers.sum inner
  | 6 => Readers.binaryChain [.mul, .div, .mod] (Readers.signed' inner)
  | 7 => Readers.signed' inner
  | _ => Readers.primary inner

def operatorsAt : Nat → List Operator
  | 1 => [.or]
  | 2 => [.and]
  | 4 => Operator.comparisons
  | 5 => [.add, .sub]
  | 6 => [.mul, .div, .mod]
  | _ => []

/-- How a level goes on after an operand. -/
def extension (inner : Readers) (p : Nat) : Expr → Cursor → Result (Option (Expr × Cursor)) :=
  if p = comparisonPrecedence then extendComparison inner
  else extendBinary (operatorsAt p) (level inner (p + 1))

theorem mem_operatorsAt (op : Operator) : op ∈ operatorsAt op.precedence := by
  cases op <;> decide

theorem precedence_of_mem {p : Nat} {op : Operator} (member : op ∈ operatorsAt p) :
    op.precedence = p := by
  unfold operatorsAt at member
  split at member
  · revert op
    decide
  · revert op
    decide
  · revert op
    decide
  · revert op
    decide
  · revert op
    decide
  · contradiction

theorem operator_bounds (op : Operator) : 1 ≤ op.precedence ∧ op.precedence < unaryPrecedence := by
  cases op <;> decide

theorem precedence_bounds (e : Expr) : 1 ≤ e.precedence ∧ e.precedence ≤ primaryPrecedence := by
  cases e with
  | binary op l r =>
    have bounds := operator_bounds op
    simp only [precedence, primaryPrecedence, unaryPrecedence] at bounds ⊢
    omega
  | _ => simp [precedence, notPrecedence, comparisonPrecedence, unaryPrecedence, primaryPrecedence]

/-! ## Chains -/

/-- The levels whose operators associate to the left. -/
def chainLevels : List Nat := [1, 2, 4, 5, 6]

theorem chain_or_prefix {p : Nat} (first : 1 ≤ p) (last : p < primaryPrecedence) :
    p = notPrecedence ∨ p = unaryPrecedence ∨ p ∈ chainLevels := by
  have all : ∀ p ∈ List.range 8, 1 ≤ p →
      p = notPrecedence ∨ p = unaryPrecedence ∨ p ∈ chainLevels := by decide
  exact all p (List.mem_range.mpr last) first

theorem level_chain (inner : Readers) {p : Nat} (chained : p ∈ chainLevels) (c : Cursor) :
    level inner p c = (level inner (p + 1) c >>= fun found =>
      chain (extension inner p) found.2.rest.length found.1 found.2) := by
  simp only [chainLevels, List.mem_cons, List.not_mem_nil, or_false] at chained
  rcases chained with rfl | rfl | rfl | rfl | rfl <;> rfl

theorem chain_stop {extend : Expr → Cursor → Result (Option (Expr × Cursor))} {left : Expr}
    {c : Cursor} (stop : extend left c = .ok none) (fuel : Nat) :
    chain extend fuel left c = .ok (left, c) := by
  cases fuel with
  | zero => rfl
  | succ fuel =>
    rw [chain, stop]
    rfl

theorem chain_step {extend : Expr → Cursor → Result (Option (Expr × Cursor))} {left longer : Expr}
    {c next : Cursor} (step : extend left c = .ok (some (longer, next))) (fuel : Nat) :
    chain extend (fuel + 1) left c = chain extend fuel longer next := by
  rw [chain, step]
  rfl

theorem extendBinary_eq_none {operators : List Operator} {operand : Rule Expr} {left : Expr}
    {c : Cursor} (none : Readers.operator? c operators = none) :
    extendBinary operators operand left c = .ok Option.none := by
  rw [extendBinary, none]

/-- A level does not go on with what may follow its operands. -/
theorem extension_eq_none (inner : Readers) {p : Nat} {rest : List Char} (follows : Follows p rest)
    {c : Cursor} (left : c.rest = rest) (e : Expr) : extension inner p e c = .ok none := by
  have tighter : ∀ op ∈ operatorsAt p, p ≤ op.precedence := by
    intro op member
    exact Nat.le_of_eq (precedence_of_mem member).symm
  have none := follows.operator?_eq_none left tighter
  by_cases comparison : p = comparisonPrecedence
  · subst comparison
    have noList := follows.keyword?_in_eq_none left
    rw [extension, if_pos rfl, extendComparison, noList]
    exact extendBinary_eq_none none
  · rw [extension, if_neg comparison]
    exact extendBinary_eq_none none

/-! ## Reading a text -/

/-- The level reads the text as the expression. -/
def Reads (inner : Readers) (p : Nat) (cs : List Char) (e : Expr) : Prop :=
  ∀ (c : Cursor) (rest : List Char), Follows p rest → c.ahead = cs ++ rest →
    ∃ next, level inner p c = .ok (e, next) ∧ next.rest = rest

/-- The level comes to the end of the text with the expression as its left operand. -/
def Starts (inner : Readers) (p : Nat) (cs : List Char) (e : Expr) : Prop :=
  ∀ (c : Cursor) (rest : List Char), Follows (p + 1) rest → c.ahead = cs ++ rest →
    ∃ fuel next, level inner p c = chain (extension inner p) fuel e next ∧ next.rest = rest ∧
      rest.length ≤ fuel

section Reading

variable {inner : Readers} {p : Nat} {cs : List Char} {e : Expr}

theorem Starts.reads (starts : Starts inner p cs e) : Reads inner p cs e := by
  intro c rest follows text
  obtain ⟨fuel, next, start, left, _⟩ := starts c rest (follows.mono (Nat.le_succ p)) text
  have stop := chain_stop (extension_eq_none inner follows left e) fuel
  exact ⟨next, start.trans stop, left⟩

theorem Reads.starts_below (reads : Reads inner (p + 1) cs e) (chained : p ∈ chainLevels) :
    Starts inner p cs e := by
  intro c rest follows text
  obtain ⟨next, read, left⟩ := reads c rest follows text
  refine ⟨rest.length, next, ?_, left, Nat.le_refl _⟩
  rw [level_chain inner chained, read, ← left]
  rfl

theorem Follows.of_succ {rest : List Char} (follows : Follows (p + 1) rest)
    (none : operatorsAt p = []) : Follows p rest := by
  cases follows with
  | finish => exact .finish
  | bracket rest => exact .bracket rest
  | comma rest => exact .comma rest
  | semicolon rest => exact .semicolon rest
  | @operator op rest looser =>
    apply Follows.operator
    have other : op.precedence ≠ p := by
      intro same
      have member := mem_operatorsAt op
      rw [same, none] at member
      contradiction
    omega
  | list rest looser =>
    apply Follows.list
    have other : p ≠ comparisonPrecedence := by
      rintro rfl
      contradiction
    omega

/-- A level without operators reads all that it starts. -/
theorem Reads.starts (reads : Reads inner p cs e) (none : operatorsAt p = []) :
    Starts inner p cs e := by
  intro c rest follows text
  have ends := follows.of_succ none
  obtain ⟨next, read, left⟩ := reads c rest ends text
  have stop := chain_stop (extension_eq_none inner ends left e) rest.length
  exact ⟨rest.length, next, read.trans stop.symm, left, Nat.le_refl _⟩

end Reading

/-! ## How a text begins -/

/-- A text of precedence `q` that is read at the levels from `p` on begins with a character that is
neither blank nor a closing bracket; where a `not` could stand the text of no comparison or tighter
operator begins with one, and a primary has no minus but that of a literal. -/
structure Opens (p q : Nat) (cs : List Char) : Prop where
  visible : ∃ ch tail, cs = ch :: tail ∧ Text.isBlank ch = false ∧ ch ≠ ')'
  noNot : p ≤ notPrecedence → comparisonPrecedence ≤ q → ∀ rest, Before endings rest →
    Cursor.firstWord (cs ++ rest) ≠ "not".toList
  noMinus : primaryPrecedence ≤ q → ∀ rest,
    ¬ ((cs ++ rest).head? = some '-' ∧ Readers.signsLiteral (cs ++ rest) = false)

namespace Opens

variable {p p' q q' : Nat} {cs : List Char}

theorem mono (opens : Opens p' q' cs) (first : p' ≤ p) (le : q ≤ q') : Opens p q cs where
  visible := opens.visible
  noNot low enough := opens.noNot (Nat.le_trans first low) (Nat.le_trans enough le)
  noMinus enough := opens.noMinus (Nat.le_trans enough le)

theorem head?_append (opens : Opens p q cs) (rest : List Char) :
    ∀ d ∈ (cs ++ rest).head?, Text.isBlank d = false ∧ d ≠ ')' := by
  intro d head
  obtain ⟨ch, tail, rfl, visible⟩ := opens.visible
  rw [List.cons_append, List.head?_cons, Option.mem_some_iff] at head
  rwa [← head]

theorem ahead_of_blank (opens : Opens p q cs) {c : Cursor} {rest : List Char}
    (left : c.rest = ' ' :: (cs ++ rest)) : c.ahead = cs ++ rest :=
  Cursor.ahead_of_blank left fun d head => (opens.head?_append rest d head).1

theorem ahead_of_rest (opens : Opens p q cs) {c : Cursor} {rest : List Char}
    (left : c.rest = cs ++ rest) : c.ahead = cs ++ rest := by
  rw [Cursor.ahead_eq_rest, left]
  intro d head
  rw [left] at head
  exact (opens.head?_append rest d head).1

theorem append (opens : Opens p q cs) (low : q < primaryPrecedence) {tail : List Char}
    (before : Before endings tail) (nonempty : tail ≠ []) : Opens p q (cs ++ tail) where
  visible := by
    obtain ⟨ch, more, rfl, visible⟩ := opens.visible
    exact ⟨ch, more ++ tail, rfl, visible⟩
  noNot first enough rest _ := by
    rw [List.append_assoc]
    apply opens.noNot first enough
    intro d head
    cases tail with
    | nil => contradiction
    | cons first more => exact before d head
  noMinus enough := absurd enough (Nat.not_le_of_lt low)

/-- A text that begins with neither a blank nor a letter nor a minus. -/
theorem of_char {ch : Char} (tail : List Char)
    (plain : Text.isBlank ch = false ∧ ch ≠ ')' ∧ ch ≠ 'n' ∧ ch ≠ '-') :
    Opens p q (ch :: tail) where
  visible := ⟨ch, tail, rfl, plain.1, plain.2.1⟩
  noNot _ _ rest _ := by
    apply Cursor.firstWord_ne (by rfl)
    rw [List.cons_append, List.head?_cons, ne_eq, Option.some.injEq]
    exact plain.2.2.1
  noMinus _ rest := by
    rintro ⟨head, _⟩
    rw [List.cons_append, List.head?_cons, Option.some.injEq] at head
    exact plain.2.2.2 head

end Opens

end OData.Expr
