import OData.Expr.Parser
import OData.Proofs.Value.Literals

/-!
# Expressions: tokens

`Follows p rest` says that `rest` may stand after an operand of precedence `p`: the end, a closing
bracket, a comma, a semicolon, or an operator that binds less tightly than `p`.  No token of the
operand reaches into such a text, and no reader of level `p` goes on with it.
-/

set_option autoImplicit false

namespace OData.Expr

open Text (Cursor Before)
open Value (endings)

inductive Follows (p : Nat) : List Char → Prop
  | finish : Follows p []
  | bracket (rest : List Char) : Follows p (')' :: rest)
  | comma (rest : List Char) : Follows p (',' :: rest)
  | semicolon (rest : List Char) : Follows p (';' :: rest)
  | operator {op : Operator} (rest : List Char) (looser : op.precedence < p) :
      Follows p (' ' :: (op.keyword.toList ++ ' ' :: rest))
  | list (rest : List Char) (looser : comparisonPrecedence < p) :
      Follows p (' ' :: ("in".toList ++ ' ' :: '(' :: rest))

theorem Follows.mono {p q : Nat} {rest : List Char} (follows : Follows p rest) (le : p ≤ q) :
    Follows q rest := by
  cases follows with
  | finish => exact .finish
  | bracket rest => exact .bracket rest
  | comma rest => exact .comma rest
  | semicolon rest => exact .semicolon rest
  | operator rest looser => exact .operator rest (Nat.lt_of_lt_of_le looser le)
  | list rest looser => exact .list rest (Nat.lt_of_lt_of_le looser le)

theorem Follows.before {p : Nat} {rest : List Char} (follows : Follows p rest) :
    Before endings rest := by
  cases follows with
  | finish => exact Before.nil endings
  | bracket rest => exact Before.cons (by decide) rest
  | comma rest => exact Before.cons (by decide) rest
  | semicolon rest => exact Before.cons (by decide) rest
  | operator rest _ => exact Before.cons (by decide) _
  | list rest _ => exact Before.cons (by decide) _

/-! ## Operators -/

theorem all_isNameChar_keyword (op : Operator) :
    op.keyword.toList.all Text.isNameChar = true := by
  cases op <;> decide

theorem keyword_injective {op other : Operator} (same : op.keyword.toList = other.keyword.toList) :
    op = other := by
  have found := Operator.ofKeyword?_keyword op
  rw [String.toList_inj.mp same, Operator.ofKeyword?_keyword] at found
  exact (Option.some.inj found).symm

theorem keyword_ne_in (op : Operator) : op.keyword.toList ≠ "in".toList := by
  cases op <;> decide

/-- A word of letters after a blank is the first word ahead. -/
theorem firstWord_after_blank {c : Cursor} {w rest : List Char} (nonempty : w ≠ [])
    (letters : w.all Text.isNameChar = true) (left : c.rest = ' ' :: (w ++ ' ' :: rest)) :
    c.ahead = w ++ ' ' :: rest ∧ Cursor.firstWord c.ahead = w := by
  have ahead : c.ahead = w ++ ' ' :: rest := by
    apply Cursor.ahead_of_blank left
    intro d head
    cases w with
    | nil => contradiction
    | cons first more =>
      rw [List.cons_append, List.head?_cons, Option.mem_some_iff] at head
      subst head
      exact Text.isBlank_of_isNameChar (List.all_eq_true.mp letters first List.mem_cons_self)
  refine ⟨ahead, ?_⟩
  rw [ahead]
  exact Cursor.firstWord_run letters (Before.singleton ' ' rest) (by decide)

theorem keyword_ne_nil (op : Operator) : op.keyword.toList ≠ [] := by
  cases op <;> decide

theorem Follows.firstWord {p : Nat} {rest : List Char} (follows : Follows p rest) {c : Cursor}
    (left : c.rest = rest) :
    Cursor.firstWord c.ahead = [] ∨
      (∃ op : Operator, op.precedence < p ∧ Cursor.firstWord c.ahead = op.keyword.toList) ∨
      comparisonPrecedence < p ∧ Cursor.firstWord c.ahead = "in".toList := by
  cases follows with
  | finish =>
    left
    rw [Cursor.ahead, left]
    rfl
  | bracket rest =>
    left
    rw [Cursor.ahead, left]
    rfl
  | comma rest =>
    left
    rw [Cursor.ahead, left]
    rfl
  | semicolon rest =>
    left
    rw [Cursor.ahead, left]
    rfl
  | operator rest looser =>
    right
    left
    exact ⟨_, looser, (firstWord_after_blank (keyword_ne_nil _) (all_isNameChar_keyword _) left).2⟩
  | list rest looser =>
    right
    right
    exact ⟨looser, (firstWord_after_blank (by decide) (by decide) left).2⟩

theorem operator?_eq_none {c : Cursor} {operators : List Operator}
    (others : ∀ op ∈ operators, Cursor.firstWord c.ahead ≠ op.keyword.toList) :
    Readers.operator? c operators = none := by
  induction operators with
  | nil => rfl
  | cons op operators ih =>
    have first : c.keyword? op.keyword = none :=
      Cursor.keyword?_eq_none (all_isNameChar_keyword op) (others op List.mem_cons_self)
    rw [Readers.operator?, first]
    exact ih fun other member => others other (List.mem_cons_of_mem op member)

theorem operator?_eq_some {c : Cursor} {op : Operator} {operators : List Operator}
    {rest : List Char} (member : op ∈ operators)
    (text : c.ahead = op.keyword.toList ++ ' ' :: rest) :
    ∃ next, Readers.operator? c operators = some (op, next) ∧ next.rest = ' ' :: rest := by
  have letters := all_isNameChar_keyword op
  have blank := Before.singleton ' ' rest
  induction operators with
  | nil => contradiction
  | cons first operators ih =>
    by_cases same : first = op
    · obtain ⟨next, found, left⟩ := Cursor.keyword?_eq_some text blank (by decide)
      exact ⟨next, by rw [Readers.operator?, same, found], left⟩
    · have word : Cursor.firstWord c.ahead = op.keyword.toList := by
        rw [text]
        exact Cursor.firstWord_run letters blank (by decide)
      have other : c.keyword? first.keyword = none := by
        apply Cursor.keyword?_eq_none (all_isNameChar_keyword first)
        rw [word]
        intro equal
        exact same (keyword_injective equal).symm
      have later : op ∈ operators := by
        rcases List.mem_cons.mp member with equal | later
        · exact absurd equal.symm same
        · exact later
      obtain ⟨next, found, left⟩ := ih later
      exact ⟨next, by rw [Readers.operator?, other]; exact found, left⟩

theorem Follows.operator?_eq_none {p : Nat} {rest : List Char} (follows : Follows p rest)
    {c : Cursor} (left : c.rest = rest) {operators : List Operator}
    (tighter : ∀ op ∈ operators, p ≤ op.precedence) : Readers.operator? c operators = none := by
  apply Expr.operator?_eq_none
  intro op member same
  have enough := tighter op member
  rcases follows.firstWord left with none | ⟨other, looser, word⟩ | ⟨_, word⟩
  · exact keyword_ne_nil op (same.symm.trans none)
  · rw [keyword_injective (same.symm.trans word)] at enough
    omega
  · exact keyword_ne_in op (same.symm.trans word)

theorem Follows.keyword?_in_eq_none {rest : List Char}
    (follows : Follows comparisonPrecedence rest) {c : Cursor} (left : c.rest = rest) :
    c.keyword? "in" = none := by
  apply Cursor.keyword?_eq_none (by decide)
  intro same
  rcases follows.firstWord left with none | ⟨other, _, word⟩ | ⟨looser, _⟩
  · rw [none] at same
    exact absurd same (by decide)
  · exact keyword_ne_in other (word.symm.trans same)
  · exact absurd looser (Nat.lt_irrefl _)

/-- No segment and no list of arguments follows an operand. -/
theorem Follows.char?_eq_none {p : Nat} {rest : List Char} (follows : Follows p rest) {c : Cursor}
    (left : c.rest = rest) {ch : Char} (opens : ch = '/' ∨ ch = '(') : c.char? ch = none := by
  apply Cursor.char?_eq_none
  have word : ∀ {w rest : List Char}, w ≠ [] → w.all Text.isNameChar = true →
      c.rest = ' ' :: (w ++ ' ' :: rest) → c.ahead.head? ≠ some ch := by
    intro w rest nonempty letters text
    rw [(firstWord_after_blank nonempty letters text).1]
    apply Value.head?_word_ne letters (Before.singleton ' ' rest)
    · rcases opens with rfl | rfl <;> decide
    · rcases opens with rfl | rfl <;> decide
  cases follows with
  | finish =>
    rw [Cursor.ahead, left]
    simp
  | bracket rest =>
    have visible : Text.isBlank ')' = false := by decide
    rw [Cursor.ahead, left]
    rcases opens with rfl | rfl <;> simp [visible]
  | comma rest =>
    have visible : Text.isBlank ',' = false := by decide
    rw [Cursor.ahead, left]
    rcases opens with rfl | rfl <;> simp [visible]
  | semicolon rest =>
    have visible : Text.isBlank ';' = false := by decide
    rw [Cursor.ahead, left]
    rcases opens with rfl | rfl <;> simp [visible]
  | operator rest _ => exact word (keyword_ne_nil _) (all_isNameChar_keyword _) left
  | list rest _ => exact word (by decide) (by decide) left

end OData.Expr
