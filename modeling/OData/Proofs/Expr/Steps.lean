import OData.Proofs.Expr.Legible
import OData.Proofs.Expr.Levels
import OData.Proofs.Identifier
import OData.Proofs.Result

/-!
# Expressions: the text of each constructor

For each constructor, how the level of its precedence reads its text when the levels of the operands
read theirs.  What is inside a bracket, a `not` or a minus is read by the readers one level further
in.
-/

set_option autoImplicit false

namespace OData.Expr

open Text (Cursor Before)
open Value (endings)
open Readers (chain extendBinary extendComparison around)

section Steps

variable {inner : Readers} {p q : Nat} {cs : List Char} {e : Expr}

/-! ## Looser levels -/

theorem level_of_comparison (inner : Readers) (opens : Opens notPrecedence comparisonPrecedence cs)
    {c : Cursor} {rest : List Char} (before : Before endings rest) (text : c.ahead = cs ++ rest) :
    level inner notPrecedence c = level inner comparisonPrecedence c := by
  have word := opens.noNot (Nat.le_refl _) (Nat.le_refl _) rest before
  have noNot : c.keyword? "not" = none := by
    apply Cursor.keyword?_eq_none (by decide)
    rw [text]
    exact word
  have unfolded : level inner notPrecedence c = Readers.negation' inner c := rfl
  rw [unfolded, Readers.negation', noNot]
  rfl

theorem level_of_primary (inner : Readers) (opens : Opens p primaryPrecedence cs) {c : Cursor}
    {rest : List Char} (text : c.ahead = cs ++ rest) :
    level inner unaryPrecedence c = level inner primaryPrecedence c.skipBlanks := by
  have noMinus := opens.noMinus (Nat.le_refl _) rest
  have unfolded : level inner unaryPrecedence c = Readers.signed' inner c := rfl
  rw [unfolded, Readers.signed']
  simp only [Cursor.rest_skipBlanks, text]
  rw [if_neg noMinus]
  rfl

theorem Reads.of_comparison (reads : Reads inner comparisonPrecedence cs e)
    (opens : Opens notPrecedence comparisonPrecedence cs) : Reads inner notPrecedence cs e := by
  intro c rest follows text
  obtain ⟨next, read, left⟩ := reads c rest (follows.mono (by decide)) text
  exact ⟨next, by rw [level_of_comparison inner opens follows.before text, read], left⟩

theorem Reads.of_primary (reads : Reads inner primaryPrecedence cs e)
    (opens : Opens p primaryPrecedence cs) : Reads inner unaryPrecedence cs e := by
  intro c rest follows text
  have skipped : c.skipBlanks.ahead = cs ++ rest := by rw [Cursor.ahead_skipBlanks, text]
  obtain ⟨next, read, left⟩ := reads c.skipBlanks rest (follows.mono (by decide)) skipped
  exact ⟨next, by rw [level_of_primary inner opens text, read], left⟩

/-- A text that a level starts is started by all looser levels. -/
theorem Starts.of_le (starts : Starts inner q cs e) (opens : Opens p q cs)
    (first : 1 ≤ p) (le : p ≤ q) (last : q ≤ primaryPrecedence) : Starts inner p cs e := by
  induction q with
  | zero => omega
  | succ q ih =>
    by_cases same : p = q + 1
    · rwa [same]
    · have lower := opens.mono (Nat.le_refl p) (Nat.le_succ q)
      apply ih _ lower (by omega) (by omega)
      have reads := starts.reads
      rcases chain_or_prefix (by omega : 1 ≤ q) last with rfl | rfl | chained
      · have here : Opens notPrecedence comparisonPrecedence cs :=
          opens.mono (by omega) (Nat.le_refl _)
        exact (reads.of_comparison here).starts rfl
      · exact (reads.of_primary opens).starts rfl
      · exact reads.starts_below chained

/-! ## Brackets, `not` and minus -/

theorem primary_bracket (readers : Readers) (opens : Opens p q cs) {c : Cursor} {rest : List Char}
    (text : c.ahead = '(' :: (cs ++ rest)) : ∃ opened, opened.ahead = cs ++ rest ∧
      level readers primaryPrecedence c = (readers.expression opened >>= fun found =>
        found.2.expectChar ')' >>= fun next => pure (found.1, next)) := by
  obtain ⟨opened, bracket, inside⟩ := Cursor.char?_eq_some text
  refine ⟨opened, opens.ahead_of_rest inside, ?_⟩
  have unfolded : level readers primaryPrecedence c = Readers.primary readers c := rfl
  rw [unfolded, Readers.primary]
  simp only [bracket]

theorem negation_not (readers : Readers) (opens : Opens p q cs) {c : Cursor} {rest : List Char}
    (text : c.ahead = "not ".toList ++ (cs ++ rest)) : ∃ behind, behind.ahead = cs ++ rest ∧
      level readers notPrecedence c = (readers.negation behind >>= fun found =>
        pure (Expr.not found.1, found.2)) := by
  have word : c.ahead = "not".toList ++ ' ' :: (cs ++ rest) := text
  obtain ⟨behind, keyword, blank⟩ :=
    Cursor.keyword?_eq_some word (Before.singleton ' ' _) (by decide)
  refine ⟨behind, opens.ahead_of_blank blank, ?_⟩
  have unfolded : level readers notPrecedence c = Readers.negation' readers c := rfl
  rw [unfolded, Readers.negation', keyword]

theorem signed_minus (readers : Readers) (opens : Opens p q cs) {c : Cursor} {rest : List Char}
    (text : c.ahead = '-' :: (cs ++ rest))
    (noLiteral : Readers.signsLiteral ('-' :: (cs ++ rest)) = false) :
    ∃ behind, behind.ahead = cs ++ rest ∧
      level readers unaryPrecedence c = (readers.signed behind >>= fun found =>
        pure (Expr.negate found.1, found.2)) := by
  have minus : c.skipBlanks.rest = '-' :: (cs ++ rest) := by rw [Cursor.rest_skipBlanks, text]
  have behind : (c.skipBlanks.advance 1).rest = cs ++ rest := by
    rw [Cursor.rest_advance, minus]
    rfl
  refine ⟨_, opens.ahead_of_rest behind, ?_⟩
  have unfolded : level readers unaryPrecedence c = Readers.signed' readers c := rfl
  have signed : c.skipBlanks.rest.head? = some '-' ∧
      Readers.signsLiteral c.skipBlanks.rest = false := by
    rw [minus]
    exact ⟨rfl, noLiteral⟩
  rw [unfolded, Readers.signed']
  simp only [if_pos signed]

theorem Reads.parenthesized (reads : Reads inner 1 cs e) (opens : Opens p q cs) :
    Reads (around inner) primaryPrecedence ('(' :: (cs ++ [')'])) e := by
  intro c rest _ text
  have bracketed : c.ahead = '(' :: (cs ++ ')' :: rest) := by simp [text]
  obtain ⟨opened, inside, unfolded⟩ := primary_bracket (around inner) opens bracketed
  obtain ⟨closing, read, behind⟩ := reads opened (')' :: rest) (.bracket rest) inside
  obtain ⟨next, closed, left⟩ :=
    Cursor.expectChar_eq_ok (Cursor.ahead_of_char behind (by decide))
  refine ⟨next, ?_, left⟩
  have within : (around inner).expression opened = .ok (e, closing) := read
  rw [unfolded, within]
  change (closing.expectChar ')' >>= fun next => pure (e, next)) = .ok (e, next)
  rw [closed]
  rfl

theorem Reads.not (reads : Reads inner notPrecedence cs e) (opens : Opens p q cs) :
    Reads (around inner) notPrecedence ("not ".toList ++ cs) (Expr.not e) := by
  intro c rest follows text
  rw [List.append_assoc] at text
  obtain ⟨behind, ahead, unfolded⟩ := negation_not (around inner) opens text
  obtain ⟨next, read, left⟩ := reads behind rest follows ahead
  have within : (around inner).negation behind = .ok (e, next) := read
  exact ⟨next, by rw [unfolded, within]; rfl, left⟩

theorem Reads.negate (reads : Reads inner unaryPrecedence cs e) (opens : Opens p q cs)
    (noLiteral : ∀ rest, Before endings rest →
      Readers.signsLiteral ('-' :: (cs ++ rest)) = false) :
    Reads (around inner) unaryPrecedence ('-' :: cs) (Expr.negate e) := by
  intro c rest follows text
  obtain ⟨behind, ahead, unfolded⟩ :=
    signed_minus (around inner) opens text (noLiteral rest follows.before)
  obtain ⟨next, read, left⟩ := reads behind rest follows ahead
  have within : (around inner).signed behind = .ok (e, next) := read
  exact ⟨next, by rw [unfolded, within]; rfl, left⟩

/-! ## Operators -/

/-- Before an operator of its own a level goes on with the operand behind it. -/
theorem extension_operator (inner : Readers) {op : Operator} {c : Cursor} {rest : List Char}
    (opens : Opens p q cs)
    (text : c.rest = ' ' :: (op.keyword.toList ++ ' ' :: (cs ++ rest))) :
    ∃ behind, behind.ahead = cs ++ rest ∧ ∀ left, extension inner op.precedence left c =
      (level inner (op.precedence + 1) behind >>= fun found =>
        pure (some (binary op left found.1, found.2))) := by
  obtain ⟨ahead, word⟩ :=
    firstWord_after_blank (keyword_ne_nil op) (all_isNameChar_keyword op) text
  obtain ⟨behind, found, blank⟩ := operator?_eq_some (mem_operatorsAt op) ahead
  refine ⟨behind, opens.ahead_of_blank blank, ?_⟩
  intro left
  have extended : extendBinary (operatorsAt op.precedence) (level inner (op.precedence + 1))
      left c = (level inner (op.precedence + 1) behind >>= fun found =>
        pure (some (binary op left found.1, found.2))) := by
    rw [extendBinary, found]
  by_cases comparison : op.precedence = comparisonPrecedence
  · have noList : c.keyword? "in" = none := by
      apply Cursor.keyword?_eq_none (by decide)
      rw [word]
      exact keyword_ne_in op
    rw [comparison] at extended ⊢
    rw [extension, if_pos rfl, extendComparison, noList]
    exact extended
  · rw [extension, if_neg comparison]
    exact extended

theorem Starts.binary {op : Operator} {leftChars rightChars : List Char} {left right : Expr}
    (starts : Starts inner op.precedence leftChars left)
    (reads : Reads inner (op.precedence + 1) rightChars right) (opens : Opens p q rightChars) :
    Starts inner op.precedence
      (leftChars ++ ' ' :: (op.keyword.toList ++ ' ' :: rightChars))
      (Expr.binary op left right) := by
  intro c rest follows text
  have split : c.ahead =
      leftChars ++ ' ' :: (op.keyword.toList ++ ' ' :: (rightChars ++ rest)) := by simp [text]
  obtain ⟨fuel, middle, start, left', enough⟩ :=
    starts c _ (.operator (rightChars ++ rest) (Nat.lt_succ_self _)) split
  obtain ⟨behind, ahead, unfolded⟩ := extension_operator inner opens left'
  obtain ⟨next, read, after⟩ := reads behind rest follows ahead
  have extended : extension inner op.precedence left middle =
      .ok (some (Expr.binary op left right, next)) := by
    rw [unfolded, read]
    rfl
  cases fuel with
  | zero => simp at enough
  | succ fuel =>
    refine ⟨fuel, next, start.trans (chain_step extended fuel), after, ?_⟩
    simp only [List.length_cons, List.length_append] at enough
    omega

/-! ## Lists -/

theorem commaSeparated_cons_cons (text other : List Char) (texts : List (List Char)) :
    commaSeparated (text :: other :: texts) =
      text ++ ',' :: ' ' :: commaSeparated (other :: texts) := by
  rw [commaSeparated]
  simp

theorem exists_commaSeparated_cons (text : List Char) (texts : List (List Char)) :
    ∃ tail, commaSeparated (text :: texts) = text ++ tail := by
  cases texts with
  | nil => exact ⟨[], by simp [commaSeparated]⟩
  | cons other texts => exact ⟨_, commaSeparated_cons_cons text other texts⟩

theorem length_le_commaSeparated (texts : List (List Char)) :
    texts.length ≤ (commaSeparated texts).length + 1 := by
  induction texts with
  | nil => simp
  | cons text texts ih =>
    cases texts with
    | nil => simp
    | cons other texts =>
      rw [commaSeparated_cons_cons]
      simp only [List.length_append, List.length_cons] at ih ⊢
      omega

/-- What each item of a list needs. -/
def ReadsItem (inner : Readers) (item : Expr) : Prop :=
  Reads inner 1 item.toChars item.reread ∧ Opens 1 1 item.toChars

/-- Behind an item that is read the list goes on with the others. -/
theorem itemsFrom_comma {item other : Expr} {items : List Expr}
    (reads : Reads inner 1 item.toChars item.reread) (opens : Opens 1 1 other.toChars)
    (fuel : Nat) {c : Cursor} {rest : List Char}
    (text : c.ahead = commaSeparated ((item :: other :: items).map toChars) ++ ')' :: rest) :
    ∃ after, after.ahead = commaSeparated ((other :: items).map toChars) ++ ')' :: rest ∧
      Readers.itemsFrom (Readers.expression' inner) (fuel + 1) c =
        (Readers.itemsFrom (Readers.expression' inner) fuel after >>= fun found =>
          pure (item.reread :: found.1, found.2)) := by
  rw [List.map_cons, List.map_cons, commaSeparated_cons_cons, List.append_assoc, List.cons_append,
    List.cons_append] at text
  obtain ⟨middle, read, behind⟩ := reads c _ (.comma _) text
  obtain ⟨after, comma, blank⟩ := Cursor.char?_eq_some (Cursor.ahead_of_char behind (by decide))
  obtain ⟨tail, begins⟩ := exists_commaSeparated_cons other.toChars (items.map toChars)
  have ahead : after.ahead = commaSeparated ((other :: items).map toChars) ++ ')' :: rest := by
    rw [begins, List.append_assoc] at blank
    rw [opens.ahead_of_blank blank, List.map_cons, begins, List.append_assoc]
  have first : Readers.expression' inner c = .ok (item.reread, middle) := read
  refine ⟨after, ahead, ?_⟩
  rw [Readers.itemsFrom, first]
  simp only [bind, Except.bind, comma]

theorem itemsFrom_eq_ok {items : List Expr} (each : ∀ item ∈ items, ReadsItem inner item)
    (nonempty : items ≠ []) {fuel : Nat} (enough : items.length ≤ fuel) {c : Cursor}
    {rest : List Char} (text : c.ahead = commaSeparated (items.map toChars) ++ ')' :: rest) :
    ∃ next, Readers.itemsFrom (Readers.expression' inner) fuel c = .ok (items.map reread, next) ∧
      next.rest = rest := by
  induction items generalizing fuel c with
  | nil => contradiction
  | cons item items ih =>
    obtain ⟨reads, _⟩ := each item List.mem_cons_self
    cases fuel with
    | zero => simp at enough
    | succ fuel =>
      cases items with
      | nil =>
        obtain ⟨closing, read, behind⟩ := reads c _ (.bracket rest) text
        have bracket := Cursor.ahead_of_char behind (by decide)
        have noComma : closing.char? ',' = none := by
          apply Cursor.char?_eq_none
          rw [bracket]
          simp
        obtain ⟨next, closed, left⟩ := Cursor.expectChar_eq_ok bracket
        have first : Readers.expression' inner c = .ok (item.reread, closing) := read
        refine ⟨next, ?_, left⟩
        rw [Readers.itemsFrom, Result.bind_eq_ok]
        refine ⟨_, first, ?_⟩
        simp only [noComma, closed]
        rfl
      | cons other items =>
        have eachOther : ∀ i ∈ other :: items, ReadsItem inner i := by
          intro i member
          exact each i (List.mem_cons_of_mem item member)
        obtain ⟨after, ahead, unfolded⟩ :=
          itemsFrom_comma reads (eachOther other List.mem_cons_self).2 fuel text
        obtain ⟨next, others, left⟩ := ih eachOther (by simp) (by simpa using enough) ahead
        exact ⟨next, by rw [unfolded, others]; rfl, left⟩

/-- A list that is not empty has no bracket in front. -/
theorem items_of_cons (inner : Readers) {item : Expr} {items : List Expr}
    (opens : Opens 1 1 item.toChars) {c : Cursor} {rest : List Char}
    (text : c.ahead = commaSeparated ((item :: items).map toChars) ++ ')' :: rest) :
    (around inner).items c =
      Readers.itemsFrom (Readers.expression' inner) (c.rest.length + 1) c := by
  obtain ⟨tail, begins⟩ := exists_commaSeparated_cons item.toChars (items.map toChars)
  have noBracket : c.char? ')' = none := by
    apply Cursor.char?_eq_none
    intro head
    rw [text, List.map_cons, begins, List.append_assoc] at head
    exact (opens.head?_append _ ')' head).2 rfl
  have unfolded : (around inner).items c = Readers.items' inner c := rfl
  rw [unfolded, Readers.items', noBracket]

theorem items_eq_ok {items : List Expr} (each : ∀ item ∈ items, ReadsItem inner item) {c : Cursor}
    {rest : List Char} (text : c.ahead = commaSeparated (items.map toChars) ++ ')' :: rest) :
    ∃ next, (around inner).items c = .ok (items.map reread, next) ∧ next.rest = rest := by
  have unfolded : (around inner).items c = Readers.items' inner c := rfl
  cases items with
  | nil =>
    obtain ⟨next, bracket, left⟩ := Cursor.char?_eq_some text
    exact ⟨next, by rw [unfolded, Readers.items', bracket]; rfl, left⟩
  | cons item items =>
    have enough : (item :: items).length ≤ c.rest.length + 1 := by
      have count := length_le_commaSeparated ((item :: items).map toChars)
      have size := congrArg List.length text
      have skipped : c.ahead.length ≤ c.rest.length := List.length_dropWhile_le _ _
      simp only [List.length_map, List.length_append] at count size
      omega
    obtain ⟨next, read, left⟩ := itemsFrom_eq_ok each (by simp) enough text
    have opens := (each item List.mem_cons_self).2
    exact ⟨next, by rw [items_of_cons inner opens text, read], left⟩

theorem ahead_items {items : List Expr} (each : ∀ item ∈ items, Opens 1 1 item.toChars)
    {c : Cursor} {rest : List Char}
    (left : c.rest = commaSeparated (items.map toChars) ++ ')' :: rest) :
    c.ahead = commaSeparated (items.map toChars) ++ ')' :: rest := by
  cases items with
  | nil => exact Cursor.ahead_of_char left (by decide)
  | cons item items =>
    obtain ⟨tail, begins⟩ := exists_commaSeparated_cons item.toChars (items.map toChars)
    have opens := each item List.mem_cons_self
    rw [List.map_cons, begins, List.append_assoc] at left ⊢
    exact opens.ahead_of_rest left

/-- Behind `in` a comparison goes on with the list. -/
theorem extension_in (readers : Readers) {c : Cursor} {rest : List Char}
    (text : c.rest = ' ' :: ("in".toList ++ ' ' :: '(' :: rest)) :
    ∃ opened, opened.rest = rest ∧ ∀ element, extension readers comparisonPrecedence element c =
      (readers.items opened >>= fun found =>
        if found.1.isEmpty then found.2.error "'in' requires at least one value"
        else pure (some (member element found.1, found.2))) := by
  obtain ⟨ahead, _⟩ := firstWord_after_blank (by decide) (by decide) text
  obtain ⟨behind, keyword, blank⟩ :=
    Cursor.keyword?_eq_some ahead (Before.singleton ' ' _) (by decide)
  have bracketed := Cursor.ahead_of_blank blank (by
    intro d head
    rw [List.head?_cons, Option.mem_some_iff] at head
    rw [← head]
    decide)
  obtain ⟨opened, bracket, inside⟩ := Cursor.expectChar_eq_ok bracketed
  refine ⟨opened, inside, ?_⟩
  intro element
  rw [extension, if_pos rfl, extendComparison, keyword]
  simp only [bracket]
  rfl

theorem extension_member {items : List Expr} (each : ∀ item ∈ items, ReadsItem inner item)
    (nonempty : items ≠ []) (element : Expr) {c : Cursor} {rest : List Char}
    (text : c.rest = ' ' :: ("in".toList ++ ' ' :: '(' ::
      (commaSeparated (items.map toChars) ++ ')' :: rest))) :
    ∃ next, extension (around inner) comparisonPrecedence element c =
        .ok (some (member element (items.map reread), next)) ∧ next.rest = rest := by
  obtain ⟨opened, inside, unfolded⟩ := extension_in (around inner) text
  obtain ⟨next, read, left⟩ :=
    items_eq_ok each (ahead_items (fun item found => (each item found).2) inside)
  have some : (items.map reread).isEmpty = false := by simpa using nonempty
  refine ⟨next, ?_, left⟩
  rw [unfolded, read]
  change (if (items.map reread).isEmpty = true then _ else _) = _
  rw [some]
  rfl

theorem Starts.member {items : List Expr}
    (starts : Starts (around inner) comparisonPrecedence cs e)
    (each : ∀ item ∈ items, ReadsItem inner item) (nonempty : items ≠ []) :
    Starts (around inner) comparisonPrecedence
      (cs ++ " in (".toList ++ commaSeparated (items.map toChars) ++ [')'])
      (Expr.member e (items.map reread)) := by
  intro c rest follows text
  have split : c.ahead = cs ++ ' ' :: ("in".toList ++ ' ' :: '(' ::
      (commaSeparated (items.map toChars) ++ ')' :: rest)) := by simp [text]
  have follows : Follows (comparisonPrecedence + 1)
      (' ' :: ("in".toList ++ ' ' :: '(' :: (commaSeparated (items.map toChars) ++ ')' :: rest))) :=
    .list (commaSeparated (items.map toChars) ++ ')' :: rest) (Nat.lt_succ_self _)
  obtain ⟨fuel, middle, start, behind, enough⟩ := starts c _ follows split
  obtain ⟨next, extended, left⟩ := extension_member each nonempty e behind
  cases fuel with
  | zero => simp at enough
  | succ fuel =>
    refine ⟨fuel, next, start.trans (chain_step extended fuel), left, ?_⟩
    simp only [List.length_cons, List.length_append] at enough
    omega

end Steps

end OData.Expr
