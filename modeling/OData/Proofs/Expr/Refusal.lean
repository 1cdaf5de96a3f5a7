import OData.Proofs.Expr.Roundtrip
import OData.Proofs.Expr.Soundness

/-!
# Expressions: texts that are refused

The text of a legible tree is refused where more levels are open than there may be, and where a
minus stands before a name that begins like an infinity.  What fails inside an operand fails the
levels around it.  So the canonical text of a tree that was read need not be readable itself: the
renderer adds brackets that count as levels, and it drops a blank between a minus and a name.  Where
the text is read, the same tree comes back.
-/

set_option autoImplicit false

namespace OData.Expr

open Text (Cursor Before)
open Value (endings)
open Readers (chain around ofLevels)

/-- The rule fails on the text, whatever may follow an operand of precedence `p + 1`. -/
def Refuses {α : Type} (rule : Rule α) (p : Nat) (cs : List Char) : Prop :=
  ∀ (c : Cursor) (rest : List Char), Follows (p + 1) rest → c.ahead = cs ++ rest →
    ∃ error, rule c = .error error

section Steps

variable {inner readers : Readers} {p q n : Nat} {cs : List Char} {e : Expr}

theorem bind_eq_error {α β : Type} {x : Result α} {f : α → Result β} {error : Error}
    (failed : x = .error error) : (x >>= f) = .error error := by
  rw [failed]
  rfl

theorem Refuses.mono {α : Type} {rule : Rule α} (refuses : Refuses rule q cs) (le : p ≤ q) :
    Refuses rule p cs := by
  intro c rest follows text
  exact refuses c rest (follows.mono (Nat.succ_le_succ le)) text

/-! ## Looser levels -/

theorem Refuses.of_comparison (refuses : Refuses (level inner comparisonPrecedence) n cs)
    (opens : Opens notPrecedence comparisonPrecedence cs) :
    Refuses (level inner notPrecedence) n cs := by
  intro c rest follows text
  rw [level_of_comparison inner opens follows.before text]
  exact refuses c rest follows text

theorem Refuses.of_primary (refuses : Refuses (level inner primaryPrecedence) n cs)
    (opens : Opens p primaryPrecedence cs) : Refuses (level inner unaryPrecedence) n cs := by
  intro c rest follows text
  rw [level_of_primary inner opens text]
  exact refuses c.skipBlanks rest follows ((Cursor.ahead_skipBlanks c).trans text)

theorem Refuses.of_chain (refuses : Refuses (level inner (p + 1)) n cs)
    (chained : p ∈ chainLevels) : Refuses (level inner p) n cs := by
  intro c rest follows text
  obtain ⟨error, failed⟩ := refuses c rest follows text
  refine ⟨error, ?_⟩
  rw [level_chain inner chained]
  exact bind_eq_error failed

/-- A text that a level refuses is refused by all looser levels. -/
theorem Refuses.of_le (refuses : Refuses (level inner q) n cs) (opens : Opens p q cs)
    (first : 1 ≤ p) (le : p ≤ q) (last : q ≤ primaryPrecedence) :
    Refuses (level inner p) n cs := by
  induction q with
  | zero => omega
  | succ q ih =>
    by_cases same : p = q + 1
    · rwa [same]
    · have lower := opens.mono (Nat.le_refl p) (Nat.le_succ q)
      refine ih ?_ lower (by omega) (by omega)
      rcases chain_or_prefix (by omega : 1 ≤ q) last with rfl | rfl | chained
      · have here : Opens notPrecedence comparisonPrecedence cs :=
          opens.mono (by omega) (Nat.le_refl _)
        exact refuses.of_comparison here
      · exact refuses.of_primary opens
      · exact refuses.of_chain chained

/-! ## Brackets, `not` and minus -/

theorem Refuses.parenthesized (refuses : Refuses readers.expression 1 cs) (opens : Opens p q cs) :
    Refuses (level readers primaryPrecedence) n ('(' :: (cs ++ [')'])) := by
  intro c rest _ text
  have bracketed : c.ahead = '(' :: (cs ++ ')' :: rest) := by simp [text]
  obtain ⟨opened, inside, unfolded⟩ := primary_bracket readers opens bracketed
  obtain ⟨error, failed⟩ := refuses opened (')' :: rest) (.bracket rest) inside
  exact ⟨error, unfolded.trans (bind_eq_error failed)⟩

theorem Refuses.not (refuses : Refuses readers.negation n cs) (opens : Opens p q cs) :
    Refuses (level readers notPrecedence) n ("not ".toList ++ cs) := by
  intro c rest follows text
  rw [List.append_assoc] at text
  obtain ⟨behind, ahead, unfolded⟩ := negation_not readers opens text
  obtain ⟨error, failed⟩ := refuses behind rest follows ahead
  exact ⟨error, unfolded.trans (bind_eq_error failed)⟩

theorem Refuses.negate (refuses : Refuses readers.signed n cs) (opens : Opens p q cs)
    (noLiteral : ∀ rest, Before endings rest →
      Readers.signsLiteral ('-' :: (cs ++ rest)) = false) :
    Refuses (level readers unaryPrecedence) n ('-' :: cs) := by
  intro c rest follows text
  obtain ⟨behind, ahead, unfolded⟩ :=
    signed_minus readers opens text (noLiteral rest follows.before)
  obtain ⟨error, failed⟩ := refuses behind rest follows ahead
  exact ⟨error, unfolded.trans (bind_eq_error failed)⟩

/-- A minus before a name that begins like an infinity begins neither a literal nor a name. -/
theorem level_infinity (readers : Readers) {c : Cursor} {d : Char} {rest : List Char}
    (name : Text.isNameChar d = true) (text : c.ahead = '-' :: ("INF".toList ++ d :: rest)) :
    ∃ error, level readers unaryPrecedence c = .error error := by
  have noBracket : c.skipBlanks.char? '(' = none := by
    apply Cursor.char?_eq_none
    rw [Cursor.ahead_skipBlanks, text, List.head?_cons, ne_eq, Option.some.injEq]
    decide
  have finite : c.skipBlanks.skipBlanks.keyword? "-INF" = none := by
    have unfit : Cursor.keywordShape "-INF" ('-' :: ("INF".toList ++ d :: rest)) = none := by
      have word : Text.Shape.word "-INF" ('-' :: ("INF".toList ++ d :: rest)) = some 4 :=
        Text.Shape.word_append "-INF" (d :: rest)
      rw [Cursor.keywordShape, word]
      simp [name]
    rw [Cursor.keyword?, Cursor.skipBlanks_token?_eq_none]
    · rfl
    · rw [Cursor.ahead_skipBlanks, Cursor.ahead_skipBlanks, text]
      exact unfit
  have noLiteral : Value.literal? c.skipBlanks = .ok none := by
    rw [Value.literal?_minus (by decide : Text.isDecimalDigit 'I' = false)
      ((Cursor.ahead_skipBlanks c).trans text), finite]
    rfl
  have noName : c.skipBlanks.skipBlanks.dottedName? = none := by
    rw [Cursor.dottedName?, Cursor.skipBlanks_token?_eq_none]
    rw [Cursor.ahead_skipBlanks, Cursor.ahead_skipBlanks, text]
    rfl
  have signed : ¬(c.skipBlanks.rest.head? = some '-' ∧
      Readers.signsLiteral c.skipBlanks.rest = false) := by
    rw [Cursor.rest_skipBlanks, text]
    rintro ⟨_, noSign⟩
    contradiction
  have unfolded : level readers unaryPrecedence c = Readers.signed' readers c := rfl
  have named : level readers unaryPrecedence c = Readers.nameOrCall readers c.skipBlanks := by
    rw [unfolded, Readers.signed']
    simp only [if_neg signed, Readers.primary, noBracket, noLiteral]
    rfl
  rw [named, Readers.nameOrCall]
  simp only [noName]
  exact ⟨_, rfl⟩

theorem refuses_infinity (readers : Readers) {names : PropertyPath} (named : names.isNamed = true)
    (infinity : (path names).beginsInfinity = true) :
    Refuses (level readers unaryPrecedence) n ('-' :: (PropertyPath.toText names).toList) := by
  intro c rest _ text
  obtain ⟨d, tail, begins, name⟩ := (named_path named).1.exists_infinity infinity
  rw [begins, List.cons_append, List.append_assoc, List.cons_append] at text
  exact level_infinity readers name text

/-! ## Operators -/

theorem Refuses.binary_left {op : Operator} {leftChars : List Char}
    (refuses : Refuses (level inner op.precedence) op.precedence leftChars)
    (rightChars : List Char) : Refuses (level inner op.precedence) op.precedence
      (leftChars ++ ' ' :: (op.keyword.toList ++ ' ' :: rightChars)) := by
  intro c rest _ text
  have split : c.ahead =
      leftChars ++ ' ' :: (op.keyword.toList ++ ' ' :: (rightChars ++ rest)) := by simp [text]
  exact refuses c _ (.operator (rightChars ++ rest) (Nat.lt_succ_self _)) split

theorem chain_error {extend : Expr → Cursor → Result (Option (Expr × Cursor))} {left : Expr}
    {c : Cursor} {error : Error} (failed : extend left c = .error error) (fuel : Nat) :
    chain extend (fuel + 1) left c = .error error := by
  rw [chain]
  exact bind_eq_error failed

theorem Refuses.binary_right {op : Operator} {leftChars rightChars : List Char} {left : Expr}
    (starts : Starts inner op.precedence leftChars left)
    (refuses : Refuses (level inner (op.precedence + 1)) op.precedence rightChars)
    (opens : Opens p q rightChars) : Refuses (level inner op.precedence) op.precedence
      (leftChars ++ ' ' :: (op.keyword.toList ++ ' ' :: rightChars)) := by
  intro c rest follows text
  have split : c.ahead =
      leftChars ++ ' ' :: (op.keyword.toList ++ ' ' :: (rightChars ++ rest)) := by simp [text]
  obtain ⟨fuel, middle, start, left', enough⟩ :=
    starts c _ (.operator (rightChars ++ rest) (Nat.lt_succ_self _)) split
  obtain ⟨behind, ahead, unfolded⟩ := extension_operator inner opens left'
  obtain ⟨error, failed⟩ := refuses behind rest follows ahead
  cases fuel with
  | zero => simp at enough
  | succ fuel =>
    have extended := (unfolded left).trans (bind_eq_error failed)
    exact ⟨error, start.trans (chain_error extended fuel)⟩

/-! ## Lists -/

/-- What is known of an item that is refused. -/
def RefusesItem (inner : Readers) (item : Expr) : Prop :=
  Refuses (level inner 1) 1 item.toChars ∧ Opens 1 1 item.toChars

theorem itemsFrom_eq_error {items : List Expr}
    (each : ∀ item ∈ items, ReadsItem inner item ∨ RefusesItem inner item)
    (some : ∃ item ∈ items, RefusesItem inner item) {fuel : Nat} {c : Cursor} {rest : List Char}
    (text : c.ahead = commaSeparated (items.map toChars) ++ ')' :: rest) :
    ∃ error, Readers.itemsFrom (Readers.expression' inner) fuel c = .error error := by
  induction items generalizing fuel c with
  | nil =>
    obtain ⟨item, member, _⟩ := some
    contradiction
  | cons item items ih =>
    cases fuel with
    | zero => exact ⟨_, rfl⟩
    | succ fuel =>
      -- The first item that is refused ends the list.
      have refused : RefusesItem inner item →
          ∃ error, Readers.itemsFrom (Readers.expression' inner) (fuel + 1) c = .error error := by
        intro ⟨refuses, _⟩
        have first : ∃ error, Readers.expression' inner c = .error error := by
          cases items with
          | nil => exact refuses c _ (.bracket rest) text
          | cons other items =>
            rw [List.map_cons, List.map_cons, commaSeparated_cons_cons, List.append_assoc,
              List.cons_append] at text
            exact refuses c _ (.comma _) text
        obtain ⟨error, failed⟩ := first
        refine ⟨error, ?_⟩
        rw [Readers.itemsFrom]
        exact bind_eq_error failed
      rcases each item List.mem_cons_self with ⟨reads, _⟩ | here
      · obtain ⟨last, member, away⟩ := some
        rcases List.mem_cons.mp member with rfl | later
        · exact refused away
        · cases items with
          | nil => contradiction
          | cons other items =>
            have eachOther : ∀ i ∈ other :: items, ReadsItem inner i ∨ RefusesItem inner i := by
              intro i found
              exact each i (List.mem_cons_of_mem item found)
            have opens : Opens 1 1 other.toChars := by
              rcases eachOther other List.mem_cons_self with known | known
              · exact known.2
              · exact known.2
            obtain ⟨after, ahead, unfolded⟩ := itemsFrom_comma reads opens fuel text
            have others : ∃ error,
                Readers.itemsFrom (Readers.expression' inner) fuel after = .error error :=
              ih eachOther ⟨last, later, away⟩ ahead
            obtain ⟨error, failed⟩ := others
            exact ⟨error, unfolded.trans (bind_eq_error failed)⟩
      · exact refused here

theorem items_eq_error {items : List Expr}
    (each : ∀ item ∈ items, ReadsItem inner item ∨ RefusesItem inner item)
    (some : ∃ item ∈ items, RefusesItem inner item) {c : Cursor} {rest : List Char}
    (text : c.ahead = commaSeparated (items.map toChars) ++ ')' :: rest) :
    ∃ error, (around inner).items c = .error error := by
  cases items with
  | nil =>
    obtain ⟨item, member, _⟩ := some
    contradiction
  | cons item items =>
    have opens : Opens 1 1 item.toChars := by
      rcases each item List.mem_cons_self with known | known
      · exact known.2
      · exact known.2
    rw [items_of_cons inner opens text]
    exact itemsFrom_eq_error each some text

/-- The list fails the readers, whatever follows its bracket. -/
def RefusesItems (readers : Readers) (items : List Expr) : Prop :=
  ∀ (c : Cursor) (rest : List Char),
    c.ahead = commaSeparated (items.map toChars) ++ ')' :: rest →
    ∃ error, readers.items c = .error error

theorem Refuses.member_element (refuses : Refuses (level inner comparisonPrecedence)
    comparisonPrecedence cs) (listed : List Char) :
    Refuses (level inner comparisonPrecedence) comparisonPrecedence
      (cs ++ " in (".toList ++ listed ++ [')']) := by
  intro c rest _ text
  have split : c.ahead = cs ++ ' ' :: ("in".toList ++ ' ' :: '(' :: (listed ++ ')' :: rest)) := by
    simp [text]
  exact refuses c _ (.list (listed ++ ')' :: rest) (Nat.lt_succ_self _)) split

theorem RefusesItems.member {items : List Expr} (refuses : RefusesItems readers items)
    (opens : ∀ item ∈ items, Opens 1 1 item.toChars)
    (starts : Starts readers comparisonPrecedence cs e) :
    Refuses (level readers comparisonPrecedence) comparisonPrecedence
      (cs ++ " in (".toList ++ commaSeparated (items.map toChars) ++ [')']) := by
  intro c rest _ text
  have split : c.ahead = cs ++ ' ' :: ("in".toList ++ ' ' :: '(' ::
      (commaSeparated (items.map toChars) ++ ')' :: rest)) := by simp [text]
  have follows : Follows (comparisonPrecedence + 1)
      (' ' :: ("in".toList ++ ' ' :: '(' :: (commaSeparated (items.map toChars) ++ ')' :: rest))) :=
    .list (commaSeparated (items.map toChars) ++ ')' :: rest) (Nat.lt_succ_self _)
  obtain ⟨fuel, middle, start, behind, enough⟩ := starts c _ follows split
  obtain ⟨opened, inside, unfolded⟩ := extension_in readers behind
  obtain ⟨error, failed⟩ := refuses opened rest (ahead_items opens inside)
  cases fuel with
  | zero => simp at enough
  | succ fuel =>
    have extended := (unfolded e).trans (bind_eq_error failed)
    exact ⟨error, start.trans (chain_error extended fuel)⟩

theorem RefusesItems.call {items : List Expr} (refuses : RefusesItems readers items)
    (opens : ∀ item ∈ items, Opens 1 1 item.toChars) (f : CanonicalFunction) :
    Refuses (level readers primaryPrecedence) n
      (f.name.toList ++ '(' :: (commaSeparated (items.map toChars) ++ [')'])) := by
  intro c rest _ text
  have split : c.ahead = f.name.toList ++
      '(' :: (commaSeparated (items.map toChars) ++ ')' :: rest) := by simp [text]
  obtain ⟨opened, inside, unfolded⟩ := call_items readers f split
  obtain ⟨error, failed⟩ := refuses opened rest (ahead_items opens inside)
  exact ⟨error, unfolded.trans (bind_eq_error failed)⟩

end Steps

/-! ## Levels -/

/-- Whether a tree can be read back where so many levels may be open. -/
def Fits (levels : Nat) (e : Expr) : Prop := e.nesting ≤ levels ∧ e.keepsSigns = true

/-- Without enough levels the text of the expression is refused at the level of its outermost
operator. -/
def RefusesText (e : Expr) : Prop :=
  ∀ levels, ¬ Fits levels e → Refuses (level (ofLevels levels) e.precedence) e.precedence e.toChars

section Operands

variable {e : Expr} {levels : Nat}

theorem refuses_from (refuses : RefusesText e) (legible : isLegible Value.isReadable e = true)
    {p : Nat} (free : p ≤ notPrecedence → e.beginsNot = false) (first : 1 ≤ p)
    (bound : p ≤ e.precedence) (unfit : ¬ Fits levels e) :
    Refuses (level (ofLevels levels) p) p e.toChars := by
  have most := (precedence_bounds e).2
  have opens := opens_toChars legible free
  exact ((refuses levels unfit).of_le opens first bound most).mono bound

/-- A bracket, a `not` and a minus take one level. -/
theorem refuses_inside {n : Nat} {cs : List Char} (p : Nat) (rule : Readers → Rule Expr)
    (deep : rule Readers.none = tooDeep) (further : ∀ inner, rule (around inner) = level inner p)
    (within : ∀ inside, levels = inside + 1 → Refuses (level (ofLevels inside) p) n cs) :
    Refuses (rule (ofLevels levels)) n cs := by
  cases levels with
  | zero =>
    intro c rest _ _
    have none : rule (ofLevels 0) = tooDeep := deep
    rw [none]
    exact ⟨_, rfl⟩
  | succ inside =>
    rw [ofLevels_succ, further]
    exact within inside rfl

theorem refuses_parenthesizeIf {p : Nat} {condition : Bool} (refuses : RefusesText e)
    (legible : isLegible Value.isReadable e = true) (stands : standsAt condition p e = true)
    (bound : condition = false → p ≤ e.precedence) (first : 1 ≤ p) (last : p ≤ primaryPrecedence)
    (unfit : ¬ (condition.toNat + e.nesting ≤ levels ∧ e.keepsSigns = true)) :
    Refuses (level (ofLevels levels) p) p (parenthesizeIf condition e.toChars) := by
  obtain ⟨least, most⟩ := precedence_bounds e
  cases condition with
  | false =>
    rw [Bool.toNat_false, Nat.zero_add] at unfit
    exact refuses_from refuses legible (fun low => beginsNot_of_standsAt stands (Or.inr low)) first
      (bound rfl) unfit
  | true =>
    rw [Bool.toNat_true, Nat.add_comm] at unfit
    have free := beginsNot_of_standsAt stands (Or.inl rfl)
    have opens : Opens 1 e.precedence e.toChars := opens_toChars legible fun _ => free
    have inside : Refuses (ofLevels levels).expression 1 e.toChars := by
      apply refuses_inside 1 Readers.expression rfl fun _ => rfl
      rintro inside rfl
      apply refuses_from refuses legible (fun _ => free) (Nat.le_refl 1) least
      rintro ⟨shallow, signs⟩
      exact unfit ⟨Nat.succ_le_succ shallow, signs⟩
    exact (inside.parenthesized opens).of_le (opens_parenthesized p primaryPrecedence _) first last
      (Nat.le_refl _)

end Operands

/-! ## One lemma for each kind of tree -/

theorem refusesText_of_fits {e : Expr} (fits : ∀ levels, Fits levels e) : RefusesText e :=
  fun levels unfit => absurd (fits levels) unfit

theorem refusesText_binary (op : Operator) {l r : Expr} (left : RefusesText l)
    (right : RefusesText r) (legible : isLegible Value.isReadable (binary op l r) = true) :
    RefusesText (binary op l r) := by
  intro levels unfit
  simp only [isLegible, Bool.and_eq_true] at legible
  obtain ⟨⟨legibleLeft, placeLeft⟩, legibleRight, placeRight⟩ := legible
  rw [Fits, nesting_binary, Nat.max_le, keepsSigns, Bool.and_eq_true] at unfit
  obtain ⟨least, most⟩ := operator_bounds op
  have bound : op.precedence ≤ primaryPrecedence := Nat.le_of_lt (Nat.lt_succ_of_lt most)
  rw [toChars_binary]
  by_cases fits : (decide (l.precedence < op.precedence)).toNat + l.nesting ≤ levels ∧
      l.keepsSigns = true
  · have first := starts_parenthesizeIf (startsText l legibleLeft fits.2) legibleLeft placeLeft
      le_of_decide_lt_eq_false least bound fits.1
    have other : ¬ ((decide (r.precedence ≤ op.precedence)).toNat + r.nesting ≤ levels ∧
        r.keepsSigns = true) := by
      rintro ⟨shallow, signs⟩
      exact unfit ⟨⟨fits.1, shallow⟩, fits.2, signs⟩
    have second := refuses_parenthesizeIf right legibleRight placeRight
      looser_of_decide_le_eq_false (Nat.succ_pos _) (Nat.le_succ_of_le most) other
    have opens := opens_operand legibleRight placeRight looser_of_decide_le_eq_false
    exact Refuses.binary_right first (second.mono (Nat.le_succ _)) opens
  · exact (refuses_parenthesizeIf left legibleLeft placeLeft le_of_decide_lt_eq_false least bound
      fits).binary_left _

theorem refusesText_not {e : Expr} (refuses : RefusesText e)
    (legible : isLegible Value.isReadable (not e) = true) : RefusesText (not e) := by
  intro levels unfit
  rw [isLegible, Bool.and_eq_true] at legible
  obtain ⟨legibleOperand, place⟩ := legible
  have opens := opens_operand legibleOperand place le_of_decide_lt_eq_false
  rw [toChars_not]
  refine Refuses.not ?_ opens
  apply refuses_inside notPrecedence Readers.negation rfl fun _ => rfl
  rintro inside rfl
  apply refuses_parenthesizeIf refuses legibleOperand place le_of_decide_lt_eq_false (by decide)
    (by decide)
  rintro ⟨shallow, signs⟩
  exact unfit ⟨Nat.succ_le_succ shallow, by rw [keepsSigns]; exact signs⟩

theorem refusesText_negate {e : Expr} (refuses : RefusesText e)
    (legible : isLegible Value.isReadable (negate e) = true) : RefusesText (negate e) := by
  intro levels unfit
  rw [isLegible, Bool.and_eq_true] at legible
  obtain ⟨legibleOperand, place⟩ := legible
  by_cases infinity : e.beginsInfinity = true
  · cases e with
    | path names =>
      rw [isLegible] at legibleOperand
      exact refuses_infinity (ofLevels levels) legibleOperand infinity
    | _ => contradiction
  · have finite := Bool.eq_false_iff.mpr infinity
    have opens := opens_operand legibleOperand place unaryPrecedence_le_of_isName
    rw [toChars_negate]
    refine Refuses.negate ?_ opens fun rest before =>
      signsLiteral_operand legibleOperand finite before
    apply refuses_inside unaryPrecedence Readers.signed rfl fun _ => rfl
    rintro inside rfl
    apply refuses_parenthesizeIf refuses legibleOperand place unaryPrecedence_le_of_isName
      (by decide) (by decide)
    rintro ⟨shallow, signs⟩
    exact unfit ⟨Nat.succ_le_succ shallow, by rw [keepsSigns, signs, finite]; rfl⟩

theorem opens_of_mem {items : List Expr} (legible : areLegible Value.isReadable items = true) :
    ∀ item ∈ items, Opens 1 1 item.toChars := by
  intro item found
  obtain ⟨legibleItem, free⟩ := areLegible_iff.mp legible item found
  have opens : Opens 1 item.precedence item.toChars := opens_toChars legibleItem fun _ => free
  exact opens.mono (Nat.le_refl 1) (precedence_bounds item).1

theorem refusesItems {items : List Expr} {levels : Nat} (each : ∀ item ∈ items, RefusesText item)
    (legible : areLegible Value.isReadable items = true)
    (unfit : ¬ (nestingOfList items + 1 ≤ levels ∧ keepSigns items = true)) :
    RefusesItems (ofLevels levels) items := by
  intro c rest text
  cases levels with
  | zero => exact ⟨_, rfl⟩
  | succ inside =>
    rw [ofLevels_succ]
    refine items_eq_error ?_ ?_ text
    · intro item found
      obtain ⟨legibleItem, free⟩ := areLegible_iff.mp legible item found
      by_cases fits : Fits inside item
      · left
        exact readsItem_of_startsText (startsText item legibleItem fits.2) legibleItem free fits.1
      · right
        exact ⟨refuses_from (each item found) legibleItem (fun _ => free) (Nat.le_refl 1)
          (precedence_bounds item).1 fits, opens_of_mem legible item found⟩
    · by_contra none
      have fits : ∀ item ∈ items, Fits inside item := by
        intro item found
        obtain ⟨legibleItem, free⟩ := areLegible_iff.mp legible item found
        by_contra away
        exact none ⟨item, found, refuses_from (each item found) legibleItem (fun _ => free)
          (Nat.le_refl 1) (precedence_bounds item).1 away, opens_of_mem legible item found⟩
      apply unfit
      rw [Nat.succ_le_succ_iff, nestingOfList_le_iff, keepSigns_iff]
      exact ⟨fun item found => (fits item found).1, fun item found => (fits item found).2⟩

theorem refusesText_member {e : Expr} {items : List Expr} (element : RefusesText e)
    (each : ∀ item ∈ items, RefusesText item)
    (legible : isLegible Value.isReadable (member e items) = true) :
    RefusesText (member e items) := by
  intro levels unfit
  simp only [isLegible, Bool.and_eq_true] at legible
  obtain ⟨⟨legibleElement, place⟩, some, legibleItems⟩ := legible
  rw [Fits, nesting_member, Nat.max_le, keepsSigns, Bool.and_eq_true] at unfit
  rw [toChars_member, listChars_eq_map]
  by_cases fits : (decide (e.precedence < comparisonPrecedence)).toNat + e.nesting ≤ levels ∧
      e.keepsSigns = true
  · have first := starts_parenthesizeIf (startsText e legibleElement fits.2) legibleElement place
      le_of_decide_lt_eq_false (by decide) (by decide) fits.1
    have refuses : RefusesItems (ofLevels levels) items := by
      apply refusesItems each legibleItems
      rintro ⟨shallow, signs⟩
      exact unfit ⟨⟨fits.1, shallow⟩, fits.2, signs⟩
    exact refuses.member (opens_of_mem legibleItems) first
  · exact (refuses_parenthesizeIf element legibleElement place le_of_decide_lt_eq_false
      (by decide) (by decide) fits).member_element _

theorem refusesText_call (f : CanonicalFunction) {arguments : List Expr}
    (each : ∀ item ∈ arguments, RefusesText item)
    (legible : areLegible Value.isReadable arguments = true) : RefusesText (call f arguments) := by
  intro levels unfit
  rw [Fits, nesting_call, keepsSigns] at unfit
  rw [toChars_call, listChars_eq_map]
  exact (refusesItems each legible unfit).call (opens_of_mem legible) f

/-! ## All trees -/

theorem refusesText (e : Expr) (legible : isLegible Value.isReadable e = true) :
    RefusesText e := by
  induction e with
  | literal v => exact refusesText_of_fits fun levels => ⟨Nat.zero_le _, by simp [keepsSigns]⟩
  | path names => exact refusesText_of_fits fun levels => ⟨Nat.zero_le _, by simp [keepsSigns]⟩
  | binary op l r left right =>
    have parts := legible
    simp only [isLegible, Bool.and_eq_true] at parts
    exact refusesText_binary op (left parts.1.1) (right parts.2.1) legible
  | not e ih =>
    have parts := legible
    rw [isLegible, Bool.and_eq_true] at parts
    exact refusesText_not (ih parts.1) legible
  | negate e ih =>
    have parts := legible
    rw [isLegible, Bool.and_eq_true] at parts
    exact refusesText_negate (ih parts.1) legible
  | member e items element each =>
    have parts := legible
    simp only [isLegible, Bool.and_eq_true] at parts
    apply refusesText_member (element parts.1.1) _ legible
    intro item found
    exact each item found (areLegible_iff.mp parts.2.2 item found).1
  | call f arguments each =>
    rw [isLegible] at legible
    apply refusesText_call f _ legible
    intro item found
    exact each item found (areLegible_iff.mp legible item found).1

/-- A text that does not fit is not read. -/
theorem parse_toText_eq_error {e : Expr} (legible : isLegible Value.isReadable e = true)
    (free : e.beginsNot = false) (unfit : ¬ Fits maxNesting e) :
    ∃ error, parse e.toText = .error error := by
  have refuses := refuses_from (refusesText e legible) legible (fun _ => free) (Nat.le_refl 1)
    (precedence_bounds e).1 unfit
  have opens : Opens 1 e.precedence e.toChars := opens_toChars legible fun _ => free
  obtain ⟨error, failed⟩ :=
    refuses _ [] .finish (opens.ahead_of_rest (rest_ofText_toText e))
  have whole : expression maxNesting (Cursor.ofText e.toText) = .error error := failed
  exact ⟨error, by rw [parse, parseWhole]; exact bind_eq_error whole⟩

-- A blank after the minus would keep the name apart from the infinity.
example : ∃ error, parse (negate (path ["INFx"])).toText = .error error := by
  have unfit : ¬ Fits maxNesting (negate (path ["INFx"])) := by
    rintro ⟨_, signs⟩
    exact absurd signs (by decide)
  exact parse_toText_eq_error (by decide +kernel) rfl unfit

/-! ## Canonical texts -/

/-- A tree without floating-point numbers and instants that was read is read back from its
canonical text just if the text opens at most `maxNesting` levels and no minus in it stands before
a name that begins like an infinity; then it is the same tree. -/
theorem parse_toText_of_parse {text : String} {e : Expr} (read : parse text = .ok e)
    (plain : ∀ v ∈ e.literals, v.isDoubleOrInstant = false) :
    ((∃ again, parse e.toText = .ok again) ↔ e.nesting ≤ maxNesting ∧ e.keepsSigns = true) ∧
      ∀ again, parse e.toText = .ok again → e.same again = true := by
  obtain ⟨sound, free⟩ := isLegible_of_parse Value.isLiteral_of_literal? read
  have readable : ∀ v ∈ e.literals, v.isLiteral = true → v.isReadable = true := by
    intro v found literal
    rw [Value.isLiteral, plain v found, Bool.or_false] at literal
    exact literal
  have legible : isLegible Value.isReadable e = true := isLegible_of_literals sound readable
  by_cases fits : Fits maxNesting e
  · have parsed := parse_toText_of_isLegible legible free fits.2 fits.1
    refine ⟨⟨fun _ => fits, fun _ => ⟨e.reread, parsed⟩⟩, ?_⟩
    intro again found
    cases parsed.symm.trans found
    exact same_reread_of_literals e (known_of_mem_literals legible)
  · obtain ⟨error, failed⟩ := parse_toText_eq_error legible free fits
    have refused : ∀ again, parse e.toText ≠ .ok again := by
      intro again found
      cases failed.symm.trans found
    refine ⟨⟨?_, fun fit => absurd fit fits⟩, fun again found => absurd found (refused again)⟩
    rintro ⟨again, found⟩
    exact absurd found (refused again)

/-- A filter in which `not` names a property, where no operator could stand. -/
def misnamed : Expr :=
  binary .eq (path ["tags"]) (binary .mul (path ["not"]) (negate (literal (.decimal ⟨-50, 2⟩))))

theorem parse_toText_of_parse_misnamed : parse "tags eq not mul -(-0.50)" = .ok misnamed ∧
    (∀ v ∈ misnamed.literals, v.isDoubleOrInstant = false) ∧
    ∃ again, parse misnamed.toText = .ok again ∧ misnamed.same again = true := by
  have text : misnamed.toText = "tags eq not mul -(-0.50)" := by decide +kernel
  have fits : misnamed.nesting ≤ maxNesting ∧ misnamed.keepsSigns = true := by decide +kernel
  have read : parse "tags eq not mul -(-0.50)" = .ok misnamed := by
    rw [← text]
    exact parse_toText_of_isLegible (by decide +kernel) rfl fits.2 fits.1
  have plain : ∀ v ∈ misnamed.literals, v.isDoubleOrInstant = false := by decide
  obtain ⟨some, same⟩ := parse_toText_of_parse read plain
  obtain ⟨again, found⟩ := some.mpr fits
  exact ⟨read, plain, again, found, same again found⟩

end OData.Expr
