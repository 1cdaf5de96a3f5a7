import OData.Proofs.Expr.Soundness

/-!
# Expressions: the grammar of the trees that are read

`Derives n p e` says that the grammar derives the tree as an operand of precedence `p` with `n`
levels left to open.  Operators go on at the level they stand at, while brackets, lists, `not` and
minus each open one.  Whatever a reader reads is derived, so what holds of all trees that are read
is shown by induction on their derivations.

The canonical text of a tree has brackets only where its operators would bind otherwise, so where
they stood in the text that was read.  A tree without minuses therefore opens no more levels than
were there to be opened.
-/

set_option autoImplicit false

namespace OData.Expr

open Text (Cursor)
open Readers (around ofLevels)

inductive Derives : Nat → Nat → Expr → Prop where
  | literal {n : Nat} (v : Value) : Derives n primaryPrecedence (literal v)
  | path {n : Nat} (names : PropertyPath) : Derives n primaryPrecedence (path names)
  | call {n : Nat} (f : CanonicalFunction) {arguments : List Expr} :
      (∀ e ∈ arguments, Derives n 1 e) → Derives (n + 1) primaryPrecedence (call f arguments)
  | group {n : Nat} {e : Expr} : Derives n 1 e → Derives (n + 1) primaryPrecedence e
  | negate {n : Nat} {e : Expr} : Derives n unaryPrecedence e →
      Derives (n + 1) unaryPrecedence (negate e)
  | not {n : Nat} {e : Expr} : Derives n notPrecedence e → Derives (n + 1) notPrecedence (not e)
  | binary {n : Nat} (op : Operator) {l r : Expr} : Derives n op.precedence l →
      Derives n (op.precedence + 1) r → Derives n op.precedence (binary op l r)
  | member {n : Nat} {e : Expr} {items : List Expr} : Derives (n + 1) comparisonPrecedence e →
      (∀ item ∈ items, Derives n 1 item) → Derives (n + 1) comparisonPrecedence (member e items)
  | tighter {n p : Nat} {e : Expr} : Derives n (p + 1) e → Derives n p e

/-- The reader of a level reads only what is derived there. -/
def ReadsDerived (inner : Readers) (levels p : Nat) : Prop :=
  ∀ {c next : Cursor} {e : Expr}, level inner p c = .ok (e, next) → Derives levels p e

/-- The readers one level further in read only what is derived with a level less. -/
structure ReadsInside (inner : Readers) (levels : Nat) : Prop where
  expression : ∀ {c next e}, inner.expression c = .ok (e, next) →
    ∃ n, levels = n + 1 ∧ Derives n 1 e
  negation : ∀ {c next e}, inner.negation c = .ok (e, next) →
    ∃ n, levels = n + 1 ∧ Derives n notPrecedence e
  signed : ∀ {c next e}, inner.signed c = .ok (e, next) →
    ∃ n, levels = n + 1 ∧ Derives n unaryPrecedence e
  items : ∀ {c next items}, inner.items c = .ok (items, next) →
    ∃ n, levels = n + 1 ∧ ∀ e ∈ items, Derives n 1 e

/-! ## Levels -/

/-- Each rule of the grammar derives what it reads. -/
theorem closed_derives {inner : Readers} {levels : Nat} (inside : ReadsInside inner levels) :
    Closed inner fun p _ e => Derives levels p e where
  literal _ := .literal _
  path _ _ _ := .path _
  call list := by
    obtain ⟨n, rfl, each⟩ := inside.items list
    exact .call _ each
  group within := by
    obtain ⟨n, rfl, derived⟩ := inside.expression within
    exact .group derived
  negate within := by
    obtain ⟨n, rfl, derived⟩ := inside.signed within
    exact .negate derived
  not within := by
    obtain ⟨n, rfl, derived⟩ := inside.negation within
    exact .not derived
  binary left right := .binary _ left right
  member element list _ := by
    obtain ⟨n, rfl, each⟩ := inside.items list
    exact .member element each
  unsigned derived := .tighter derived
  affirmed _ derived := .tighter derived
  tighter _ derived := .tighter derived

theorem readsDerived_level {inner : Readers} {levels : Nat} (inside : ReadsInside inner levels) :
    ReadsDerived inner levels 1 ∧ ReadsDerived inner levels notPrecedence ∧
      ReadsDerived inner levels unaryPrecedence := by
  have closed := closed_derives inside
  exact ⟨closed.expression, closed.negation, closed.signed⟩

/-! ## Levels inside levels -/

theorem readsInside_around {inner : Readers} {levels : Nat} (inside : ReadsInside inner levels) :
    ReadsInside (around inner) (levels + 1) := by
  obtain ⟨expressions, negations, signed⟩ := readsDerived_level inside
  refine ⟨fun read => ⟨levels, rfl, expressions read⟩, fun read => ⟨levels, rfl, negations read⟩,
    fun read => ⟨levels, rfl, signed read⟩, fun read => ⟨levels, rfl, fun e member => ?_⟩⟩
  obtain ⟨_, derived⟩ := (closed_derives inside).items read e member
  exact derived

theorem readsInside_ofLevels (levels : Nat) : ReadsInside (ofLevels levels) levels := by
  induction levels with
  | zero =>
    constructor
    all_goals
      intro c next found read
      cases read
  | succ levels ih => exact readsInside_around ih

/-- What is read where so many levels may be opened is derived with them. -/
theorem derives_of_expression {nesting : Nat} {c next : Cursor} {e : Expr}
    (read : expression nesting c = .ok (e, next)) : Derives nesting 1 e :=
  (readsDerived_level (readsInside_ofLevels nesting)).1 read

/-! ## Trees without minuses -/

mutual

/-- Whether no minus stands in front of an operand. -/
def isMinusFree : Expr → Bool
  | literal _ | path _ => true
  | binary _ l r => l.isMinusFree && r.isMinusFree
  | not e => e.isMinusFree
  | negate _ => false
  | member e items => e.isMinusFree && areMinusFree items
  | call _ arguments => areMinusFree arguments

def areMinusFree : List Expr → Bool
  | [] => true
  | e :: rest => e.isMinusFree && areMinusFree rest

end

theorem areMinusFree_iff {items : List Expr} :
    areMinusFree items = true ↔ ∀ e ∈ items, e.isMinusFree = true := by
  induction items with
  | nil => simp [areMinusFree]
  | cons e rest ih => simp [areMinusFree, ih]

theorem keepsSigns_of_isMinusFree (e : Expr) (free : e.isMinusFree = true) :
    e.keepsSigns = true := by
  induction e with
  | literal v => rfl
  | path p => rfl
  | binary op l r left right =>
    rw [isMinusFree, Bool.and_eq_true] at free
    rw [keepsSigns, left free.1, right free.2]
    rfl
  | not e ih =>
    rw [isMinusFree] at free
    rw [keepsSigns]
    exact ih free
  | negate e ih =>
    rw [isMinusFree] at free
    contradiction
  | member e items element each =>
    rw [isMinusFree, Bool.and_eq_true, areMinusFree_iff] at free
    have others : keepSigns items = true :=
      keepSigns_iff.mpr fun item found => each item found (free.2 item found)
    rw [keepsSigns, element free.1, others]
    rfl
  | call f arguments each =>
    rw [isMinusFree, areMinusFree_iff] at free
    rw [keepsSigns]
    exact keepSigns_iff.mpr fun item found => each item found (free item found)

/-! ## Levels that a text opens -/

/-- How many levels the text of a tree opens where an operand of a precedence stands. -/
def levelsAt (p : Nat) (e : Expr) : Nat := (decide (e.precedence < p)).toNat + e.nesting

theorem levelsAt_mono {p q : Nat} (le : p ≤ q) (e : Expr) : e.levelsAt p ≤ e.levelsAt q := by
  by_cases tight : e.precedence < p
  · have tighter : e.precedence < q := Nat.lt_of_lt_of_le tight le
    simp [levelsAt, tight, tighter]
  · simp [levelsAt, tight]

theorem levelsAt_precedence {p : Nat} {e : Expr} (least : p ≤ e.precedence) :
    e.levelsAt p = e.nesting := by
  simp [levelsAt, Nat.not_lt.mpr least]

theorem nesting_le_levelsAt (p : Nat) (e : Expr) : e.nesting ≤ e.levelsAt p := Nat.le_add_left _ _

theorem levelsAt_le_succ (p : Nat) (e : Expr) : e.levelsAt p ≤ e.nesting + 1 := by
  have bit := (decide (e.precedence < p)).toNat_le
  rw [levelsAt]
  omega

theorem levelsAt_binary (op : Operator) (l r : Expr) :
    (binary op l r).levelsAt op.precedence =
      max (l.levelsAt op.precedence) (r.levelsAt (op.precedence + 1)) := by
  have right : decide (r.precedence ≤ op.precedence) = decide (r.precedence < op.precedence + 1) :=
    decide_eq_decide.mpr Nat.lt_succ_iff.symm
  rw [levelsAt_precedence (Nat.le_refl _ : op.precedence ≤ (binary op l r).precedence),
    nesting_binary, right]
  rfl

/-- What is derived with so many levels opens no more of them in its canonical text: the brackets
that it needs there were among those of the derivation. -/
theorem levelsAt_le_of_derives {n p : Nat} {e : Expr} (derived : Derives n p e)
    (free : e.isMinusFree = true) : e.levelsAt p ≤ n := by
  induction derived with
  | literal v => exact Nat.zero_le _
  | path names => exact Nat.zero_le _
  | @call n f arguments _ each =>
    rw [isMinusFree, areMinusFree_iff] at free
    have whole : (Expr.call f arguments).levelsAt primaryPrecedence =
        nestingOfList arguments + 1 := levelsAt_precedence (Nat.le_refl _)
    rw [whole]
    exact Nat.succ_le_succ (nestingOfList_le_iff.mpr fun e member =>
      Nat.le_trans (nesting_le_levelsAt 1 e) (each e member (free e member)))
  | @group n e _ ih =>
    have within := Nat.le_trans (nesting_le_levelsAt 1 e) (ih free)
    exact Nat.le_trans (levelsAt_le_succ _ e) (Nat.succ_le_succ within)
  | negate _ _ => contradiction
  | @not n e _ ih =>
    have whole : (Expr.not e).levelsAt notPrecedence = e.levelsAt notPrecedence + 1 :=
      levelsAt_precedence (Nat.le_refl _)
    rw [whole]
    exact Nat.succ_le_succ (ih free)
  | binary op _ _ left right =>
    rw [isMinusFree, Bool.and_eq_true] at free
    rw [levelsAt_binary]
    exact Nat.max_le.mpr ⟨left free.1, right free.2⟩
  | @member n e items _ _ element each =>
    rw [isMinusFree, Bool.and_eq_true, areMinusFree_iff] at free
    have whole : (Expr.member e items).levelsAt comparisonPrecedence =
        max (e.levelsAt comparisonPrecedence) (nestingOfList items + 1) :=
      levelsAt_precedence (Nat.le_refl _)
    rw [whole]
    refine Nat.max_le.mpr ⟨element free.1, Nat.succ_le_succ (nestingOfList_le_iff.mpr ?_)⟩
    exact fun item found =>
      Nat.le_trans (nesting_le_levelsAt 1 item) (each item found (free.2 item found))
  | tighter _ ih => exact Nat.le_trans (levelsAt_mono (Nat.le_succ _) _) (ih free)

/-- A tree without minuses that is read where so many levels may be opened opens no more of them in
its canonical text. -/
theorem nesting_le_of_expression {nesting : Nat} {c next : Cursor} {e : Expr}
    (read : expression nesting c = .ok (e, next)) (free : e.isMinusFree = true) :
    e.nesting ≤ nesting :=
  Nat.le_trans (nesting_le_levelsAt 1 e) (levelsAt_le_of_derives (derives_of_expression read) free)

end OData.Expr
