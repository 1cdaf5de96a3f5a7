import OData.Proofs.Expr.Operands
import OData.Proofs.Value.Readings

/-!
# Expressions: what a text is read as

`Closed` says of a property of trees that each rule of the grammar keeps it; then the readers read
only trees that have it.  So every tree that is read is legible.  The reader of a level may read a
path that begins with `not` where the text does, and then the tree binds at least as tightly as the
level; the reader of negations reads none, since it takes the word for the operator.
-/

set_option autoImplicit false

namespace OData

namespace Text.Cursor

theorem firstWord_ne_of_keyword? {c : Cursor} {w : String}
    (letters : w.toList.all isNameChar = true) (none : c.keyword? w = none) :
    firstWord c.ahead ≠ w.toList := by
  intro word
  rw [keyword?, token?, rest_skipBlanks, keywordShape_eq letters, if_pos word] at none
  contradiction

end Text.Cursor

open Text (Cursor)

/-- Where no literal comes next, no name comes that is one. -/
theorem Value.firstWord_of_literal? {c : Cursor} (none : literal? c = .ok none) :
    ∀ w ∈ reserved, Cursor.firstWord c.ahead ≠ w.toList := by
  have noKeyword : keyword? c.skipBlanks keywords = Option.none := by
    rw [literal?] at none
    split at none
    · split at none
      · cases none
      · contradiction
    · exact Except.ok.inj none
  have each : ∀ {words : List (String × Value)}, keyword? c.skipBlanks words = Option.none →
      ∀ w ∈ words, c.skipBlanks.keyword? w.1 = Option.none := by
    intro words
    induction words with
    | nil => simp
    | cons first rest ih =>
      obtain ⟨word, value⟩ := first
      intro noWord w member
      rw [keyword?] at noWord
      split at noWord
      · contradiction
      next absent =>
        rcases List.mem_cons.mp member with rfl | later
        · exact absent
        · exact ih noWord w later
  intro w member
  have facts : ∀ w ∈ reserved, w.toList.all Text.isNameChar = true ∧
      ∃ v, (w, v) ∈ keywords := by
    intro w member
    simp only [reserved, List.mem_cons, List.not_mem_nil, or_false] at member
    rcases member with rfl | rfl | rfl | rfl | rfl <;> exact ⟨by decide, _, by simp [keywords]; rfl⟩
  obtain ⟨letters, v, found⟩ := facts w member
  rw [← Cursor.ahead_skipBlanks]
  exact Cursor.firstWord_ne_of_keyword? letters (each noKeyword (w, v) found)

namespace Expr

open Readers (extendComparison around ofLevels)

/-! ## What the rules of the grammar keep -/

/-- Whether a property of the trees that are read at a precedence from a cursor is kept by each rule
of the grammar, if what stands in brackets, lists or behind prefixes is what the readers one level
further in read. -/
structure Closed (inner : Readers) (holds : Nat → Cursor → Expr → Prop) : Prop where
  literal : ∀ {c next v}, Value.literal? c = .ok (some (v, next)) →
    holds primaryPrecedence c (literal v)
  path : ∀ {c behind next name names}, Value.literal? c = .ok none →
    c.skipBlanks.dottedName? = some (name, behind) →
    Readers.segments name behind = .ok (names, next) → holds primaryPrecedence c (path names)
  call : ∀ {c d next f arguments}, inner.items d = .ok (arguments, next) →
    holds primaryPrecedence c (call f arguments)
  group : ∀ {c d next e}, inner.expression d = .ok (e, next) → holds primaryPrecedence c e
  negate : ∀ {c d next e}, inner.signed d = .ok (e, next) → holds unaryPrecedence c (negate e)
  not : ∀ {c d next e}, inner.negation d = .ok (e, next) → holds notPrecedence c (not e)
  binary : ∀ {c d op l r}, holds op.precedence c l → holds (op.precedence + 1) d r →
    holds op.precedence c (binary op l r)
  member : ∀ {c d next e items}, holds comparisonPrecedence c e →
    inner.items d = .ok (items, next) → items.isEmpty = false →
    holds comparisonPrecedence c (member e items)
  unsigned : ∀ {c e}, holds primaryPrecedence c.skipBlanks e → holds unaryPrecedence c e
  affirmed : ∀ {c e}, c.keyword? "not" = none → holds comparisonPrecedence c e →
    holds notPrecedence c e
  tighter : ∀ {p c e}, p ∈ chainLevels → holds (p + 1) c e → holds p c e

theorem mem_of_operator? {c next : Cursor} {operators : List Operator} {op : Operator}
    (found : Readers.operator? c operators = some (op, next)) : op ∈ operators := by
  induction operators with
  | nil => contradiction
  | cons first rest ih =>
    rw [Readers.operator?] at found
    split at found
    · cases found
      exact List.mem_cons_self
    · exact List.mem_cons_of_mem first (ih found)

namespace Closed

variable {inner : Readers} {holds : Nat → Cursor → Expr → Prop} {c next : Cursor} {e left : Expr}
  {p : Nat}

theorem nameOrCall (closed : Closed inner holds) (absent : Value.literal? c = .ok none)
    (read : Readers.nameOrCall inner c = .ok (e, next)) : holds primaryPrecedence c e := by
  rw [Readers.nameOrCall] at read
  split at read
  next => contradiction
  next name behind found =>
    split at read
    next opened bracket =>
      split at read
      next => contradiction
      next function known =>
        obtain ⟨⟨arguments, after⟩, inside, same⟩ := Result.bind_eq_ok.mp read
        cases same
        exact closed.call inside
    next =>
      obtain ⟨⟨names, after⟩, segments, same⟩ := Result.bind_eq_ok.mp read
      cases same
      exact closed.path absent found segments

theorem primary (closed : Closed inner holds) (read : Readers.primary inner c = .ok (e, next)) :
    holds primaryPrecedence c e := by
  rw [Readers.primary] at read
  split at read
  next opened bracket =>
    obtain ⟨⟨operand, closing⟩, within, finish⟩ := Result.bind_eq_ok.mp read
    obtain ⟨_, _, same⟩ := Result.bind_eq_ok.mp finish
    cases same
    exact closed.group within
  next =>
    obtain ⟨found, literal, rest⟩ := Result.bind_eq_ok.mp read
    cases found with
    | none => exact closed.nameOrCall literal rest
    | some value =>
      cases rest
      exact closed.literal literal

theorem signed (closed : Closed inner holds) (read : Readers.signed' inner c = .ok (e, next)) :
    holds unaryPrecedence c e := by
  rw [Readers.signed'] at read
  split at read
  · obtain ⟨⟨operand, after⟩, inside, same⟩ := Result.bind_eq_ok.mp read
    cases same
    exact closed.negate inside
  · exact closed.unsigned (closed.primary read)

section Chains

variable (operands : ∀ {c next e}, level inner (p + 1) c = .ok (e, next) → holds (p + 1) c e)

include operands

theorem extendBinary (closed : Closed inner holds) {start : Cursor} {longer : Expr}
    (read : holds p start left)
    (extended : Readers.extendBinary (operatorsAt p) (level inner (p + 1)) left c =
      .ok (some (longer, next))) : holds p start longer := by
  rw [Readers.extendBinary] at extended
  split at extended
  next => cases extended
  next op behind found =>
    obtain ⟨⟨right, after⟩, operand, same⟩ := Result.bind_eq_ok.mp extended
    cases same
    have precedence := precedence_of_mem (mem_of_operator? found)
    subst precedence
    exact closed.binary read (operands operand)

theorem extension (closed : Closed inner holds) {start : Cursor} {longer : Expr}
    (read : holds p start left)
    (extended : Expr.extension inner p left c = .ok (some (longer, next))) :
    holds p start longer := by
  rw [Expr.extension] at extended
  split at extended
  next comparison =>
    subst comparison
    rw [extendComparison] at extended
    split at extended
    next behind found =>
      obtain ⟨opened, _, inside⟩ := Result.bind_eq_ok.mp extended
      obtain ⟨⟨items, after⟩, list, rest⟩ := Result.bind_eq_ok.mp inside
      simp only at rest
      split at rest
      next => contradiction
      next some =>
        cases rest
        exact closed.member read list (Bool.eq_false_iff.mpr some)
    next => exact closed.extendBinary operands read extended
  next => exact closed.extendBinary operands read extended

/-- Each extension of an operand keeps the property. -/
theorem chain (closed : Closed inner holds) {fuel : Nat} {start : Cursor}
    (read : holds p start left)
    (extended : Readers.chain (Expr.extension inner p) fuel left c = .ok (e, next)) :
    holds p start e := by
  induction fuel generalizing left c with
  | zero =>
    cases extended
    exact read
  | succ fuel ih =>
    rw [Readers.chain] at extended
    obtain ⟨found, step, rest⟩ := Result.bind_eq_ok.mp extended
    cases found with
    | none =>
      cases rest
      exact read
    | some longer => exact ih (closed.extension operands read step) rest

theorem chained (closed : Closed inner holds) (chained : p ∈ chainLevels)
    (read : level inner p c = .ok (e, next)) : holds p c e := by
  rw [level_chain inner chained] at read
  obtain ⟨⟨left, behind⟩, first, rest⟩ := Result.bind_eq_ok.mp read
  exact closed.chain operands (closed.tighter chained (operands first)) rest

end Chains

theorem comparison (closed : Closed inner holds)
    (read : Readers.comparison inner c = .ok (e, next)) : holds comparisonPrecedence c e := by
  have product {c next e} : level inner 6 c = .ok (e, next) → holds 6 c e :=
    closed.chained (fun read => closed.signed read) (by decide)
  have sum {c next e} : level inner 5 c = .ok (e, next) → holds 5 c e :=
    closed.chained product (by decide)
  exact closed.chained (p := comparisonPrecedence) sum (by decide) read

theorem negation (closed : Closed inner holds)
    (read : Readers.negation' inner c = .ok (e, next)) : holds notPrecedence c e := by
  rw [Readers.negation'] at read
  split at read
  next =>
    obtain ⟨⟨operand, after⟩, inside, same⟩ := Result.bind_eq_ok.mp read
    cases same
    exact closed.not inside
  next absent => exact closed.affirmed absent (closed.comparison read)

theorem expression (closed : Closed inner holds)
    (read : Readers.expression' inner c = .ok (e, next)) : holds 1 c e := by
  have conjunction {c next e} : level inner 2 c = .ok (e, next) → holds 2 c e :=
    closed.chained (fun read => closed.negation read) (by decide)
  exact closed.chained (p := 1) conjunction (by decide) read

theorem itemsFrom (closed : Closed inner holds) {fuel : Nat} {items : List Expr}
    (read : Readers.itemsFrom (Readers.expression' inner) fuel c = .ok (items, next)) :
    ∀ e ∈ items, ∃ d, holds 1 d e := by
  induction fuel generalizing c items with
  | zero => contradiction
  | succ fuel ih =>
    rw [Readers.itemsFrom] at read
    obtain ⟨⟨first, behind⟩, item, rest⟩ := Result.bind_eq_ok.mp read
    have here : ∃ d, holds 1 d first := ⟨c, closed.expression item⟩
    simp only at rest
    split at rest
    next after comma =>
      obtain ⟨⟨others, last⟩, more, same⟩ := Result.bind_eq_ok.mp rest
      cases same
      exact List.forall_mem_cons.mpr ⟨here, ih more⟩
    next =>
      obtain ⟨_, _, same⟩ := Result.bind_eq_ok.mp rest
      cases same
      exact List.forall_mem_singleton.mpr here

theorem items (closed : Closed inner holds) {items : List Expr}
    (read : Readers.items' inner c = .ok (items, next)) : ∀ e ∈ items, ∃ d, holds 1 d e := by
  rw [Readers.items'] at read
  split at read
  next =>
    cases read
    simp
  next => exact closed.itemsFrom read

end Closed

/-- What is known of a tree that the reader of a level reads at a cursor, if so much is known of a
literal. -/
structure ReadAt (known : Value → Bool) (p : Nat) (c : Cursor) (e : Expr) : Prop where
  legible : isLegible known e = true
  leads : e.beginsNot = true → Cursor.firstWord c.ahead = "not".toList ∧
    comparisonPrecedence ≤ p ∧ p ≤ e.precedence

/-- The reader of a level reads only what is known of the level. -/
def Yields (known : Value → Bool) (inner : Readers) (p : Nat) : Prop :=
  ∀ {c next : Cursor} {e : Expr}, level inner p c = .ok (e, next) → ReadAt known p c e

/-- What literals are read as. -/
def ReadsLiterals (known : Value → Bool) : Prop :=
  ∀ {c next : Cursor} {v : Value}, Value.literal? c = .ok (some (v, next)) → known v = true

/-- What the readers one level further in read. -/
structure Sound (known : Value → Bool) (inner : Readers) : Prop where
  literals : ReadsLiterals known
  expression : ∀ {c next e}, inner.expression c = .ok (e, next) → ReadAt known 1 c e
  negation : ∀ {c next e}, inner.negation c = .ok (e, next) → ReadAt known notPrecedence c e
  signed : ∀ {c next e}, inner.signed c = .ok (e, next) → ReadAt known unaryPrecedence c e
  items : ∀ {c next items}, inner.items c = .ok (items, next) → areLegible known items = true

variable {known : Value → Bool}

namespace ReadAt

variable {p : Nat} {c d : Cursor} {e l r : Expr}

theorem of_free (legible : isLegible known e = true) (free : e.beginsNot = false) :
    ReadAt known p c e := by
  refine ⟨legible, ?_⟩
  intro begins
  rw [free] at begins
  contradiction

/-- The levels up to that of negations read no tree that begins with `not`. -/
theorem free (read : ReadAt known p c e) (loose : p ≤ notPrecedence) : e.beginsNot = false := by
  rw [Bool.eq_false_iff]
  intro begins
  have tight := (read.leads begins).2.1
  simp only [notPrecedence, comparisonPrecedence] at loose tight
  omega

theorem of_succ (read : ReadAt known (p + 1) c e) (other : p ≠ notPrecedence) :
    ReadAt known p c e := by
  refine ⟨read.legible, ?_⟩
  intro begins
  obtain ⟨word, tight, bound⟩ := read.leads begins
  refine ⟨word, ?_, Nat.le_of_succ_le bound⟩
  simp only [notPrecedence, comparisonPrecedence] at other tight ⊢
  omega

/-- An operand that is read at its level can be told there. -/
theorem standsAt (read : ReadAt known p c e) {condition : Bool}
    (looser : e.beginsNot = true → condition = true → e.precedence < p) :
    Expr.standsAt condition p e = true := by
  rw [Expr.standsAt, Bool.not_eq_true', Bool.and_eq_false_iff]
  by_cases begins : e.beginsNot = true
  · obtain ⟨_, tight, bound⟩ := read.leads begins
    left
    rw [Bool.or_eq_false_iff, Bool.eq_false_iff, decide_eq_false_iff_not]
    constructor
    · intro bracketed
      have apart := looser begins bracketed
      omega
    · simp only [notPrecedence, comparisonPrecedence] at tight ⊢
      omega
  · right
    rwa [Bool.not_eq_true] at begins

theorem binary {op : Operator} (left : ReadAt known op.precedence c l)
    (right : ReadAt known (op.precedence + 1) d r) :
    ReadAt known op.precedence c (Expr.binary op l r) := by
  have placeLeft : Expr.standsAt (decide (l.precedence < op.precedence)) op.precedence l = true :=
    left.standsAt fun _ looser => of_decide_eq_true looser
  have placeRight :
      Expr.standsAt (decide (r.precedence ≤ op.precedence)) (op.precedence + 1) r = true :=
    right.standsAt fun _ looser => Nat.lt_succ_of_le (of_decide_eq_true looser)
  constructor
  · rw [isLegible, left.legible, right.legible, placeLeft, placeRight]
    rfl
  · intro begins
    rw [beginsNot, Bool.and_eq_true] at begins
    obtain ⟨word, tight, _⟩ := left.leads begins.2
    exact ⟨word, tight, Nat.le_refl _⟩

theorem member {items : List Expr} (element : ReadAt known comparisonPrecedence c e)
    (legible : areLegible known items = true) (some : items.isEmpty = false) :
    ReadAt known comparisonPrecedence c (Expr.member e items) := by
  have place : Expr.standsAt (decide (e.precedence < comparisonPrecedence)) comparisonPrecedence e =
      true := element.standsAt fun _ looser => of_decide_eq_true looser
  constructor
  · rw [isLegible, element.legible, place, legible, some]
    rfl
  · intro begins
    rw [beginsNot, Bool.and_eq_true] at begins
    obtain ⟨word, tight, _⟩ := element.leads begins.2
    exact ⟨word, tight, Nat.le_refl _⟩

theorem not (operand : ReadAt known notPrecedence d e) : ReadAt known p c (Expr.not e) := by
  have place : Expr.standsAt (decide (e.precedence < notPrecedence)) notPrecedence e = true :=
    operand.standsAt fun _ looser => of_decide_eq_true looser
  apply of_free _ rfl
  rw [isLegible, operand.legible, place]
  rfl

/-- What begins with a name binds less tightly than a minus, unless it is the name. -/
theorem negate (operand : ReadAt known unaryPrecedence d e) :
    ReadAt known p c (Expr.negate e) := by
  have looser : e.beginsNot = true → (!e.isName) = true → e.precedence < unaryPrecedence := by
    intro begins noName
    cases e with
    | binary op l r => exact (operator_bounds op).2
    | member e items => simp [precedence, comparisonPrecedence, unaryPrecedence]
    | path names => contradiction
    | _ => contradiction
  have place := operand.standsAt looser
  apply of_free _ rfl
  rw [isLegible, operand.legible, place]
  rfl

end ReadAt

/-! ## Names -/

theorem segmentsFrom_valid {fuel : Nat} {read names : List String} {c next : Cursor}
    (found : Readers.segmentsFrom fuel read c = .ok (names, next)) :
    ∃ others, names = read.reverse ++ others ∧
      ∀ name ∈ others, QualifiedName.isNamespace name = true := by
  induction fuel generalizing read c with
  | zero =>
    cases found
    exact ⟨[], by simp, by simp⟩
  | succ fuel ih =>
    rw [Readers.segmentsFrom] at found
    split at found
    · cases found
      exact ⟨[], by simp, by simp⟩
    · split at found
      next name behind segment =>
        obtain ⟨others, rfl, valid⟩ := ih found
        refine ⟨name :: others, by simp, ?_⟩
        intro other member
        rcases List.mem_cons.mp member with rfl | later
        · exact (Cursor.isNamespace_of_dottedName? segment).1
        · exact valid other later
      next => contradiction

/-! ## Legible trees -/

/-- A path that is read has valid segments, and its first name is no literal. -/
theorem readAt_path {c behind next : Cursor} {name : String} {names : PropertyPath}
    (absent : Value.literal? c = .ok none)
    (found : c.skipBlanks.dottedName? = some (name, behind))
    (segments : Readers.segments name behind = .ok (names, next)) :
    ReadAt known primaryPrecedence c (Expr.path names) := by
  obtain ⟨valid, part⟩ := Cursor.isNamespace_of_dottedName? found
  rw [Cursor.ahead_skipBlanks] at part
  obtain ⟨others, rfl, each⟩ := segmentsFrom_valid segments
  have word : (PropertyPath.firstPart ([name].reverse ++ others)).toList =
      Cursor.firstWord c.ahead := by
    rw [← part]
    exact String.toList_ofList
  constructor
  · have first : Value.reserved.contains
        (PropertyPath.firstPart ([name].reverse ++ others)) = false := by
      rw [List.contains_eq_mem, decide_eq_false_iff_not]
      intro member
      exact Value.firstWord_of_literal? absent _ member word.symm
    rw [isLegible, PropertyPath.isNamed, first]
    simpa using ⟨valid, each⟩
  · intro begins
    rw [beginsNot, beq_iff_eq] at begins
    rw [begins] at word
    exact ⟨word.symm, by decide, Nat.le_refl _⟩

/-- Legible operands make legible trees. -/
theorem closed_readAt {inner : Readers} (sound : Sound known inner) :
    Closed inner (ReadAt known) where
  literal found := by
    apply ReadAt.of_free _ rfl
    rw [isLegible]
    exact sound.literals found
  path absent found segments := readAt_path absent found segments
  call inside := by
    apply ReadAt.of_free _ rfl
    rw [isLegible]
    exact sound.items inside
  group inside := by
    have loose := sound.expression inside
    exact .of_free loose.legible (loose.free (by decide))
  negate inside := (sound.signed inside).negate
  not inside := (sound.negation inside).not
  binary left right := left.binary right
  member element inside some := element.member (sound.items inside) some
  unsigned tight := by
    have here := tight.of_succ (by decide)
    refine ⟨here.legible, ?_⟩
    rw [← Cursor.ahead_skipBlanks]
    exact here.leads
  affirmed absent tight := by
    apply ReadAt.of_free tight.legible
    rw [Bool.eq_false_iff]
    intro begins
    exact Cursor.firstWord_ne_of_keyword? (by decide) absent (tight.leads begins).1
  tighter chained tight := by
    refine tight.of_succ ?_
    rintro rfl
    exact absurd chained (by decide)

theorem yields_level {inner : Readers} (sound : Sound known inner) :
    Yields known inner 1 ∧ Yields known inner notPrecedence ∧
      Yields known inner unaryPrecedence := by
  have closed := closed_readAt sound
  exact ⟨closed.expression, closed.negation, closed.signed⟩

/-! ## Levels inside levels -/

theorem sound_around {inner : Readers} (sound : Sound known inner) :
    Sound known (around inner) := by
  obtain ⟨expressions, negations, signed⟩ := yields_level sound
  refine ⟨sound.literals, expressions, negations, signed, ?_⟩
  intro c next items read
  refine areLegible_iff.mpr fun e member => ?_
  obtain ⟨d, loose⟩ := (closed_readAt sound).items read e member
  exact ⟨loose.legible, loose.free (by decide)⟩

theorem sound_ofLevels (literals : ReadsLiterals known) (levels : Nat) :
    Sound known (ofLevels levels) := by
  induction levels with
  | zero =>
    refine ⟨literals, ?_, ?_, ?_, ?_⟩
    all_goals
      intro c next found read
      cases read
  | succ levels ih => exact sound_around ih

/-- Every tree that is read is legible. -/
theorem isLegible_of_parse (literals : ReadsLiterals known) {text : String} {e : Expr}
    (read : parse text = .ok e) :
    isLegible known e = true ∧ e.beginsNot = false := by
  obtain ⟨⟨tree, next⟩, whole, rest⟩ := Result.bind_eq_ok.mp read
  obtain ⟨_, _, same⟩ := Result.bind_eq_ok.mp rest
  cases same
  have loose := (sound_ofLevels literals (maxNesting + 1)).expression whole
  exact ⟨loose.legible, loose.free (by decide)⟩

end Expr

end OData
