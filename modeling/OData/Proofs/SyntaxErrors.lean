import OData.Key
import OData.Options.Parser
import OData.Proofs.Text.Place
import OData.Proofs.Value.Readings

/-!
# Syntax errors: where they are found

Reading goes on from one place of a text to a later one.  A result stays in the text if it leads to
such a place, or is a syntax error found at one.  Reading tokens and literals stays in the text, and
so do the rules of expressions, options and keys, each by the rules inside it.  What parsing a whole
text refuses, it refuses therefore at a boundary between characters.
-/

set_option autoImplicit false

namespace OData

open Text (Cursor Shape IsBoundary)

/-- Whether an error is one of syntax, at a boundary of the text. -/
def Error.LiesIn (text : String) (e : Error) : Prop :=
  ∃ message offset, e = .syntaxAt offset message ∧ IsBoundary text offset ∧
    offset ≤ text.utf8ByteSize

namespace Result

variable {α β : Type} {text : String} {good : α → Prop} {fine : β → Prop}

/-- A good result, or a syntax error of the text. -/
inductive StaysIn (text : String) (good : α → Prop) : Result α → Prop
  | ok {a : α} (holds : good a) : StaysIn text good (.ok a)
  | error {e : Error} (lies : e.LiesIn text) : StaysIn text good (.error e)

theorem StaysIn.bind {x : Result α} {f : α → Result β} (first : x.StaysIn text good)
    (second : ∀ a, good a → (f a).StaysIn text fine) : (x >>= f).StaysIn text fine := by
  cases first with
  | error lies => exact .error lies
  | ok holds => exact second _ holds

theorem StaysIn.mono {weaker : α → Prop} {x : Result α} (stays : x.StaysIn text good)
    (weaken : ∀ a, good a → weaker a) : x.StaysIn text weaker := by
  cases stays with
  | error lies => exact .error lies
  | ok holds => exact .ok (weaken _ holds)

theorem StaysIn.map {x : Result α} {f : α → β} (stays : x.StaysIn text good)
    (kept : ∀ a, good a → fine (f a)) : Result.StaysIn text fine (x.map f) := by
  cases stays with
  | error lies => exact .error lies
  | ok holds => exact .ok (kept _ holds)

theorem StaysIn.lies {x : Result α} {e : Error} (stays : x.StaysIn text good)
    (failed : x = .error e) : e.LiesIn text := by
  cases stays with
  | error lies =>
    cases failed
    exact lies
  | ok => cases failed

end Result

open Result

/-! ## Tokens -/

namespace Text.Cursor

variable {α : Type} {text : String} {good : α → Prop} {c next : Cursor}

theorem IsIn.staysIn_error (place : c.IsIn text) (message : String) :
    (c.error message : Result α).StaysIn text good :=
  .error ⟨message, c.offset, rfl, place.boundary, place.boundary.le⟩

theorem IsIn.staysIn_expectChar (place : c.IsIn text) (ch : Char) :
    (c.expectChar ch).StaysIn text fun next => c.MovesOn next := by
  rw [expectChar]
  split
  next found => exact .ok (movesOn_char? found)
  next => exact place.skipBlanks.staysIn_error _

theorem IsIn.staysIn_expectName (place : c.IsIn text) :
    c.expectName.StaysIn text fun found => c.MovesOn found.2 := by
  rw [expectName]
  split
  next found => exact .ok (movesOn_name? found)
  next => exact place.skipBlanks.staysIn_error _

theorem IsIn.staysIn_expectEnd (place : c.IsIn text) :
    c.expectEnd.StaysIn text fun _ => True := by
  rw [expectEnd]
  split
  · exact .ok trivial
  · exact place.skipBlanks.staysIn_error _

theorem IsIn.after (place : c.IsIn text) (moves : c.MovesOn next) : next.IsIn text :=
  place.of_reaches moves.reaches

end Text.Cursor

/-! ## Literals -/

namespace Value

variable {text : String} {c next : Cursor}

theorem isFilled_calendarShape : calendarShape.IsFilled :=
  Shape.isFilled_seq (Shape.isFilled_exactly 3 Text.isDecimalDigit) List.mem_cons_self

theorem isFilled_clockShape : clockShape.IsFilled :=
  Shape.isFilled_seq (Shape.isFilled_exactly 1 Text.isDecimalDigit) List.mem_cons_self

theorem isFilled_of_mem_forms : ∀ form ∈ forms, form.shape.IsFilled := by
  have quoted : stringShape.IsFilled :=
    Shape.isFilled_seq (Shape.isFilled_char '\'') List.mem_cons_self
  have binary : binaryShape.IsFilled :=
    Shape.isFilled_seq (Shape.isFilled_word (by decide)) List.mem_cons_self
  have guid : guidShape.IsFilled :=
    Shape.isFilled_wholeWord
      (Shape.isFilled_seq (Shape.isFilled_exactly 7 Text.Hex.isDigit) List.mem_cons_self)
  have dateTime : dateTimeShape.IsFilled :=
    Shape.isFilled_seq isFilled_calendarShape List.mem_cons_self
  have date : dateShape.IsFilled := Shape.isFilled_wholeWord isFilled_calendarShape
  have time : timeShape.IsFilled := Shape.isFilled_seq isFilled_clockShape List.mem_cons_self
  have number : numberShape.IsFilled :=
    Shape.isFilled_seq (Shape.isFilled_some' Text.isDecimalDigit)
      (List.mem_cons_of_mem _ List.mem_cons_self)
  simp only [forms, List.forall_mem_cons]
  exact ⟨quoted, binary, guid, dateTime, date, time, number, by simp⟩

theorem movesOn_keyword? {words : List (String × Value)} (nonempty : ∀ w ∈ words, w.1 ≠ "")
    {v : Value} (found : keyword? c words = some (v, next)) : c.MovesOn next := by
  induction words with
  | nil => cases found
  | cons first rest ih =>
    rw [List.forall_mem_cons] at nonempty
    rw [keyword?] at found
    split at found
    next read =>
      cases found
      exact Cursor.movesOn_keyword? nonempty.1 read
    next => exact ih nonempty.2 found

/-- A literal that is read was moved over, and one that is refused begins behind the blanks. -/
theorem staysIn_literal? (place : c.IsIn text) :
    (literal? c).StaysIn text fun found => ∀ read ∈ found, c.MovesOn read.2 := by
  have start := c.reaches_skipBlanks
  rw [literal?]
  split
  next form n found =>
    obtain ⟨member, fits⟩ := mem_of_form? found
    split
    next value read =>
      refine .ok fun literal same => ?_
      cases same
      have filled := isFilled_of_mem_forms form member _ n fits
      exact start.movesOn ⟨_, filled, c.skipBlanks.moves_advance n⟩
    next => exact place.skipBlanks.staysIn_error _
  next =>
    have words : ∀ w ∈ keywords, w.1 ≠ "" := by decide
    exact .ok fun literal found => start.movesOn (movesOn_keyword? words found)

end Value

/-! ## Rules -/

namespace Expr

open Readers (chain operator? extendBinary binaryChain extendComparison around ofLevels)

variable {α : Type} {text : String}

/-- Whether the results of a rule stay in the text where it begins in the text. -/
def Keeps (text : String) (rule : Rule α) : Prop :=
  ∀ c, c.IsIn text → (rule c).StaysIn text fun found => found.2.IsIn text

/-- Whether the results stay in the text where an expression is extended in the text. -/
def KeepsExtending (text : String) (extend : Expr → Cursor → Result (Option (Expr × Cursor))) :
    Prop :=
  ∀ left c, c.IsIn text →
    (extend left c).StaysIn text fun found => ∀ longer ∈ found, longer.2.IsIn text

theorem keeps_tooDeep : Keeps text (tooDeep : Rule α) := fun _ place => place.staysIn_error _

theorem keeps_chain {extend : Expr → Cursor → Result (Option (Expr × Cursor))}
    (steps : KeepsExtending text extend) (fuel : Nat) (left : Expr) :
    Keeps text (chain extend fuel left) := by
  induction fuel generalizing left with
  | zero => exact fun c place => .ok place
  | succ fuel ih =>
    intro c place
    rw [chain]
    refine (steps left c place).bind fun found longer => ?_
    cases found with
    | none => exact .ok place
    | some step => exact ih step.1 step.2 (longer step rfl)

theorem reaches_operator? {operators : List Operator} {c next : Cursor} {op : Operator}
    (found : operator? c operators = some (op, next)) : c.Reaches next := by
  induction operators with
  | nil => cases found
  | cons first rest ih =>
    rw [operator?] at found
    split at found
    next read =>
      cases found
      exact Cursor.reaches_keyword? read
    next => exact ih found

theorem keepsExtending_extendBinary (operators : List Operator) {operand : Rule Expr}
    (operands : Keeps text operand) : KeepsExtending text (extendBinary operators operand) := by
  intro left c place
  rw [extendBinary]
  split
  next => exact .ok (by simp)
  next op next found =>
    refine (operands next (place.of_reaches (reaches_operator? found))).bind fun right after => ?_
    exact .ok (by simpa using after)

theorem keeps_binaryChain (operators : List Operator) {operand : Rule Expr}
    (operands : Keeps text operand) : Keeps text (binaryChain operators operand) := by
  intro c place
  refine (operands c place).bind fun first behind => ?_
  exact keeps_chain (keepsExtending_extendBinary operators operands) _ first.1 first.2 behind

theorem keeps_segmentsFrom (fuel : Nat) (read : List String) :
    Keeps text (Readers.segmentsFrom fuel read) := by
  induction fuel generalizing read with
  | zero => exact fun c place => .ok place
  | succ fuel ih =>
    intro c place
    rw [Readers.segmentsFrom]
    split
    next => exact .ok place
    next behind slash =>
      have start := place.after (Cursor.movesOn_char? slash)
      split
      next name next found =>
        exact ih (name :: read) next (start.after (Cursor.movesOn_dottedName? found))
      next => exact start.skipBlanks.staysIn_error _

theorem keeps_itemsFrom {item : Rule Expr} (items : Keeps text item) (fuel : Nat) :
    Keeps text (Readers.itemsFrom item fuel) := by
  induction fuel with
  | zero => exact fun c place => place.skipBlanks.staysIn_error _
  | succ fuel ih =>
    intro c place
    rw [Readers.itemsFrom]
    refine (items c place).bind fun first behind => ?_
    simp only
    split
    next next comma =>
      exact (ih next (behind.after (Cursor.movesOn_char? comma))).bind fun others ends => .ok ends
    next =>
      refine (behind.staysIn_expectChar ')').bind fun next moves => ?_
      exact .ok (behind.after moves)

/-- Whether the results of the readers one level further in stay in the text. -/
structure ReadersKeep (text : String) (inner : Readers) : Prop where
  expression : Keeps text inner.expression
  negation : Keeps text inner.negation
  signed : Keeps text inner.signed
  items : Keeps text inner.items

section Levels

variable {inner : Readers} (inside : ReadersKeep text inner)

include inside

theorem keeps_nameOrCall : Keeps text (Readers.nameOrCall inner) := by
  intro c place
  have start := place.skipBlanks
  rw [Readers.nameOrCall]
  split
  next => exact start.staysIn_error _
  next name next found =>
    have behind := start.after (Cursor.movesOn_dottedName? found)
    split
    next opened bracket =>
      split
      next => exact start.staysIn_error _
      next function known =>
        have arguments := inside.items opened (behind.after (Cursor.movesOn_char? bracket))
        exact arguments.bind fun found closed => .ok closed
    next =>
      have names := keeps_segmentsFrom next.rest.length [name] next behind
      exact names.bind fun found ends => .ok ends

theorem keeps_primary : Keeps text (Readers.primary inner) := by
  intro c place
  rw [Readers.primary]
  split
  next opened bracket =>
    have start := place.after (Cursor.movesOn_char? bracket)
    refine (inside.expression opened start).bind fun operand behind => ?_
    refine (behind.staysIn_expectChar ')').bind fun next moves => ?_
    exact .ok (behind.after moves)
  next =>
    refine (Value.staysIn_literal? place).bind fun found literal => ?_
    cases found with
    | none => exact keeps_nameOrCall inside c place
    | some read => exact .ok (place.after (literal read rfl))

theorem keeps_signed' : Keeps text (Readers.signed' inner) := by
  intro c place
  rw [Readers.signed']
  split
  next =>
    have minus := place.skipBlanks.of_reaches (c.skipBlanks.reaches_advance 1)
    exact (inside.signed _ minus).bind fun operand ends => .ok ends
  next => exact keeps_primary inside c.skipBlanks place.skipBlanks

theorem keeps_sum : Keeps text (Readers.sum inner) :=
  keeps_binaryChain _ (keeps_binaryChain _ (keeps_signed' inside))

theorem keepsExtending_extendComparison : KeepsExtending text (extendComparison inner) := by
  intro left c place
  rw [extendComparison]
  split
  next next found =>
    have word := place.of_reaches (Cursor.reaches_keyword? found)
    refine (word.staysIn_expectChar '(').bind fun opened bracket => ?_
    refine (inside.items opened (word.after bracket)).bind fun list closed => ?_
    simp only
    split
    · exact closed.staysIn_error _
    · exact .ok (by simpa using closed)
  next => exact keepsExtending_extendBinary _ (keeps_sum inside) left c place

theorem keeps_comparison : Keeps text (Readers.comparison inner) := by
  intro c place
  refine (keeps_sum inside c place).bind fun first behind => ?_
  exact keeps_chain (keepsExtending_extendComparison inside) _ first.1 first.2 behind

theorem keeps_negation' : Keeps text (Readers.negation' inner) := by
  intro c place
  rw [Readers.negation']
  split
  next next found =>
    have word := place.of_reaches (Cursor.reaches_keyword? found)
    exact (inside.negation next word).bind fun operand ends => .ok ends
  next => exact keeps_comparison inside c place

theorem keeps_expression' : Keeps text (Readers.expression' inner) :=
  keeps_binaryChain _ (keeps_binaryChain _ (keeps_negation' inside))

theorem keeps_items' : Keeps text (Readers.items' inner) := by
  intro c place
  rw [Readers.items']
  split
  next next found => exact .ok (place.after (Cursor.movesOn_char? found))
  next => exact keeps_itemsFrom (keeps_expression' inside) _ c place

end Levels

theorem readersKeep_ofLevels (levels : Nat) : ReadersKeep text (ofLevels levels) := by
  induction levels with
  | zero => exact ⟨keeps_tooDeep, keeps_tooDeep, keeps_tooDeep, keeps_tooDeep⟩
  | succ levels ih =>
    exact ⟨keeps_expression' ih, keeps_negation' ih, keeps_signed' ih, keeps_items' ih⟩

theorem keeps_expression (nesting : Nat) : Keeps text (expression nesting) :=
  (readersKeep_ofLevels (nesting + 1)).expression

/-- A whole text is read by a rule from its beginning. -/
theorem staysIn_parseWhole {rule : Rule α} (keeps : Keeps text rule) :
    (parseWhole rule text).StaysIn text fun _ => True := by
  refine (keeps _ (Cursor.isIn_ofText text)).bind fun found place => ?_
  exact place.staysIn_expectEnd.bind fun _ _ => .ok trivial

end Expr

namespace QueryOptions

open OData.Expr (Rule Keeps)

variable {α : Type} {text : String}

theorem keeps_path : Keeps text path := by
  intro c place
  rw [path]
  split
  next name next found =>
    exact Expr.keeps_segmentsFrom _ [name] next (place.after (Cursor.movesOn_dottedName? found))
  next => exact place.skipBlanks.staysIn_error _

theorem keeps_separated {item : Rule α} (items : Keeps text item) (fuel : Nat) :
    Keeps text (separated item fuel) := by
  induction fuel with
  | zero => exact fun c place => place.staysIn_error _
  | succ fuel ih =>
    intro c place
    rw [separated]
    refine (items c place).bind fun first behind => ?_
    simp only
    split
    next next comma =>
      exact (ih next (behind.after (Cursor.movesOn_char? comma))).bind fun others ends => .ok ends
    next => exact .ok behind

theorem keeps_listOf {item : Rule α} (items : Keeps text item) : Keeps text (listOf item) :=
  fun c => keeps_separated items (c.rest.length + 1) c

theorem keeps_orderItem : Keeps text orderItem := by
  intro c place
  refine (keeps_path c place).bind fun found behind => ?_
  simp only
  split
  next next word => exact .ok (behind.of_reaches (Cursor.reaches_keyword? word))
  next =>
    refine .ok ?_
    cases word : found.2.keyword? "asc" with
    | none => exact behind
    | some next => exact behind.of_reaches (Cursor.reaches_keyword? word)

theorem keeps_orderItems : Keeps text orderItems := keeps_listOf keeps_orderItem

theorem keeps_selection : Keeps text selection := by
  intro c place
  rw [selection]
  split
  next next found => exact .ok (place.after (Cursor.movesOn_char? found))
  next => exact (keeps_listOf keeps_path c place).bind fun paths ends => .ok ends

theorem keeps_unsigned : Keeps text unsigned := by
  intro c place
  rw [unsigned]
  split
  next found => exact .ok (place.after (Cursor.movesOn_unsigned? found))
  next => exact place.skipBlanks.staysIn_error _

theorem keeps_boolean : Keeps text boolean := by
  intro c place
  rw [boolean]
  split
  next next found => exact .ok (place.of_reaches (Cursor.reaches_keyword? found))
  next =>
    split
    next next found => exact .ok (place.of_reaches (Cursor.reaches_keyword? found))
    next => exact place.skipBlanks.staysIn_error _

theorem staysIn_once {c : Cursor} (place : c.IsIn text) (name : String) (seen : Bool) :
    (once c name seen).StaysIn text fun _ => True := by
  rw [once]
  split
  · exact place.staysIn_error _
  · exact .ok trivial

/-- The value of an option is what a rule reads. -/
theorem staysIn_valued {rule : Rule α} (keeps : Keeps text rule) (set : α → QueryOptions)
    {start : Cursor} (behind : start.IsIn text) :
    (rule start >>= fun found => pure (set found.1, found.2)).StaysIn text
      fun found => found.2.IsIn text :=
  (keeps start behind).bind fun _ ends => .ok ends

theorem keeps_nestedOption (nesting : Nat) {inner : Rule (List Expansion)}
    (expansions : Keeps text inner) (o : QueryOptions) :
    Keeps text (nestedOption nesting inner o) := by
  intro c place
  rw [nestedOption]
  split
  next => exact place.skipBlanks.staysIn_error _
  next name next found =>
    have word := place.after (Cursor.movesOn_systemName? found)
    refine (word.staysIn_expectChar '=').bind fun start equals => ?_
    have behind := word.after equals
    split
    · exact (staysIn_once place _ _).bind fun _ _ =>
        staysIn_valued (Expr.keeps_expression nesting) (fun e => { o with filter := some e }) behind
    · exact (staysIn_once place _ _).bind fun _ _ =>
        staysIn_valued keeps_orderItems (fun items => { o with orderBy := items }) behind
    · exact (staysIn_once place _ _).bind fun _ _ =>
        staysIn_valued keeps_selection (fun chosen => { o with select := some chosen }) behind
    · exact (staysIn_once place _ _).bind fun _ _ =>
        staysIn_valued expansions (fun items => { o with expand := items }) behind
    · exact staysIn_valued keeps_unsigned (fun n => { o with top := some n }) behind
    · exact staysIn_valued keeps_unsigned (fun n => { o with skip := some n }) behind
    · exact staysIn_valued keeps_boolean (fun b => { o with count := b }) behind
    · exact place.staysIn_error _

theorem keeps_nestedOptions (nesting : Nat) {inner : Rule (List Expansion)}
    (expansions : Keeps text inner) (fuel : Nat) (o : QueryOptions) :
    Keeps text (nestedOptions nesting inner fuel o) := by
  induction fuel generalizing o with
  | zero => exact fun c place => place.staysIn_error _
  | succ fuel ih =>
    intro c place
    rw [nestedOptions]
    refine (keeps_nestedOption nesting expansions o c place).bind fun first behind => ?_
    simp only
    split
    next next semicolon => exact ih first.1 next (behind.after (Cursor.movesOn_char? semicolon))
    next =>
      refine (behind.staysIn_expectChar ')').bind fun next moves => ?_
      exact .ok (behind.after moves)

theorem keeps_expansion {inner : Rule QueryOptions} (options : Keeps text inner) :
    Keeps text (expansion inner) := by
  intro c place
  rw [expansion]
  split
  next => exact place.skipBlanks.staysIn_error _
  next name next found =>
    have behind := place.after (Cursor.movesOn_name? found)
    split
    next opened bracket =>
      have start := behind.after (Cursor.movesOn_char? bracket)
      exact (options opened start).bind fun found ends => .ok ends
    next => exact .ok behind

theorem keeps_expansions (nesting : Nat) : Keeps text (expansions nesting) := by
  induction nesting with
  | zero => exact keeps_listOf (keeps_expansion Expr.keeps_tooDeep)
  | succ nesting ih =>
    exact keeps_listOf (keeps_expansion fun c =>
      keeps_nestedOptions nesting ih (c.rest.length + 1) empty c)

end QueryOptions

namespace KeyPredicate

variable {text : String}

theorem staysIn_value {c : Cursor} (place : c.IsIn text) :
    (value c).StaysIn text fun found => found.2.IsIn text := by
  refine (Value.staysIn_literal? place).bind fun found literal => ?_
  cases found with
  | none => exact place.skipBlanks.staysIn_error _
  | some read => exact .ok (place.after (literal read rfl))

theorem staysIn_pairs (fuel : Nat) {c : Cursor} (place : c.IsIn text) :
    (pairs fuel c).StaysIn text fun found => found.2.IsIn text := by
  induction fuel generalizing c with
  | zero => exact place.staysIn_error _
  | succ fuel ih =>
    rw [pairs]
    refine place.staysIn_expectName.bind fun name moves => ?_
    have behind := place.after moves
    refine (behind.staysIn_expectChar '=').bind fun start equals => ?_
    refine (staysIn_value (behind.after equals)).bind fun v after => ?_
    simp only
    split
    next next comma =>
      exact (ih (after.after (Cursor.movesOn_char? comma))).bind fun others ends => .ok ends
    next => exact .ok after

theorem staysIn_parse (text : String) : (parse text).StaysIn text fun _ => True := by
  have start := Cursor.isIn_ofText text
  rw [parse]
  simp only
  split
  · refine (staysIn_pairs _ start).bind fun found place => ?_
    exact place.staysIn_expectEnd.bind fun _ _ => .ok trivial
  · refine (staysIn_value start).bind fun found place => ?_
    exact place.staysIn_expectEnd.bind fun _ _ => .ok trivial

end KeyPredicate

end OData
