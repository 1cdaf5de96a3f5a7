import OData.CursorCall
import OData.Proofs.SyntaxErrors

/-!
# Calls on a cursor: places and errors

Every call but a rewind takes the cursor on to a place of the text, and a rewind takes it back to a
place where it was.  A probe that finds nothing passes over blanks only, one that finds a token
passes over the token, and what a call refuses is a syntax error of the text.  One lemma says so for
a single call; a run of calls keeps the cursor in the text, and with it all offsets that were read.
A shape may fit the empty text, and a probe for it then finds a token where the cursor stays.
-/

set_option autoImplicit false

namespace OData

open Text (Cursor IsBoundary)

namespace CursorCall

/-- Whether a call looks for something that need not be there. -/
def isProbe : CursorCall → Bool
  | token _ | char _ | keyword _ | name | dottedName | systemName | unsigned | parenthesized
  | literal => true
  | _ => false

/-- Whether a call goes back, if it does, to an offset that was read and not past the cursor, and
looks for no empty word. -/
def isAllowed (read : List Nat) (c : Cursor) : CursorCall → Bool
  | rewind target => target ∈ read && target ≤ c.offset
  | keyword w => w ≠ ""
  | _ => true

namespace Answer

def isAbsence : Answer → Bool
  | absent | flag false => true
  | _ => false

def isReport : Answer → Bool
  | flag true | number _ | text _ | value _ => true
  | _ => false

theorem not_isAbsence_of_isReport {answer : Answer} (report : answer.isReport) :
    ¬answer.isAbsence := by
  cases answer with
  | flag b =>
    cases b with
    | true => exact Bool.false_ne_true
    | false => cases report
  | absent => cases report
  | _ => exact Bool.false_ne_true

end Answer

namespace Step

def findsNothing (step : Step) : Bool := step.call.isProbe && step.answer.isAbsence

def findsToken (step : Step) : Bool := step.call.isProbe && step.answer.isReport

/-- Whether a shape fits the empty text, so that nothing is taken. -/
def FitsEmpty (step : Step) : Prop :=
  (∃ shape, step.call = .token shape) ∧ step.answer = .text "" ∧ step.after = step.before

/-- The offsets that are read after a step, with those read before it. -/
def offsetsRead (read : List Nat) (step : Step) : List Nat :=
  match step.call with
  | .offset => step.before.offset :: read
  | _ => read

/-- Whether all calls of a run are allowed, after some offsets were read. -/
def allAllowed : List Nat → List Step → Bool
  | _, [] => true
  | read, step :: steps =>
    step.call.isAllowed read step.before && allAllowed (step.offsetsRead read) steps

/-- What a call on a text does with the cursor and with its errors. -/
structure Sound (text : String) (step : Step) : Prop where
  place : step.after.IsIn text
  boundary : IsBoundary text step.after.offset
  within : step.after.offset ≤ text.utf8ByteSize
  onward : (∀ target, step.call ≠ .rewind target) → step.before.offset ≤ step.after.offset
  nothing : step.findsNothing → step.before.MovesOverBlanks step.after
  token : step.findsToken → step.before.offset < step.after.offset ∨ step.FitsEmpty
  error : ∀ e, step.answer = .refused e → e.LiesIn text

end Step

open Step (Sound)

variable {α : Type} {text : String} {c next : Cursor} {call : CursorCall} {answer : Answer}
  {read : List Nat}

/-! ## One call -/

/-- What goes on in the text leads to a place of it. -/
theorem sound_of_reaches (place : c.IsIn text) (reaches : c.Reaches next)
    (nothing : Step.findsNothing ⟨call, c, answer, next⟩ → c.MovesOverBlanks next)
    (token : Step.findsToken ⟨call, c, answer, next⟩ →
      c.MovesOn next ∨ Step.FitsEmpty ⟨call, c, answer, next⟩)
    (error : ∀ e, answer = .refused e → e.LiesIn text) : Sound text ⟨call, c, answer, next⟩ where
  place := place.of_reaches reaches
  boundary := (place.of_reaches reaches).boundary
  within := (place.of_reaches reaches).boundary.le
  onward _ := reaches.le
  nothing := nothing
  token found := (token found).imp_left Cursor.MovesOn.lt
  error := error

theorem sound_of_movesOn (place : c.IsIn text) (moves : c.MovesOn next) (report : answer.isReport) :
    Sound text ⟨call, c, answer, next⟩ := by
  refine sound_of_reaches place moves.reaches (fun nothing => ?_) (fun _ => .inl moves) ?_
  · simp only [Step.findsNothing, Bool.and_eq_true] at nothing
    exact absurd nothing.2 (Answer.not_isAbsence_of_isReport report)
  · rintro e rfl
    cases report

theorem sound_of_movesOverBlanks (place : c.IsIn text) (moves : c.MovesOverBlanks next)
    (absence : answer.isAbsence) : Sound text ⟨call, c, answer, next⟩ := by
  refine sound_of_reaches place moves.reaches (fun _ => moves) (fun found => ?_) ?_
  · simp only [Step.findsToken, Bool.and_eq_true] at found
    exact absurd absence (Answer.not_isAbsence_of_isReport found.2)
  · rintro e rfl
    cases absence

theorem sound_of_lies (place : c.IsIn text) (reaches : c.Reaches next) {e : Error}
    (lies : e.LiesIn text) : Sound text ⟨call, c, .refused e, next⟩ := by
  refine sound_of_reaches place reaches (fun nothing => ?_) (fun found => ?_) ?_
  · simp [Step.findsNothing, Answer.isAbsence] at nothing
  · simp [Step.findsToken, Answer.isReport] at found
  · intro other same
    cases same
    exact lies

/-- A call that looks for nothing and refuses nothing. -/
theorem sound_of_not_isProbe (place : c.IsIn text) (reaches : c.Reaches next)
    (probe : call.isProbe = false) (calm : ∀ e, answer ≠ .refused e) :
    Sound text ⟨call, c, answer, next⟩ := by
  refine sound_of_reaches place reaches (fun nothing => ?_) (fun found => ?_) ?_
  · simp [Step.findsNothing, probe] at nothing
  · simp [Step.findsToken, probe] at found
  · exact fun e same => absurd same (calm e)

theorem sound_here (place : c.IsIn text) (probe : call.isProbe = false)
    (calm : ∀ e, answer ≠ .refused e) : Sound text ⟨call, c, answer, c⟩ :=
  sound_of_not_isProbe place (.refl c) probe calm

theorem sound_passed (place : c.IsIn text) {found : Option Cursor}
    (moves : ∀ next, found = some next → c.MovesOn next) :
    Sound text ⟨call, c, (passed c found).1, (passed c found).2⟩ := by
  cases found with
  | some next => exact sound_of_movesOn place (moves next rfl) rfl
  | none => exact sound_of_movesOverBlanks place c.movesOverBlanks_skipBlanks rfl

theorem sound_found (place : c.IsIn text) {report : α → Answer} {result : Option (α × Cursor)}
    (reports : ∀ a, (report a).isReport)
    (moves : ∀ a next, result = some (a, next) → c.MovesOn next) :
    Sound text ⟨call, c, (found report c result).1, (found report c result).2⟩ := by
  cases result with
  | some a => exact sound_of_movesOn place (moves a.1 a.2 rfl) (reports a.1)
  | none => exact sound_of_movesOverBlanks place c.movesOverBlanks_skipBlanks rfl

theorem sound_expected (place : c.IsIn text) (probe : call.isProbe = false) {report : α → Answer}
    {result : Result (α × Cursor)} (calm : ∀ a e, report a ≠ .refused e)
    (stays : result.StaysIn text fun found => c.Reaches found.2) :
    Sound text ⟨call, c, (expected report c result).1, (expected report c result).2⟩ := by
  cases stays with
  | @ok found reaches => exact sound_of_not_isProbe place reaches probe (calm found.1)
  | error lies => exact sound_of_lies place c.reaches_skipBlanks lies

/-- Whether offsets were read in the text. -/
def AreIn (text : String) (read : List Nat) : Prop :=
  ∀ target ∈ read, ∃ d : Cursor, d.IsIn text ∧ d.offset = target

/-- The cursor is again where its offset was read. -/
theorem sound_rewind {target : Nat} (places : AreIn text read) (before : target ∈ read) :
    Sound text ⟨.rewind target, c, .done, (Cursor.ofText text).seek target⟩ := by
  obtain ⟨d, place, rfl⟩ := places target before
  rw [place.seek_eq]
  exact {
    place := place
    boundary := place.boundary
    within := place.boundary.le
    onward := fun other => absurd rfl (other d.offset)
    nothing := by simp [Step.findsNothing, isProbe]
    token := by simp [Step.findsToken, isProbe]
    error := by simp }

theorem sound_token (place : c.IsIn text) (shape : Text.Shape) :
    Sound text ⟨.token shape, c, (perform text c (.token shape)).1,
      (perform text c (.token shape)).2⟩ := by
  rw [perform]
  split
  next s next found =>
    have moves := Cursor.moves_token? found
    refine sound_of_reaches place ⟨_, moves⟩ (fun nothing => ?_) (fun _ => ?_) ?_
    · simp [Step.findsNothing, Answer.isAbsence] at nothing
    · by_cases empty : s = ""
      · subst empty
        exact .inr ⟨⟨shape, rfl⟩, rfl, moves.eq_of_nil⟩
      · exact .inl ⟨s.toList, by simpa using empty, moves⟩
    · simp
  next => exact sound_of_movesOverBlanks place c.movesOverBlanks_refl rfl

theorem sound_literal (place : c.IsIn text) :
    Sound text ⟨.literal, c, (perform text c .literal).1, (perform text c .literal).2⟩ := by
  have start := c.reaches_skipBlanks
  have stays := Value.staysIn_literal? place
  simp only [perform, Value.afterLiteral]
  generalize Value.literal? c = result at stays
  cases stays with
  | @ok found moves =>
    cases found with
    | some read => exact sound_of_movesOn place (moves read rfl) rfl
    | none => exact sound_of_movesOverBlanks place c.movesOverBlanks_skipBlanks rfl
  | error lies =>
    -- A token that denotes no value may have been passed over.
    refine sound_of_lies place ?_ lies
    simp only
    split
    · split
      · exact start.trans (c.skipBlanks.reaches_advance _)
      · exact start
    · exact start

/-- What one call does in the text, after offsets of the text were read. -/
theorem sound_perform (place : c.IsIn text) (places : AreIn text read)
    (allowed : call.isAllowed read c) :
    Sound text ⟨call, c, (call.perform text c).1, (call.perform text c).2⟩ := by
  cases call with
  | offset => exact sound_here place rfl nofun
  | rest => exact sound_here place rfl nofun
  | excerpt => exact sound_here place rfl nofun
  | peek =>
    rw [perform]
    split
    · exact sound_here place rfl nofun
    · exact sound_here place rfl nofun
  | peekKeyword w => exact sound_here place rfl nofun
  | complaint message =>
    have lies := place.boundary
    exact sound_of_lies place (.refl c) ⟨message, c.offset, rfl, lies, lies.le⟩
  | skipBlanks => exact sound_of_not_isProbe place c.reaches_skipBlanks rfl nofun
  | atEnd => exact sound_of_not_isProbe place c.reaches_skipBlanks rfl nofun
  | rewind target =>
    simp only [isAllowed, Bool.and_eq_true, decide_eq_true_eq] at allowed
    exact sound_rewind places allowed.1
  | token shape => exact sound_token place shape
  | char ch => exact sound_passed place fun next => Cursor.movesOn_char?
  | keyword w =>
    have nonempty : w ≠ "" := by simpa [isAllowed] using allowed
    exact sound_passed place fun next => Cursor.movesOn_keyword? nonempty
  | name => exact sound_found place (fun _ => rfl) fun s next => Cursor.movesOn_name?
  | dottedName => exact sound_found place (fun _ => rfl) fun s next => Cursor.movesOn_dottedName?
  | systemName => exact sound_found place (fun _ => rfl) fun s next => Cursor.movesOn_systemName?
  | unsigned => exact sound_found place (fun _ => rfl) fun n next => Cursor.movesOn_unsigned?
  | parenthesized =>
    exact sound_found place (fun _ => rfl) fun s next => Cursor.movesOn_parenthesized?
  | literal => exact sound_literal place
  | expectChar ch =>
    refine sound_expected place rfl nofun ((place.staysIn_expectChar ch).map fun next moves => ?_)
    exact moves.reaches
  | expectName =>
    refine sound_expected place rfl nofun (place.staysIn_expectName.mono fun found moves => ?_)
    exact moves.reaches
  | expectEnd =>
    refine sound_expected place rfl nofun (place.staysIn_expectEnd.map fun _ _ => ?_)
    exact c.reaches_skipBlanks

/-! ## Runs -/

theorem areIn_offsetsRead (place : c.IsIn text) (places : AreIn text read) :
    AreIn text (Step.offsetsRead read ⟨call, c, answer, next⟩) := by
  cases call with
  | offset =>
    intro target member
    rcases List.mem_cons.mp member with rfl | earlier
    · exact ⟨c, place, rfl⟩
    · exact places target earlier
  | _ => exact places

/-- The cursor and the offsets that were read stay in the text from one call to the next. -/
theorem sound_performAll {calls : List CursorCall} (place : c.IsIn text) (places : AreIn text read)
    (allowed : Step.allAllowed read (performAll text c calls)) :
    ∀ step ∈ performAll text c calls, step.Sound text := by
  induction calls generalizing c read with
  | nil => simp [performAll]
  | cons call calls ih =>
    simp only [performAll, Step.allAllowed, Bool.and_eq_true] at allowed
    have first := sound_perform place places allowed.1
    have others := ih first.place (areIn_offsetsRead place places) allowed.2
    rw [performAll]
    exact List.forall_mem_cons.mpr ⟨first, others⟩

end CursorCall

end OData
