import OData.Proofs.Expr.Steps

/-!
# Expressions: literals, paths and calls

The primaries that are no brackets.  A path and a call begin with a name that no literal is made of,
and a bracket behind the name tells them apart.
-/

set_option autoImplicit false

namespace OData.Expr

open Text (Cursor Before)
open Value (endings)
open Readers (around)

section Operands

variable {inner : Readers}

/-! ## Literals -/

theorem opens_literal {v : Value} (readable : v.isReadable = true) (p : Nat) :
    Opens p primaryPrecedence v.toChars := by
  obtain ⟨ch, tail, text, leads⟩ := Value.exists_leads readable
  refine ⟨⟨ch, tail, text, leads.visible, leads.noBracket.2⟩, ?_, ?_⟩
  · intro _ _ rest before
    by_cases letter : ch = 'n'
    · rw [leads.null_of_n letter]
      have word := Cursor.firstWord_run (w := "null".toList) (by decide) before (by decide)
      exact ne_of_eq_of_ne word (by decide)
    · apply Cursor.firstWord_ne (by rfl)
      rw [text, List.cons_append, List.head?_cons, ne_eq, Option.some.injEq]
      exact letter
  · rintro _ rest ⟨head, noSign⟩
    rw [text, List.cons_append] at head noSign
    rw [List.head?_cons, Option.some.injEq] at head
    obtain ⟨d, more, follows, digit⟩ := leads.digit_of_minus head
    rw [head, follows, List.cons_append, Readers.signsLiteral, digit] at noSign
    contradiction

theorem reads_literal {v : Value} (readable : v.isReadable = true) :
    Reads inner primaryPrecedence v.toChars (literal v.reread) := by
  intro c rest follows text
  obtain ⟨ch, tail, begins, leads⟩ := Value.exists_leads readable
  have noBracket : c.char? '(' = none := by
    apply Cursor.char?_eq_none
    rw [text, begins, List.cons_append, List.head?_cons, ne_eq, Option.some.injEq]
    exact leads.noBracket.1
  obtain ⟨next, read, left⟩ := Value.literal?_toChars readable text follows.before
  refine ⟨next, ?_, left⟩
  have unfolded : level inner primaryPrecedence c = Readers.primary inner c := rfl
  rw [unfolded, Readers.primary, noBracket]
  simp only [read]
  rfl

/-! ## Names -/

/-- A text begins with a name that is no literal, and then comes what may follow a name. -/
inductive Named : List Char → Prop
  | intro (ch : Char) (run rest : List Char) (start : Text.isNameStart ch = true)
    (word : run.all Text.isNameChar = true) (before : Before Value.nameStops rest)
    (free : ∀ w ∈ Value.reserved, ch :: run ≠ w.toList) : Named (ch :: run ++ rest)

namespace Named

variable {text rest : List Char}

theorem append (named : Named text) (before : Before endings rest) : Named (text ++ rest) := by
  cases named with
  | intro ch run tail start word stops free =>
    have next : Before Value.nameStops (tail ++ rest) := by
      cases tail with
      | nil => exact before.mono (by decide)
      | cons d more => exact stops
    rw [List.append_assoc]
    exact .intro ch run (tail ++ rest) start word next free

/-- What begins with a name is no literal and no bracket. -/
theorem level_eq {c : Cursor} (named : Named c.ahead) :
    level inner primaryPrecedence c = Readers.nameOrCall inner c := by
  generalize ahead : c.ahead = cs at named
  cases named with
  | intro ch run tail start word stops free =>
    have noBracket : c.char? '(' = none := by
      apply Cursor.char?_eq_none
      rw [ahead, List.cons_append, List.head?_cons, ne_eq, Option.some.injEq]
      rintro rfl
      contradiction
    have noLiteral : Value.literal? c = .ok none := by
      exact Value.literal?_name start word stops ahead free
    have unfolded : level inner primaryPrecedence c = Readers.primary inner c := rfl
    rw [unfolded, Readers.primary, noBracket]
    simp only [noLiteral]
    rfl

theorem firstWord_append (named : Named text) (before : Before endings rest) :
    Cursor.firstWord (text ++ rest) = Cursor.firstWord text := by
  cases named with
  | intro ch run tail start word stops free =>
    have letters := Text.all_isNameChar_cons start word
    have next : Before Value.nameStops (tail ++ rest) := by
      cases tail with
      | nil => exact before.mono (by decide)
      | cons d more => exact stops
    rw [List.append_assoc, Cursor.firstWord_run letters next (by decide),
      Cursor.firstWord_run letters stops (by decide)]

theorem opens (named : Named text) {p : Nat}
    (free : p ≤ notPrecedence → Cursor.firstWord text ≠ "not".toList) :
    Opens p primaryPrecedence text := by
  have word : p ≤ notPrecedence → comparisonPrecedence ≤ primaryPrecedence → ∀ rest,
      Before endings rest → Cursor.firstWord (text ++ rest) ≠ "not".toList := by
    intro low _ rest before
    rw [named.firstWord_append before]
    exact free low
  cases named with
  | intro ch run tail start letters stops _ =>
    have name := Text.isNameChar_of_isNameStart ch start
    have facts := Text.of_isNameChar (p := fun c => Text.isBlank c = false ∧ c ≠ ')' ∧ c ≠ '-')
      (by decide +kernel) name
    refine ⟨⟨ch, run ++ tail, rfl, facts.1, facts.2.1⟩, word, ?_⟩
    rintro _ after ⟨head, _⟩
    rw [List.cons_append, List.cons_append, List.head?_cons, Option.some.injEq] at head
    exact facts.2.2 head

/-- A minus in front of a name is part of a literal only before an infinity. -/
theorem signsLiteral_eq (named : Named text) :
    Readers.signsLiteral ('-' :: text) = "INF".toList.isPrefixOf text := by
  cases named with
  | intro ch run tail start word stops free =>
    have digit : ch.isDigit = false :=
      Text.of_isNameChar (p := fun c => Text.isNameStart c = true → c.isDigit = false)
        (by decide +kernel) (Text.isNameChar_of_isNameStart ch start) start
    rw [List.cons_append, Readers.signsLiteral, digit, Bool.false_or]

/-- A name that begins like an infinity goes on behind it. -/
theorem exists_infinity {text : List Char} (named : Named text)
    (infinity : "INF".toList.isPrefixOf text = true) :
    ∃ d tail, text = "INF".toList ++ d :: tail ∧ Text.isNameChar d = true := by
  obtain ⟨tail, joined⟩ := List.isPrefixOf_iff_prefix.mp infinity
  have letters : "INF".toList.all Text.isNameChar = true := by decide
  have other : Cursor.firstWord text ≠ "INF".toList := by
    cases named with
    | intro ch run tail start word stops free =>
      rw [Cursor.firstWord_run (Text.all_isNameChar_cons start word) stops (by decide)]
      exact free "INF" (by decide)
  cases tail with
  | nil =>
    rw [← joined] at other
    exact absurd rfl other
  | cons d tail =>
    refine ⟨d, tail, joined.symm, ?_⟩
    by_contra stop
    apply other
    rw [← joined]
    apply Cursor.firstWord_run letters (Before.singleton d tail)
    simpa using stop

end Named

/-! ## Paths -/

theorem toList_toText (first : String) (others : List String) :
    (PropertyPath.toText (first :: others)).toList =
      first.toList ++ others.flatMap fun segment => '/' :: segment.toList := by
  rw [PropertyPath.toText, Text.toList_intercalate_cons]
  rfl

theorem before_segments {others : List String} {rest : List Char}
    (before : Before Cursor.segmentStops rest) : Before Cursor.segmentStops
      ((others.flatMap fun segment => '/' :: segment.toList) ++ rest) := by
  cases others with
  | nil => exact before
  | cons other others => exact Before.cons (by decide) _

theorem dottedName?_segment {c : Cursor} {name : String} {others : List String} {rest : List Char}
    (valid : QualifiedName.isNamespace name = true) (before : Before Cursor.segmentStops rest)
    (text : c.rest = name.toList ++
      ((others.flatMap fun segment => '/' :: segment.toList) ++ rest)) :
    ∃ next, c.dottedName? = some (name, next) ∧
      next.rest = (others.flatMap fun segment => '/' :: segment.toList) ++ rest := by
  apply Cursor.dottedName?_eq_some valid _ (before_segments before)
  obtain ⟨ch, run, parts, joined, start, _, _⟩ := QualifiedName.exists_parts valid
  rw [joined, List.append_assoc, List.cons_append] at text ⊢
  exact Cursor.ahead_of_char text
    (Text.isBlank_of_isNameChar (Text.isNameChar_of_isNameStart ch start))

/-- The segments end where no slash comes next. -/
theorem segmentsFrom_eq_ok {others : List String}
    (valid : ∀ name ∈ others, QualifiedName.isNamespace name = true) {fuel : Nat}
    (enough : others.length ≤ fuel) (read : List String) {c : Cursor} {rest : List Char}
    (before : Before Cursor.segmentStops rest)
    (noSlash : ∀ after : Cursor, after.rest = rest → after.char? '/' = none)
    (text : c.rest = (others.flatMap fun segment => '/' :: segment.toList) ++ rest) :
    ∃ next, Readers.segmentsFrom fuel read c = .ok (read.reverse ++ others, next) ∧
      next.rest = rest := by
  induction others generalizing fuel read c with
  | nil =>
    rw [List.append_nil]
    cases fuel with
    | zero => exact ⟨c, rfl, text⟩
    | succ fuel => exact ⟨c, by rw [Readers.segmentsFrom, noSlash c text], text⟩
  | cons name others ih =>
    cases fuel with
    | zero => simp at enough
    | succ fuel =>
      rw [List.flatMap_cons, List.cons_append, List.cons_append, List.append_assoc] at text
      obtain ⟨after, slash, behind⟩ :=
        Cursor.char?_eq_some (Cursor.ahead_of_char text (by decide))
      obtain ⟨middle, segment, more⟩ :=
        dottedName?_segment (valid name List.mem_cons_self) before behind
      obtain ⟨next, later, left⟩ :=
        ih (fun other member => valid other (List.mem_cons_of_mem name member))
          (by simpa using enough) (name :: read) more
      refine ⟨next, ?_, left⟩
      rw [Readers.segmentsFrom, slash]
      simp only [segment, later, List.reverse_cons, List.append_assoc, List.singleton_append]

theorem takeWhile_dots {ch : Char} {run : List Char} {parts : List (List Char)}
    (letters : (ch :: run).all Text.isNameChar = true) :
    (ch :: run ++ parts.flatMap ('.' :: ·)).takeWhile (· != '.') = ch :: run := by
  have notPoint : (ch :: run).all (· != '.') = true := by
    apply Text.all_mono _ letters
    intro c name
    exact Text.of_isNameChar (p := fun c => (c != '.') = true) (by decide +kernel) name
  have point : Before ['.'] (parts.flatMap ('.' :: ·)) := by
    cases parts with
    | nil => exact Before.nil _
    | cons part parts => exact Before.singleton '.' _
  exact Text.takeWhile_run notPoint point (by decide)

theorem named_path {p : PropertyPath} (valid : p.isNamed = true) :
    Named (PropertyPath.toText p).toList ∧
      Cursor.firstWord (PropertyPath.toText p).toList = p.firstPart.toList := by
  cases p with
  | nil => contradiction
  | cons first others =>
    rw [PropertyPath.isNamed, Bool.and_eq_true, Bool.and_eq_true, List.all_eq_true] at valid
    obtain ⟨⟨_, segments⟩, noLiteral⟩ := valid
    obtain ⟨ch, run, parts, joined, start, word, _⟩ :=
      QualifiedName.exists_parts (segments first List.mem_cons_self)
    have letters := Text.all_isNameChar_cons start word
    have next : Before Value.nameStops (parts.flatMap ('.' :: ·) ++
        others.flatMap fun segment => '/' :: segment.toList) := by
      cases parts with
      | nil =>
        cases others with
        | nil => exact Before.nil _
        | cons other others => exact Before.cons (by decide) _
      | cons part parts => exact Before.cons (by decide) _
    have part : (PropertyPath.firstPart (first :: others)).toList = ch :: run := by
      rw [PropertyPath.firstPart, joined, takeWhile_dots letters, String.toList_ofList]
    rw [toList_toText, joined, List.append_assoc, part]
    refine ⟨Named.intro ch run _ start word next ?_, Cursor.firstWord_run letters next (by decide)⟩
    intro w member same
    rw [String.toList_inj.mp (part.trans same), List.contains_eq_mem, Bool.not_eq_true',
      decide_eq_false_iff_not] at noLiteral
    exact noLiteral member

theorem isNamespace_of_mem {p : PropertyPath} (valid : p.isNamed = true) {name : String}
    (member : name ∈ p) : QualifiedName.isNamespace name = true := by
  rw [PropertyPath.isNamed, Bool.and_eq_true, Bool.and_eq_true, List.all_eq_true] at valid
  exact valid.1.2 name member

theorem reads_path {p : PropertyPath} (named : p.isNamed = true) :
    Reads inner primaryPrecedence (PropertyPath.toText p).toList (path p) := by
  intro c rest follows text
  have whole := (named_path named).1.append follows.before
  rw [← text] at whole
  cases p with
  | nil => contradiction
  | cons first others =>
    have stops : Before Cursor.segmentStops rest := follows.before.mono (by decide)
    have begins : c.skipBlanks.rest = first.toList ++
        ((others.flatMap fun segment => '/' :: segment.toList) ++ rest) := by
      rw [Cursor.rest_skipBlanks, text, toList_toText, List.append_assoc]
    obtain ⟨middle, name, more⟩ :=
      dottedName?_segment (isNamespace_of_mem named List.mem_cons_self) stops begins
    have noCall : middle.char? '(' = none := by
      cases others with
      | nil => exact follows.char?_eq_none more (Or.inr rfl)
      | cons other others =>
        apply Cursor.char?_eq_none
        rw [Cursor.ahead_of_char more (by decide)]
        simp
    have enough : others.length ≤ middle.rest.length := by
      have count := Text.length_le_flatMap '/' String.toList others
      rw [more, List.length_append]
      omega
    have valid : ∀ other ∈ others, QualifiedName.isNamespace other = true := by
      intro other member
      exact isNamespace_of_mem named (List.mem_cons_of_mem first member)
    obtain ⟨next, segments, left⟩ := segmentsFrom_eq_ok valid enough [first] stops
      (fun after behind => follows.char?_eq_none behind (Or.inl rfl)) more
    refine ⟨next, ?_, left⟩
    rw [whole.level_eq, Readers.nameOrCall]
    simp only [name, noCall, Readers.segments, segments]
    rfl

/-! ## Calls -/

theorem named_call (f : CanonicalFunction) (rest : List Char) :
    Named (f.name.toList ++ '(' :: rest) := by
  have bracket : Before Value.nameStops ('(' :: rest) := Before.cons (by decide) rest
  cases f <;> exact .intro _ _ _ (by decide) (by decide) bracket (by decide)

theorem opens_call (f : CanonicalFunction) (rest : List Char) (p : Nat) :
    Opens p primaryPrecedence (f.name.toList ++ '(' :: rest) := by
  apply (named_call f rest).opens
  intro _
  have letters : f.name.toList.all Text.isNameChar = true := by cases f <;> decide
  rw [Cursor.firstWord_run letters (Before.singleton '(' rest) (by decide)]
  cases f <;> decide

theorem isNamespace_functionName (f : CanonicalFunction) :
    QualifiedName.isNamespace f.name = true := by
  cases f <;> decide +kernel

theorem call_items (readers : Readers) (f : CanonicalFunction) {c : Cursor} {rest : List Char}
    (text : c.ahead = f.name.toList ++ '(' :: rest) :
    ∃ opened, opened.rest = rest ∧ level readers primaryPrecedence c =
      (readers.items opened >>= fun found => pure (call f found.1, found.2)) := by
  have named := named_call f rest
  rw [← text] at named
  obtain ⟨behind, found, bracketed⟩ := Cursor.dottedName?_eq_some (isNamespace_functionName f)
    ((Cursor.ahead_skipBlanks c).trans text) (Before.cons (by decide) _)
  obtain ⟨opened, bracket, inside⟩ :=
    Cursor.char?_eq_some (Cursor.ahead_of_char bracketed (by decide))
  refine ⟨opened, inside, ?_⟩
  rw [named.level_eq, Readers.nameOrCall]
  simp only [found, bracket, CanonicalFunction.ofName?_name]

theorem reads_call (f : CanonicalFunction) {arguments : List Expr}
    (each : ∀ item ∈ arguments, ReadsItem inner item) :
    Reads (around inner) primaryPrecedence
      (f.name.toList ++ '(' :: (commaSeparated (arguments.map toChars) ++ [')']))
      (call f (arguments.map reread)) := by
  intro c rest _ text
  have split : c.ahead = f.name.toList ++
      '(' :: (commaSeparated (arguments.map toChars) ++ ')' :: rest) := by simp [text]
  obtain ⟨opened, inside, unfolded⟩ := call_items (around inner) f split
  obtain ⟨next, read, left⟩ :=
    items_eq_ok each (ahead_items (fun item found => (each item found).2) inside)
  exact ⟨next, by rw [unfolded, read]; rfl, left⟩

end Operands

end OData.Expr
