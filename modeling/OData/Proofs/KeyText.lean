import OData.Proofs.ResourcePath
import OData.Proofs.Store.Rows
import OData.Proofs.Value.Lexing

/-!
# Keys: reading what was written

The text of a key stands between the brackets of a segment, since the literals in it pair their
brackets and quotes.  It is read as a key that the same rows have: decimals get a point, and
integers become decimals where the type asks for them.
-/

set_option autoImplicit false

namespace OData

open Text (Cursor Before)
open Text.Cursor

namespace Value

/-! ## Values with literals -/

def isDouble : Value → Bool
  | double _ => true
  | _ => false

/-- Whether the text of a value is a literal of it; floating-point numbers are left aside. -/
structure HasLiteral (v : Value) : Prop where
  sound : v.isSound = true
  unsigned : v.hasUnsignedYear = true
  exact : v.isDouble = false

theorem hasLiteral_of_isReadable {v : Value} (readable : v.isReadable = true) : v.HasLiteral := by
  cases v with
  | double x => contradiction
  | dateTimeOffset i => contradiction
  | decimal d => exact ⟨readable, rfl, rfl⟩
  | date d => exact ⟨rfl, readable, rfl⟩
  | null | bool | int | string | guid | timeOfDay | binary => exact ⟨rfl, rfl, rfl⟩

theorem hasLiteral_of_lexesBack {v : Value} (back : v.LexesBack) (exact : v.isDouble = false) :
    v.HasLiteral := by
  refine ⟨isSound_of_lexesBack back, ?_, exact⟩
  by_contra signed
  exact not_lexesBack (isSound_of_lexesBack back) (Bool.eq_false_iff.mpr signed) back

theorem HasLiteral.number {v : Value} (literal : v.HasLiteral) : v.isNaN = false := by
  cases v with
  | double x => exact absurd literal.exact (by simp [isDouble])
  | _ => rfl

/-! ## The characters of literals -/

/-- The characters of literals outside quotes. -/
def isLiteralChar (c : Char) : Bool := Text.isNameChar c || c == '-' || c == '.' || c == ':'

theorem isLiteralChar_of_isDigit {cs : List Char} (digits : cs.all Char.isDigit = true) :
    cs.all isLiteralChar = true :=
  Text.all_mono (fun c digit => by simp [isLiteralChar, isNameChar_of_isDigit digit]) digits

theorem isLiteralChar_of_hex {cs : List Char} (digits : cs.all Text.Hex.isDigit = true) :
    cs.all isLiteralChar = true :=
  Text.all_mono (fun c digit => by simp [isLiteralChar, isNameChar_of_hex digit]) digits

theorem isLiteralChar_signChars (n : Int) : (Decimal.signChars n).all isLiteralChar = true := by
  rw [List.all_eq_true]
  intro c member
  rw [Decimal.eq_of_mem_signChars member]
  decide

theorem isLiteralChar_padded (width n : Nat) : (Date.padded width n).all isLiteralChar = true :=
  isLiteralChar_of_isDigit (Date.all_isDigit_padded width n)

theorem isLiteralChar_fractionChars (n : Nat) :
    (TimeOfDay.fractionChars n).all isLiteralChar = true := by
  have point : isLiteralChar '.' = true := by decide
  rw [TimeOfDay.fractionChars]
  split
  · rfl
  · split
    · rw [List.all_cons, point, isLiteralChar_padded]
      rfl
    · split
      · rw [List.all_cons, point, isLiteralChar_padded]
        rfl
      · rw [List.all_cons, point, isLiteralChar_padded]
        rfl

theorem isLiteralChar_date {d : Date} (year : d.FourDigits) :
    d.toChars.all isLiteralChar = true := by
  have hyphen : isLiteralChar '-' = true := by decide
  simp only [Date.toChars_of_year year, List.all_append, List.all_cons, hyphen,
    isLiteralChar_padded, Bool.and_self]

theorem isLiteralChar_time (t : TimeOfDay) : t.toChars.all isLiteralChar = true := by
  have colon : isLiteralChar ':' = true := by decide
  simp only [TimeOfDay.toChars, TimeOfDay.clockChars, List.all_append, List.all_cons, colon,
    isLiteralChar_padded, isLiteralChar_fractionChars, Bool.and_self]

theorem isLiteralChar_encode (bytes : List UInt8) :
    (Text.Base64Url.encode bytes).toList.all isLiteralChar = true := by
  refine Text.all_mono ?_ (all_isBase64Char bytes)
  intro c
  simp only [isBase64Char, isLiteralChar, Text.isNameChar, Bool.or_eq_true]
  tauto

/-- A literal has quotes around it, or around its digits, or none at all. -/
theorem toChars_cases {v : Value} (literal : v.HasLiteral) :
    (∃ s, v = string s) ∨ (∃ bytes, v = binary bytes) ∨ v.toChars.all isLiteralChar = true := by
  cases v with
  | null => exact .inr (.inr (by decide))
  | bool b => exact .inr (.inr (by cases b <;> decide))
  | int n =>
    have token : (int n).toChars = (Decimal.ofInt n.toInt).plainChars := rfl
    refine .inr (.inr ?_)
    rw [token, Decimal.plainChars_ofInt, List.all_append, isLiteralChar_signChars,
      isLiteralChar_of_isDigit (Decimal.all_isDigit_toDigits _)]
    rfl
  | decimal d =>
    obtain ⟨lead, trail, zeros, pointed⟩ := Decimal.exists_pointed d
    have token : (decimal d).toChars = d.pointedChars := rfl
    have digits := pointed.digits
    rw [List.all_append, Bool.and_eq_true] at digits
    refine .inr (.inr ?_)
    rw [token, pointed.text, List.all_append, List.all_append, List.all_cons,
      isLiteralChar_signChars, isLiteralChar_of_isDigit digits.1,
      isLiteralChar_of_isDigit digits.2]
    rfl
  | double x => exact absurd literal.exact (by simp [isDouble])
  | string s => exact .inl ⟨s, rfl⟩
  | guid g =>
    have hex := Guid.all_isDigit_lowerDigits g.bits.toNat 32
    obtain ⟨a, b, c, d, e, lengths, digits, text⟩ := Guid.exists_groups g
    have token : (guid g).toChars = g.toChars := rfl
    have hyphen : isLiteralChar '-' = true := by decide
    have groups := isLiteralChar_of_hex hex
    rw [digits] at groups
    simp only [List.all_append, Bool.and_eq_true] at groups
    refine .inr (.inr ?_)
    simp only [token, text, List.all_append, List.all_cons, hyphen, groups, Bool.and_self]
  | date d =>
    have token : (date d).toChars = d.toChars := rfl
    exact .inr (.inr (token ▸ isLiteralChar_date (of_decide_eq_true literal.unsigned)))
  | dateTimeOffset i =>
    have token : (dateTimeOffset i).toChars = i.date.toChars ++ 'T' :: (i.time.toChars ++ ['Z']) :=
      rfl
    have marks : isLiteralChar 'T' = true ∧ isLiteralChar 'Z' = true := by decide
    refine .inr (.inr ?_)
    simp only [token, List.all_append, List.all_cons, List.all_nil, marks.1, marks.2,
      isLiteralChar_date (of_decide_eq_true literal.unsigned), isLiteralChar_time, Bool.and_self]
  | timeOfDay t =>
    have token : (timeOfDay t).toChars = t.toChars := rfl
    exact .inr (.inr (token ▸ isLiteralChar_time t))
  | binary bytes => exact .inr (.inl ⟨bytes, rfl⟩)

theorem isInner_of_isLiteralChar {c : Char} (char : isLiteralChar c = true) :
    isInner c = true ∧ c ≠ '=' ∧ c ≠ '?' := by
  simp only [isLiteralChar, Bool.or_eq_true, beq_iff_eq] at char
  rcases char with ((name | rfl) | rfl) | rfl
  · exact Text.of_isNameChar (p := fun c => isInner c = true ∧ c ≠ '=' ∧ c ≠ '?')
      (by decide +kernel) name
  · decide
  · decide
  · decide

theorem passes_of_isLiteralChar {cs : List Char} (chars : cs.all isLiteralChar = true) :
    Passes false false cs :=
  passes_all (Text.all_mono (fun _ char => (isInner_of_isLiteralChar char).1) chars)

theorem passes_quoteChars (cs : List Char) : Passes true true (quoteChars cs) := by
  induction cs with
  | nil => exact passes_nil true
  | cons c rest ih =>
    rw [quoteChars]
    split
    · exact (passes_quote true).cons ((passes_quote false).cons ih)
    next other => exact (passes_quoted other).cons ih

/-- The search for a closing bracket passes over literals. -/
theorem passes_toChars {v : Value} (literal : v.HasLiteral) :
    Passes false false v.toChars := by
  rcases toChars_cases literal with ⟨s, rfl⟩ | ⟨bytes, rfl⟩ | plain
  · exact (passes_quote false).cons ((passes_quoteChars s.toList).append (passes_quote true))
  · have word : Passes false true "binary'".toList :=
      (passes_all (by decide : "binary".toList.all isInner = true)).append (passes_quote false)
    have inside : Passes true true (Text.Base64Url.encode bytes).toList := by
      apply passes_quoted_all
      intro quote
      have char := List.all_eq_true.mp (isLiteralChar_encode bytes) _ quote
      exact absurd char (by decide)
    exact (word.append inside).append (passes_quote true)
  · exact passes_of_isLiteralChar plain

theorem isNamed_eq_false {c : Cursor} (absent : '=' ∉ c.rest) : KeyPredicate.isNamed c = false := by
  rw [KeyPredicate.isNamed]
  cases found : c.name? with
  | none => rfl
  | some name =>
    have none : name.2.char? '=' = none :=
      char?_eq_none_of_not_mem fun member => absent (mem_of_token? found member)
    simp only [none, Option.isSome_none]

/-- No equals sign follows a name at the start of a literal. -/
theorem isNamed_toChars {v : Value} (literal : v.HasLiteral) {c : Cursor}
    (text : c.rest = v.toChars) : KeyPredicate.isNamed c = false := by
  rcases toChars_cases literal with ⟨s, rfl⟩ | ⟨bytes, rfl⟩ | plain
  · have ahead := Cursor.ahead_of_char (text : c.rest = '\'' :: _) (by decide)
    have unfit : nameShape c.ahead = none := by
      rw [ahead]
      rfl
    have nameless : c.name? = none := skipBlanks_token?_eq_none unfit
    rw [KeyPredicate.isNamed, nameless]
  · apply isNamed_eq_false
    rw [text]
    intro member
    have token : (binary bytes).toChars =
        "binary'".toList ++ (Text.Base64Url.encode bytes).toList ++ ['\''] := rfl
    rw [token] at member
    simp only [List.mem_append, List.mem_singleton] at member
    rcases member with (word | digit) | quote
    · exact absurd word (by decide)
    · exact (isInner_of_isLiteralChar
        (List.all_eq_true.mp (isLiteralChar_encode bytes) _ digit)).2.1 rfl
    · exact absurd quote (by decide)
  · apply isNamed_eq_false
    rw [text]
    intro member
    exact (isInner_of_isLiteralChar (List.all_eq_true.mp plain _ member)).2.1 rfl

/-! ## Values of key properties -/

/-- Whether a value is one of a type; integers are decimals, too. -/
def isOf (type : PrimitiveType) : Value → Bool
  | int _ => type == .int32 || type == .int64 || type == .decimal
  | v => v.type? == some type

/-- What is read of a value is taken for the value by every comparison, but perhaps for those of
decimals with floating-point numbers. -/
theorem coerceTo_reread {type : PrimitiveType} {v : Value} (readable : v.isReadable = true)
    (typed : v.isOf type = true) : ∃ w, v.reread.coerceTo type = .ok w ∧
      ∀ u : Value, (type = .decimal → u.isDouble = false) → u.compare w = u.compare v := by
  cases v with
  | null => cases typed
  | int n =>
    simp only [isOf, Bool.or_eq_true, beq_iff_eq] at typed
    rcases typed with (rfl | rfl) | rfl
    · exact ⟨int n, rfl, fun _ _ => rfl⟩
    · exact ⟨int n, rfl, fun _ _ => rfl⟩
    · refine ⟨decimal (Decimal.ofInt n.toInt), rfl, fun u whole => ?_⟩
      cases u with
      | double x => exact absurd (whole rfl) (by simp [isDouble])
      | int m => exact congrArg some (Decimal.compare_ofInt _ _)
      | _ => rfl
  | decimal d =>
    have same : some PrimitiveType.decimal = some type := beq_iff_eq.mp typed
    cases same
    refine ⟨decimal d.withPoint, rfl, fun u whole => ?_⟩
    cases u with
    | double x => exact absurd (whole rfl) (by simp [isDouble])
    | int n => exact congrArg some (Decimal.compare_withPoint _ d)
    | decimal e => exact congrArg some (Decimal.compare_withPoint e d)
    | _ => rfl
  | double x => contradiction
  | dateTimeOffset i => contradiction
  | bool b => exact ⟨bool b, if_pos (beq_iff_eq.mp typed), fun _ _ => rfl⟩
  | string s => exact ⟨string s, if_pos (beq_iff_eq.mp typed), fun _ _ => rfl⟩
  | guid g => exact ⟨guid g, if_pos (beq_iff_eq.mp typed), fun _ _ => rfl⟩
  | date d => exact ⟨date d, if_pos (beq_iff_eq.mp typed), fun _ _ => rfl⟩
  | timeOfDay t => exact ⟨timeOfDay t, if_pos (beq_iff_eq.mp typed), fun _ _ => rfl⟩
  | binary bytes => exact ⟨binary bytes, if_pos (beq_iff_eq.mp typed), fun _ _ => rfl⟩

end Value

/-! ## Texts of keys -/

namespace KeyPredicate

theorem value_eq_ok {v : Value} (literal : v.HasLiteral) {c : Cursor} {rest : List Char}
    (text : c.rest = v.toChars ++ rest) (before : Before Value.endings rest) :
    ∃ next : Cursor, value c = .ok (v.reread, next) ∧ next.rest = rest := by
  obtain ⟨ch, tail, chars, visible, _⟩ := Value.exists_visible literal.sound
  have ahead : c.ahead = v.toChars ++ rest := by
    rw [chars] at text ⊢
    exact Cursor.ahead_of_char text visible
  obtain ⟨next, read, left⟩ :=
    Value.exists_literal? literal.sound literal.number literal.unsigned ahead before
  exact ⟨next, by rw [value, read]; rfl, left⟩

/-- A named value as it stands in the text of a key. -/
def namedChars (entry : Identifier × Value) : List Char :=
  entry.1.text.toList ++ '=' :: entry.2.toChars

/-- What is read of a named value. -/
def rereadNamed (entry : Identifier × Value) : String × Value := (entry.1.text, entry.2.reread)

theorem name?_namedChars {entry : Identifier × Value} {c : Cursor} {rest : List Char}
    (text : c.rest = namedChars entry ++ rest) :
    ∃ next : Cursor, c.name? = some (entry.1.text, next) ∧
      next.rest = '=' :: (entry.2.toChars ++ rest) := by
  obtain ⟨ch, run, chars, start, _⟩ := exists_chars_of_isIdentifier entry.1.isIdentifier
  rw [namedChars, List.append_assoc, List.cons_append] at text
  apply name?_eq_some entry.1.isIdentifier _ (Before.singleton '=' _) (by decide)
  rw [chars] at text ⊢
  exact Cursor.ahead_of_char text
    (Text.isBlank_of_isNameChar (Text.isNameChar_of_isNameStart ch start))

/-- A named value is read up to the end or the comma after it. -/
theorem pairs_step {entry : Identifier × Value} (literal : entry.2.HasLiteral)
    {rest : List Char} (before : Before [','] rest) (fuel : Nat) {c : Cursor}
    (text : c.rest = namedChars entry ++ rest) :
    ∃ next : Cursor, next.rest = rest ∧ pairs (fuel + 1) c = match next.char? ',' with
      | some after => do
        let (others, last) ← pairs fuel after
        pure (rereadNamed entry :: others, last)
      | none => pure ([rereadNamed entry], next) := by
  obtain ⟨named, found, behind⟩ := name?_namedChars text
  have name : c.expectName = .ok (entry.1.text, named) := by rw [expectName, found]
  obtain ⟨equals, sign, left⟩ :=
    Cursor.expectChar_eq_ok (Cursor.ahead_of_char behind (by decide))
  obtain ⟨next, read, last⟩ := value_eq_ok literal left (before.mono (by decide))
  refine ⟨next, last, ?_⟩
  rw [pairs, name]
  simp only [bind, Except.bind, sign, read]
  cases next.char? ',' <;> rfl

theorem pairs_eq_ok {others : List (Identifier × Value)}
    (literal : ∀ entry ∈ others, entry.2.HasLiteral) :
    ∀ {first : Identifier × Value} {fuel : Nat} {c : Cursor}, first.2.HasLiteral →
      others.length < fuel →
      c.rest = namedChars first ++ others.flatMap (fun entry => ',' :: namedChars entry) →
      ∃ next : Cursor, pairs fuel c = .ok ((first :: others).map rereadNamed, next) ∧
        next.rest = [] := by
  induction others with
  | nil =>
    intro first fuel c valid enough text
    obtain ⟨fuel, rfl⟩ : ∃ n, fuel = n + 1 := ⟨fuel - 1, by simp at enough; omega⟩
    obtain ⟨next, left, step⟩ := pairs_step valid (Before.nil _) fuel text
    have noComma : next.char? ',' = none := char?_eq_none_of_not_mem (by simp [left])
    rw [noComma] at step
    exact ⟨next, step, left⟩
  | cons second others ih =>
    intro first fuel c valid enough text
    obtain ⟨fuel, rfl⟩ : ∃ n, fuel = n + 1 := ⟨fuel - 1, by simp at enough; omega⟩
    have stop : Before [','] ((second :: others).flatMap fun entry => ',' :: namedChars entry) :=
      Before.singleton ',' _
    obtain ⟨next, left, step⟩ := pairs_step valid stop fuel text
    rw [List.flatMap_cons, List.cons_append] at left
    obtain ⟨after, comma, behind⟩ :=
      Cursor.char?_eq_some (Cursor.ahead_of_char left (by decide))
    obtain ⟨last, later, ends⟩ :=
      ih (fun entry member => literal entry (List.mem_cons_of_mem second member))
        (literal second List.mem_cons_self) (by simpa using enough) behind
    rw [comma] at step
    simp only [later] at step
    exact ⟨last, step, ends⟩

end KeyPredicate

namespace Key

open KeyPredicate

/-- The text of a key without its brackets. -/
def innerText (key : Key) : String :=
  match key.values with
  | [(_, v)] => v.toText
  | values => ",".intercalate (values.map fun (name, v) => name.text ++ "=" ++ v.toText)

theorem toText_eq (key : Key) : key.toText = "(" ++ key.innerText ++ ")" := by
  obtain ⟨values⟩ := key
  rcases values with _ | ⟨⟨name, v⟩, _ | ⟨second, others⟩⟩ <;> rfl

/-- The text of a key of several values, a named value and others behind commas. -/
theorem toList_innerText (first second : Identifier × Value) (others : List (Identifier × Value)) :
    (innerText ⟨first :: second :: others⟩).toList =
      namedChars first ++ (second :: others).flatMap fun entry => ',' :: namedChars entry := by
  have named : ∀ entry : Identifier × Value,
      (entry.1.text ++ "=" ++ entry.2.toText).toList = namedChars entry := by
    intro entry
    simp [namedChars, Value.toText]
  have text : innerText ⟨first :: second :: others⟩ = ",".intercalate
      ((first :: second :: others).map fun entry => entry.1.text ++ "=" ++ entry.2.toText) := rfl
  rw [text, List.map_cons, Text.toList_intercalate_cons, named, List.flatMap_map]
  simp only [named]
  rfl

theorem passes_namedChars {entry : Identifier × Value} (literal : entry.2.HasLiteral) :
    Passes false false (namedChars entry) := by
  obtain ⟨ch, run, chars, start, letters⟩ := exists_chars_of_isIdentifier entry.1.isIdentifier
  have name : entry.1.text.toList.all isInner = true := by
    rw [chars]
    exact Text.all_mono (fun _ letter => Text.of_isNameChar (p := fun c => isInner c = true)
      (by decide +kernel) letter) (Text.all_isNameChar_cons start letters)
  exact (passes_all name).append ((passes_inner (by decide)).cons (Value.passes_toChars literal))

theorem passes_named {entries : List (Identifier × Value)}
    (literal : ∀ entry ∈ entries, entry.2.HasLiteral) :
    Passes false false (entries.flatMap fun entry => ',' :: namedChars entry) := by
  induction entries with
  | nil => exact passes_nil false
  | cons first rest ih =>
    have comma : Passes false false (',' :: namedChars first) :=
      (passes_inner (by decide)).cons (passes_namedChars (literal first List.mem_cons_self))
    exact comma.append (ih fun entry member => literal entry (List.mem_cons_of_mem first member))

theorem passes_innerText {key : Key} (literal : ∀ entry ∈ key.values, entry.2.HasLiteral) :
    Passes false false key.innerText.toList := by
  obtain ⟨values⟩ := key
  rcases values with _ | ⟨⟨name, v⟩, _ | ⟨second, others⟩⟩
  · exact passes_nil false
  · have text : innerText ⟨[(name, v)]⟩ = String.ofList v.toChars := rfl
    rw [text, String.toList_ofList]
    exact Value.passes_toChars (literal (name, v) List.mem_cons_self)
  · rw [toList_innerText]
    exact (passes_namedChars (literal _ List.mem_cons_self)).append
      (passes_named fun entry member => literal entry (List.mem_cons_of_mem _ member))

theorem parse_single {name : Identifier} {v : Value} (literal : v.HasLiteral) :
    KeyPredicate.parse (innerText ⟨[(name, v)]⟩) = .ok (.single v.reread) := by
  have rest : (Cursor.ofText (innerText ⟨[(name, v)]⟩)).rest = v.toChars :=
    String.toList_ofList
  obtain ⟨next, read, left⟩ :=
    value_eq_ok literal (rest.trans (List.append_nil _).symm) (Before.nil _)
  have ends : next.expectEnd = .ok () := Cursor.expectEnd_eq_ok (by rw [Cursor.ahead, left]; rfl)
  rw [KeyPredicate.parse]
  simp only [Value.isNamed_toChars literal rest, read, bind, Except.bind, ends]
  rfl

theorem parse_named {first second : Identifier × Value} {others : List (Identifier × Value)}
    (literal : ∀ entry ∈ first :: second :: others, entry.2.HasLiteral) :
    KeyPredicate.parse (innerText ⟨first :: second :: others⟩) =
      .ok (.named ((first :: second :: others).map rereadNamed)) := by
  have rest : (Cursor.ofText (innerText ⟨first :: second :: others⟩)).rest =
      namedChars first ++ (second :: others).flatMap fun entry => ',' :: namedChars entry :=
    toList_innerText first second others
  have valid := literal first List.mem_cons_self
  have named : isNamed (Cursor.ofText (innerText ⟨first :: second :: others⟩)) = true := by
    obtain ⟨next, name, left⟩ := name?_namedChars rest
    obtain ⟨after, sign, _⟩ := Cursor.char?_eq_some (Cursor.ahead_of_char left (by decide))
    rw [isNamed, name]
    simp only [sign, Option.isSome_some]
  have enough : (second :: others).length <
      (Cursor.ofText (innerText ⟨first :: second :: others⟩)).rest.length + 1 := by
    have commas := Text.length_le_flatMap ',' namedChars (second :: others)
    rw [rest, List.length_append]
    omega
  obtain ⟨next, read, left⟩ :=
    pairs_eq_ok (fun entry member => literal entry (List.mem_cons_of_mem first member)) valid
      enough rest
  have ends : next.expectEnd = .ok () := Cursor.expectEnd_eq_ok (by rw [Cursor.ahead, left]; rfl)
  rw [KeyPredicate.parse]
  simp only [named, if_true, read, bind, Except.bind, ends]
  rfl

/-! ## Keys that are read -/

/-- Whether the key of a record has literals of the types of its properties. -/
def HasReadableKey (ty : EntityType) (record : Record) : Prop :=
  ∀ property ∈ ty.keyProperties, (record.value property.name).isReadable = true ∧
    (record.value property.name).isOf property.type = true

/-- Whether the values of some properties can be told from a decimal: there is no floating-point
number among those of decimal properties. -/
def HasExactValues (properties : List Property) (record : Record) : Prop :=
  ∀ property ∈ properties, property.type = .decimal →
    (record.value property.name).isDouble = false

/-- The values of some properties of a record. -/
def entries (record : Record) (properties : List Property) : List (Identifier × Value) :=
  properties.map fun property => (property.name, record.value property.name)

variable {ty : EntityType} {record : Record} {key : Key}

/-- Entries of one name have one value. -/
theorem find?_rereadNamed {properties : List Property} {property : Property}
    (member : property ∈ properties) :
    ((entries record properties).map rereadNamed).find? (·.1 == property.name.text) =
      some (property.name.text, (record.value property.name).reread) := by
  induction properties with
  | nil => cases member
  | cons first rest ih =>
    by_cases same : first.name = property.name
    · simp [entries, rereadNamed, same]
    · have other : first.name.text ≠ property.name.text := fun equal =>
        same (EntityType.Identifier.eq_of_text equal)
      have later : property ∈ rest := by
        rcases List.mem_cons.mp member with rfl | later
        · exact absurd rfl same
        · exact later
      simpa [entries, rereadNamed, other] using ih later

theorem identifies_cons (name : Identifier) (v : Value) (values : List (Identifier × Value))
    (other : Record) : identifies ⟨(name, v) :: values⟩ other =
      ((other.value name).compare v == some .eq && identifies ⟨values⟩ other) := by
  rw [Bool.eq_iff_iff, Bool.and_eq_true, identifies_iff, identifies_iff]
  simp

/-- Values are typed one by one. -/
theorem exists_typedValues {texts : List (String × Value)} {properties : List Property}
    {P : Property → Value → Prop}
    (found : ∀ property ∈ properties, texts.find? (·.1 == property.name.text) =
      some (property.name.text, (record.value property.name).reread))
    (coerced : ∀ property ∈ properties, ∃ w,
      (record.value property.name).reread.coerceTo property.type = .ok w ∧ P property w) :
    ∃ values, typedValues texts properties = .ok values ∧
      List.Forall₂ (fun property (entry : Identifier × Value) =>
        entry.1 = property.name ∧ P property entry.2) properties values := by
  induction properties with
  | nil => exact ⟨[], rfl, .nil⟩
  | cons property rest ih =>
    obtain ⟨v, typed, holds⟩ := coerced property List.mem_cons_self
    obtain ⟨values, others, all⟩ := ih (fun p member => found p (List.mem_cons_of_mem _ member))
      fun p member => coerced p (List.mem_cons_of_mem _ member)
    have first : typedValue property texts = .ok v := by
      rw [typedValue, found property List.mem_cons_self]
      simp only [typed]
    refine ⟨(property.name, v) :: values, ?_, .cons ⟨rfl, holds⟩ all⟩
    rw [typedValues, first, others]
    rfl

/-- Whether comparisons take a value for that of a record. -/
def IsAlike (record : Record) (property : Property) (w : Value) : Prop :=
  ∀ u : Value, (property.type = .decimal → u.isDouble = false) →
    u.compare w = u.compare (record.value property.name)

theorem identifies_eq_of_alike {properties : List Property} {values : List (Identifier × Value)}
    (alike : List.Forall₂ (fun property (entry : Identifier × Value) =>
      entry.1 = property.name ∧ IsAlike record property entry.2) properties values)
    {other : Record} (whole : HasExactValues properties other) :
    identifies ⟨values⟩ other = identifies ⟨entries record properties⟩ other := by
  induction alike with
  | nil => rfl
  | @cons property entry rest values first later ih =>
    obtain ⟨name, v⟩ := entry
    obtain ⟨rfl, same⟩ := first
    have tail := ih fun p member => whole p (List.mem_cons_of_mem _ member)
    have head := same (other.value property.name) (whole property List.mem_cons_self)
    rw [entries, List.map_cons, identifies_cons, identifies_cons, tail, head]
    rfl

/-- The text of a key names the values of the key. -/
theorem exists_predicate {key : Key} (nonempty : key.values ≠ [])
    (names : ty.keyProperties.map Property.name = key.names)
    (literals : ∀ entry ∈ key.values, entry.2.HasLiteral) :
    ∃ predicate, KeyPredicate.parse key.innerText = .ok predicate ∧
      namedValues ty predicate = .ok (key.values.map rereadNamed) := by
  obtain ⟨values⟩ := key
  rcases values with _ | ⟨⟨name, v⟩, _ | ⟨second, others⟩⟩
  · exact absurd rfl nonempty
  · obtain ⟨property, only, rfl⟩ := List.map_eq_singleton_iff.mp names
    refine ⟨_, parse_single (literals _ List.mem_cons_self), ?_⟩
    simp only [namedValues, only]
    rfl
  · exact ⟨_, parse_named literals, rfl⟩

theorem values_eq_entries (made : ofRecord ty record = .ok key)
    (known : ∀ name ∈ ty.key, name ∈ ty.names) : key.values = entries record ty.keyProperties := by
  rw [values_ofRecord made, ← EntityType.map_name_keyProperties known, entries, List.map_map]
  rfl

theorem hasLiteral_of_mem_values (made : ofRecord ty record = .ok key)
    (known : ∀ name ∈ ty.key, name ∈ ty.names) (readable : HasReadableKey ty record) :
    ∀ entry ∈ key.values, entry.2.HasLiteral := by
  intro entry member
  rw [values_eq_entries made known] at member
  obtain ⟨property, among, rfl⟩ := List.mem_map.mp member
  exact Value.hasLiteral_of_isReadable (readable property among).1

/-- The text of the key of a record is read as the values that its literals have in the types of
the key properties. -/
theorem exists_parse_of_coerceTo {P : Property → Value → Prop} (made : ofRecord ty record = .ok key)
    (known : ∀ name ∈ ty.key, name ∈ ty.names) (nonempty : ty.key ≠ [])
    (literals : ∀ entry ∈ key.values, entry.2.HasLiteral)
    (coerced : ∀ property ∈ ty.keyProperties, ∃ w,
      (record.value property.name).reread.coerceTo property.type = .ok w ∧ P property w) :
    ∃ read, parse ty key.innerText = .ok read ∧
      List.Forall₂ (fun property (entry : Identifier × Value) =>
        entry.1 = property.name ∧ P property entry.2) ty.keyProperties read.values := by
  have names := EntityType.map_name_keyProperties known
  have some : key.values ≠ [] := by
    intro empty
    rw [values_ofRecord made, List.map_eq_nil_iff] at empty
    exact nonempty empty
  obtain ⟨predicate, parsed, named⟩ := exists_predicate some
    (names.trans (names_ofRecord made).symm) literals
  rw [values_eq_entries made known] at named
  obtain ⟨values, typed, all⟩ :=
    exists_typedValues (fun property member => find?_rereadNamed member) coerced
  have count : ((entries record ty.keyProperties).map rereadNamed).length =
      ty.keyProperties.length := by rw [List.length_map, entries, List.length_map]
  refine ⟨⟨values⟩, ?_, all⟩
  rw [parse, parsed]
  simp only [bind, Except.bind, ofPredicate, named, count, if_true, typed]
  rfl

/-- The text of the key of a record is read as a key that the same rows have. -/
theorem exists_parse_innerText (made : ofRecord ty record = .ok key)
    (known : ∀ name ∈ ty.key, name ∈ ty.names) (nonempty : ty.key ≠ [])
    (readable : HasReadableKey ty record) :
    ∃ read, parse ty key.innerText = .ok read ∧
      ∀ other : Record, HasExactValues ty.keyProperties other →
        read.identifies other = key.identifies other := by
  have coerced : ∀ property ∈ ty.keyProperties, ∃ w,
      (record.value property.name).reread.coerceTo property.type = .ok w ∧
        IsAlike record property w := fun property member =>
    Value.coerceTo_reread (readable property member).1 (readable property member).2
  obtain ⟨read, parsed, alike⟩ := exists_parse_of_coerceTo made known nonempty
    (hasLiteral_of_mem_values made known readable) coerced
  refine ⟨read, parsed, fun other whole => ?_⟩
  have values : key = ⟨entries record ty.keyProperties⟩ :=
    congrArg Key.mk (values_eq_entries made known)
  rw [values]
  exact identifies_eq_of_alike alike whole

end Key

namespace Table

variable {ty : EntityType} {row : Record} {key : Key} {table : Table}

theorem sameKey_self (names : ty.keyProperties.map Property.name = ty.key)
    (readable : Key.HasReadableKey ty row) : SameKey ty row row := by
  intro name member
  rw [← names] at member
  obtain ⟨property, among, rfl⟩ := List.mem_map.mp member
  obtain ⟨literal, typed⟩ := readable property among
  apply Value.compare_self
  cases found : row.value property.name with
  | null => rw [found] at typed; cases typed
  | double x => rw [found] at literal; cases literal
  | _ => rfl

/-- A row is read by the text of its key, if no other row has the key. -/
theorem exists_read_innerText (known : ∀ name ∈ ty.key, name ∈ ty.names) (nonempty : ty.key ≠ [])
    (made : Key.ofRecord ty row = .ok key) (readable : Key.HasReadableKey ty row)
    (distinct : HasDistinctKeys ty table) (member : row ∈ table)
    (whole : ∀ other ∈ table, Key.HasExactValues ty.keyProperties other) :
    ∃ read, Key.parse ty key.innerText = .ok read ∧ table.read read = some row := by
  obtain ⟨read, parsed, same⟩ := Key.exists_parse_innerText made known nonempty readable
  refine ⟨read, parsed, ?_⟩
  have self := sameKey_self (EntityType.map_name_keyProperties known) readable
  rw [← read_ofRecord made self distinct member]
  exact read_congr fun other among => same other (whole other among)

end Table

/-! ## Plain keys -/

namespace Value

theorem mem_of_mem_quoteChars {c : Char} {cs : List Char} (member : c ∈ quoteChars cs) :
    c ∈ cs := by
  induction cs with
  | nil => exact member
  | cons d rest ih =>
    rw [quoteChars] at member
    split at member
    next quote =>
      subst quote
      simp only [List.mem_cons] at member ⊢
      rcases member with same | same | later
      · exact .inl same
      · exact .inl same
      · exact .inr (ih later)
    next =>
      rcases List.mem_cons.mp member with same | later
      · exact List.mem_cons.mpr (.inl same)
      · exact List.mem_cons_of_mem _ (ih later)

/-- Whether a value is an integer, or a string without a question mark. -/
def isPlain : Value → Bool
  | int _ => true
  | string s => !s.toList.contains '?'
  | _ => false

theorem isReadable_of_isPlain {v : Value} (plain : v.isPlain = true) : v.isReadable = true := by
  cases v with
  | int n => rfl
  | string s => rfl
  | _ => cases plain

theorem not_mem_toChars_of_isPlain {v : Value} (plain : v.isPlain = true) : '?' ∉ v.toChars := by
  cases v with
  | int n =>
    have token : (int n).toChars = (Decimal.ofInt n.toInt).plainChars := rfl
    rw [token, Decimal.plainChars_ofInt]
    intro member
    have literal : isLiteralChar '?' = true := by
      rcases List.mem_append.mp member with sign | digit
      · exact List.all_eq_true.mp (isLiteralChar_signChars _) _ sign
      · exact List.all_eq_true.mp
          (isLiteralChar_of_isDigit (Decimal.all_isDigit_toDigits _)) _ digit
    exact absurd literal (by decide)
  | string s =>
    have token : (string s).toChars = '\'' :: quoteChars s.toList ++ ['\''] := rfl
    have absent : '?' ∉ s.toList := by simpa [isPlain] using plain
    rw [token]
    intro member
    simp only [List.cons_append, List.mem_cons, List.mem_append, List.not_mem_nil, or_false]
      at member
    rcases member with quote | inside | quote
    · exact absurd quote (by decide)
    · exact absent (mem_of_mem_quoteChars inside)
    · exact absurd quote (by decide)
  | _ => cases plain

end Value

namespace Key

variable {ty : EntityType} {record : Record} {key : Key}

/-- Whether the key of a record consists of integers and of strings without question marks, each of
the type of its property. -/
def HasPlainKey (ty : EntityType) (record : Record) : Prop :=
  ∀ property ∈ ty.keyProperties, (record.value property.name).isPlain = true ∧
    (record.value property.name).isOf property.type = true ∧ property.type ≠ .decimal

theorem HasPlainKey.readable (plain : HasPlainKey ty record) : HasReadableKey ty record :=
  fun property member =>
    ⟨Value.isReadable_of_isPlain (plain property member).1, (plain property member).2.1⟩

theorem HasPlainKey.exact (plain : HasPlainKey ty record) (other : Record) :
    HasExactValues ty.keyProperties other :=
  fun property member type => absurd type (plain property member).2.2

theorem question_not_mem_namedChars {entry : Identifier × Value}
    (plain : entry.2.isPlain = true) : '?' ∉ KeyPredicate.namedChars entry := by
  rw [KeyPredicate.namedChars, List.mem_append, List.mem_cons, not_or, not_or]
  exact ⟨entry.1.not_mem_text (by decide), by decide, Value.not_mem_toChars_of_isPlain plain⟩

/-- There is no question mark in the text of a plain key. -/
theorem question_not_mem_innerText (plain : ∀ entry ∈ key.values, entry.2.isPlain = true) :
    '?' ∉ key.innerText.toList := by
  obtain ⟨values⟩ := key
  rcases values with _ | ⟨⟨name, v⟩, _ | ⟨second, others⟩⟩
  · exact List.not_mem_nil
  · have text : innerText ⟨[(name, v)]⟩ = String.ofList v.toChars := rfl
    rw [text, String.toList_ofList]
    exact Value.not_mem_toChars_of_isPlain (plain (name, v) List.mem_cons_self)
  · rw [toList_innerText, List.mem_append, List.mem_flatMap, not_or]
    refine ⟨question_not_mem_namedChars (plain _ List.mem_cons_self), ?_⟩
    rintro ⟨entry, member, inside⟩
    rcases List.mem_cons.mp inside with comma | named
    · exact absurd comma (by decide)
    · exact question_not_mem_namedChars (plain entry (List.mem_cons_of_mem _ member)) named

theorem HasPlainKey.queryless (plain : HasPlainKey ty record) (made : ofRecord ty record = .ok key)
    (known : ∀ name ∈ ty.key, name ∈ ty.names) : '?' ∉ key.innerText.toList := by
  apply question_not_mem_innerText
  intro entry member
  rw [values_eq_entries made known] at member
  obtain ⟨property, among, rfl⟩ := List.mem_map.mp member
  exact (plain property among).1

end Key

end OData
