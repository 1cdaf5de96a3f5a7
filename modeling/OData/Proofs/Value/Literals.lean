import OData.Proofs.Value.Forms

/-!
# Literals: reading what was written

`literal?_toChars` reads the text of every value that can be told from its text, and
`literal?_name` reads no literal where a name stands that is no keyword.
-/

set_option autoImplicit false

namespace OData.Value

open Text (Cursor Before)

/-- Whether the text of a value is the literal of one.  Floating-point numbers and instants are left
aside, dates need a year of four digits, and scales have 64 bits. -/
def isReadable : Value → Bool
  | decimal d => decide (d.scale < 2 ^ 63)
  | date d => decide d.FourDigits
  | double _ | dateTimeOffset _ => false
  | _ => true

/-- What the text of a value is read as. -/
def reread : Value → Value
  | decimal d => decimal d.withPoint
  | v => v

theorem same_reread {v : Value} (readable : v.isReadable = true) : v.same v.reread = true := by
  cases v with
  | decimal d => exact Decimal.same_withPoint d
  | double x => contradiction
  | _ => simp [same, reread]

/-! ## Keywords -/

/-- The names that are literals. -/
def reserved : List String := ["null", "true", "false", "NaN", "INF"]

theorem keyword?_eq_none {c : Cursor} (sign : c.ahead.head? ≠ some '-')
    (free : ∀ w ∈ reserved, Cursor.firstWord c.ahead ≠ w.toList) : keyword? c keywords = none := by
  have word : ∀ w ∈ reserved, c.keyword? w = none := by
    intro w member
    have letters : ∀ w ∈ reserved, w.toList.all Text.isNameChar = true := by decide
    exact Cursor.keyword?_eq_none (letters w member) (free w member)
  have minus : c.keyword? "-INF" = none := by
    apply Cursor.keyword?_eq_none_of_isPrefixOf
    cases text : c.ahead with
    | nil => rfl
    | cons d rest =>
      rw [text] at sign
      have other : ('-' == d) = false := by
        rw [beq_eq_false_iff_ne]
        rintro rfl
        exact sign rfl
      simp [List.isPrefixOf, other]
  simp only [keyword?, keywords, word "null" (by decide), word "true" (by decide),
    word "false" (by decide), word "NaN" (by decide), word "INF" (by decide), minus]

theorem literal?_name {c : Cursor} {ch : Char} {run rest : List Char}
    (start : Text.isNameStart ch = true) (word : run.all Text.isNameChar = true)
    (before : Before nameStops rest) (text : c.ahead = ch :: run ++ rest)
    (free : ∀ w ∈ reserved, ch :: run ≠ w.toList) : literal? c = .ok none := by
  have letters := Text.all_isNameChar_cons start word
  have first : Cursor.firstWord c.ahead = ch :: run := by
    rw [text]
    exact Cursor.firstWord_run letters before (by decide)
  have sign : c.skipBlanks.ahead.head? ≠ some '-' := by
    rw [Cursor.ahead_skipBlanks, text, List.cons_append, List.head?_cons, ne_eq, Option.some.injEq]
    rintro rfl
    contradiction
  have noKeyword : keyword? c.skipBlanks keywords = none := by
    apply keyword?_eq_none sign
    rw [Cursor.ahead_skipBlanks, first]
    exact free
  rw [literal?]
  simp only [Cursor.rest_skipBlanks, text, form?_name start word before, noKeyword]

/-- A minus before a letter begins no literal but that of the negative infinity. -/
theorem literal?_minus {c : Cursor} {d : Char} {rest : List Char}
    (letter : Text.isDecimalDigit d = false) (text : c.ahead = '-' :: d :: rest) :
    literal? c = .ok ((c.skipBlanks.keyword? "-INF").map fun next =>
      (double Double.negativeInfinity, next)) := by
  have digits : manyDigitsShape (d :: rest) = none := by
    apply Text.Shape.some'_eq_none
    intro e head
    rw [List.head?_cons, Option.mem_some_iff] at head
    rw [← head, letter]
  have number : numberShape ('-' :: d :: rest) = none := by
    have sign : Text.Shape.optional (Text.Shape.char '-') (['-'] ++ d :: rest) =
        some ['-'].length := Text.Shape.optional_append (Text.Shape.char_cons '-' (d :: rest))
    exact Text.Shape.seq_eq_none_of_append sign (Text.Shape.seq_eq_none digits)
  have minus : '-' ∈ ['-', '+'] := by decide
  have noForm := form?_sign minus (d :: rest)
  rw [number, Option.map_none] at noForm
  have noWord : ∀ w ∈ reserved, c.skipBlanks.keyword? w = none := by
    intro w member
    have facts : ∀ w ∈ reserved, w.toList.all Text.isNameChar = true ∧ w.toList ≠ [] := by decide
    apply Cursor.keyword?_eq_none (facts w member).1
    rw [Cursor.ahead_skipBlanks, text]
    exact Ne.symm (facts w member).2
  rw [literal?]
  simp only [Cursor.rest_skipBlanks, text, noForm, keyword?, keywords, noWord "null" (by decide),
    noWord "true" (by decide), noWord "false" (by decide), noWord "NaN" (by decide),
    noWord "INF" (by decide)]
  cases c.skipBlanks.keyword? "-INF" <;> rfl

/-- A keyword is a name that no form fits. -/
theorem literal?_keyword {c : Cursor} {v : Value} {ch : Char} {run rest : List Char}
    (start : Text.isNameStart ch = true) (word : run.all Text.isNameChar = true)
    (before : Before endings rest) (text : c.ahead = ch :: run ++ rest)
    (found : ∃ next, keyword? c.skipBlanks keywords = some (v, next) ∧ next.rest = rest) :
    ∃ next, literal? c = .ok (some (v, next)) ∧ next.rest = rest := by
  obtain ⟨next, keyword, left⟩ := found
  refine ⟨next, ?_, left⟩
  have stops : Before nameStops rest := before.mono (by decide)
  have noForm := form?_name start word stops
  rw [literal?]
  simp only [Cursor.rest_skipBlanks, text, noForm, keyword]

theorem literal?_word {word : String} {v : Value} (member : (word, v) ∈ keywords)
    (letters : word ∈ reserved) {c : Cursor} {rest : List Char}
    (text : c.ahead = word.toList ++ rest) (before : Before endings rest) :
    ∃ next, literal? c = .ok (some (v, next)) ∧ next.rest = rest := by
  have skipped := Cursor.ahead_skipBlanks c
  rw [text] at skipped
  obtain ⟨next, found, left⟩ := Cursor.keyword?_eq_some skipped before (by decide)
  have named : ∀ w ∈ reserved, w.toList.all Text.isNameChar = true := by decide
  have first := Cursor.firstWord_run (named word letters) before (by decide)
  have other : ∀ w ∈ reserved, w ≠ word → c.skipBlanks.keyword? w = none := by
    intro w reserved apart
    apply Cursor.keyword?_eq_none (named w reserved)
    rw [skipped, first]
    exact fun same => apart (String.toList_inj.mp same).symm
  have shape : ∀ w ∈ reserved, ∃ ch run, w.toList = ch :: run ∧ Text.isNameStart ch = true ∧
      run.all Text.isNameChar = true := by
    intro w reserved
    simp only [Value.reserved, List.mem_cons, List.not_mem_nil, or_false] at reserved
    rcases reserved with rfl | rfl | rfl | rfl | rfl <;> exact ⟨_, _, rfl, by decide, by decide⟩
  obtain ⟨ch, run, chars, start, more⟩ := shape word letters
  rw [chars] at text
  refine literal?_keyword start more before text ⟨next, ?_, left⟩
  simp only [keywords, List.mem_cons, Prod.mk.injEq, List.not_mem_nil, or_false] at member
  rcases member with ⟨rfl, rfl⟩ | ⟨rfl, rfl⟩ | ⟨rfl, rfl⟩ | ⟨rfl, rfl⟩ | ⟨rfl, rfl⟩ | ⟨rfl, rfl⟩
  · simp only [keyword?, keywords, found]
  · simp only [keyword?, keywords, other "null" (by decide) (by decide), found]
  · simp only [keyword?, keywords, other "null" (by decide) (by decide),
      other "true" (by decide) (by decide), found]
  · simp only [keyword?, keywords, other "null" (by decide) (by decide),
      other "true" (by decide) (by decide), other "false" (by decide) (by decide), found]
  · simp only [keyword?, keywords, other "null" (by decide) (by decide),
      other "true" (by decide) (by decide), other "false" (by decide) (by decide),
      other "NaN" (by decide) (by decide), found]
  · exact absurd letters (by decide)

theorem literal?_null {c : Cursor} {rest : List Char} (text : c.ahead = null.toChars ++ rest)
    (before : Before endings rest) :
    ∃ next, literal? c = .ok (some (null, next)) ∧ next.rest = rest :=
  literal?_word (by simp [keywords]) (by decide) text before

theorem literal?_bool (b : Bool) {c : Cursor} {rest : List Char}
    (text : c.ahead = (bool b).toChars ++ rest) (before : Before endings rest) :
    ∃ next, literal? c = .ok (some (bool b, next)) ∧ next.rest = rest := by
  cases b with
  | true =>
    have member : ("true", bool true) ∈ keywords := by simp [keywords]
    exact literal?_word member (by decide) text before
  | false =>
    have member : ("false", bool false) ∈ keywords := by simp [keywords]
    exact literal?_word member (by decide) text before

/-! ## All literals -/

theorem takes_reread {v : Value} (readable : v.isReadable = true) {rest : List Char}
    (before : Before endings rest) :
    v = null ∨ (∃ b, v = bool b) ∨ Takes v.toChars rest v.reread := by
  cases v with
  | null => exact Or.inl rfl
  | bool b => exact Or.inr (Or.inl ⟨b, rfl⟩)
  | int n => exact Or.inr (Or.inr (takes_int n before))
  | decimal d =>
    have small : d.scale < 2 ^ 63 := by simpa [isReadable] using readable
    exact Or.inr (Or.inr (takes_decimal small before))
  | double x => contradiction
  | string s => exact Or.inr (Or.inr (takes_string s before))
  | guid g => exact Or.inr (Or.inr (takes_guid g before))
  | date d => exact Or.inr (Or.inr (takes_date (of_decide_eq_true readable) before))
  | dateTimeOffset i => contradiction
  | timeOfDay t => exact Or.inr (Or.inr (takes_timeOfDay t before))
  | binary bytes => exact Or.inr (Or.inr (takes_binary bytes rest))

theorem literal?_toChars {v : Value} (readable : v.isReadable = true) {c : Cursor}
    {rest : List Char} (text : c.ahead = v.toChars ++ rest) (before : Before endings rest) :
    ∃ next, literal? c = .ok (some (v.reread, next)) ∧ next.rest = rest := by
  rcases takes_reread readable before with rfl | ⟨b, rfl⟩ | takes
  · exact literal?_null text before
  · exact literal?_bool b text before
  · exact literal?_of_takes text takes

/-! ## First characters -/

/-- What is known of the first character of a literal and of the text after it. -/
structure Leads (v : Value) (ch : Char) (tail : List Char) : Prop where
  visible : Text.isBlank ch = false
  noBracket : ch ≠ '(' ∧ ch ≠ ')'
  null_of_n : ch = 'n' → v = null
  digit_of_minus : ch = '-' → ∃ d more, tail = d :: more ∧ d.isDigit = true

theorem leads_of_char (v : Value) {ch : Char} (tail : List Char)
    (plain : Text.isBlank ch = false ∧ (ch ≠ '(' ∧ ch ≠ ')') ∧ ch ≠ 'n' ∧ ch ≠ '-') :
    Leads v ch tail := by
  obtain ⟨visible, brackets, letter, minus⟩ := plain
  exact ⟨visible, brackets, fun n => absurd n letter, fun sign => absurd sign minus⟩

theorem leads_of_hex (v : Value) {run : List Char} (rest : List Char) (nonempty : run ≠ [])
    (digits : run.all Text.Hex.isDigit = true) :
    ∃ ch tail, run ++ rest = ch :: tail ∧ Leads v ch tail := by
  cases run with
  | nil => contradiction
  | cons ch run =>
    have digit : Text.Hex.isDigit ch = true := List.all_eq_true.mp digits ch List.mem_cons_self
    have facts := Text.of_hex (p := fun c => Text.isBlank c = false ∧ (c ≠ '(' ∧ c ≠ ')') ∧
      c ≠ 'n' ∧ c ≠ '-') (by decide +kernel) digit
    exact ⟨ch, run ++ rest, rfl, leads_of_char v _ facts⟩

theorem all_hex_of_isDigit {cs : List Char} (digits : cs.all Char.isDigit = true) :
    cs.all Text.Hex.isDigit = true := by
  apply Text.all_mono _ digits
  intro c digit
  exact Text.of_isDigit (p := fun c => Text.Hex.isDigit c = true) (by decide +kernel) digit

theorem leads_of_number (v : Value) (n : Int) {lead : List Char} (rest : List Char)
    (nonempty : lead ≠ []) (digits : lead.all Char.isDigit = true) :
    ∃ ch tail, Decimal.signChars n ++ (lead ++ rest) = ch :: tail ∧ Leads v ch tail := by
  by_cases negative : n < 0
  · rw [Decimal.signChars, if_pos negative]
    cases lead with
    | nil => contradiction
    | cons d lead =>
      have digit : d.isDigit = true := List.all_eq_true.mp digits d List.mem_cons_self
      exact ⟨'-', d :: lead ++ rest, rfl, by decide, by decide, fun n => absurd n (by decide),
        fun _ => ⟨d, lead ++ rest, rfl, digit⟩⟩
  · rw [Decimal.signChars, if_neg negative, List.nil_append]
    exact leads_of_hex v rest nonempty (all_hex_of_isDigit digits)

theorem exists_leads_decimal (d : Decimal) :
    ∃ ch tail, (decimal d).toChars = ch :: tail ∧ Leads (decimal d) ch tail := by
  obtain ⟨lead, trail, zeros, pointed⟩ := Decimal.exists_pointed d
  have token : (decimal d).toChars = d.pointedChars := rfl
  have digits := pointed.digits
  rw [List.all_append, Bool.and_eq_true] at digits
  rw [token, pointed.text]
  exact leads_of_number _ _ _ pointed.lead_ne_nil digits.1

theorem exists_leads {v : Value} (readable : v.isReadable = true) :
    ∃ ch tail, v.toChars = ch :: tail ∧ Leads v ch tail := by
  cases v with
  | null =>
    exact ⟨'n', _, rfl, by decide, by decide, fun _ => rfl, fun sign => absurd sign (by decide)⟩
  | bool b =>
    cases b with
    | true => exact ⟨'t', _, rfl, leads_of_char _ _ (by decide)⟩
    | false => exact ⟨'f', _, rfl, leads_of_char _ _ (by decide)⟩
  | int n =>
    have token : (int n).toChars = (Decimal.ofInt n.toInt).plainChars := rfl
    rw [token, Decimal.plainChars_ofInt, ← List.append_nil (Nat.toDigits 10 n.toInt.natAbs)]
    exact leads_of_number _ _ [] Nat.toDigits_ne_nil (Decimal.all_isDigit_toDigits _)
  | decimal d => exact exists_leads_decimal d
  | double x => contradiction
  | string s => exact ⟨'\'', _, rfl, leads_of_char _ _ (by decide)⟩
  | guid g =>
    have hex := Guid.all_isDigit_lowerDigits g.bits.toNat 32
    obtain ⟨a, b, c, d, e, lengths, digits, text⟩ := Guid.exists_groups g
    have token : (guid g).toChars = g.toChars := rfl
    have nonempty : a ≠ [] := by
      rintro rfl
      exact absurd lengths.1 (by decide)
    rw [digits, List.all_append, Bool.and_eq_true] at hex
    rw [token, text]
    exact leads_of_hex _ _ nonempty hex.1
  | date d =>
    have token : (date d).toChars = d.toChars := rfl
    rw [token, Date.toChars_of_year (of_decide_eq_true readable)]
    exact leads_of_hex _ _ (Date.padded_ne_nil _ _)
      (all_hex_of_isDigit (Date.all_isDigit_padded _ _))
  | dateTimeOffset i => contradiction
  | timeOfDay t =>
    have token : (timeOfDay t).toChars = t.toChars := rfl
    rw [token, TimeOfDay.toChars, TimeOfDay.clockChars, List.append_assoc]
    exact leads_of_hex _ _ (Date.padded_ne_nil _ _)
      (all_hex_of_isDigit (Date.all_isDigit_padded _ _))
  | binary bytes => exact ⟨'b', _, rfl, leads_of_char _ _ (by decide)⟩

end OData.Value
