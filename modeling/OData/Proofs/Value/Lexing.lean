import OData.Proofs.Number.Rounding
import OData.Proofs.Value.Distinct
import OData.Value.Json

/-!
# Canonical literals are read back

The text of every value that is read at all, but NaN, is one literal of an equal value, unless it
begins with the sign of a year: no literal of a date or of an instant has one.  `lexesBack_iff` says
both.
-/

set_option autoImplicit false

namespace OData.Value

open Text (Shape Cursor Before)
open Text.Shape

/-! ## Floating-point numbers -/

/-- A point and digits, or nothing. -/
inductive IsFraction : List Char → Prop
  | absent : IsFraction []
  | digits {cs : List Char} (nonempty : cs ≠ []) (members : cs.all Char.isDigit = true) :
    IsFraction ('.' :: cs)

theorem exists_fraction (x : Double) : ∃ d places,
    Double.mantissaChars x.shortest.digits = d :: places ∧ d.isDigit = true ∧
      IsFraction places := by
  have members := Double.all_isDigit_shortest x
  match digits : x.shortest.digits with
  | [] => exact absurd digits (Double.digits_shortest_ne_nil x)
  | [d] =>
    rw [digits, List.all_cons, Bool.and_eq_true] at members
    exact ⟨d, [], rfl, members.1, .absent⟩
  | d :: e :: rest =>
    rw [digits, List.all_cons, Bool.and_eq_true] at members
    exact ⟨d, '.' :: e :: rest, rfl, members.1, .digits (by simp) members.2⟩

section Exponents

variable {d : Char} {places rest : List Char} (e : Int)

theorem IsFraction.fits (fraction : IsFraction places) (rest : List Char) :
    fractionShape (places ++ 'e' :: rest) = some places.length := by
  cases fraction with
  | absent => exact fractionShape_nil (Before.singleton 'e' rest) (by decide)
  | digits nonempty members =>
    exact fractionShape_point (Before.singleton 'e' rest) nonempty members (by decide)

theorem IsFraction.before (fraction : IsFraction places) (rest : List Char) :
    Before ['.', 'e'] (places ++ 'e' :: rest) := by
  cases fraction with
  | absent => exact Before.cons (by decide) rest
  | digits nonempty members => exact Before.cons (by decide) _

theorem exponentShape_toString (ends : Before endings rest) :
    exponentShape ('e' :: (toString e).toList ++ rest) =
      some ('e' :: (toString e).toList).length := by
  have digits := Decimal.all_isDigit_toDigits e.natAbs
  have run : seq [manyDigitsShape] (Nat.toDigits 10 e.natAbs ++ rest) =
      some (Nat.toDigits 10 e.natAbs).length := by
    rw [seq_singleton]
    exact some'_run (all_isDecimalDigit digits) Nat.toDigits_ne_nil ends (by decide)
  have sign : Shape.optional (oneOf ['+', '-'])
      (Decimal.signChars e ++ (Nat.toDigits 10 e.natAbs ++ rest)) =
        some (Decimal.signChars e).length := by
    by_cases negative : e < 0
    · rw [Decimal.signChars, if_pos negative]
      exact optional_append rfl
    · obtain ⟨c, cs, text, digit⟩ := Decimal.exists_toDigits_eq_cons e.natAbs
      have plus : c ≠ '+' := Decimal.ne_of_isDigit digit rfl
      have minus : c ≠ '-' := Decimal.ne_of_isDigit digit rfl
      rw [Decimal.signChars, if_neg negative, text]
      apply optional_none
      simp [oneOf, plus, minus]
  have first : oneOf ['e', 'E']
      (['e'] ++ (Decimal.signChars e ++ (Nat.toDigits 10 e.natAbs ++ rest))) =
        some ['e'].length := rfl
  have text : 'e' :: (toString e).toList ++ rest =
      ['e'] ++ (Decimal.signChars e ++ (Nat.toDigits 10 e.natAbs ++ rest)) := by
    rw [Decimal.toList_toString]
    simp
  have length : ('e' :: (toString e).toList).length =
      ['e'].length + ((Decimal.signChars e).length + (Nat.toDigits 10 e.natAbs).length) := by
    simp only [Decimal.toList_toString, List.length_cons, List.length_append, List.length_nil]
    omega
  apply optional_append
  rw [text, length]
  exact seq_append first (seq_append sign run)

/-- The text of a number with an exponent. -/
def exponentText (negative : Bool) (d : Char) (places : List Char) : List Char :=
  Decimal.minusChars negative ++ (d :: (places ++ 'e' :: (toString e).toList))

theorem exponentText_append (negative : Bool) : exponentText e negative d places ++ rest =
    Decimal.minusChars negative ++
      ([d] ++ (places ++ ('e' :: (toString e).toList ++ rest))) := by
  simp [exponentText]

theorem numberShape_exponent (negative : Bool) (digit : d.isDigit = true)
    (fraction : IsFraction places) (ends : Before endings rest) :
    numberShape (exponentText e negative d places ++ rest) =
      some (exponentText e negative d places).length := by
  have exponent : seq [exponentShape] ('e' :: (toString e).toList ++ rest) =
      some ('e' :: (toString e).toList).length := by
    rw [seq_singleton, exponentShape_toString e ends]
  have first : manyDigitsShape ([d] ++ (places ++ ('e' :: (toString e).toList ++ rest))) =
      some [d].length :=
    some'_run (by simp [Text.isDecimalDigit_of_isDigit digit]) (by simp)
      (fraction.before ((toString e).toList ++ rest)) (by decide)
  have sign : Shape.optional (char '-') (Decimal.minusChars negative ++
      ([d] ++ (places ++ ('e' :: (toString e).toList ++ rest)))) =
        some (Decimal.minusChars negative).length := by
    cases negative with
    | true => exact optional_append (char_cons '-' _)
    | false =>
      apply optional_none
      apply char_eq_none
      show some d ≠ some '-'
      rw [Ne, Option.some.injEq]
      exact Decimal.ne_of_isDigit digit rfl
  have pieces := seq_append sign (seq_append first (seq_append
    (fraction.fits ((toString e).toList ++ rest)) exponent))
  rw [exponentText_append, numberShape, pieces, exponentText]
  simp only [List.length_append, List.length_cons, List.length_nil, Option.some.injEq]
  omega

/-- No identifier has an exponent. -/
theorem guidShape_exponent (digit : d.isDigit = true) (fraction : IsFraction places)
    (ends : Before endings rest) :
    guidShape (d :: (places ++ 'e' :: ((toString e).toList ++ rest))) = none := by
  have single : [d].all Text.isNameChar = true := by simp [isNameChar_of_isDigit digit]
  cases fraction with
  | digits nonempty members =>
    exact guidShape_word single (Before.singleton '.' _) (by decide) (by decide)
  | absent =>
    rw [Decimal.toList_toString, Decimal.signChars]
    by_cases negative : e < 0
    · rw [if_pos negative]
      have short : [d, 'e'].length < 8 := by simp
      exact guidShape_short short (Before.singleton '-' _) (by decide)
    · have word : (d :: 'e' :: Nat.toDigits 10 e.natAbs).all Text.isNameChar = true := by
        have digits := all_isNameChar_of_isDigit (Decimal.all_isDigit_toDigits e.natAbs)
        have letter : Text.isNameChar 'e' = true := by decide
        simp [isNameChar_of_isDigit digit, letter, digits]
      rw [if_neg negative, List.nil_append]
      exact guidShape_word word ends (by decide) (by decide)

/-- No form before the last fits a number with an exponent. -/
theorem form?_exponent (negative : Bool) (digit : d.isDigit = true) (fraction : IsFraction places)
    (ends : Before endings rest) :
    form? (exponentText e negative d places ++ rest) forms =
      some (numberForm, (exponentText e negative d places).length) := by
  have fits := numberShape_exponent e negative digit fraction ends
  cases negative with
  | true =>
    have text : exponentText e true d places ++ rest =
        '-' :: (d :: (places ++ 'e' :: ((toString e).toList ++ rest))) := by
      simp [exponentText, Decimal.minusChars]
    rw [text] at fits ⊢
    rw [form?_sign (by decide), fits]
    rfl
  | false =>
    have text : exponentText e false d places ++ rest =
        [d] ++ (places ++ 'e' :: ((toString e).toList ++ rest)) := by
      simp [exponentText, Decimal.minusChars]
    have before := fraction.before ((toString e).toList ++ rest)
    have guid : guidShape ([d] ++ (places ++ 'e' :: ((toString e).toList ++ rest))) = none :=
      guidShape_exponent e digit fraction ends
    rw [text] at fits ⊢
    generalize places ++ 'e' :: ((toString e).toList ++ rest) = more at *
    have word : [d].all Text.isNameChar = true := by simp [isNameChar_of_isDigit digit]
    have string := stringShape_word word before (by decide)
    have binary : binaryShape ([d] ++ more) = none := by
      have other : 'b' ≠ d := (Decimal.ne_of_isDigit digit rfl).symm
      exact seq_eq_none (if_neg (by simp [other]))
    have calendar : calendarShape ([d] ++ more) = none :=
      calendarShape_short (by simp) before (by decide)
    have clock : clockShape ([d] ++ more) = none :=
      seq_eq_none (exactly_eq_none (by simp) before (by decide))
    simp only [form?, forms, string, binary, guid, dateTimeShape_eq_none calendar,
      dateShape_eq_none calendar, timeShape_eq_none clock, fits]
    rfl

end Exponents

theorem takes_double {x : Double} (finite : x.isFinite = true) {rest : List Char}
    (before : Before endings rest) : Takes (double x).toChars rest (double x) := by
  obtain ⟨d, places, mantissa, digit, fraction⟩ := exists_fraction x
  have text : (double x).toChars = x.scientific.toList := if_pos finite
  have token : (double x).toChars =
      exponentText x.shortest.exponent x.isNegative d places := by
    rw [text, Double.toList_scientific, mantissa]
    rfl
  have letter : (double x).toChars.any (fun c => c == 'e' || c == 'E') = true := by
    rw [List.any_eq_true]
    exact ⟨'e', by simp [token, exponentText], rfl⟩
  refine ⟨numberForm, ?_, ?_⟩
  · rw [token]
    exact form?_exponent _ _ digit fraction before
  · show readNumber (double x).toChars = _
    rw [readNumber, if_pos letter, text, String.ofList_toList, Double.ofText?_scientific finite]
    rfl

/-! ## All values -/

/-- Whether the year of a date or of an instant is written without a sign. -/
def hasUnsignedYear : Value → Bool
  | date d => decide d.FourDigits
  | dateTimeOffset i => decide i.date.FourDigits
  | _ => true

theorem literal?_infinite {x : Double} (infinite : x.isFinite = false) (number : x.isNaN = false)
    {c : Cursor} {rest : List Char} (text : c.ahead = (double x).toChars ++ rest)
    (before : Before endings rest) :
    ∃ next, literal? c = .ok (some (double x, next)) ∧ next.rest = rest := by
  have size : x.size = Double.infinitySize := by
    rw [Double.isFinite, decide_eq_false_iff_not] at infinite
    rw [Double.isNaN, decide_eq_false_iff_not] at number
    omega
  have value := Double.ofSize_size x
  have token : (double x).toChars = (if x.isNegative then "-INF" else "INF").toList := by
    have keyword : (double x).toChars = (doubleKeyword x).toList :=
      if_neg (Bool.eq_false_iff.mp infinite)
    rw [keyword, doubleKeyword, if_neg (Bool.eq_false_iff.mp number)]
  rw [token] at text
  rw [size] at value
  cases sign : x.isNegative with
  | false =>
    rw [sign] at text value
    simp only [Bool.false_eq_true, if_false] at text
    have member : ("INF", double x) ∈ keywords := by
      rw [← value]
      exact .tail _ (.tail _ (.tail _ (.tail _ (.head _))))
    exact literal?_word member (by decide) text before
  | true =>
    rw [sign] at text value
    simp only [if_true] at text
    have skipped := Cursor.ahead_skipBlanks c
    rw [text] at skipped
    obtain ⟨next, found, left⟩ := Cursor.keyword?_eq_some skipped before (by decide)
    refine ⟨next, ?_, left⟩
    rw [← value, literal?_minus (by decide : Text.isDecimalDigit 'I' = false) text, found]
    rfl

/-- Every value in bounds whose text has no sign of a year is read from the text. -/
theorem exists_literal? {v : Value} (sound : v.isSound = true) (number : v.isNaN = false)
    (unsigned : v.hasUnsignedYear = true) {c : Cursor} {rest : List Char}
    (text : c.ahead = v.toChars ++ rest) (before : Before endings rest) :
    ∃ next, literal? c = .ok (some (v.reread, next)) ∧ next.rest = rest := by
  cases v with
  | double x =>
    cases finite : x.isFinite with
    | true => exact literal?_of_takes text (takes_double finite before)
    | false => exact literal?_infinite finite number text before
  | date d => exact literal?_of_takes text (takes_date (of_decide_eq_true unsigned) before)
  | dateTimeOffset i =>
    exact literal?_of_takes text (takes_dateTime (of_decide_eq_true unsigned) rest)
  | decimal d => exact literal?_toChars (v := decimal d) sound text before
  | null | bool | int | string | guid | timeOfDay | binary => exact literal?_toChars rfl text before

theorem same_reread_of_number {v : Value} (number : v.isNaN = false) : v.same v.reread = true := by
  cases v with
  | decimal d => exact Decimal.same_withPoint d
  | double x =>
    have equal := Double.compare_self number
    simp [same, reread, Double.same, equal]
  | _ => simp [same, reread]

/-! ## Signs of years -/

/-- No form that reads dates or instants fits a sign. -/
theorem not_date_of_sign {c next : Cursor} {sign : Char} {cs : List Char} {v : Value}
    (member : sign ∈ ['-', '+']) (text : c.ahead = sign :: cs)
    (read : literal? c = .ok (some (v, next))) :
    v.type? ≠ some .date ∧ v.type? ≠ some .dateTimeOffset := by
  rw [literal?] at read
  simp only [Cursor.rest_skipBlanks, text, form?_sign member] at read
  cases shape : numberShape (sign :: cs) with
  | none =>
    rw [shape] at read
    obtain ⟨word, found⟩ := mem_of_keyword? (Except.ok.inj read)
    have all : ∀ w ∈ keywords, w.2.type? ≠ some .date ∧ w.2.type? ≠ some .dateTimeOffset := by
      decide
    exact all (word, v) found
  | some n =>
    rw [shape] at read
    simp only [Option.map_some, numberForm] at read
    split at read
    next value number =>
      cases read
      rw [readNumber] at number
      split at number
      · obtain ⟨x, _, rfl⟩ := Option.map_eq_some_iff.mp number
        simp [type?]
      · obtain ⟨d, _, kind⟩ := Option.bind_eq_some_iff.mp number
        split at kind
        · cases kind
          simp [type?]
        · split at kind
          · cases kind
            simp [type?]
          · cases kind
            simp [type?]
    next => contradiction

theorem exists_yearChars (year : Int) : ∃ ch tail, Date.yearChars year = ch :: tail ∧
    Text.isBlank ch = false ∧ ((0 ≤ year ∧ year ≤ 9999) ∨ ch ∈ ['-', '+']) := by
  rw [Date.yearChars]
  by_cases plain : 0 ≤ year ∧ year ≤ 9999
  · rw [if_pos plain]
    cases chars : Date.padded 4 year.toNat with
    | nil => exact absurd chars (Date.padded_ne_nil _ _)
    | cons ch tail =>
      have digit : ch.isDigit = true :=
        Date.isDigit_of_mem_padded (by rw [chars]; exact List.mem_cons_self)
      exact ⟨ch, tail, rfl, Text.isBlank_of_isDigit digit, .inl plain⟩
  · rw [if_neg plain]
    refine ⟨_, _, rfl, ?_⟩
    split
    · exact ⟨by decide, .inr (by decide)⟩
    · exact ⟨by decide, .inr (by decide)⟩

theorem exists_visible_double (x : Double) :
    ∃ ch tail, (double x).toChars = ch :: tail ∧ Text.isBlank ch = false := by
  by_cases finite : x.isFinite = true
  · obtain ⟨d, places, mantissa, digit, _⟩ := exists_fraction x
    have text : (double x).toChars = x.scientific.toList := if_pos finite
    rw [text, Double.toList_scientific, mantissa]
    cases x.isNegative with
    | true => exact ⟨'-', _, rfl, by decide⟩
    | false => exact ⟨d, _, rfl, Text.isBlank_of_isDigit digit⟩
  · have text : (double x).toChars = (doubleKeyword x).toList := if_neg finite
    rw [text, doubleKeyword]
    split
    · exact ⟨'N', _, rfl, by decide⟩
    · split
      · exact ⟨'-', _, rfl, by decide⟩
      · exact ⟨'I', _, rfl, by decide⟩

/-- A literal begins with a sign or with something else that is visible. -/
theorem exists_visible {v : Value} (sound : v.isSound = true) :
    ∃ ch tail, v.toChars = ch :: tail ∧ Text.isBlank ch = false ∧
      (v.hasUnsignedYear = true ∨ ch ∈ ['-', '+']) := by
  have readable : v.isReadable = true → ∃ ch tail, v.toChars = ch :: tail ∧
      Text.isBlank ch = false ∧ (v.hasUnsignedYear = true ∨ ch ∈ ['-', '+']) := by
    intro readable
    obtain ⟨ch, tail, text, leads⟩ := exists_leads readable
    refine ⟨ch, tail, text, leads.visible, .inl ?_⟩
    cases v with
    | date d =>
      exact readable
    | dateTimeOffset i => contradiction
    | _ => rfl
  cases v with
  | date d =>
    obtain ⟨ch, tail, chars, visible, sign⟩ := exists_yearChars d.year
    have token : (date d).toChars = Date.yearChars d.year ++
      '-' :: (Date.padded 2 d.month ++ '-' :: Date.padded 2 d.day) := rfl
    rw [token, chars]
    exact ⟨ch, _, rfl, visible, sign.imp_left decide_eq_true⟩
  | dateTimeOffset i =>
    obtain ⟨ch, tail, chars, visible, sign⟩ := exists_yearChars i.date.year
    have token : (dateTimeOffset i).toChars = (Date.yearChars i.date.year ++
      '-' :: (Date.padded 2 i.date.month ++ '-' :: Date.padded 2 i.date.day)) ++
        'T' :: (i.time.toChars ++ ['Z']) := rfl
    rw [token, chars]
    exact ⟨ch, _, rfl, visible, sign.imp_left decide_eq_true⟩
  | double x =>
    obtain ⟨ch, tail, text, visible⟩ := exists_visible_double x
    exact ⟨ch, tail, text, visible, .inl rfl⟩
  | decimal d => exact readable sound
  | null | bool | int | string | guid | timeOfDay | binary => exact readable rfl

/-! ## Where values come from -/

/-- Whether a value is read from a member of a document or from a literal. -/
inductive IsRead : Value → Prop
  | json {ty : PrimitiveType} {json : Json} {v : Value} (read : ofJson ty json = .ok v) : IsRead v
  | literal {c next : Cursor} {v : Value} (read : literal? c = .ok (some (v, next))) : IsRead v

theorem isSound_decimalOfJson? {json : Json} {d : Decimal} (read : decimalOfJson? json = some d) :
    (decimal d).isSound = true := by
  apply decide_eq_true
  cases json with
  | int n =>
    cases read
    exact (by decide : (0 : Int) < 2 ^ 63)
  | float x => exact Decimal.scale_lt_of_ofText? read
  | str s => exact Decimal.scale_lt_of_ofText? read
  | null | bool | array | object => contradiction

theorem isSound_of_ofJson? {ty : PrimitiveType} {json : Json} {v : Value}
    (read : ofJson? ty json = some v) : v.isSound = true := by
  cases ty with
  | decimal =>
    obtain ⟨d, number, rfl⟩ := Option.map_eq_some_iff.mp read
    exact isSound_decimalOfJson? number
  | int32 =>
    obtain ⟨n, _, small⟩ := Option.bind_eq_some_iff.mp read
    split at small
    · cases small
      rfl
    · contradiction
  | guid | date | dateTimeOffset | timeOfDay | binary =>
    obtain ⟨s, _, read⟩ := Option.bind_eq_some_iff.mp read
    obtain ⟨_, _, same⟩ := Option.bind_eq_some_iff.mp read
    cases same
    rfl
  | boolean | int64 | double | string =>
    obtain ⟨_, _, rfl⟩ := Option.map_eq_some_iff.mp read
    rfl

theorem isSound_of_ofJson {ty : PrimitiveType} {json : Json} {v : Value}
    (read : ofJson ty json = .ok v) : v.isSound = true := by
  rw [ofJson] at read
  split at read
  · cases read
    rfl
  · split at read
    next found =>
      cases read
      exact isSound_of_ofJson? found
    next => contradiction

theorem IsRead.isSound {v : Value} (read : v.IsRead) : v.isSound = true := by
  cases read with
  | json read => exact isSound_of_ofJson read
  | literal read => exact (isLexed_of_literal? read).sound

/-! ## Reading back -/

/-- Whether the text of a value is one literal, of an equal value. -/
def LexesBack (v : Value) : Prop :=
  ∃ w next, literal? (Cursor.ofText v.toText) = .ok (some (w, next)) ∧ next.rest = [] ∧
    v.same w = true

theorem type?_eq_of_same {v w : Value} (equal : v.same w = true) : w.type? = v.type? := by
  rw [same.eq_def] at equal
  split at equal
  · rfl
  · rfl
  · rw [of_decide_eq_true equal]

theorem not_lexesBack {v : Value} (sound : v.isSound = true) (signed : v.hasUnsignedYear = false) :
    ¬ v.LexesBack := by
  rintro ⟨w, next, read, _, same⟩
  obtain ⟨ch, tail, text, visible, sign⟩ := exists_visible sound
  have member : ch ∈ ['-', '+'] := by
    rcases sign with unsigned | sign
    · rw [signed] at unsigned
      contradiction
    · exact sign
  have rest : (Cursor.ofText v.toText).rest = ch :: tail := by
    rw [← text]
    exact String.toList_ofList
  obtain ⟨noDate, noInstant⟩ :=
    not_date_of_sign member (Cursor.ahead_of_char rest visible) read
  have types := type?_eq_of_same same
  cases v with
  | date d => exact noDate types
  | dateTimeOffset i => exact noInstant types
  | _ => cases signed

theorem lexesBack_of_isSound {v : Value} (sound : v.isSound = true) (number : v.isNaN = false)
    (unsigned : v.hasUnsignedYear = true) : v.LexesBack := by
  obtain ⟨ch, tail, text, visible, _⟩ := exists_visible sound
  have rest : (Cursor.ofText v.toText).rest = ch :: tail := by
    rw [← text]
    exact String.toList_ofList
  have ahead : (Cursor.ofText v.toText).ahead = v.toChars ++ [] := by
    rw [Cursor.ahead_of_char rest visible, text, List.append_nil]
  obtain ⟨next, read, left⟩ := exists_literal? sound number unsigned ahead (Before.nil endings)
  exact ⟨v.reread, next, read, left, same_reread_of_number number⟩

/-- The scale of a decimal whose text is read has 64 bits. -/
theorem scale_lt_of_lexesBack {d : Decimal} (back : (decimal d).LexesBack) : d.scale < 2 ^ 63 := by
  obtain ⟨w, next, read, _⟩ := back
  obtain ⟨ch, tail, text, leads⟩ := exists_leads_decimal d
  have rest : (Cursor.ofText (decimal d).toText).rest = ch :: tail := by
    rw [← text]
    exact String.toList_ofList
  have ahead : (Cursor.ofText (decimal d).toText).ahead = (decimal d).toChars ++ [] := by
    rw [Cursor.ahead_of_char rest leads.visible, text, List.append_nil]
  have number := readNumber_decimal d
  rw [literal?] at read
  simp only [Cursor.rest_skipBlanks, ahead, form?_decimal d (Before.nil endings), List.take_left]
    at read
  by_contra large
  rw [if_neg large] at number
  simp only [numberForm, number] at read
  contradiction

/-- What is read back has its parts in bounds. -/
theorem isSound_of_lexesBack {v : Value} (back : v.LexesBack) : v.isSound = true := by
  have lexed : (∀ w, v.same w = true → w = v) → v.isSound = true := by
    intro equal
    obtain ⟨w, next, read, _, same⟩ := back
    rw [← equal w same]
    exact (isLexed_of_literal? read).sound
  cases v with
  | decimal d => exact decide_eq_true (scale_lt_of_lexesBack back)
  | double x => rfl
  | null | bool | int | string | guid | date | dateTimeOffset | timeOfDay | binary =>
    exact lexed fun w same => (of_decide_eq_true same).symm

/-- Canonical literals are read back but for the sign of a year. -/
theorem lexesBack_iff {v : Value} (read : v.IsRead) (number : v.isNaN = false) :
    v.LexesBack ↔ v.hasUnsignedYear = true := by
  constructor
  · intro back
    by_contra signed
    exact not_lexesBack read.isSound (Bool.eq_false_iff.mpr signed) back
  · exact lexesBack_of_isSound read.isSound number

/-- An hour after the end of the year 9999. -/
def newYear : Instant := ⟨⟨10000, 1, 1, by decide⟩, ⟨3599, 0, by decide⟩⟩

/-- A clock that is behind shows the last second of a year of four digits, but the text of the
instant has a year of five. -/
theorem not_lexesBack_newYear :
    (∃ next, literal? (Cursor.ofText "9999-12-31T23:59:59-01:00") =
      .ok (some (dateTimeOffset newYear, next))) ∧ ¬ (dateTimeOffset newYear).LexesBack := by
  have read : literal? (Cursor.ofText "9999-12-31T23:59:59-01:00") =
      .ok (some (dateTimeOffset newYear, ⟨[], 25⟩)) := by rfl
  refine ⟨⟨_, read⟩, ?_⟩
  rw [lexesBack_iff (.literal read) rfl]
  decide

end OData.Value
