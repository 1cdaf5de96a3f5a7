import OData.Proofs.Calendar.Reader
import OData.Proofs.Guid
import OData.Proofs.Number.Decimal
import OData.Proofs.Text.Base64Url
import OData.Value.Reader

/-!
# Literals: reading what was written

`Takes text rest v` says that the first form that fits `text` before `rest` takes the whole text
and reads it as `v`.  A literal that is no string begins with a word of ASCII, and what follows the
word tells the forms apart.
-/

set_option autoImplicit false

namespace OData.Value

open Text (Shape Cursor Before)
open Text.Shape

/-- What follows a literal in the text of an expression. -/
def endings : List Char := [' ', ')', ',', ';']

def Takes (text rest : List Char) (v : Value) : Prop :=
  ∃ form, form? (text ++ rest) forms = some (form, text.length) ∧ form.read text = some v

theorem literal?_of_takes {c : Cursor} {text rest : List Char} {v : Value}
    (ahead : c.ahead = text ++ rest) (takes : Takes text rest v) :
    ∃ next, literal? c = .ok (some (v, next)) ∧ next.rest = rest := by
  obtain ⟨form, fits, read⟩ := takes
  refine ⟨c.skipBlanks.advance text.length, ?_, ?_⟩
  · rw [literal?]
    simp only [Cursor.rest_skipBlanks, ahead, fits, List.take_left, read]
  · rw [Cursor.rest_advance, Cursor.rest_skipBlanks, ahead, List.drop_left]

/-! ## Words

A word is a run of letters, digits and underscores; `stops` are what may come after it. -/

section Words

variable {run rest stops : List Char}

theorem stringShape_eq_none {cs : List Char} (head : cs.head? ≠ some '\'') :
    stringShape cs = none :=
  seq_eq_none (char_eq_none head)

theorem not_mem_word {c : Char} (word : run.all Text.isNameChar = true)
    (other : Text.isNameChar c = false) : c ∉ run := by
  intro member
  rw [List.all_eq_true.mp word c member] at other
  contradiction

theorem head?_word_ne {c : Char} (word : run.all Text.isNameChar = true)
    (before : Before stops rest) (other : Text.isNameChar c = false) (apart : c ∉ stops) :
    (run ++ rest).head? ≠ some c := by
  intro head
  cases run with
  | nil => exact apart (before c head)
  | cons d more =>
    rw [List.cons_append, List.head?_cons, Option.some.injEq] at head
    exact not_mem_word word other (by simp [head])

theorem stringShape_word (word : run.all Text.isNameChar = true) (before : Before stops rest)
    (apart : '\'' ∉ stops) : stringShape (run ++ rest) = none :=
  stringShape_eq_none (head?_word_ne word before (by decide) apart)

theorem binaryShape_word (word : run.all Text.isNameChar = true) (before : Before stops rest)
    (outside : ∀ c ∈ stops, Text.isNameChar c = false) (apart : '\'' ∉ stops) :
    binaryShape (run ++ rest) = none := by
  refine seq_eq_none (if_neg fun starts => ?_)
  obtain ⟨tail, text⟩ := List.isPrefixOf_iff_prefix.mp starts
  have past := congrArg (List.dropWhile Text.isNameChar) text
  rw [Text.dropWhile_run word before outside] at past
  have quote : rest.head? = some '\'' := by rw [← past]; rfl
  exact apart (before '\'' quote)

theorem guidShape_word (word : run.all Text.isNameChar = true) (before : Before stops rest)
    (outside : ∀ c ∈ stops, Text.Hex.isDigit c = false) (apart : '-' ∉ stops) :
    guidShape (run ++ rest) = none :=
  wholeWord_eq_none
    (seq_exactly_char_eq_none (not_mem_word word (by decide)) before outside apart)

theorem calendarShape_word (word : run.all Text.isNameChar = true) (before : Before stops rest)
    (outside : ∀ c ∈ stops, Text.isDecimalDigit c = false) (apart : '-' ∉ stops) :
    calendarShape (run ++ rest) = none :=
  seq_exactly_char_eq_none (not_mem_word word (by decide)) before outside apart

theorem clockShape_word (word : run.all Text.isNameChar = true) (before : Before stops rest)
    (outside : ∀ c ∈ stops, Text.isDecimalDigit c = false) (apart : ':' ∉ stops) :
    clockShape (run ++ rest) = none :=
  seq_exactly_char_eq_none (not_mem_word word (by decide)) before outside apart

theorem guidShape_short (short : run.length < 8) (before : Before stops rest)
    (outside : ∀ c ∈ stops, Text.Hex.isDigit c = false) : guidShape (run ++ rest) = none :=
  wholeWord_eq_none (seq_eq_none (exactly_eq_none short before outside))

theorem calendarShape_short (short : run.length < 4) (before : Before stops rest)
    (outside : ∀ c ∈ stops, Text.isDecimalDigit c = false) : calendarShape (run ++ rest) = none :=
  seq_eq_none (exactly_eq_none short before outside)

end Words

theorem dateTimeShape_eq_none {cs : List Char} (unfit : calendarShape cs = none) :
    dateTimeShape cs = none := seq_eq_none unfit

theorem dateShape_eq_none {cs : List Char} (unfit : calendarShape cs = none) :
    dateShape cs = none := wholeWord_eq_none unfit

theorem timeShape_eq_none {cs : List Char} (unfit : clockShape cs = none) :
    timeShape cs = none := seq_eq_none unfit

/-- What may follow a name, which may be the first part of a dotted name, a segment of a path or
the name of a function. -/
def nameStops : List Char := [' ', ')', ',', ';', '.', '/', '(']

theorem numberShape_name {c : Char} (start : Text.isNameStart c = true) (rest : List Char) :
    numberShape (c :: rest) = none := by
  have name := Text.isNameChar_of_isNameStart c start
  have sign : Shape.optional (char '-') (c :: rest) = some 0 := by
    refine optional_none (char_eq_none ?_)
    rw [List.head?_cons, ne_eq, Option.some.injEq]
    rintro rfl
    contradiction
  have digits : manyDigitsShape (c :: rest) = none := by
    refine some'_eq_none ?_
    intro d head
    rw [List.head?_cons, Option.mem_some_iff] at head
    rw [← head, Text.isDecimalDigit_of_isNameStart start]
  rw [numberShape, seq_skip _ sign, seq_eq_none digits]

/-- No form fits a name. -/
theorem form?_name {c : Char} {run rest : List Char} (start : Text.isNameStart c = true)
    (word : run.all Text.isNameChar = true) (before : Before nameStops rest) :
    form? (c :: run ++ rest) forms = none := by
  have letters := Text.all_isNameChar_cons start word
  have date := calendarShape_word letters before (by decide) (by decide)
  have time := clockShape_word letters before (by decide) (by decide)
  simp only [forms, form?, stringShape_word letters before (by decide),
    binaryShape_word letters before (by decide) (by decide),
    guidShape_word letters before (by decide) (by decide), dateTimeShape_eq_none date,
    dateShape_eq_none date, timeShape_eq_none time]
  simp only [List.cons_append, numberShape_name start]

/-! ## Strings and bytes -/

theorem unquoteChars_quoteChars (cs : List Char) : unquoteChars (quoteChars cs) = cs := by
  induction cs with
  | nil => rfl
  | cons c rest ih =>
    by_cases quote : c = '\''
    · rw [quoteChars, if_pos quote, unquoteChars, ih, quote]
    · rw [quoteChars, if_neg quote, unquoteChars, ih]
      intro more same
      exact absurd same quote

theorem stringBody_quoteChars (cs : List Char) {rest : List Char} (before : Before endings rest) :
    stringBody (quoteChars cs ++ '\'' :: rest) = some ((quoteChars cs).length + 1) := by
  induction cs with
  | nil =>
    rw [quoteChars, List.nil_append, stringBody.eq_def]
    cases rest with
    | nil => rfl
    | cons d more =>
      have other : d ≠ '\'' := by
        rintro rfl
        exact absurd (before '\'' rfl) (by decide)
      simp [other]
  | cons c cs ih =>
    by_cases quote : c = '\''
    · rw [quoteChars, if_pos quote, List.cons_append, List.cons_append, stringBody.eq_def]
      simp [ih]
    · rw [quoteChars, if_neg quote, List.cons_append, stringBody.eq_def]
      simp [quote, ih]

theorem takes_string (s : String) {rest : List Char} (before : Before endings rest) :
    Takes (string s).toChars rest (string s) := by
  have text : (string s).toChars = '\'' :: (quoteChars s.toList ++ ['\'']) := rfl
  have body : seq [stringBody] (quoteChars s.toList ++ '\'' :: rest) =
      some ((quoteChars s.toList).length + 1) := by
    rw [seq_singleton, stringBody_quoteChars s.toList before]
  have fits : stringShape ((string s).toChars ++ rest) = some (string s).toChars.length := by
    have split : (string s).toChars ++ rest = ['\''] ++ (quoteChars s.toList ++ '\'' :: rest) := by
      simp [text]
    rw [split, stringShape, seq_append (char_cons '\'' _) body, text]
    simp [Nat.add_comm]
  refine ⟨⟨stringShape, readString, "invalid string", true⟩, ?_, ?_⟩
  · simp only [form?, forms, fits]
  · simp only [readString, text, List.drop_one, List.tail_cons, List.dropLast_concat,
      unquoteChars_quoteChars, String.ofList_toList]

theorem all_isBase64Char (bytes : List UInt8) :
    (Text.Base64Url.encode bytes).toList.all isBase64Char = true := by
  apply List.all_eq_true.mpr
  intro c member
  obtain ⟨n, small, rfl⟩ := Text.Base64Url.mem_encode member
  have all : ∀ n ∈ List.range 64, isBase64Char (Text.Base64Url.digit n) = true := by
    decide +kernel
  exact all n (List.mem_range.mpr small)

theorem takes_binary (bytes : List UInt8) (rest : List Char) :
    Takes (binary bytes).toChars rest (binary bytes) := by
  have text : (binary bytes).toChars =
      "binary'".toList ++ (Text.Base64Url.encode bytes).toList ++ ['\''] := rfl
  have split : (binary bytes).toChars ++ rest = "binary'".toList ++
      ((Text.Base64Url.encode bytes).toList ++ (['\''] ++ rest)) := by
    simp [text]
  have string : stringShape ((binary bytes).toChars ++ rest) = none := by
    rw [split]
    refine stringShape_eq_none ?_
    simp
  have quote : seq [char '\''] (['\''] ++ rest) = some (1 + 0) :=
    seq_append (char_cons '\'' rest) (seq_nil rest)
  have digits := many_run (all_isBase64Char bytes) (Before.singleton '\'' rest) (by decide)
  have fits : binaryShape ((binary bytes).toChars ++ rest) =
      some (binary bytes).toChars.length := by
    have pieces := seq_append (word_append "binary'" _) (seq_append digits quote)
    rw [split, binaryShape]
    refine pieces.trans (congrArg some ?_)
    simp only [text, List.length_append, List.length_singleton]
    omega
  refine ⟨⟨binaryShape, readBinary, "invalid binary literal", false⟩, ?_, ?_⟩
  · simp only [form?, forms, string, fits]
  · have word : "binary'".toList.length = 7 := rfl
    have token : ((binary bytes).toChars.drop 7).dropLast =
        (Text.Base64Url.encode bytes).toList := by
      rw [text, List.append_assoc, List.drop_left' word, List.dropLast_concat]
    simp only [readBinary, token, String.ofList_toList, Text.Base64Url.decode_encode,
      Option.map_some]

/-! ## Identifiers -/

theorem isNameChar_of_hex {c : Char} (digit : Text.Hex.isDigit c = true) :
    Text.isNameChar c = true :=
  Text.of_hex (p := fun c => Text.isNameChar c = true) (by decide +kernel) digit

theorem all_isNameChar_of_hex {cs : List Char} (digits : cs.all Text.Hex.isDigit = true) :
    cs.all Text.isNameChar = true :=
  Text.all_mono (fun _ => isNameChar_of_hex) digits

theorem takes_guid (g : Guid) {rest : List Char} (before : Before endings rest) :
    Takes (guid g).toChars rest (guid g) := by
  have hex := Guid.all_isDigit_lowerDigits g.bits.toNat 32
  obtain ⟨a, b, c, d, e, ⟨la, lb, lc, ld, le⟩, digits, text⟩ := Guid.exists_groups g
  rw [digits, List.all_append, List.all_append, List.all_append, List.all_append, Bool.and_eq_true,
    Bool.and_eq_true, Bool.and_eq_true, Bool.and_eq_true] at hex
  obtain ⟨ha, hb, hc, hd, he⟩ := hex
  have token : (guid g).toChars = g.toChars := rfl
  have split : (guid g).toChars ++ rest =
      a ++ '-' :: (b ++ '-' :: (c ++ '-' :: (d ++ '-' :: (e ++ rest)))) := by
    simp [token, text]
  have word := all_isNameChar_of_hex ha
  have next := Before.singleton '-' (b ++ '-' :: (c ++ '-' :: (d ++ '-' :: (e ++ rest))))
  have string : stringShape ((guid g).toChars ++ rest) = none := by
    rw [split]
    exact stringShape_word word next (by decide)
  have binary : binaryShape ((guid g).toChars ++ rest) = none := by
    rw [split]
    exact binaryShape_word word next (by decide) (by decide)
  have fits : guidShape ((guid g).toChars ++ rest) = some (guid g).toChars.length := by
    refine wholeWord_append ?_ before (by decide)
    have groups := seq_exactly la ha (seq_char '-' (seq_exactly lb hb (seq_char '-'
      (seq_exactly lc hc (seq_char '-' (seq_exactly ld hd (seq_char '-'
        (seq_exactly le he (seq_nil rest)))))))))
    rw [split, token, Guid.length_toChars]
    exact groups
  refine ⟨⟨guidShape, readGuid, "invalid guid", true⟩, ?_, ?_⟩
  · simp only [form?, forms, string, binary, fits]
  · rw [token]
    simp only [readGuid, Guid.ofText?_toChars, Option.map_some]

/-! ## Dates and times -/

theorem isNameChar_of_isDigit {c : Char} (digit : c.isDigit = true) : Text.isNameChar c = true := by
  simp [Text.isNameChar, Char.isAlphanum, digit]

theorem all_isNameChar_of_isDigit {cs : List Char} (digits : cs.all Char.isDigit = true) :
    cs.all Text.isNameChar = true :=
  Text.all_mono (fun _ => isNameChar_of_isDigit) digits

theorem all_isDecimalDigit {cs : List Char} (digits : cs.all Char.isDigit = true) :
    cs.all Text.isDecimalDigit = true :=
  Text.all_mono (fun _ => Text.isDecimalDigit_of_isDigit) digits

theorem all_isDecimalDigit_padded (width n : Nat) :
    (Date.padded width n).all Text.isDecimalDigit = true :=
  all_isDecimalDigit (Date.all_isDigit_padded width n)

theorem seq_digits_padded (width : Nat) {n m : Nat} {shapes : List Shape} {rest : List Char}
    (positive : 0 < width) (small : n < 10 ^ width) (others : seq shapes rest = some m) :
    seq (digitsShape width :: shapes) (Date.padded width n ++ rest) = some (width + m) :=
  seq_exactly (Date.length_padded positive small) (all_isDecimalDigit_padded width n) others

theorem calendarShape_padded {year month day : Nat} (fourDigits : year < 10 ^ 4)
    (months : month < 100) (days : day < 100) (rest : List Char) :
    calendarShape (Date.padded 4 year ++
      '-' :: (Date.padded 2 month ++ '-' :: (Date.padded 2 day ++ rest))) = some 10 :=
  seq_digits_padded 4 (by decide) fourDigits (seq_char '-'
    (seq_digits_padded 2 (by decide) months (seq_char '-'
      (seq_digits_padded 2 (by decide) days (seq_nil rest)))))

theorem length_padded_two {n : Nat} (small : n < 100) : (Date.padded 2 n).length = 2 :=
  Date.length_padded (by decide) small

theorem length_toChars_date {d : Date} (year : d.FourDigits) : d.toChars.length = 10 := by
  obtain ⟨month, dayOfMonth⟩ := d.month_day_lt
  have four : (Date.padded 4 d.year.toNat).length = 4 :=
    Date.length_padded (by decide) year.toNat_lt
  rw [Date.toChars_of_year year]
  simp [four, length_padded_two month, length_padded_two dayOfMonth]

theorem calendarShape_toChars {d : Date} (year : d.FourDigits) (rest : List Char) :
    calendarShape (d.toChars ++ rest) = some d.toChars.length := by
  obtain ⟨month, dayOfMonth⟩ := d.month_day_lt
  rw [length_toChars_date year, Date.toChars_of_year year,
    ← calendarShape_padded year.toNat_lt month dayOfMonth rest]
  simp

/-- What begins with a date is none of the first literals. -/
theorem unfit_date {d : Date} (year : d.FourDigits) (rest : List Char) :
    stringShape (d.toChars ++ rest) = none ∧ binaryShape (d.toChars ++ rest) = none ∧
      guidShape (d.toChars ++ rest) = none := by
  have split : d.toChars ++ rest = Date.padded 4 d.year.toNat ++
      '-' :: (Date.padded 2 d.month ++ '-' :: (Date.padded 2 d.day ++ rest)) := by
    simp [Date.toChars_of_year year]
  have word := all_isNameChar_of_isDigit (Date.all_isDigit_padded 4 d.year.toNat)
  have next := Before.singleton '-' (Date.padded 2 d.month ++ '-' :: (Date.padded 2 d.day ++ rest))
  have short : (Date.padded 4 d.year.toNat).length < 8 := by
    rw [Date.length_padded (by decide) year.toNat_lt]
    decide
  rw [split]
  exact ⟨stringShape_word word next (by decide),
    binaryShape_word word next (by decide) (by decide), guidShape_short short next (by decide)⟩

theorem takes_date {d : Date} (year : d.FourDigits) {rest : List Char}
    (before : Before endings rest) : Takes (date d).toChars rest (date d) := by
  have token : (date d).toChars = d.toChars := rfl
  have calendar := calendarShape_toChars year rest
  obtain ⟨string, binary, guid⟩ := unfit_date year rest
  have dateTime : dateTimeShape (d.toChars ++ rest) = none :=
    seq_eq_none_of_append calendar
      (seq_eq_none (char_eq_none_of_before before (by decide : 'T' ∉ endings)))
  have fits : dateShape (d.toChars ++ rest) = some d.toChars.length :=
    wholeWord_append calendar before (by decide)
  refine ⟨⟨dateShape, readDate, "invalid date literal", true⟩, ?_, ?_⟩
  · simp only [token, form?, forms, string, binary, guid, dateTime, fits]
  · rw [token]
    simp only [readDate, Calendar.date?_toChars, Option.map_some]

section Fractions

variable {rest stops : List Char} (before : Before stops rest)

include before

theorem fractionShape_nil (apart : '.' ∉ stops) : fractionShape rest = some 0 :=
  optional_none (seq_eq_none (char_eq_none_of_before before apart))

theorem fractionShape_point {digits : List Char} (nonempty : digits ≠ [])
    (members : digits.all Char.isDigit = true)
    (outside : ∀ c ∈ stops, Text.isDecimalDigit c = false) :
    fractionShape ('.' :: digits ++ rest) = some (digits.length + 1) := by
  have run : manyDigitsShape (digits ++ rest) = some digits.length :=
    some'_run (all_isDecimalDigit members) nonempty before outside
  have fits : seq [char '.', manyDigitsShape] ('.' :: digits ++ rest) =
      some ('.' :: digits).length := by
    have last : seq [manyDigitsShape] (digits ++ rest) = some digits.length := by
      rw [seq_singleton, run]
    exact seq_char '.' last
  exact optional_append fits

theorem fractionShape_fractionChars {n : Nat} (small : n < TimeOfDay.nanosecondsPerSecond)
    (apart : '.' ∉ stops) (outside : ∀ c ∈ stops, Text.isDecimalDigit c = false) :
    fractionShape (TimeOfDay.fractionChars n ++ rest) =
      some (TimeOfDay.fractionChars n).length := by
  by_cases zero : n = 0
  · subst zero
    exact fractionShape_nil before apart
  · obtain ⟨width, m, _, _, _, _, chars⟩ := TimeOfDay.fractionChars_eq zero small
    rw [chars]
    exact fractionShape_point before (Date.padded_ne_nil width m) (Date.all_isDigit_padded width m)
      outside

end Fractions

theorem clockShape_padded {hour minute : Nat} (hours : hour < 100) (minutes : minute < 100)
    (rest : List Char) :
    clockShape (Date.padded 2 hour ++ ':' :: (Date.padded 2 minute ++ rest)) = some 5 :=
  seq_digits_padded 2 (by decide) hours
    (seq_char ':' (seq_digits_padded 2 (by decide) minutes (seq_nil rest)))

theorem secondsShape_padded {second : Nat} (small : second < 100) {places rest : List Char}
    (fraction : fractionShape (places ++ rest) = some places.length) :
    secondsShape (':' :: (Date.padded 2 second ++ (places ++ rest))) =
      some (2 + places.length + 1) := by
  have last : seq [fractionShape] (places ++ rest) = some places.length := by
    rw [seq_singleton, fraction]
  have fits := seq_char ':' (seq_digits_padded 2 (by decide) small last)
  simp [secondsShape, Shape.optional, fits]

theorem timeShape_padded {hour minute second : Nat} (hours : hour < 100) (minutes : minute < 100)
    (seconds : second < 100) {places rest : List Char}
    (fraction : fractionShape (places ++ rest) = some places.length) :
    timeShape (Date.padded 2 hour ++ ':' :: (Date.padded 2 minute ++
      ':' :: (Date.padded 2 second ++ (places ++ rest)))) = some (5 + (2 + places.length + 1)) := by
  have clock := clockShape_padded hours minutes
    (':' :: (Date.padded 2 second ++ (places ++ rest)))
  have length : (Date.padded 2 hour ++ ':' :: Date.padded 2 minute).length = 5 := by
    rw [List.length_append, List.length_cons, length_padded_two hours, length_padded_two minutes]
  have past : (Date.padded 2 hour ++ ':' :: (Date.padded 2 minute ++
        ':' :: (Date.padded 2 second ++ (places ++ rest)))).drop 5 =
      ':' :: (Date.padded 2 second ++ (places ++ rest)) := by
    rw [← List.cons_append, ← List.append_assoc, List.drop_left' length]
  apply seq_cons clock
  rw [seq_singleton, past, secondsShape_padded seconds fraction]

theorem takes_timeOfDay (t : TimeOfDay) {rest : List Char} (before : Before endings rest) :
    Takes (timeOfDay t).toChars rest (timeOfDay t) := by
  obtain ⟨hour, minute, second⟩ := t.fields_lt_hundred
  have part : t.nanoseconds % TimeOfDay.nanosecondsPerSecond < TimeOfDay.nanosecondsPerSecond :=
    Nat.mod_lt _ (by decide)
  have fraction := fractionShape_fractionChars before part (by decide) (by decide)
  have token : (timeOfDay t).toChars = t.toChars := rfl
  have text : t.toChars = t.clockChars ++
      TimeOfDay.fractionChars (t.nanoseconds % TimeOfDay.nanosecondsPerSecond) := rfl
  generalize TimeOfDay.fractionChars (t.nanoseconds % TimeOfDay.nanosecondsPerSecond) = places
    at text fraction
  have split : (timeOfDay t).toChars ++ rest = Date.padded 2 t.hour ++
      ':' :: (Date.padded 2 t.minute ++
        ':' :: (Date.padded 2 t.writtenSecond ++ (places ++ rest))) := by
    simp [token, text, TimeOfDay.clockChars]
  have length : (timeOfDay t).toChars.length = 5 + (2 + places.length + 1) := by
    rw [token, text, TimeOfDay.clockChars]
    simp only [List.length_append, List.length_cons, length_padded_two hour,
      length_padded_two minute, length_padded_two second]
    omega
  have fits : timeShape ((timeOfDay t).toChars ++ rest) = some (timeOfDay t).toChars.length := by
    rw [split, length]
    exact timeShape_padded hour minute second fraction
  have two := length_padded_two hour
  have word := all_isNameChar_of_isDigit (Date.all_isDigit_padded 2 t.hour)
  have next := Before.singleton ':' (Date.padded 2 t.minute ++
    ':' :: (Date.padded 2 t.writtenSecond ++ (places ++ rest)))
  have string := stringShape_word word next (by decide)
  have binary := binaryShape_word word next (by decide) (by decide)
  have short : (Date.padded 2 t.hour).length < 4 := by omega
  have guid := guidShape_short (Nat.lt_trans short (by decide)) next (by decide)
  have calendar := calendarShape_short short next (by decide)
  rw [← split] at string binary guid calendar
  refine ⟨⟨timeShape, readTime, "invalid time-of-day literal", true⟩, ?_, ?_⟩
  · simp only [form?, forms, string, binary, guid, dateTimeShape_eq_none calendar,
      dateShape_eq_none calendar, fits]
  · rw [token]
    simp only [readTime, Calendar.time?_toChars, Option.some_or, Option.map_some]

/-! ## Instants -/

/-- The fields of an instant one after the other. -/
theorem dateTimeShape_append {day clock seconds rest : List Char}
    (calendar : ∀ cs, calendarShape (day ++ cs) = some day.length)
    (hours : ∀ cs, clockShape (clock ++ cs) = some clock.length)
    (fields : secondsShape (seconds ++ 'Z' :: rest) = some seconds.length) :
    dateTimeShape (day ++ 'T' :: (clock ++ (seconds ++ 'Z' :: rest))) =
      some (day ++ 'T' :: (clock ++ (seconds ++ ['Z']))).length := by
  have zone : seq [zoneShape] ('Z' :: rest) = some 1 := by
    rw [seq_singleton, zoneShape, char_cons]
  have pieces := seq_append (calendar _)
    (seq_char 'T' (seq_append (hours _) (seq_append fields zone)))
  rw [dateTimeShape, pieces]
  simp only [List.length_append, List.length_cons, List.length_nil]

theorem exists_clock_seconds (t : TimeOfDay) (rest : List Char) :
    ∃ clock seconds, t.toChars = clock ++ seconds ∧ clock.length = 5 ∧
      seconds.head? = some ':' ∧ (∀ cs, clockShape (clock ++ cs) = some clock.length) ∧
      secondsShape (seconds ++ 'Z' :: rest) = some seconds.length := by
  obtain ⟨hour, minute, second⟩ := t.fields_lt_hundred
  obtain ⟨places, text, fraction⟩ : ∃ places, t.toChars = t.clockChars ++ places ∧
      fractionShape (places ++ 'Z' :: rest) = some places.length :=
    ⟨_, rfl, fractionShape_fractionChars (Before.singleton 'Z' rest)
      (Nat.mod_lt _ (by decide)) (by decide) (by decide)⟩
  have length : (Date.padded 2 t.hour ++ ':' :: Date.padded 2 t.minute).length = 5 := by
    rw [List.length_append, List.length_cons, length_padded_two hour, length_padded_two minute]
  refine ⟨Date.padded 2 t.hour ++ ':' :: Date.padded 2 t.minute,
    ':' :: (Date.padded 2 t.writtenSecond ++ places), ?_, length, rfl, ?_, ?_⟩
  · simp [text, TimeOfDay.clockChars]
  · intro cs
    rw [length, ← clockShape_padded hour minute cs]
    simp
  · have fits := secondsShape_padded second fraction
    rw [List.length_cons, List.length_append, length_padded_two second, ← fits]
    simp

theorem takes_dateTime {i : Instant} (year : i.date.FourDigits) (rest : List Char) :
    Takes (dateTimeOffset i).toChars rest (dateTimeOffset i) := by
  obtain ⟨clock, seconds, text, five, colon, clocks, fields⟩ := exists_clock_seconds i.time rest
  have calendar := calendarShape_toChars year
  have token : (dateTimeOffset i).toChars =
      i.date.toChars ++ 'T' :: (clock ++ (seconds ++ ['Z'])) := by
    have whole : (dateTimeOffset i).toChars = i.date.toChars ++ 'T' :: (i.time.toChars ++ ['Z']) :=
      rfl
    simp [whole, text]
  have split : (dateTimeOffset i).toChars ++ rest =
      i.date.toChars ++ 'T' :: (clock ++ (seconds ++ 'Z' :: rest)) := by
    simp [token]
  obtain ⟨string, binary, guid⟩ := unfit_date year ('T' :: (clock ++ (seconds ++ 'Z' :: rest)))
  have fits := dateTimeShape_append calendar clocks fields
  rw [← split] at string binary guid fits
  rw [← token] at fits
  refine ⟨⟨dateTimeShape, readDateTime, "invalid date-time literal", false⟩, ?_, ?_⟩
  · simp only [form?, forms, string, binary, guid, fits]
  · have minutes : ((dateTimeOffset i).toChars.drop 16).head? = some ':' := by
      have ten := length_toChars_date year
      have before : (i.date.toChars ++ 'T' :: clock).length = 16 := by
        rw [List.length_append, List.length_cons, ten, five]
      rw [token, ← List.cons_append, ← List.append_assoc, List.drop_left' before,
        List.head?_append, colon]
      rfl
    simp only [readDateTime, minutes, if_true]
    exact congrArg (Option.map dateTimeOffset) (Calendar.instant?_toChars year)

/-! ## Numbers -/

open Decimal (signChars)

/-- What follows the digits in front of the point. -/
def numberStops : List Char := [' ', ')', ',', ';', '.']

/-- The last of the forms. -/
def numberForm : LiteralForm := ⟨numberShape, readNumber, "invalid number", false⟩

/-- A text that begins with a sign is that of a number, if it is a literal at all. -/
theorem form?_sign {sign : Char} (member : sign ∈ ['-', '+']) (cs : List Char) :
    form? (sign :: cs) forms = (numberShape (sign :: cs)).map fun n => (numberForm, n) := by
  have before : Before ['-', '+'] (sign :: cs) := Before.cons member cs
  have empty : ([] : List Char).all Text.isNameChar = true := rfl
  have string := stringShape_word empty before (by decide)
  have binary := binaryShape_word empty before (by decide) (by decide)
  have guid : guidShape ([] ++ sign :: cs) = none :=
    guidShape_short (by decide) before (by decide)
  have calendar : calendarShape ([] ++ sign :: cs) = none :=
    calendarShape_short (by decide) before (by decide)
  have clock : clockShape ([] ++ sign :: cs) = none :=
    seq_eq_none (exactly_eq_none (by decide) before (by decide))
  simp only [List.nil_append] at string binary guid calendar clock
  simp only [form?, forms, string, binary, guid, dateTimeShape_eq_none calendar,
    dateShape_eq_none calendar, timeShape_eq_none clock]
  cases numberShape (sign :: cs) <;> rfl

section Numbers

variable {n : Int} {lead places rest : List Char}

theorem optional_sign (digits : lead.all Char.isDigit = true) (before : Before numberStops rest) :
    Shape.optional (char '-') (signChars n ++ (lead ++ rest)) = some (signChars n).length := by
  by_cases negative : n < 0
  · rw [signChars, if_pos negative]
    exact optional_append (char_cons '-' _)
  · have word := all_isNameChar_of_isDigit digits
    rw [signChars, if_neg negative, List.nil_append]
    apply optional_none
    apply char_eq_none
    exact head?_word_ne word before (by decide) (by decide)

theorem numberShape_append (nonempty : lead ≠ []) (digits : lead.all Char.isDigit = true)
    (before : Before numberStops (places ++ rest)) (ends : Before endings rest)
    (fraction : fractionShape (places ++ rest) = some places.length) :
    numberShape (signChars n ++ (lead ++ (places ++ rest))) =
      some ((signChars n).length + (lead.length + places.length)) := by
  have run : manyDigitsShape (lead ++ (places ++ rest)) = some lead.length :=
    some'_run (all_isDecimalDigit digits) nonempty before (by decide)
  have exponent : seq [exponentShape] rest = some 0 := by
    rw [seq_singleton]
    apply optional_none
    apply seq_eq_none
    exact oneOf_eq_none ends (by decide)
  exact seq_append (optional_sign digits before) (seq_append run (seq_append fraction exponent))

/-- No form before the last fits a number. -/
theorem form?_number (digits : lead.all Char.isDigit = true) (before : Before numberStops rest)
    {k : Nat} (fits : numberShape (signChars n ++ (lead ++ rest)) = some k) :
    form? (signChars n ++ (lead ++ rest)) forms =
      some (numberForm, k) := by
  have word := all_isNameChar_of_isDigit digits
  by_cases negative : n < 0
  · have sign : signChars n = ['-'] := if_pos negative
    rw [sign, List.singleton_append] at fits ⊢
    rw [form?_sign (by decide), fits]
    rfl
  · have sign : signChars n = [] := if_neg negative
    rw [sign, List.nil_append] at fits ⊢
    have calendar := calendarShape_word word before (by decide) (by decide)
    have clock := clockShape_word word before (by decide) (by decide)
    simp only [form?, forms, stringShape_word word before (by decide),
      binaryShape_word word before (by decide) (by decide),
      guidShape_word word before (by decide) (by decide), dateTimeShape_eq_none calendar,
      dateShape_eq_none calendar, timeShape_eq_none clock, fits]
    rfl

theorem form?_places (nonempty : lead ≠ []) (digits : lead.all Char.isDigit = true)
    (before : Before numberStops (places ++ rest)) (ends : Before endings rest)
    (fraction : fractionShape (places ++ rest) = some places.length) :
    form? (signChars n ++ (lead ++ places) ++ rest) forms =
      some (numberForm, (signChars n ++ (lead ++ places)).length) := by
  have fits := numberShape_append (n := n) nonempty digits before ends fraction
  have split : signChars n ++ (lead ++ places) ++ rest =
      signChars n ++ (lead ++ (places ++ rest)) := by
    rw [List.append_assoc, List.append_assoc]
  have length : (signChars n ++ (lead ++ places)).length =
      (signChars n).length + (lead.length + places.length) := by
    rw [List.length_append, List.length_append]
  rw [split, length]
  exact form?_number digits before fits

end Numbers

theorem no_exponent {cs : List Char} (plain : ∀ c ∈ cs, c = '-' ∨ c = '.' ∨ c.isDigit = true) :
    cs.any (fun c => c == 'e' || c == 'E') = false := by
  rw [List.any_eq_false]
  intro c member
  rcases plain c member with rfl | rfl | digit
  · decide
  · decide
  · have small := Decimal.ne_of_isDigit digit (d := 'e') rfl
    have large := Decimal.ne_of_isDigit digit (d := 'E') rfl
    simp [small, large]

theorem takes_int (n : Int64) {rest : List Char} (before : Before endings rest) :
    Takes (int n).toChars rest (int n) := by
  have digits := Decimal.all_isDigit_toDigits n.toInt.natAbs
  have nonempty : Nat.toDigits 10 n.toInt.natAbs ≠ [] := Nat.toDigits_ne_nil
  have plain := Decimal.plain_signChars (n := n.toInt) fun c member =>
    Or.inr (Or.inr (List.all_eq_true.mp digits c member))
  have whole : (signChars n.toInt ++ Nat.toDigits 10 n.toInt.natAbs).contains '.' = false := by
    rw [List.contains_eq_mem, decide_eq_false_iff_not, List.mem_append]
    rintro (sign | digit)
    · exact absurd (Decimal.eq_of_mem_signChars sign) (by decide)
    · exact absurd (List.all_eq_true.mp digits '.' digit) (by decide)
  have read : readNumber (signChars n.toInt ++ (Nat.toDigits 10 n.toInt.natAbs ++ [])) =
      some (int n) := by
    have value := Decimal.ofText?_integer (n := n.toInt) nonempty digits
      (Decimal.natOfDigits_toDigits _)
    have small := Decimal.toInt64?_ofInt (Int64.le_toInt n) (Int64.toInt_lt n)
    rw [Decimal.ofInt] at small
    rw [List.append_nil, readNumber]
    simp only [no_exponent plain, value, Option.bind_eq_bind, Option.bind_some, whole,
      Bool.false_eq_true, if_false, small, Int64.ofInt_toInt]
  have token : (int n).toChars = (Decimal.ofInt n.toInt).plainChars := rfl
  have noFraction : fractionShape ([] ++ rest) = some ([] : List Char).length :=
    fractionShape_nil before (by decide)
  rw [token, Decimal.plainChars_ofInt, ← List.append_nil (Nat.toDigits 10 n.toInt.natAbs)]
  exact ⟨numberForm, form?_places nonempty digits (before.mono (by decide)) before noFraction, read⟩

theorem form?_decimal (d : Decimal) {rest : List Char} (before : Before endings rest) :
    form? ((decimal d).toChars ++ rest) forms = some (numberForm, (decimal d).toChars.length) := by
  obtain ⟨lead, trail, zeros, pointed⟩ := Decimal.exists_pointed d
  have token : (decimal d).toChars = d.pointedChars := rfl
  have all : lead.all Char.isDigit = true ∧ trail.all Char.isDigit = true := by
    simpa [List.all_append] using pointed.digits
  rw [token, pointed.text]
  apply form?_places pointed.lead_ne_nil all.1 (Before.cons (by decide) _) before
  exact fractionShape_point before pointed.trail_ne_nil all.2 (by decide)

/-- The text of a decimal is read as the decimal with a point, if its scale has 64 bits. -/
theorem readNumber_decimal (d : Decimal) : readNumber (decimal d).toChars =
    if d.scale < 2 ^ 63 then some (decimal d.withPoint) else none := by
  have value := Decimal.ofText?_pointedChars d
  obtain ⟨lead, trail, zeros, pointed⟩ := Decimal.exists_pointed d
  have token : (decimal d).toChars = d.pointedChars := rfl
  rw [pointed.text] at value
  have plain : ∀ c ∈ signChars d.digits ++ (lead ++ '.' :: trail),
      c = '-' ∨ c = '.' ∨ c.isDigit = true :=
    Decimal.plain_signChars (Decimal.plain_point pointed.digits)
  have point : (signChars d.digits ++ (lead ++ '.' :: trail)).contains '.' = true := by
    rw [List.contains_eq_mem, decide_eq_true_eq]
    simp
  rw [token, pointed.text, readNumber]
  simp only [no_exponent plain, value, point, Bool.false_eq_true, if_false, if_true]
  split <;> rfl

theorem takes_decimal {d : Decimal} (small : d.scale < 2 ^ 63) {rest : List Char}
    (before : Before endings rest) : Takes (decimal d).toChars rest (decimal d.withPoint) :=
  ⟨numberForm, form?_decimal d before, (readNumber_decimal d).trans (if_pos small)⟩

end OData.Value
