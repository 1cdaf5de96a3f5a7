import OData.Calendar.Reader
import OData.Proofs.Number.Digits
import OData.Proofs.Text.Characters
import OData.Proofs.Text.Cursor

/-!
# Dates and times: reading what was written

A field is written with zeros in front, so that its digits end where the text of the field does.
`date?_toChars` and `time?_toChars` read the fields of a date and of a time one after the other.
-/

set_option autoImplicit false

namespace OData

/-! ## Padded numbers -/

namespace Date

theorem padded_ne_nil (width n : Nat) : padded width n ≠ [] := by
  simp [padded, Nat.toDigits_ne_nil]

theorem isDigit_of_mem_padded {width n : Nat} {c : Char} (member : c ∈ padded width n) :
    c.isDigit = true := by
  rw [padded, List.mem_append] at member
  rcases member with zero | digit
  · rw [List.eq_of_mem_replicate zero]
    rfl
  · exact Decimal.isDigit_of_mem_toDigits digit

theorem all_isDigit_padded (width n : Nat) : (padded width n).all Char.isDigit = true :=
  List.all_eq_true.mpr fun _ member => isDigit_of_mem_padded member

theorem length_padded {width n : Nat} (positive : 0 < width) (small : n < 10 ^ width) :
    (padded width n).length = width := by
  have short := Decimal.length_toDigits_le positive small
  rw [padded, List.length_append, List.length_replicate]
  omega

theorem natOfDigits_padded (width n : Nat) : Decimal.natOfDigits (padded width n) = n := by
  rw [padded, Decimal.natOfDigits_replicate_append, Decimal.natOfDigits_toDigits]

end Date

namespace Calendar

open Date Text

theorem char?_cons (c : Char) (rest : List Char) : char? c (c :: rest) = some rest := by
  simp [char?]

theorem skipBlanks_padded (width n : Nat) (rest : List Char) :
    skipBlanks (padded width n ++ rest) = padded width n ++ rest := by
  cases digits : padded width n with
  | nil => exact absurd digits (padded_ne_nil width n)
  | cons d more =>
    have digit : d.isDigit = true :=
      isDigit_of_mem_padded (by rw [digits]; exact List.mem_cons_self)
    simp [skipBlanks, isBlank_of_isDigit digit]

theorem digits?_run {least most : Nat} {digits rest stops : List Char}
    (members : digits.all Char.isDigit = true) (enough : least ≤ digits.length)
    (fits : digits.length ≤ most) (before : Before stops rest)
    (outside : ∀ c ∈ stops, c.isDigit = false) :
    digits? least most (digits ++ rest) = some (Decimal.natOfDigits digits, rest) := by
  rw [digits?, takeWhile_run members before outside, List.take_of_length_le fits, if_pos enough,
    List.drop_left]

theorem digits?_padded (least most width : Nat) {n : Nat} {rest stops : List Char}
    (positive : 0 < width) (small : n < 10 ^ width) (enough : least ≤ width) (fits : width ≤ most)
    (before : Before stops rest) (outside : ∀ c ∈ stops, c.isDigit = false) :
    digits? least most (padded width n ++ rest) = some (n, rest) := by
  have length := length_padded positive small
  rw [digits?_run (all_isDigit_padded width n) (by omega) (by omega) before outside,
    natOfDigits_padded]

theorem field?_padded {n : Nat} {rest stops : List Char} (small : n < 100)
    (before : Before stops rest) (outside : ∀ c ∈ stops, c.isDigit = false) :
    field? (padded 2 n ++ rest) = some (n, rest) := by
  rw [field?, skipBlanks_padded]
  exact digits?_padded 1 2 2 (by decide) small (by decide) (by decide) before outside

theorem year?_padded {n : Nat} {rest stops : List Char} (small : n < 10000)
    (before : Before stops rest) (outside : ∀ c ∈ stops, c.isDigit = false) :
    year? (padded 4 n ++ rest) = some ((n : Int), rest) := by
  have unsigned : ∀ c ∈ (padded 4 n ++ rest).head?, c.isDigit = true := by
    intro c head
    cases digits : padded 4 n with
    | nil => exact absurd digits (padded_ne_nil 4 n)
    | cons d more =>
      rw [digits, List.cons_append, List.head?_cons, Option.mem_some_iff] at head
      subst head
      exact isDigit_of_mem_padded (by rw [digits]; exact List.mem_cons_self)
  have field := digits?_padded 1 4 4 (by decide) small (by decide) (by decide) before outside
  rw [year?, skipBlanks_padded]
  split
  next text =>
    have wrong := unsigned '-' (by rw [text]; rfl)
    contradiction
  next text =>
    have wrong := unsigned '+' (by rw [text]; rfl)
    contradiction
  next => rw [field]; rfl

theorem year?_yearChars (year : Int) {rest stops : List Char} (before : Before stops rest)
    (outside : ∀ c ∈ stops, c.isDigit = false) :
    year? (yearChars year ++ rest) = some (year, rest) := by
  have nonempty : 1 ≤ (padded 4 year.natAbs).length :=
    List.length_pos_of_ne_nil (padded_ne_nil 4 year.natAbs)
  have fits : (padded 4 year.natAbs).length ≤ (padded 4 year.natAbs ++ rest).length := by
    rw [List.length_append]
    exact Nat.le_add_right _ _
  have signed := digits?_run (all_isDigit_padded 4 year.natAbs) nonempty fits before outside
  rw [natOfDigits_padded] at signed
  rw [yearChars]
  by_cases plain : 0 ≤ year ∧ year ≤ 9999
  · rw [if_pos plain, year?_padded (by omega) before outside, Int.toNat_of_nonneg plain.1]
  · rw [if_neg plain]
    by_cases negative : year < 0
    · have value : -(year.natAbs : Int) = year := by omega
      have visible : skipBlanks ('-' :: padded 4 year.natAbs ++ rest) =
          '-' :: (padded 4 year.natAbs ++ rest) := rfl
      rw [if_pos negative, year?, visible]
      simp only [signed, Option.map_some, value]
    · have value : (year.natAbs : Int) = year := by omega
      have visible : skipBlanks ('+' :: padded 4 year.natAbs ++ rest) =
          '+' :: (padded 4 year.natAbs ++ rest) := rfl
      rw [if_neg negative, year?, visible]
      simp only [signed, Option.map_some, value]

end Calendar

/-! ## Dates -/

namespace Date

theorem ofParts?_eq_some {year : Int} {month day : Nat} {d : Date} :
    ofParts? year month day = some d ↔ d.year = year ∧ d.month = month ∧ d.day = day := by
  obtain ⟨year', month', day', isDay⟩ := d
  rw [ofParts?]
  constructor
  · intro parts
    split at parts
    · cases parts
      exact ⟨rfl, rfl, rfl⟩
    · contradiction
  · rintro ⟨rfl, rfl, rfl⟩
    exact dif_pos isDay

theorem month_day_lt (d : Date) : d.month < 100 ∧ d.day < 100 := by
  obtain ⟨_, _, _, december, _, inside⟩ := d.isDay
  have longest : daysInMonth d.year d.month ≤ 31 := by
    unfold daysInMonth
    split
    · split <;> omega
    · split <;> omega
  omega

/-- Whether the year of a date is written without a sign. -/
def FourDigits (d : Date) : Prop := 0 ≤ d.year ∧ d.year ≤ 9999

instance (d : Date) : Decidable d.FourDigits := inferInstanceAs (Decidable (_ ∧ _))

theorem FourDigits.toNat_lt {d : Date} (year : d.FourDigits) : d.year.toNat < 10 ^ 4 := by
  rw [FourDigits] at year
  omega

theorem toChars_of_year {d : Date} (year : d.FourDigits) :
    d.toChars = padded 4 d.year.toNat ++ '-' :: (padded 2 d.month ++ '-' :: padded 2 d.day) := by
  rw [FourDigits] at year
  rw [toChars, yearChars, if_pos year]

end Date

namespace Calendar

open Text

/-- A date of any year is read from its text. -/
theorem date?_toChars (d : Date) : date? d.toChars = some d := by
  obtain ⟨month, dayOfMonth⟩ := d.month_day_lt
  have hyphen : ∀ c ∈ ['-'], c.isDigit = false := by decide
  have readYear := year?_yearChars d.year
    (Before.singleton '-' (Date.padded 2 d.month ++ '-' :: Date.padded 2 d.day)) hyphen
  have readMonth := field?_padded month (Before.singleton '-' (Date.padded 2 d.day)) hyphen
  have readDay := field?_padded dayOfMonth (Before.nil ['-']) hyphen
  rw [List.append_nil] at readDay
  rw [Date.toChars, date?, readYear]
  simp only [Option.bind_eq_bind, Option.bind_some, char?_cons, readMonth, readDay]
  exact Date.ofParts?_eq_some.mpr ⟨rfl, rfl, rfl⟩

end Calendar

/-! ## Times of day -/

namespace TimeOfDay

theorem fields_lt (t : TimeOfDay) : t.hour < 24 ∧ t.minute < 60 ∧ t.writtenSecond ≤ 60 := by
  obtain ⟨day, leap⟩ := t.isTime
  simp only [secondsPerDay, nanosecondsPerSecond] at day leap
  simp only [hour, minute, writtenSecond, second, nanosecondsPerSecond]
  omega

/-- Each field of a time has two digits at most. -/
theorem fields_lt_hundred (t : TimeOfDay) :
    t.hour < 100 ∧ t.minute < 100 ∧ t.writtenSecond < 100 := by
  obtain ⟨hour, minute, second⟩ := t.fields_lt
  omega

/-- A time is made again from its fields. -/
theorem ofParts?_fields (t : TimeOfDay) :
    ofParts? t.hour t.minute t.writtenSecond (t.nanoseconds % nanosecondsPerSecond) = some t := by
  obtain ⟨hour, minute, second⟩ := t.fields_lt
  have part : t.nanoseconds % nanosecondsPerSecond < nanosecondsPerSecond :=
    Nat.mod_lt _ (by decide)
  obtain ⟨day, leap⟩ := t.isTime
  rw [ofParts?, dif_pos ⟨hour, minute, second, part⟩]
  simp only [secondsPerDay, nanosecondsPerSecond] at day leap
  split
  next written =>
    simp only [writtenSecond, TimeOfDay.second, nanosecondsPerSecond] at written
    congr 2
    · simp only [TimeOfDay.hour, TimeOfDay.minute]
      omega
    · simp only [nanosecondsPerSecond]
      omega
  next written =>
    simp only [writtenSecond, TimeOfDay.second, nanosecondsPerSecond] at written second
    congr 2
    · simp only [TimeOfDay.hour, TimeOfDay.minute, writtenSecond, TimeOfDay.second,
        nanosecondsPerSecond]
      omega
    · simp only [nanosecondsPerSecond]
      omega

/-- A fraction is a point and three, six or nine digits that say how many nanoseconds there
are. -/
theorem fractionChars_eq {n : Nat} (positive : n ≠ 0) (small : n < nanosecondsPerSecond) :
    ∃ width m, 0 < width ∧ width ≤ 9 ∧ m < 10 ^ width ∧ n = m * 10 ^ (9 - width) ∧
      fractionChars n = '.' :: Date.padded width m := by
  simp only [nanosecondsPerSecond] at small
  rw [fractionChars, if_neg positive]
  by_cases milliseconds : n % 1000000 = 0
  · refine ⟨3, n / 1000000, by decide, by decide, ?_, ?_, if_pos milliseconds⟩
    · omega
    · omega
  · rw [if_neg milliseconds]
    by_cases microseconds : n % 1000 = 0
    · refine ⟨6, n / 1000, by decide, by decide, ?_, ?_, if_pos microseconds⟩
      · omega
      · omega
    · exact ⟨9, n, by decide, by decide, small, by omega, if_neg microseconds⟩

end TimeOfDay

namespace Calendar

theorem fraction?_fractionChars {n : Nat} {rest stops : List Char}
    (small : n < TimeOfDay.nanosecondsPerSecond) (before : Text.Before stops rest)
    (outside : ∀ c ∈ stops, c.isDigit = false) (apart : '.' ∉ stops) :
    fraction? (TimeOfDay.fractionChars n ++ rest) = some (n, rest) := by
  by_cases zero : n = 0
  · subst zero
    cases rest with
    | nil => rfl
    | cons c rest =>
      have other : c ≠ '.' := by
        rintro rfl
        exact apart (before '.' rfl)
      show fraction? (c :: rest) = _
      rw [fraction?.eq_2]
      simpa using other
  · obtain ⟨width, m, positive, fits, bound, value, chars⟩ :=
      TimeOfDay.fractionChars_eq zero small
    have digits := Text.takeWhile_run (Date.all_isDigit_padded width m) before outside
    have length := Date.length_padded positive bound
    have kept : (Date.padded width m).take 9 = Date.padded width m :=
      List.take_of_length_le (by omega)
    rw [chars, List.cons_append, fraction?, nanoseconds?, digits, kept, length,
      Date.natOfDigits_padded, ← value, List.drop_left' length]
    simp [Date.padded_ne_nil]

theorem before_fractionChars (n : Nat) : Text.Before ['.'] (TimeOfDay.fractionChars n) := by
  unfold TimeOfDay.fractionChars
  split
  · exact Text.Before.nil _
  · split
    · exact Text.Before.cons (by simp) _
    · split <;> exact Text.Before.cons (by simp) _

theorem time?_toChars (t : TimeOfDay) : time? t.toChars = some t := by
  obtain ⟨hour, minute, second⟩ := t.fields_lt_hundred
  have colon : ∀ c ∈ [':'], c.isDigit = false := by decide
  have point : ∀ c ∈ ['.'], c.isDigit = false := by decide
  have part : t.nanoseconds % TimeOfDay.nanosecondsPerSecond < TimeOfDay.nanosecondsPerSecond :=
    Nat.mod_lt _ (by decide)
  have readSecond := field?_padded second
    (before_fractionChars (t.nanoseconds % TimeOfDay.nanosecondsPerSecond)) point
  have fraction := fraction?_fractionChars part (Text.Before.nil []) (by simp) (by simp)
  rw [List.append_nil] at fraction
  have readMinute := field?_padded minute (Text.Before.singleton ':'
    (Date.padded 2 t.writtenSecond ++
      TimeOfDay.fractionChars (t.nanoseconds % TimeOfDay.nanosecondsPerSecond))) colon
  have readHour := field?_padded hour (Text.Before.singleton ':'
    (Date.padded 2 t.minute ++ ':' :: (Date.padded 2 t.writtenSecond ++
      TimeOfDay.fractionChars (t.nanoseconds % TimeOfDay.nanosecondsPerSecond)))) colon
  have chars : t.toChars = Date.padded 2 t.hour ++ ':' :: (Date.padded 2 t.minute ++
      ':' :: (Date.padded 2 t.writtenSecond ++
        TimeOfDay.fractionChars (t.nanoseconds % TimeOfDay.nanosecondsPerSecond))) := by
    simp [TimeOfDay.toChars, TimeOfDay.clockChars]
  rw [chars, time?, readHour]
  simp only [Option.bind_eq_bind, Option.bind_some, char?_cons, readMinute, readSecond,
    fraction]
  exact t.ofParts?_fields

end Calendar

end OData
