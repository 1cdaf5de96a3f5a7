import OData.Proofs.Calendar.DayNumber

/-!
# Dates and times: what is read

A date whose text begins with a digit has a year of four digits, as the local date of an instant
has; so every offset that is read leads from such a date to an instant.  The text of an instant
whose year has four digits is read as the same instant, and that of any other instant as none: a
reader of dates takes a year with a sign, a reader of instants does not.
-/

set_option autoImplicit false

namespace OData

namespace Text

/-- Ranges of two tables that lie apart have no member in common. -/
theorem inRanges_eq_false {first second : List (Nat × Nat)} {n : Nat}
    (apart : ∀ a ∈ first, ∀ b ∈ second, a.2 < b.1 ∨ b.2 < a.1) (found : inRanges first n = true) :
    inRanges second n = false := by
  rw [Bool.eq_false_iff]
  intro both
  simp only [inRanges, List.any_eq_true, Bool.and_eq_true, decide_eq_true_eq] at found both
  obtain ⟨a, memberA, lowA, highA⟩ := found
  obtain ⟨b, memberB, lowB, highB⟩ := both
  have away := apart a memberA b memberB
  omega

theorem isBlank_of_isDecimalDigit {c : Char} (digit : isDecimalDigit c = true) :
    isBlank c = false := by
  rw [isDecimalDigit, Bool.or_eq_true, Bool.and_eq_true] at digit
  rcases digit with ascii | ⟨_, other⟩
  · exact isBlank_of_isDigit ascii
  · exact inRanges_eq_false (by decide +kernel) other

end Text

namespace Calendar

theorem digits?_lt {least most n : Nat} {cs rest : List Char}
    (found : digits? least most cs = some (n, rest)) : n < 10 ^ most := by
  rw [digits?] at found
  split at found
  · cases found
    have digits : ∀ c ∈ (cs.takeWhile Char.isDigit).take most, c.isDigit = true := by
      intro c member
      exact List.mem_takeWhile_imp (List.mem_of_mem_take member)
    have small := Decimal.natOfDigits_lt digits
    have size := List.length_take_le most (cs.takeWhile Char.isDigit)
    exact Nat.lt_of_lt_of_le small (Nat.pow_le_pow_right (by decide) size)
  · contradiction

/-- A year that begins with a digit has no sign. -/
theorem year?_bounds {ch : Char} {cs rest : List Char} {year : Int}
    (digit : Text.isDecimalDigit ch = true) (found : year? (ch :: cs) = some (year, rest)) :
    0 ≤ year ∧ year ≤ 9999 := by
  have visible := Text.isBlank_of_isDecimalDigit digit
  have here : skipBlanks (ch :: cs) = ch :: cs := by simp [skipBlanks, visible]
  rw [year?, here] at found
  split at found
  next same =>
    cases same
    exact absurd digit (by decide)
  next same =>
    cases same
    exact absurd digit (by decide)
  next =>
    obtain ⟨⟨n, after⟩, field, same⟩ := Option.map_eq_some_iff.mp found
    cases same
    have small := digits?_lt field
    omega

theorem date?_bounds {ch : Char} {cs : List Char} {d : Date}
    (digit : Text.isDecimalDigit ch = true) (found : date? (ch :: cs) = some d) :
    d.FourDigits := by
  simp only [date?, Option.bind_eq_bind, Option.bind_eq_some_iff] at found
  obtain ⟨⟨year, _⟩, first, _, _, _, _, _, _, _, _, parts⟩ := found
  have bounds := year?_bounds digit first
  split at parts
  · rwa [Date.FourDigits, (Date.ofParts?_eq_some.mp parts).1]
  · contradiction

/-- Clocks are ahead of UTC by less than a day. -/
theorem offset?_bounds {cs rest : List Char} {ahead : Int}
    (found : offset? cs = some (ahead, rest)) : -1440 < ahead ∧ ahead < 1440 := by
  cases cs with
  | nil => contradiction
  | cons sign cs =>
    rw [offset?] at found
    split at found
    · cases found
      decide
    · split at found
      · simp only [Option.bind_eq_bind, Option.bind_eq_some_iff] at found
        obtain ⟨⟨hours, _⟩, _, _, _, ⟨minutes, _⟩, _, signed⟩ := found
        split at signed
        · cases signed
          split <;> omega
        · contradiction
      · contradiction

end Calendar

namespace Instant

/-- A clock that shows UTC. -/
theorem ofLocal?_zero (i : Instant) : ofLocal? i.date i.time 0 = some i := by
  have inside := i.time.isTime.1
  rw [TimeOfDay.secondsPerDay] at inside
  have days : ((i.time.seconds : Int) - 60 * 0) / TimeOfDay.secondsPerDay = 0 := by
    rw [TimeOfDay.secondsPerDay]
    omega
  have seconds : (((i.time.seconds : Int) - 60 * 0) % TimeOfDay.secondsPerDay).toNat =
      i.time.seconds := by
    rw [TimeOfDay.secondsPerDay]
    omega
  simp only [ofLocal?, days, seconds, Int.add_zero, Date.ofDayNumber?_dayNumber, Option.map_some]

/-- A clock within a day of UTC shows an instant of the calendar. -/
theorem exists_ofLocal? {date : Date} (t : TimeOfDay) {ahead : Int} (year : date.FourDigits)
    (least : -1440 < ahead) (most : ahead < 1440) : ∃ i, ofLocal? date t ahead = some i := by
  obtain ⟨low, high⟩ := date.dayNumber_bounds
  rw [Date.FourDigits] at year
  have first := Date.yearStart_mono (m := -1) (n := date.year - 1) (by omega)
  have last := Date.yearStart_mono (m := date.year + 1) (n := 10000) (by omega)
  have room : Date.yearStart Date.firstYear + 1 ≤ Date.yearStart (-1) ∧
      Date.yearStart 10000 + 1 ≤ Date.yearStart Date.lastYear := by decide
  have inside := t.isTime.1
  rw [TimeOfDay.secondsPerDay] at inside
  have days : -1 ≤ ((t.seconds : Int) - 60 * ahead) / TimeOfDay.secondsPerDay ∧
      ((t.seconds : Int) - 60 * ahead) / TimeOfDay.secondsPerDay ≤ 1 := by
    rw [TimeOfDay.secondsPerDay]
    omega
  obtain ⟨day, found⟩ := Date.exists_ofDayNumber? (n := date.dayNumber +
    ((t.seconds : Int) - 60 * ahead) / TimeOfDay.secondsPerDay) (by omega) (by omega)
  exact ⟨_, by rw [ofLocal?, found]; rfl⟩

/-- An offset that is read leaves no date of four digits without an instant. -/
theorem exists_ofLocal?_of_offset? {date : Date} (t : TimeOfDay) {cs rest : List Char} {ahead : Int}
    (year : date.FourDigits) (found : Calendar.offset? cs = some (ahead, rest)) :
    ∃ i, ofLocal? date t ahead = some i :=
  exists_ofLocal? t year (Calendar.offset?_bounds found).1 (Calendar.offset?_bounds found).2

/-! ## Reading instants -/

theorem toChars_of_fourDigits {i : Instant} (year : i.date.FourDigits) : i.toChars =
    Date.padded 4 i.date.year.toNat ++ '-' :: (Date.padded 2 i.date.month ++ '-' ::
      (Date.padded 2 i.date.day ++ 'T' :: (Date.padded 2 i.time.hour ++ ':' ::
        (Date.padded 2 i.time.minute ++ ':' :: (Date.padded 2 i.time.writtenSecond ++
          (TimeOfDay.fractionChars (i.time.nanoseconds % TimeOfDay.nanosecondsPerSecond) ++
            ['Z'])))))) := by
  simp [toChars, Date.toChars_of_year year, TimeOfDay.toChars, TimeOfDay.clockChars]

end Instant

namespace Calendar

open Text

theorem twoDigits?_padded {n : Nat} {c : Char} {rest : List Char} (small : n < 100)
    (stop : c.isDigit = false) :
    digits? 2 2 (Date.padded 2 n ++ c :: rest) = some (n, c :: rest) :=
  digits?_padded 2 2 2 (by decide) small (by decide) (by decide) (Before.singleton c rest)
    (List.forall_mem_singleton.mpr stop)

/-- The last field ends where the fraction begins, or where there is none. -/
theorem twoDigits?_second {n nanoseconds : Nat} (small : n < 100) :
    digits? 2 2 (Date.padded 2 n ++ (TimeOfDay.fractionChars nanoseconds ++ ['Z'])) =
      some (n, TimeOfDay.fractionChars nanoseconds ++ ['Z']) := by
  have stops : Before ['.', 'Z'] (TimeOfDay.fractionChars nanoseconds ++ ['Z']) := by
    cases chars : TimeOfDay.fractionChars nanoseconds with
    | nil => exact Before.cons (by decide) []
    | cons c more =>
      have point := before_fractionChars nanoseconds c (by rw [chars]; rfl)
      rw [List.mem_singleton.mp point]
      exact Before.cons (by decide) (more ++ ['Z'])
  exact digits?_padded 2 2 2 (by decide) small (by decide) (by decide) stops (by decide)

/-- An instant whose year has four digits is read from its text. -/
theorem instant?_toChars {i : Instant} (year : i.date.FourDigits) :
    instant? i.toChars = some i := by
  obtain ⟨month, dayOfMonth⟩ := i.date.month_day_lt
  obtain ⟨hour, minute, second⟩ := i.time.fields_lt_hundred
  have part : i.time.nanoseconds % TimeOfDay.nanosecondsPerSecond <
      TimeOfDay.nanosecondsPerSecond := Nat.mod_lt _ (by decide)
  have readDate : Date.ofParts? i.date.year.toNat i.date.month i.date.day = some i.date :=
    Date.ofParts?_eq_some.mpr ⟨(Int.toNat_of_nonneg year.1).symm, rfl, rfl⟩
  have readYear (rest : List Char) := digits?_padded 4 4 4 (by decide) year.toNat_lt (by decide)
    (by decide) (Before.singleton '-' rest) (by decide)
  have readFraction := fraction?_fractionChars part (Before.singleton 'Z' []) (by decide)
    (by decide)
  rw [Instant.toChars_of_fourDigits year]
  refine Option.bind_eq_some_iff.mpr ⟨_, readYear _, ?_⟩
  refine Option.bind_eq_some_iff.mpr ⟨_, char?_cons _ _, ?_⟩
  refine Option.bind_eq_some_iff.mpr ⟨_, twoDigits?_padded month (by decide), ?_⟩
  refine Option.bind_eq_some_iff.mpr ⟨_, char?_cons _ _, ?_⟩
  refine Option.bind_eq_some_iff.mpr ⟨_, twoDigits?_padded dayOfMonth (by decide), ?_⟩
  refine Option.bind_eq_some_iff.mpr ⟨_, twoDigits?_padded hour (by decide), ?_⟩
  refine Option.bind_eq_some_iff.mpr ⟨_, char?_cons _ _, ?_⟩
  refine Option.bind_eq_some_iff.mpr ⟨_, twoDigits?_padded minute (by decide), ?_⟩
  refine Option.bind_eq_some_iff.mpr ⟨_, char?_cons _ _, ?_⟩
  refine Option.bind_eq_some_iff.mpr ⟨_, twoDigits?_second second, ?_⟩
  refine Option.bind_eq_some_iff.mpr ⟨_, readFraction, ?_⟩
  refine Option.bind_eq_some_iff.mpr ⟨(0, []), rfl, ?_⟩
  refine Option.bind_eq_some_iff.mpr ⟨_, readDate, ?_⟩
  refine Option.bind_eq_some_iff.mpr ⟨_, i.time.ofParts?_fields, ?_⟩
  exact i.ofLocal?_zero

/-- An instant has no sign in front of its year. -/
theorem instant?_toChars_eq_none {i : Instant} (year : ¬ i.date.FourDigits) :
    instant? i.toChars = none := by
  rw [Date.FourDigits] at year
  obtain ⟨sign, rest, chars, other⟩ : ∃ sign rest, i.toChars = sign :: rest ∧
      sign.isDigit = false := by
    rw [Instant.toChars, Date.toChars, Date.yearChars, if_neg year]
    exact ⟨_, _, rfl, by split <;> decide⟩
  have noYear : digits? 4 4 (sign :: rest) = none := by simp [digits?, other]
  rw [chars, instant?, noYear]
  rfl

end Calendar

end OData
