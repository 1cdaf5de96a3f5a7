/-!
# Dates, times of day and instants

Dates of the Gregorian calendar, extended to the years before it.  `dayNumber` and `ofDayNumber?`
count days; a year outside 0 to 9999 is written with a sign.

Times of day are seconds since midnight and nanoseconds.  A leap second is the second before it
with at least `10 ^ 9` nanoseconds, so that it lies between its neighbours; it is written `:60`.

An instant is a date and a time of day in UTC.
-/

set_option autoImplicit false

namespace OData

/-! ## Dates -/

namespace Date

def isLeapYear (year : Int) : Bool :=
  year % 4 == 0 && (year % 100 != 0 || year % 400 == 0)

def daysInMonth (year : Int) (month : Nat) : Nat :=
  if month = 2 then if isLeapYear year then 29 else 28
  else if month = 4 ∨ month = 6 ∨ month = 9 ∨ month = 11 then 30
  else 31

/-- The years that dates may have. -/
def firstYear : Int := -262143
def lastYear : Int := 262142

/-- Whether there is such a day. -/
def IsDay (year : Int) (month day : Nat) : Prop :=
  firstYear ≤ year ∧ year ≤ lastYear ∧ 1 ≤ month ∧ month ≤ 12 ∧ 1 ≤ day
    ∧ day ≤ daysInMonth year month

instance (year : Int) (month day : Nat) : Decidable (IsDay year month day) :=
  inferInstanceAs (Decidable (_ ∧ _))

end Date

/-- A day of the calendar. -/
structure Date where
  year : Int
  month : Nat
  day : Nat
  isDay : Date.IsDay year month day
  deriving DecidableEq, Repr

namespace Date

def ofParts? (year : Int) (month day : Nat) : Option Date :=
  if isDay : IsDay year month day then some ⟨year, month, day, isDay⟩ else none

def compare (a b : Date) : Ordering :=
  (Ord.compare a.year b.year).then
    ((Ord.compare a.month b.month).then (Ord.compare a.day b.day))

/-- Days from the first of March of year 0. -/
def dayNumber (d : Date) : Int :=
  let year := if d.month ≤ 2 then d.year - 1 else d.year
  let month : Int := if d.month ≤ 2 then d.month + 9 else d.month - 3
  365 * year + year / 4 - year / 100 + year / 400 + (153 * month + 2) / 5 + d.day - 1

/-- The day with a number, if its year is one that dates may have. -/
def ofDayNumber? (n : Int) : Option Date :=
  let era := n / 146097
  let day := n % 146097
  let year := (day - day / 1460 + day / 36524 - day / 146096) / 365
  let dayOfYear := day - (365 * year + year / 4 - year / 100)
  let month := (5 * dayOfYear + 2) / 153
  let dayOfMonth := dayOfYear - (153 * month + 2) / 5 + 1
  let calendarMonth := if month < 10 then month + 3 else month - 9
  let calendarYear := year + era * 400 + if calendarMonth ≤ 2 then 1 else 0
  ofParts? calendarYear calendarMonth.toNat dayOfMonth.toNat

/-- A number of at least `width` digits. -/
def padded (width n : Nat) : List Char :=
  let digits := Nat.toDigits 10 n
  List.replicate (width - digits.length) '0' ++ digits

def yearChars (year : Int) : List Char :=
  if 0 ≤ year ∧ year ≤ 9999 then padded 4 year.toNat
  else (if year < 0 then '-' else '+') :: padded 4 year.natAbs

def toChars (d : Date) : List Char :=
  yearChars d.year ++ '-' :: (padded 2 d.month ++ '-' :: padded 2 d.day)

def toText (d : Date) : String := String.ofList d.toChars

end Date

/-! ## Times of day -/

namespace TimeOfDay

def nanosecondsPerSecond : Nat := 1000000000

def secondsPerDay : Nat := 86400

/-- Whether a clock can show the time: a leap second is the last one of its minute. -/
def IsTime (seconds nanoseconds : Nat) : Prop :=
  seconds < secondsPerDay ∧ (nanoseconds < nanosecondsPerSecond ∨
    seconds % 60 = 59 ∧ nanoseconds < 2 * nanosecondsPerSecond)

instance (seconds nanoseconds : Nat) : Decidable (IsTime seconds nanoseconds) :=
  inferInstanceAs (Decidable (_ ∧ _))

end TimeOfDay

/-- A time that a clock can show. -/
structure TimeOfDay where
  seconds : Nat
  nanoseconds : Nat
  isTime : TimeOfDay.IsTime seconds nanoseconds
  deriving DecidableEq, Repr

namespace TimeOfDay

/-- A time from its fields; `second` may be 60 for a leap second. -/
def ofParts? (hour minute second nanosecond : Nat) : Option TimeOfDay :=
  if fields : hour < 24 ∧ minute < 60 ∧ second ≤ 60 ∧ nanosecond < nanosecondsPerSecond then
    if leap : second = 60 then
      some ⟨hour * 3600 + minute * 60 + 59, nanosecondsPerSecond + nanosecond, by
        simp only [IsTime, secondsPerDay, nanosecondsPerSecond] at fields ⊢; omega⟩
    else
      some ⟨hour * 3600 + minute * 60 + second, nanosecond, by
        simp only [IsTime, secondsPerDay, nanosecondsPerSecond] at fields ⊢; omega⟩
  else none

def hour (t : TimeOfDay) : Nat := t.seconds / 3600

def minute (t : TimeOfDay) : Nat := t.seconds / 60 % 60

/-- The second of the minute; a leap second counts as the one before it. -/
def second (t : TimeOfDay) : Nat := t.seconds % 60

def compare (a b : TimeOfDay) : Ordering :=
  (Ord.compare a.seconds b.seconds).then (Ord.compare a.nanoseconds b.nanoseconds)

/-- A fraction of 3, 6 or 9 digits, the fewest that are exact, or none at all. -/
def fractionChars (nanoseconds : Nat) : List Char :=
  if nanoseconds = 0 then []
  else if nanoseconds % 1000000 = 0 then '.' :: Date.padded 3 (nanoseconds / 1000000)
  else if nanoseconds % 1000 = 0 then '.' :: Date.padded 6 (nanoseconds / 1000)
  else '.' :: Date.padded 9 nanoseconds

/-- The second that is written, 60 for a leap second. -/
def writtenSecond (t : TimeOfDay) : Nat := t.second + t.nanoseconds / nanosecondsPerSecond

def clockChars (t : TimeOfDay) : List Char :=
  Date.padded 2 t.hour ++ ':' :: (Date.padded 2 t.minute ++ ':' :: Date.padded 2 t.writtenSecond)

def toChars (t : TimeOfDay) : List Char :=
  t.clockChars ++ fractionChars (t.nanoseconds % nanosecondsPerSecond)

def toText (t : TimeOfDay) : String := String.ofList t.toChars

end TimeOfDay

/-! ## Instants -/

structure Instant where
  date : Date
  time : TimeOfDay
  deriving DecidableEq, Repr

namespace Instant

def compare (a b : Instant) : Ordering :=
  (Date.compare a.date b.date).then (TimeOfDay.compare a.time b.time)

/-- The instant at which a clock `ahead` minutes ahead of UTC shows a date and a time.  Such
clocks show the same second, so that a leap second remains the last one of its minute. -/
def ofLocal? (date : Date) (time : TimeOfDay) (ahead : Int) : Option Instant :=
  let seconds : Int := time.seconds - 60 * ahead
  (Date.ofDayNumber? (date.dayNumber + seconds / TimeOfDay.secondsPerDay)).map fun day =>
    ⟨day, (seconds % TimeOfDay.secondsPerDay).toNat, time.nanoseconds, by
      have ⟨_, second⟩ := time.isTime
      simp only [TimeOfDay.IsTime, TimeOfDay.secondsPerDay] at second ⊢
      omega⟩

def toChars (i : Instant) : List Char := i.date.toChars ++ 'T' :: (i.time.toChars ++ ['Z'])

def toText (i : Instant) : String := String.ofList i.toChars

end Instant

end OData
