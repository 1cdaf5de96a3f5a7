import OData.Proofs.Calendar

/-!
# Day numbers and dates

A year that begins in March ends with the day that leap years have more, so that the day of such a
year tells the month by one formula.  `ofDayNumber?_dayNumber` finds a date again from its number,
and `exists_ofDayNumber?` says that a number within bounds is that of a day.
-/

set_option autoImplicit false

namespace OData.Date

/-! ## Years from March to February -/

/-- The number of the first of March of a year. -/
def yearStart (year : Int) : Int := 365 * year + year / 4 - year / 100 + year / 400

theorem isLeapYear_iff (year : Int) : isLeapYear year = true ↔
    year % 4 = 0 ∧ (year % 100 ≠ 0 ∨ year % 400 = 0) := by
  simp [isLeapYear]

theorem yearStart_succ (year : Int) :
    yearStart (year + 1) = yearStart year + if isLeapYear (year + 1) then 366 else 365 := by
  by_cases leap : isLeapYear (year + 1) = true
  · have rule := (isLeapYear_iff (year + 1)).mp leap
    rw [if_pos leap]
    simp only [yearStart]
    omega
  · have rule := mt (isLeapYear_iff (year + 1)).mpr leap
    rw [if_neg leap]
    simp only [yearStart]
    omega

theorem yearStart_mono {m n : Int} (le : m ≤ n) : yearStart m ≤ yearStart n := by
  have leapYears : m / 4 - m / 100 ≤ n / 4 - n / 100 := by omega
  simp only [yearStart]
  omega

/-- The calendar repeats itself after four hundred years. -/
theorem yearStart_era (era year : Int) :
    yearStart (year + era * 400) = yearStart year + era * 146097 := by
  simp only [yearStart]
  omega

/-- The year of a day among the days of four hundred years. -/
def yearOfEra (day : Int) : Int := (day - day / 1460 + day / 36524 - day / 146096) / 365

theorem yearOfEra_mono {m n : Int} (least : 0 ≤ m) (le : m ≤ n) (most : n < 146097) :
    yearOfEra m ≤ yearOfEra n := by
  apply Int.ediv_le_ediv (by decide)
  have years : m - m / 1460 ≤ n - n / 1460 := by omega
  have centuries : m / 36524 - m / 146096 ≤ n / 36524 - n / 146096 := by omega
  omega

theorem yearOfEra_eq {year day : Int} (least : 0 ≤ year) (most : year < 400)
    (first : yearStart year ≤ day) (last : day < yearStart (year + 1)) : yearOfEra day = year := by
  have ends : ∀ y < 400, yearOfEra (yearStart (y : Nat)) = y ∧
      yearOfEra (yearStart ((y : Nat) + 1) - 1) = y := by decide +kernel
  obtain ⟨y, rfl⟩ := Int.eq_ofNat_of_zero_le least
  obtain ⟨start, stop⟩ := ends y (by omega)
  have bounds : 0 ≤ yearStart (y : Nat) ∧ yearStart ((y : Nat) + 1) ≤ 146097 := by
    simp only [yearStart]
    omega
  have above := yearOfEra_mono bounds.1 first (by omega)
  have below := yearOfEra_mono (n := yearStart ((y : Nat) + 1) - 1) (Int.le_trans bounds.1 first)
    (by omega) (by omega)
  omega

theorem exists_year_of_lt {n : Int} (count : Nat) {year : Int} (first : yearStart year ≤ n)
    (last : n < yearStart (year + count)) : ∃ y, yearStart y ≤ n ∧ n < yearStart (y + 1) := by
  induction count generalizing year with
  | zero =>
    rw [Int.natCast_zero, Int.add_zero] at last
    omega
  | succ count ih =>
    by_cases here : n < yearStart (year + 1)
    · exact ⟨year, first, here⟩
    · have next : year + 1 + (count : Int) = year + (count + 1 : Nat) := by omega
      rw [← next] at last
      exact ih (Int.not_lt.mp here) last

/-- Each number is that of a day of some year. -/
theorem exists_year (n : Int) : ∃ year, yearStart year ≤ n ∧ n < yearStart (year + 1) := by
  -- The mean length of a year finds one nearby.
  have near : yearStart (n * 400 / 146097 - 2) ≤ n ∧
      n < yearStart (n * 400 / 146097 - 2 + (5 : Nat)) := by
    simp only [yearStart]
    omega
  exact exists_year_of_lt 5 near.1 near.2

/-! ## Days of such a year -/

/-- The days before a month that is counted from March. -/
def monthStart (month : Int) : Int := (153 * month + 2) / 5

/-- The date of a day that is counted from the first of March of a year. -/
def ofYearDay? (year day : Int) : Option Date :=
  let month := (5 * day + 2) / 153
  let calendarMonth := if month < 10 then month + 3 else month - 9
  ofParts? (year + if calendarMonth ≤ 2 then 1 else 0) calendarMonth.toNat
    (day - monthStart month + 1).toNat

theorem ofDayNumber?_yearStart {year day : Int} (first : 0 ≤ day)
    (last : yearStart year + day < yearStart (year + 1)) :
    ofDayNumber? (yearStart year + day) = ofYearDay? year day := by
  obtain ⟨rest, era, rfl, least, most⟩ :
      ∃ rest era : Int, year = rest + era * 400 ∧ 0 ≤ rest ∧ rest < 400 :=
    ⟨year % 400, year / 400, by omega, by omega, by omega⟩
  have next : rest + era * 400 + 1 = rest + 1 + era * 400 := by omega
  rw [next, yearStart_era, yearStart_era] at last
  have bounds : 0 ≤ yearStart rest ∧ yearStart (rest + 1) ≤ 146097 := by
    simp only [yearStart]
    omega
  have eraOf : (yearStart rest + era * 146097 + day) / 146097 = era := by omega
  have dayOf : (yearStart rest + era * 146097 + day) % 146097 = yearStart rest + day := by omega
  have yearOf : yearOfEra (yearStart rest + day) = rest :=
    yearOfEra_eq least most (by omega) (by omega)
  have dayOfYear : yearStart rest + day - (365 * rest + rest / 4 - rest / 100) = day := by
    simp only [yearStart]
    omega
  rw [yearOfEra] at yearOf
  simp only [yearStart_era, ofDayNumber?, eraOf, dayOf, yearOf, dayOfYear, ofYearDay?, monthStart]

theorem ofYearDay?_monthStart (year : Int) {month day : Int} (least : 0 ≤ month)
    (most : month ≤ 11) (first : 1 ≤ day) (last : monthStart month + day ≤ monthStart (month + 1)) :
    ofYearDay? year (monthStart month + day - 1) =
      ofParts? (year + if month < 10 then 0 else 1)
        (if month < 10 then month + 3 else month - 9).toNat day.toNat := by
  have monthOf : (5 * (monthStart month + day - 1) + 2) / 153 = month := by
    simp only [monthStart] at last ⊢
    omega
  have dayOf : monthStart month + day - 1 - monthStart month + 1 = day := by omega
  simp only [ofYearDay?, monthOf, dayOf]
  by_cases spring : month < 10
  · rw [if_pos spring, if_pos spring, if_neg (by omega)]
  · rw [if_neg spring, if_neg spring, if_pos (by omega)]

/-- The year from March to February in which a month lies. -/
def marchYear (year : Int) (month : Nat) : Int := if month ≤ 2 then year - 1 else year

/-- A month counted from March. -/
def fromMarch (month : Nat) : Int := if month ≤ 2 then month + 9 else month - 3

def yearDay (month day : Nat) : Int := monthStart (fromMarch month) + day - 1

theorem dayNumber_eq (d : Date) :
    d.dayNumber = yearStart (marchYear d.year d.month) + yearDay d.month d.day := by
  simp only [dayNumber, yearStart, yearDay, monthStart, marchYear, fromMarch]
  omega

/-- The months but February have the days that the formula gives them. -/
theorem monthStart_succ : ∀ month < 13, 1 ≤ month → month ≠ 2 →
    monthStart (fromMarch month + 1) = monthStart (fromMarch month) +
        (if month = 4 ∨ month = 6 ∨ month = 9 ∨ month = 11 then 30 else 31 : Nat) ∧
      monthStart (fromMarch month + 1) ≤ 365 := by decide

/-- A month ends where the next one begins, but the last one where the year ends. -/
theorem daysInMonth_eq (year : Int) {month : Nat} (first : 1 ≤ month) (last : month ≤ 12) :
    (daysInMonth year month : Int) =
      min (monthStart (fromMarch month + 1))
        (yearStart (marchYear year month + 1) - yearStart (marchYear year month)) -
          monthStart (fromMarch month) := by
  have length : 365 ≤ yearStart (marchYear year month + 1) - yearStart (marchYear year month) := by
    rw [yearStart_succ]
    split <;> omega
  by_cases february : month = 2
  · have whole : marchYear year month + 1 = year := by
      rw [marchYear, if_pos (by omega)]
      omega
    rw [yearStart_succ, whole, daysInMonth, if_pos february, february]
    simp only [fromMarch, monthStart]
    split <;> omega
  · obtain ⟨next, inside⟩ := monthStart_succ month (by omega) first february
    rw [daysInMonth, if_neg february]
    omega

theorem fromMarch_bounds {month : Nat} (first : 1 ≤ month) (last : month ≤ 12) :
    0 ≤ fromMarch month ∧ fromMarch month ≤ 11 ∧ 0 ≤ monthStart (fromMarch month) := by
  simp only [fromMarch, monthStart]
  split <;> omega

theorem yearDay_bounds (d : Date) : 0 ≤ yearDay d.month d.day ∧
    yearStart (marchYear d.year d.month) + yearDay d.month d.day <
      yearStart (marchYear d.year d.month + 1) := by
  obtain ⟨_, _, first, last, positive, inside⟩ := d.isDay
  obtain ⟨_, _, start⟩ := fromMarch_bounds first last
  have days := daysInMonth_eq d.year first last
  rw [yearDay]
  omega

/-- A date is found again from its number. -/
theorem ofDayNumber?_dayNumber (d : Date) : ofDayNumber? d.dayNumber = some d := by
  obtain ⟨_, _, first, last, positive, inside⟩ := d.isDay
  obtain ⟨least, most, _⟩ := fromMarch_bounds first last
  obtain ⟨start, stop⟩ := d.yearDay_bounds
  have days := daysInMonth_eq d.year first last
  rw [dayNumber_eq, ofDayNumber?_yearStart start stop, yearDay,
    ofYearDay?_monthStart _ least most (by omega) (by omega), ofParts?_eq_some]
  simp only [marchYear, fromMarch]
  split <;> omega

/-- The days of a year lie between two firsts of March. -/
theorem dayNumber_bounds (d : Date) :
    yearStart (d.year - 1) ≤ d.dayNumber ∧ d.dayNumber < yearStart (d.year + 1) := by
  obtain ⟨start, stop⟩ := d.yearDay_bounds
  have near : d.year - 1 ≤ marchYear d.year d.month ∧ marchYear d.year d.month ≤ d.year := by
    rw [marchYear]
    split <;> omega
  have first := yearStart_mono near.1
  have last := yearStart_mono (m := marchYear d.year d.month + 1) (n := d.year + 1) (by omega)
  rw [dayNumber_eq]
  omega

/-- The days of a year that begins in March are days of the calendar. -/
theorem exists_ofYearDay? {year day : Int} (first : 0 ≤ day)
    (last : yearStart year + day < yearStart (year + 1))
    (bounds : firstYear ≤ year ∧ year < lastYear) : ∃ d, ofYearDay? year day = some d := by
  have long : day ≤ 365 := by
    rw [yearStart_succ] at last
    split at last <;> omega
  obtain ⟨month, least, most, start, stop⟩ : ∃ month : Int, 0 ≤ month ∧ month ≤ 11 ∧
      monthStart month ≤ day ∧ day < monthStart (month + 1) := by
    refine ⟨(5 * day + 2) / 153, ?_⟩
    simp only [monthStart]
    omega
  obtain ⟨dayOfMonth, rest⟩ : ∃ k, k = day - monthStart month + 1 := ⟨_, rfl⟩
  have made := ofYearDay?_monthStart year least most (by omega : 1 ≤ dayOfMonth) (by omega)
  have here : monthStart month + dayOfMonth - 1 = day := by omega
  rw [here] at made
  obtain ⟨calendarMonth, whichMonth⟩ :
      ∃ m, m = (if month < 10 then month + 3 else month - 9).toNat := ⟨_, rfl⟩
  obtain ⟨calendarYear, whichYear⟩ : ∃ y, y = year + if month < 10 then 0 else 1 := ⟨_, rfl⟩
  have fields : 1 ≤ calendarMonth ∧ calendarMonth ≤ 12 ∧ fromMarch calendarMonth = month ∧
      marchYear calendarYear calendarMonth = year := by
    simp only [fromMarch, marchYear]
    split at whichMonth <;> split at whichYear <;> omega
  obtain ⟨january, december, fromMarch, marchYear⟩ := fields
  have days := daysInMonth_eq calendarYear january december
  rw [fromMarch, marchYear] at days
  have near : year ≤ calendarYear ∧ calendarYear ≤ year + 1 := by
    split at whichYear <;> omega
  have isDay : IsDay calendarYear calendarMonth dayOfMonth.toNat := by
    rw [IsDay]
    omega
  rw [← whichMonth, ← whichYear, ofParts?, dif_pos isDay] at made
  exact ⟨_, made⟩

/-- A number within bounds is that of a day. -/
theorem exists_ofDayNumber? {n : Int} (least : yearStart firstYear ≤ n)
    (most : n < yearStart lastYear) : ∃ d, ofDayNumber? n = some d := by
  obtain ⟨year, first, last⟩ := exists_year n
  obtain ⟨day, rfl⟩ : ∃ day, n = yearStart year + day := ⟨n - yearStart year, by omega⟩
  rw [ofDayNumber?_yearStart (by omega) last]
  apply exists_ofYearDay? (by omega) last
  constructor
  · by_contra before
    have earlier := yearStart_mono (m := year + 1) (n := firstYear) (by omega)
    omega
  · by_contra after
    have later := yearStart_mono (m := lastYear) (n := year) (by omega)
    omega

end OData.Date
