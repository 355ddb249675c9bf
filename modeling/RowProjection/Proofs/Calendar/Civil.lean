import RowProjection.Proofs.Calendar.Epoch

/-! Day numbers and their years, months and days. Every day number is found again from its date,
which is a valid one. Years are counted from March: the four hundred years of a cycle, and the days
of a year, are determined by the day number alone. -/

namespace RowProjection.Calendar

namespace Civil

variable {cycle year day : Int}

/-- The centuries that have passed are told by the day alone. The last day of a cycle belongs to
the century that it ends. -/
theorem century_of_year (least : 0 ≤ day) (below : day < 146097)
    (same : year = (day - day / 1460 + day / 36524 - day / 146096) / 365) :
    year / 100 = day / 36524 - day / 146096 := by
  -- With the century fixed, what is left to the year is linear in the day.
  obtain century | century | century | century | century : day / 36524 = 0 ∨ day / 36524 = 1 ∨
      day / 36524 = 2 ∨ day / 36524 = 3 ∨ day / 36524 = 4 := by omega
  all_goals
    rw [century] at same ⊢
    omega

/-- The days of a cycle before a year that begins in March. -/
def daysBefore (year : Int) : Int :=
  365 * year + year / 4 - year / 100

/-- A day of a year that begins in March, in a cycle of 400 years. Only a year that ends with a
leap day has 366 days. -/
structure InMarchYear (year day : Int) : Prop where
  year_least : 0 ≤ year
  year_lt : year < 400
  day_least : 0 ≤ day
  day_le : day ≤ 365
  leap : day = 365 → year % 4 = 3 ∧ (year % 100 = 99 → year = 399)

theorem inMarchYear (least : 0 ≤ day) (below : day < 146097)
    (same : year = (day - day / 1460 + day / 36524 - day / 146096) / 365) :
    InMarchYear year (day - daysBefore year) := by
  have century := century_of_year least below same
  rw [daysBefore]
  constructor <;> omega

/-- The date of a day of a year that begins in March. -/
def ofMarch (cycle year day : Int) : Civil :=
  let fromMarch := (5 * day + 2) / 153
  let month := if fromMarch < 10 then fromMarch + 3 else fromMarch - 9
  { year := cycle * 400 + year + (if month ≤ 2 then 1 else 0)
    month := month.toNat
    day := (day - (153 * fromMarch + 2) / 5 + 1).toNat }

theorem exists_march (number : Int) : ∃ cycle year day, InMarchYear year day ∧
    number + 305 = cycle * 146097 + daysBefore year + day ∧
    ofDayNumber number = ofMarch cycle year day := by
  have least : 0 ≤ (number + 305) % 146097 := by omega
  have below : (number + 305) % 146097 < 146097 := by omega
  have place := inMarchYear least below rfl
  refine ⟨_, _, _, place, ?_, rfl⟩
  omega

theorem dayNumber_ofMarch (place : InMarchYear year day) :
    (ofMarch cycle year day).dayNumber = cycle * 146097 + daysBefore year + day - 305 := by
  obtain ⟨year_least, year_lt, day_least, day_le, _⟩ := place
  rw [ofMarch, dayNumber, daysBefore]
  dsimp only
  by_cases early : (5 * day + 2) / 153 < 10
  · rw [if_pos early]
    omega
  · rw [if_neg early]
    omega

theorem isLeapYear_of_march (fourth : year % 4 = 3) (century : year % 100 = 99 → year = 399) :
    isLeapYear (cycle * 400 + year + 1) = true := by
  simp only [isLeapYear, Bool.and_eq_true, Bool.or_eq_true, beq_iff_eq, bne_iff_ne]
  refine ⟨by omega, ?_⟩
  by_cases last : year = 399
  · exact .inr (by omega)
  · exact .inl (by omega)

theorem isValid_iff {civil : Civil} : civil.isValid = true ↔
    1 ≤ civil.month ∧ civil.month ≤ 12 ∧ 1 ≤ civil.day ∧
      civil.day ≤ daysInMonth civil.year civil.month := by
  simp only [isValid, Bool.and_eq_true, decide_eq_true_eq, and_assoc]

theorem daysInMonth_le (year : Int) (month : Nat) : daysInMonth year month ≤ 31 := by
  rw [daysInMonth]
  split
  · split <;> decide
  · split <;> decide

theorem le_daysInMonth {month day : Nat} (days : day ≤ 31)
    (short : month = 4 ∨ month = 6 ∨ month = 9 ∨ month = 11 → day ≤ 30)
    (february : month = 2 → day ≤ 28 ∨ day = 29 ∧ isLeapYear year = true) :
    day ≤ daysInMonth year month := by
  rw [daysInMonth]
  split
  · next second =>
    rcases february second with common | ⟨last, leap⟩
    · split <;> omega
    · rw [if_pos leap]
      omega
  · split
    · next listed => exact short (by simpa using listed)
    · exact days

theorem isValid_ofMarch (place : InMarchYear year day) :
    (ofMarch cycle year day).isValid = true := by
  obtain ⟨year_least, year_lt, day_least, day_le, leap⟩ := place
  rw [ofMarch, isValid_iff]
  dsimp only
  refine ⟨by omega, by omega, by omega, le_daysInMonth (by omega) (by omega) ?_⟩
  intro february
  have last : (5 * day + 2) / 153 = 11 := by omega
  rw [last]
  by_cases ends : day = 365
  · obtain ⟨fourth, century⟩ := leap ends
    subst ends
    exact .inr ⟨rfl, isLeapYear_of_march fourth century⟩
  · exact .inl (by omega)

variable (number : Int)

theorem dayNumber_ofDayNumber : (ofDayNumber number).dayNumber = number := by
  obtain ⟨cycle, year, day, place, counted, same⟩ := exists_march number
  rw [same, dayNumber_ofMarch place]
  omega

theorem isValid_ofDayNumber : (ofDayNumber number).isValid = true := by
  obtain ⟨cycle, year, day, place, _, same⟩ := exists_march number
  rw [same, isValid_ofMarch place]

theorem month_lt_hundred : (ofDayNumber number).month < 10 ^ 2 := by
  obtain ⟨_, greatest, _⟩ := isValid_iff.mp (isValid_ofDayNumber number)
  omega

theorem day_lt_hundred : (ofDayNumber number).day < 10 ^ 2 := by
  obtain ⟨_, _, _, greatest⟩ := isValid_iff.mp (isValid_ofDayNumber number)
  have most := daysInMonth_le (ofDayNumber number).year (ofDayNumber number).month
  omega

/-- The calendar has the years of four digits. -/
theorem inRange_of_year {number : Int} (least : 0 ≤ (ofDayNumber number).year)
    (greatest : (ofDayNumber number).year ≤ 9999) :
    leastDay ≤ number ∧ number ≤ greatestDay := by
  obtain ⟨cycle, year, day, place, counted, same⟩ := exists_march number
  obtain ⟨year_least, year_lt, day_least, day_le, _⟩ := place
  rw [same, ofMarch] at least greatest
  rw [daysBefore] at counted
  rw [leastDay, greatestDay]
  dsimp only at least greatest
  constructor <;> split at least <;> omega

end Civil

/-- A date is found again from its year, month and day. -/
theorem Date.ofCivil?_ofDayNumber {number : Int} {date : Date}
    (found : ofDayNumber? number = some date) : ofCivil? (.ofDayNumber number) = some date := by
  rw [ofCivil?, if_pos (Civil.isValid_ofDayNumber number), Civil.dayNumber_ofDayNumber, found]

end RowProjection.Calendar
