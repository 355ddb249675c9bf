namespace RowProjection.Calendar

/-- Year, month and day. -/
structure Civil where
  year : Int
  month : Nat
  day : Nat
  deriving DecidableEq, Repr

def isLeapYear (year : Int) : Bool :=
  year % 4 == 0 && (year % 100 != 0 || year % 400 == 0)

def daysInMonth (year : Int) (month : Nat) : Nat :=
  if month = 2 then (if isLeapYear year then 29 else 28)
  else if month ∈ [4, 6, 9, 11] then 30
  else 31

namespace Civil

def isValid (civil : Civil) : Bool :=
  1 ≤ civil.month && civil.month ≤ 12 && 1 ≤ civil.day &&
    civil.day ≤ daysInMonth civil.year civil.month

/-- The day number of the proleptic Gregorian calendar; day 1 is the first of January of year 1.
Years are counted from March, so that a leap day ends its year, and in cycles of 400 years, which
all have 146097 days. -/
def dayNumber (civil : Civil) : Int :=
  let fromMarch : Int := if civil.month ≤ 2 then civil.month + 9 else civil.month - 3
  let year := if civil.month ≤ 2 then civil.year - 1 else civil.year
  let cycle := year / 400
  let yearOfCycle := year % 400
  let dayOfYear := (153 * fromMarch + 2) / 5 + civil.day - 1
  cycle * 146097 + (yearOfCycle * 365 + yearOfCycle / 4 - yearOfCycle / 100 + dayOfYear) - 305

/-- The date with a given day number. -/
def ofDayNumber (number : Int) : Civil :=
  let sinceMarch := number + 305
  let cycle := sinceMarch / 146097
  let dayOfCycle := sinceMarch % 146097
  let yearOfCycle :=
    (dayOfCycle - dayOfCycle / 1460 + dayOfCycle / 36524 - dayOfCycle / 146096) / 365
  let dayOfYear := dayOfCycle - (365 * yearOfCycle + yearOfCycle / 4 - yearOfCycle / 100)
  let fromMarch := (5 * dayOfYear + 2) / 153
  let month := if fromMarch < 10 then fromMarch + 3 else fromMarch - 9
  { year := cycle * 400 + yearOfCycle + (if month ≤ 2 then 1 else 0)
    month := month.toNat
    day := (dayOfYear - (153 * fromMarch + 2) / 5 + 1).toNat }

end Civil

/-- The first day of year -262143. -/
def leastDay : Int := -95746129

/-- The last day of year 262142. -/
def greatestDay : Int := 95745399

/-- A day of the years -262143 to 262142. -/
structure Date where
  day : Int
  least_le : leastDay ≤ day
  le_greatest : day ≤ greatestDay
  deriving DecidableEq, Repr

namespace Date

def ofDayNumber? (day : Int) : Option Date :=
  if inRange : leastDay ≤ day ∧ day ≤ greatestDay then some ⟨day, inRange.1, inRange.2⟩ else none

/-- The date of a valid year, month and day. -/
def ofCivil? (civil : Civil) : Option Date :=
  if civil.isValid then ofDayNumber? civil.dayNumber else none

def civil (date : Date) : Civil :=
  .ofDayNumber date.day

theorem ofDayNumber?_day (date : Date) : ofDayNumber? date.day = some date := by
  simp [ofDayNumber?, date.least_le, date.le_greatest]

end Date

end RowProjection.Calendar
