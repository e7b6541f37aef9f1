/-!
# Calendar dates

Dates of the Gregorian calendar, extended to all years from -262143 to 262142, with a year zero.
Only dates that exist can be built. `Date.number` counts days, so that differences of dates are
differences of numbers.
-/

namespace BenchCharts

/-- Every fourth year is a leap year, except for full centuries that 400 does not divide. -/
def isLeapYear (year : Int) : Bool := year % 4 == 0 && (year % 100 != 0 || year % 400 == 0)

/-- The number of days of a month. -/
def daysInMonth (year : Int) (month : Nat) : Nat :=
  if month = 2 then (if isLeapYear year then 29 else 28)
  else if month = 4 ∨ month = 6 ∨ month = 9 ∨ month = 11 then 30
  else 31

/-- The date exists, and its year is one of those in use. -/
def Date.Valid (year : Int) (month day : Nat) : Prop :=
  -262143 ≤ year ∧ year ≤ 262142 ∧ 1 ≤ month ∧ month ≤ 12 ∧ 1 ≤ day ∧ day ≤ daysInMonth year month

instance (year : Int) (month day : Nat) : Decidable (Date.Valid year month day) :=
  inferInstanceAs (Decidable (_ ∧ _))

/-- A day of the calendar. -/
structure Date where
  /-- The year; the year before 1 is 0. -/
  year : Int
  /-- The month, from 1 to 12. -/
  month : Nat
  /-- The day of the month, from 1. -/
  day : Nat
  /-- The date exists. -/
  valid : Date.Valid year month day
deriving DecidableEq

namespace Date

/-- The date with a year, a month and a day, if it exists. -/
def of? (year : Int) (month day : Nat) : Option Date :=
  if h : Valid year month day then some ⟨year, month, day, h⟩ else none

/-- The day after, unless the calendar ends. -/
def next? (d : Date) : Option Date :=
  if d.day < daysInMonth d.year d.month then of? d.year d.month (d.day + 1)
  else if d.month < 12 then of? d.year (d.month + 1) 1
  else of? (d.year + 1) 1 1

/-- The day before, unless the calendar starts. -/
def previous? (d : Date) : Option Date :=
  if 1 < d.day then of? d.year d.month (d.day - 1)
  else if 1 < d.month then of? d.year (d.month - 1) (daysInMonth d.year (d.month - 1))
  else of? (d.year - 1) 12 31

/-- The days of a year before a month. -/
def daysBeforeMonth (year : Int) : Nat → Nat
  | 0 => 0
  | month + 1 => if month = 0 then 0 else daysBeforeMonth year month + daysInMonth year month

/-- The days from the first of January of the year 1 to the one of another year. -/
def daysBeforeYear (year : Int) : Int :=
  let full := year - 1
  365 * full + full / 4 - full / 100 + full / 400

/-- The number of a day; the first of January of the year 1 has the number 1. -/
def number (d : Date) : Int := daysBeforeYear d.year + daysBeforeMonth d.year d.month + d.day

/-- A date that exists is the one with its year, month and day. -/
@[simp] theorem of?_self (d : Date) : of? d.year d.month d.day = some d := by
  simp [of?, d.valid]

/-- A month has two digits. -/
theorem month_lt (d : Date) : d.month < 100 := by
  obtain ⟨-, -, -, hmonth, -, -⟩ := d.valid
  omega

/-- No month is longer than 31 days. -/
theorem daysInMonth_le (year : Int) (month : Nat) : daysInMonth year month ≤ 31 := by
  unfold daysInMonth
  split
  · split <;> omega
  · split <;> omega

/-- A day has two digits. -/
theorem day_lt (d : Date) : d.day < 100 := by
  obtain ⟨-, -, -, -, -, hday⟩ := d.valid
  have hmonth := daysInMonth_le d.year d.month
  omega

end Date

end BenchCharts
