/-!
Dates of the Gregorian calendar, and their numbering by days. Day 0 is the first of January of the
year 1; the calendar ends with the year 9999.
-/
namespace Bourse

/-- A date by year, month and day. -/
structure Date where
  year : Nat
  month : Nat
  day : Nat
deriving DecidableEq, Repr

namespace Date

/-- Whether a year has 366 days. -/
def isLeap (year : Nat) : Bool := year % 4 == 0 && (year % 100 != 0 || year % 400 == 0)

/-- The days of a year before a month, in a year of 365 days. -/
def daysBeforeMonths : Array Nat := #[0, 0, 31, 59, 90, 120, 151, 181, 212, 243, 273, 304, 334]

/-- The days of a year before a month. -/
def daysBeforeMonth (year month : Nat) : Nat :=
  daysBeforeMonths.getD month 0 + if 2 < month && isLeap year then 1 else 0

/-- The days of a month. -/
def daysInMonth (year month : Nat) : Nat :=
  if month = 2 then if isLeap year then 29 else 28
  else if month = 4 ∨ month = 6 ∨ month = 9 ∨ month = 11 then 30
  else 31

/-- The days before a year. -/
def daysBeforeYear (year : Nat) : Nat :=
  let past := year - 1
  past * 365 + past / 4 - past / 100 + past / 400

/-- The number of a date. -/
def number (date : Date) : Nat :=
  daysBeforeYear date.year + daysBeforeMonth date.year date.month + (date.day - 1)

/-- The last year of the calendar. -/
def lastYear : Nat := 9999

/-- The number of days of the calendar. -/
def count : Nat := daysBeforeYear (lastYear + 1)

/-- The last month among the first `bound` ones that begins at or before a day of the year. -/
def monthOf (year dayOfYear : Nat) : Nat → Nat
  | 0 => 1
  | month + 1 =>
    if daysBeforeMonth year (month + 1) ≤ dayOfYear then month + 1 else monthOf year dayOfYear month

/-- The date with a number: full spans of 400, 100, 4 and 1 years are taken off in turn. -/
def ofNumber (n : Nat) : Date :=
  let span400 := n / 146097
  let n := n % 146097
  let span100 := min 3 (n / 36524)
  let n := n - span100 * 36524
  let span4 := n / 1461
  let n := n % 1461
  let span1 := min 3 (n / 365)
  let n := n - span1 * 365
  let year := span400 * 400 + span100 * 100 + span4 * 4 + span1 + 1
  let month := monthOf year n 12
  ⟨year, month, n - daysBeforeMonth year month + 1⟩

/-- The day of the week of a day number, Monday being 0. -/
def weekdayOf (n : Nat) : Nat := n % 7

/-- The day number of the Monday that begins the first week of a year, the week with the fourth of
January. -/
def firstMonday (year : Nat) : Int :=
  let newYear := daysBeforeYear year
  let weekday := weekdayOf newYear
  (newYear : Int) - weekday + if 3 < weekday then 7 else 0

/-- Whether the weeks of a year are 53: it begins on a Thursday, or on a Wednesday and is leap. -/
def hasLongWeeks (year : Nat) : Bool :=
  let weekday := weekdayOf (daysBeforeYear year)
  weekday == 3 || (weekday == 2 && isLeap year)

end Date

end Bourse
