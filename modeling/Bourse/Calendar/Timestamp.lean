import Bourse.Calendar.Moment
/-!
Moments by their timestamps, the seconds since 1970, and their short texts.
-/
namespace Bourse

/-- The reasons why a timestamp has no date. -/
inductive TimestampFault where
  /-- A year before the first or after the last of the calendar. -/
  | beyondCalendar
  /-- A year that has no place in 32 bits when counted from 1900. -/
  | beyondYears
  /-- A timestamp that has no place in 64 bits. -/
  | beyondWord
deriving DecidableEq, Repr

namespace Moment

/-- The first second of the year `1900 - 2 ^ 31`. -/
def firstSecond : Int := -67768040609740800

/-- The last second of the year `1899 + 2 ^ 31`. -/
def lastSecond : Int := 67768036191676799

/-- The number of timestamps without sign that have a place in 64 bits. -/
def wordLimit : Int := 9223372036854775808

/-- The moment a number of seconds after the start of 1970, in universal time. -/
def ofTimestamp (seconds : Int) : Except TimestampFault Moment :=
  if seconds < -wordLimit ∨ wordLimit ≤ seconds then .error .beyondWord
  else if seconds < firstSecond ∨ lastSecond < seconds then .error .beyondYears
  else
    match ({ clock := epoch, offset := some 0 } : Moment).shift? (seconds * second) with
    | some m => .ok m
    | none => .error .beyondCalendar

/-- The date of a moment; the year is not padded. -/
def dayText (m : Moment) : String := plainDate m.date

/-- The date and the time of a moment up to its minute; the year is not padded. -/
def minuteText (m : Moment) : String :=
  let minutes := m.timeOfDay / (60 * second)
  s!"{plainDate m.date} {padded 2 (minutes / 60)}:{padded 2 (minutes % 60)}"

end Moment

end Bourse
