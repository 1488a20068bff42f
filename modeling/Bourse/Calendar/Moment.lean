import Bourse.Calendar.Date
import Bourse.Number.Layout
/-!
Moments: a reading of the calendar and the clock to the microsecond, with or without the offset of
the zone it was taken in. A moment without offset counts as universal time.
-/
namespace Bourse

/-- A reading of calendar and clock, in microseconds since the start of the year 1, and how far the
clock is ahead of universal time, in microseconds. -/
structure Moment where
  clock : Nat
  offset : Option Int := none
deriving DecidableEq, Repr

/-- What a reading of a calendar can refuse. -/
inductive CalendarFault where
  | notIso (text : String)
  | year (year : Nat)
  | month
  | day
  | hour
  | minute
  | second
  /-- An offset of a day or more. -/
  | offset (microseconds : Int)
deriving DecidableEq, Repr

namespace Moment

/-- The microseconds of a second. -/
def second : Nat := 1000000

/-- The microseconds of a day. -/
def day : Nat := 86400 * second

/-- The readings of the calendar end before this one. -/
def limit : Nat := Date.count * day

/-- The reading at the start of the year 1970. -/
def epoch : Nat := Date.number ⟨1970, 1, 1⟩ * day

/-- The moment with given fields, or the first field that is out of its range. -/
def ofFields (date : Date) (hour minute seconds microsecond : Nat) (offset : Option Int) :
    Except CalendarFault Moment :=
  if date.year < 1 ∨ Date.lastYear < date.year then .error (.year date.year)
  else if date.month < 1 ∨ 12 < date.month then .error .month
  else if date.day < 1 ∨ Date.daysInMonth date.year date.month < date.day then .error .day
  else if 23 < hour then .error .hour
  else if 59 < minute then .error .minute
  else if 59 < seconds then .error .second
  else
    .ok ⟨date.number * day + ((hour * 60 + minute) * 60 + seconds) * second + microsecond, offset⟩

/-- The date of a moment. -/
def date (m : Moment) : Date := Date.ofNumber (m.clock / day)

/-- The microseconds since midnight. -/
def timeOfDay (m : Moment) : Nat := m.clock % day

/-- The microseconds since the start of the year 1, in universal time. -/
def instant (m : Moment) : Int := m.clock - m.offset.getD 0

/-- A moment without offset, taken as universal time. -/
def inZone (m : Moment) : Moment := { m with offset := some (m.offset.getD 0) }

/-- The moment a number of microseconds later, unless the calendar ends before it. -/
def shift? (m : Moment) (microseconds : Int) : Option Moment :=
  let clock := m.clock + microseconds
  if clock < 0 ∨ (limit : Int) ≤ clock then none else some { m with clock := clock.toNat }

/-- The seconds since 1970 as a binary64 number. -/
def seconds (m : Moment) : Float :=
  let elapsed := m.instant - epoch
  Binary64.nearest (elapsed < 0) elapsed.natAbs second

/-- The whole part of a binary64 value. -/
def wholePart : Binary64 → Int
  | .finite negative mantissa exponent =>
    let (n, d) := scaleTwo mantissa 1 exponent
    if negative then -(n / d : Nat) else (n / d : Nat)
  | _ => 0

/-- The seconds since 1970 without their fraction. -/
def timestamp (m : Moment) : Int := wholePart (Binary64.ofFloat m.seconds)

/-- A natural in decimal digits, padded with zeros. -/
def padded (width n : Nat) : String :=
  String.ofList (Layout.padZeros width (Layout.digitsOf n))

/-- Hours, minutes and seconds of a number of microseconds, with its fraction of a second if there
is one; seconds are left out where they may be and are zero. -/
def clockText (needSeconds : Bool) (microseconds : Nat) : String :=
  let seconds := microseconds / second
  let fraction := microseconds % second
  let minutes := padded 2 (seconds / 3600) ++ ":" ++ padded 2 (seconds / 60 % 60)
  if needSeconds ∨ seconds % 60 ≠ 0 ∨ fraction ≠ 0 then
    minutes ++ ":" ++ padded 2 (seconds % 60) ++
      if fraction ≠ 0 then "." ++ padded 6 fraction else ""
  else minutes

/-- An offset with its sign. -/
def offsetText (microseconds : Int) : String :=
  (if microseconds < 0 then "-" else "+") ++ clockText false microseconds.natAbs

/-- A date with four digits of the year. -/
def dateText (d : Date) : String :=
  padded 4 d.year ++ "-" ++ padded 2 d.month ++ "-" ++ padded 2 d.day

/-- A moment in the form of ISO 8601, with a character between date and time. -/
def text (separator : String) (m : Moment) : String :=
  dateText m.date ++ separator ++ clockText true m.timeOfDay ++
    ((m.offset.map offsetText).getD "")

/-- A moment in the form of ISO 8601. -/
def iso (m : Moment) : String := m.text "T"

/-- A date as years, months and days where the year is not padded. -/
def plainDate (d : Date) : String :=
  Layout.integer d.year ++ "-" ++ padded 2 d.month ++ "-" ++ padded 2 d.day

end Moment

/-- A length of time as days, seconds and microseconds, the last two not negative. -/
def spanText (microseconds : Int) : String :=
  let days := microseconds.fdiv Moment.day
  let rest := (microseconds.fmod Moment.day).toNat
  let seconds := rest / Moment.second
  let fraction := rest % Moment.second
  let parts :=
    (if days ≠ 0 then [s!"days={days}"] else []) ++
    (if seconds ≠ 0 then [s!"seconds={seconds}"] else []) ++
    (if fraction ≠ 0 then [s!"microseconds={fraction}"] else [])
  "datetime.timedelta(" ++ (if parts.isEmpty then "0" else ", ".intercalate parts) ++ ")"

end Bourse
