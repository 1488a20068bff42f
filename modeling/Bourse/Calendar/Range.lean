import Bourse.Calendar.Pattern
/-!
Ranges of time, from their start up to but without their end, as they follow from a lookback such as
three months or from bounds given as text.
-/
namespace Bourse

/-- A range of time; the end does not belong to it. -/
structure DateRange where
  start : Moment
  stop : Moment
deriving DecidableEq, Repr

/-- The reasons why no range can be made out. -/
inductive RangeError where
  | badMoment (text : String)
  | badLookback (text : String)
  | badUnit (unit : String)
  /-- A start that is not before the end. -/
  | empty
  /-- A start before the first day of the calendar. -/
  | outOfCalendar
  /-- A count or a bound with too many digits. -/
  | tooManyDigits
deriving DecidableEq, Repr

/-- The text of an error, for those that have one. -/
def RangeError.message? : RangeError → Option String
  | badMoment text => some s!"Invalid datetime format: {text}"
  | badLookback text => some s!"Invalid lookback format: {text}"
  | badUnit unit =>
    some s!"Invalid lookback unit '{unit}'. Use d (days), w (weeks), mo (months), or y (years)"
  | empty => some "'start' must be before 'end'"
  | outOfCalendar => none
  | tooManyDigits => none

/-- A bound of a range as it is given. -/
inductive Bound where
  | text (text : String)
  | moment (moment : Moment)
  /-- What cannot be written as text. -/
  | unwritable

namespace Bound

/-- A text with every `Z` in the place of an offset written as one. -/
def spellOutZones (text : String) : String :=
  String.ofList (text.toList.flatMap fun c => if c = 'Z' then "+00:00".toList else [c])

/-- The moment of a bound, in universal time if it has no offset. A text is a moment of ISO 8601, or
a year, a month and a day with hyphens. -/
def resolve : Bound → Except RangeError Moment
  | moment m => .ok m.inZone
  | unwritable => .error .tooManyDigits
  | text s =>
    match Iso.read (spellOutZones s) with
    | .ok m => .ok m.inZone
    | .error _ =>
      match Pattern.read "%Y-%m-%d" s with
      | .ok m => .ok m.inZone
      | .error _ => .error (.badMoment s)

end Bound

namespace DateRange

/-- The days of a unit; months and years are taken as 30 and 365 days. -/
def unitDays? (unit : String) : Option Nat :=
  [("d", 1), ("w", 7), ("wk", 7), ("m", 30), ("mo", 30), ("y", 365)].lookup unit

/-- The moment a number of days earlier. -/
def daysBefore (m : Moment) (days : Nat) : Except RangeError Moment :=
  (m.shift? (-(days * Moment.day : Nat))).elim (.error .outOfCalendar) .ok

/-- The count and the unit of a lookback: digits and then letters, with blanks around. -/
def splitLookback? (lookback : String) : Option (List Char × String) :=
  let body := (Text.lower (String.ofList (Text.trim lookback.toList))).toList
  let digits := body.takeWhile Pattern.anyDigit
  let unit := body.drop digits.length
  if digits.isEmpty || unit.isEmpty || !unit.all (Pattern.between 'a' 'z') then none
  else some (digits, String.ofList unit)

/-- The range that ends at a moment and starts a lookback before it. -/
def ofLookback (lookback : String) (now : Moment) : Except RangeError DateRange := do
  match splitLookback? lookback with
  | none => throw (.badLookback lookback)
  | some (digits, unit) =>
    if Numeral.mostDigits < digits.length then throw .tooManyDigits
    match unitDays? unit with
    | none => throw (.badUnit unit)
    | some days => return ⟨← daysBefore now (Pattern.number digits * days), now⟩

/-- The lookback where nothing else is given. -/
def usualLookback : String := "1y"

/-- The range of a lookback if that is not empty, of the bounds if one is given, and of the usual
lookback otherwise. Without an end it ends now; without a start it covers 365 days. -/
def resolve (now : Moment) (lookback : Option String) (start stop : Option Bound)
    (usual : String := usualLookback) : Except RangeError DateRange := do
  match lookback with
  | some text => if text ≠ "" then return ← ofLookback text now
  | none => pure ()
  if start.isNone && stop.isNone then return ← ofLookback usual now
  let last ← match stop with
    | some bound => bound.resolve
    | none => pure now
  let first ← match start with
    | some bound => bound.resolve
    | none => daysBefore last 365
  if last.instant ≤ first.instant then throw .empty
  return ⟨first, last⟩

/-- Whether a timestamp lies in a range, both bounds cut to whole seconds. -/
def covers (range : DateRange) (timestamp : Int) : Bool :=
  range.start.timestamp ≤ timestamp && timestamp < range.stop.timestamp

end DateRange

end Bourse
