import Bourse.Calendar.Moment
import Bourse.Text.Quoted
/-!
Reading dates and times in the form of ISO 8601: calendar dates and week dates, with or without
separators, any character between date and time, and an optional offset.
-/
namespace Bourse

/-- The text of a fault. -/
def CalendarFault.message : CalendarFault → String
  | notIso text => "Invalid isoformat string: " ++ Text.quoted text
  | year y => s!"year {y} is out of range"
  | month => "month must be in 1..12"
  | day => "day is out of range for month"
  | hour => "hour must be in 0..23"
  | minute => "minute must be in 0..59"
  | second => "second must be in 0..59"
  | offset microseconds =>
    "offset must be a timedelta strictly between -timedelta(hours=24) and timedelta(hours=24), not "
      ++ spanText microseconds ++ "."

namespace Iso

/-- The value of an ASCII digit. -/
def digit? (c : Char) : Option Nat := if '0' ≤ c ∧ c ≤ '9' then some (c.toNat - 48) else none

/-- Reads a fixed number of digits. -/
def digits? : Nat → List Char → Option (Nat × List Char)
  | 0, cs => some (0, cs)
  | _ + 1, [] => none
  | n + 1, c :: rest =>
    match digit? c, digits? n rest with
    | some d, some (value, rest) => some (d * Nat.pow 10 n + value, rest)
    | _, _ => none

/-- How many characters the date takes, by the characters at which the forms differ. -/
def dateLength (cs : List Char) : Nat :=
  let place := fun i => cs.getD i '\x00'
  let isDigit := fun c => (digit? c).isSome
  if cs.length = 7 then 7
  else if place 4 = '-' then
    if place 5 = 'W' then
      if 8 < cs.length ∧ place 8 = '-' then
        if 10 < cs.length ∧ isDigit (place 10) then 8 else 10
      else 8
    else 10
  else if place 4 = 'W' then
    let run := 7 + ((cs.drop 7).takeWhile isDigit).length
    if run < 9 then run else if run % 2 = 0 then 7 else 8
  else 8

/-- The date of a day of a week of a year; the weeks of the year 0 lie in no month. -/
def ofWeek? (year week day : Nat) : Option Date :=
  if week < 1 ∨ 53 < week ∨ (week = 53 ∧ !Date.hasLongWeeks year) then none
  else if day < 1 ∨ 7 < day then none
  else if year = 0 then some ⟨1, 0, 0⟩
  else
    let number := Date.firstMonday year + (week - 1 : Nat) * 7 + (day - 1 : Nat)
    some (if number < 0 then ⟨1, 0, 0⟩ else Date.ofNumber number.toNat)

/-- Reads a date that makes up a whole text. -/
def date? (cs : List Char) : Option Date := do
  let (year, rest) ← digits? 4 cs
  let separated := rest.head? = some '-'
  let rest := if separated then rest.drop 1 else rest
  let pass := fun (rest : List Char) =>
    if separated then if rest.head? = some '-' then some (rest.drop 1) else none else some rest
  if rest.head? = some 'W' then
    let (week, rest) ← digits? 2 (rest.drop 1)
    if rest.isEmpty then ofWeek? year week 1
    else
      let rest ← pass rest
      let (day, _) ← digits? 1 rest
      ofWeek? year week day
  else
    let (month, rest) ← digits? 2 rest
    let rest ← pass rest
    let (day, rest) ← digits? 2 rest
    if rest.isEmpty then some ⟨year, month, day⟩ else none

/-- A time of day as it is written. -/
structure Clock where
  hour : Nat := 0
  minute : Nat := 0
  second : Nat := 0
  microsecond : Nat := 0

/-- Reads a fraction of a second: at most six digits count. Also tells whether all was read. -/
def fraction? (time : Clock) (rest : List Char) : Option (Clock × Bool) := do
  let width := min 6 rest.length
  let (value, rest) ← digits? width rest
  some ({ time with microsecond := value * Nat.pow 10 (6 - width) },
    (rest.dropWhile fun c => (digit? c).isSome).isEmpty)

/-- Reads hours, then minutes, then seconds, then a fraction. The answer also tells whether the text
ends with a number that was read; one more character is passed over at the end. -/
def clock? (cs : List Char) : Option (Clock × Bool) := do
  let (hour, rest) ← digits? 2 cs
  let time : Clock := { hour }
  match rest with
  | [] => some (time, true)
  | [_] => some (time, false)
  | c :: rest =>
    if c = '.' ∨ c = ',' then fraction? time rest
    else
      let separated := c = ':'
      let (minute, rest) ← digits? 2 (if separated then rest else c :: rest)
      let time := { time with minute }
      match rest with
      | [] => some (time, true)
      | [_] => some (time, false)
      | c :: rest =>
        if c = '.' ∨ c = ',' then fraction? time rest
        else if separated ∧ c ≠ ':' then none
        else
          let (second, rest) ← digits? 2 (if separated then rest else c :: rest)
          let time := { time with second }
          match rest with
          | [] => some (time, true)
          | [_] => some (time, false)
          | c :: rest =>
            if c = '.' ∨ c = ',' ∨ (separated ∧ c = ':') then fraction? time rest
            else if separated then none
            else fraction? time (c :: rest)

/-- A time of day with the offset that follows it, if one does. -/
def time? (cs : List Char) : Option (Clock × Option Int) := do
  let isZone := fun c => c == '+' || c == '-' || c == 'Z'
  let head := cs.takeWhile fun c => !isZone c
  match cs.drop head.length with
  | [] =>
    let (time, complete) ← clock? head
    if complete then some (time, none) else none
  | 'Z' :: rest =>
    let (time, _) ← clock? head
    if rest.isEmpty then some (time, some 0) else none
  | sign :: rest =>
    let (time, _) ← clock? head
    let (zone, complete) ← clock? rest
    if !complete then none
    else
      let seconds := (zone.hour * 60 + zone.minute) * 60 + zone.second
      let ahead : Int :=
        if seconds = 0 then 0 else (seconds * Moment.second + zone.microsecond : Nat)
      some (time, some (if sign = '-' then -ahead else ahead))

/-- The parts of a text: a date, a time of day and an offset. -/
def parts? (text : List Char) : Option (Date × Clock × Option Int) := do
  if text.length < 7 then none
  let width := dateLength text
  let date ← date? (text.take width)
  if text.length ≤ width + 1 then
    if text.length = width + 1 then none else some (date, {}, none)
  else
    let (time, offset) ← time? (text.drop (width + 1))
    some (date, time, offset)

/-- Reads a date with an optional time and an optional offset. -/
def read (text : String) : Except CalendarFault Moment :=
  match parts? text.toList with
  | none => .error (.notIso text)
  | some (date, time, offset) =>
    if (Moment.day : Int) ≤ (offset.getD 0).natAbs then .error (.offset (offset.getD 0))
    else Moment.ofFields date time.hour time.minute time.second time.microsecond offset

end Iso

end Bourse
