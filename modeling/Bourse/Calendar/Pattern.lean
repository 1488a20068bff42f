import Bourse.Calendar.Iso
import Bourse.Number.Numeral
import Bourse.Text.Case
/-!
Reading moments by a pattern of directives, such as a four-digit year or the name of a month. Where
a directive can take more or fewer characters, the first choice in its order of preference for which
the rest of the pattern fits counts.
-/
namespace Bourse.Pattern

/-- The reasons why a text cannot be read by a pattern. -/
inductive Fault where
  | badDirective (name pattern : String)
  /-- A percent sign at the end. -/
  | stray (pattern : String)
  /-- A directive that occurs twice. -/
  | repeated (name : Char)
  | mismatch (text pattern : String)
  /-- Text after the part that fits. -/
  | remains (rest : String)
  | mixedColons (zone : String)
  | zoneSeconds (text : String)
  | weekYearWithDay
  | weekYearAlone
  | weekAlone
  | weekWithYear
  | calendar (fault : CalendarFault)

/-- The text of a fault. -/
def Fault.message : Fault → String
  | badDirective name pattern => s!"'{name}' is a bad directive in format '{pattern}'"
  | stray pattern => s!"stray % in format '{pattern}'"
  | repeated name => s!"redefinition of group name '{name}'"
  | mismatch text pattern =>
    s!"time data {Text.quoted text} does not match format {Text.quoted pattern}"
  | remains rest => s!"unconverted data remains: {rest}"
  | mixedColons zone => s!"Inconsistent use of : in {zone}"
  | zoneSeconds text => s!"invalid literal for int() with base 10: {Text.quoted text}"
  | weekYearWithDay =>
    "Day of the year directive '%j' is not compatible with ISO year directive '%G'. " ++
      "Use '%Y' instead."
  | weekYearAlone =>
    "ISO year directive '%G' must be used with the ISO week directive '%V' and a weekday " ++
      "directive ('%A', '%a', '%w', or '%u')."
  | weekAlone =>
    "ISO week directive '%V' must be used with the ISO year directive '%G' and a weekday " ++
      "directive ('%A', '%a', '%w', or '%u')."
  | weekWithYear =>
    "ISO week directive '%V' is incompatible with the year directive '%Y'. Use the ISO year " ++
      "'%G' instead."
  | calendar fault => fault.message

/-- A set of characters. -/
abbrev Class := Char → Bool

/-- A decimal digit of any script. -/
def anyDigit : Class := fun c => (Text.decimalValue? c).isSome

/-- The characters from one to another. -/
def between (low high : Char) : Class := fun c => low ≤ c && c ≤ high

/-- One character in either case. -/
def letter (x : Char) : Class := fun c => Text.lowerChar c == Text.lowerChar x

/-- A word in any case. -/
def word (w : String) : List Class := w.toList.map letter

/-- A part of a pattern: blanks, one character, or a directive with its choices. -/
inductive Part where
  | blanks
  | literal (c : Char)
  | directive (name : Char) (choices : List (List Class))

/-- The names of the days of the week, Monday first. -/
def weekdays : List String :=
  ["monday", "tuesday", "wednesday", "thursday", "friday", "saturday", "sunday"]

/-- The names of the months. -/
def months : List String :=
  ["january", "february", "march", "april", "may", "june", "july", "august", "september",
    "october", "november", "december"]

/-- The first three letters of names. -/
def short (names : List String) : List String := names.map fun n => String.ofList (n.toList.take 3)

/-- An optional group of seconds in an offset, with colons or without, and with a fraction. -/
def zoneSeconds : List (List Class) :=
  let pair := [between '0' '5', anyDigit]
  let colon := [letter ':']
  let fraction := fun n => letter '.' :: List.replicate n anyDigit
  let tails := [6, 5, 4, 3, 2, 1].map fraction ++ [[]]
  (tails.map fun t => colon ++ pair ++ t) ++ (tails.map fun t => pair ++ t) ++ [[]]

/-- The choices of a directive in their order of preference. -/
def choices? (name : Char) : Option (List (List Class)) :=
  let d := anyDigit
  let one := letter '1'
  let nil := letter '0'
  let three := letter '3'
  let low := between '1' '9'
  match name with
  | 'd' =>
    some [[three, between '0' '1'], [between '1' '2', d], [nil, low], [low], [letter ' ', low]]
  | 'f' => some ([6, 5, 4, 3, 2, 1].map fun n => List.replicate n (between '0' '9'))
  | 'H' => some [[letter '2', between '0' '3'], [between '0' '1', d], [d]]
  | 'I' => some [[one, between '0' '2'], [nil, low], [low]]
  | 'G' => some [[d, d, d, d]]
  | 'j' => some [[three, letter '6', between '0' '6'], [three, between '0' '5', d],
      [between '1' '2', d, d], [nil, low, d], [nil, nil, low], [low, d], [nil, low], [low]]
  | 'm' => some [[one, between '0' '2'], [nil, low], [low]]
  | 'M' => some [[between '0' '5', d], [d]]
  | 'S' => some [[letter '6', between '0' '1'], [between '0' '5', d], [d]]
  | 'U' | 'W' => some [[letter '5', between '0' '3'], [between '0' '4', d], [d]]
  | 'w' => some [[between '0' '6']]
  | 'u' => some [[between '1' '7']]
  | 'V' => some [[letter '5', between '0' '3'], [nil, low], [between '1' '4', d], [d]]
  | 'y' => some [[d, d]]
  | 'Y' => some [[d, d, d, d]]
  | 'z' =>
    let sign : Class := fun c => c == '+' || c == '-'
    some ((zoneSeconds.flatMap fun tail =>
      [[sign, d, d, letter ':', between '0' '5', d] ++ tail,
        [sign, d, d, between '0' '5', d] ++ tail]) ++ [[fun c => c == 'Z']])
  | 'A' => some (weekdays.map word)
  | 'a' => some ((short weekdays).map word)
  | 'B' => some (months.map word)
  | 'b' => some ((short months).map word)
  | 'p' => some [word "am", word "pm"]
  | 'Z' => some [word "utc", word "gmt"]
  | _ => none

/-- The parts of a plain directive. -/
def plain (name : Char) : Part := .directive name ((choices? name).getD [])

/-- The parts of a directive that stands for several. -/
def composite? (name : Char) : Option (List Part) :=
  let time := [plain 'H', .literal ':', plain 'M', .literal ':', plain 'S']
  match name with
  | 'c' => some ([plain 'a', .blanks, plain 'b', .blanks, plain 'd', .blanks] ++ time ++
      [.blanks, plain 'Y'])
  | 'x' => some [plain 'm', .literal '/', plain 'd', .literal '/', plain 'y']
  | 'X' => some time
  | '%' => some [.literal '%']
  | _ => none

/-- Characters that may not follow a percent sign, which then stands alone. -/
def isSpecial (c : Char) : Bool := Text.isBlank c || "\\.^$*+?(){}[]|".toList.contains c

/-- The parts of a pattern; `pattern` is the whole of it. -/
def parts (pattern : String) : List Char → Except Fault (List Part)
  | [] => .ok []
  | ['%'] => .error (.stray pattern)
  | '%' :: name :: rest =>
    if isSpecial name then .error (.badDirective "%" pattern)
    else match composite? name, choices? name with
      | some several, _ => (parts pattern rest).map (several ++ ·)
      | none, some choices => (parts pattern rest).map (.directive name choices :: ·)
      | none, none => .error (.badDirective name.toString pattern)
  | c :: rest =>
    (parts pattern rest).map fun more =>
      if Text.isBlank c then
        match more with
        | .blanks :: _ => more
        | _ => .blanks :: more
      else .literal c :: more

/-- Takes one character of each class off the front of a text. -/
def take? : List Class → List Char → Option (List Char × List Char)
  | [], cs => some ([], cs)
  | _ :: _, [] => none
  | cls :: more, c :: rest =>
    if cls c then (take? more rest).map fun (taken, rest) => (c :: taken, rest) else none

/-- What was read for each directive, in order. -/
abbrev Found := List (Char × List Char)

/-- Fits parts to the front of a text; gives what was read and what remains. -/
def fit? : List Part → List Char → Option (Found × List Char)
  | [], cs => some ([], cs)
  | .literal x :: more, cs =>
    match cs with
    | c :: rest => if letter x c then fit? more rest else none
    | [] => none
  | .blanks :: more, cs =>
    let run := (cs.takeWhile Text.isBlank).length
    (List.range run).findSome? fun i => fit? more (cs.drop (run - i))
  | .directive name choices :: more, cs =>
    choices.findSome? fun choice =>
      match take? choice cs with
      | none => none
      | some (taken, rest) =>
        (fit? more rest).map fun (found, rest) => ((name, taken) :: found, rest)

/-- A directive that occurs twice. -/
def repeated? : List Part → Option Char
  | [] => none
  | .directive name _ :: more =>
    if more.any (fun p => match p with | .directive other _ => other == name | _ => false) then
      some name
    else repeated? more
  | _ :: more => repeated? more

/-- The fields of a moment as they are read. -/
structure Fields where
  year : Option Nat := none
  weekYear : Option Nat := none
  month : Nat := 1
  day : Nat := 1
  hour : Nat := 0
  minute : Nat := 0
  second : Nat := 0
  microsecond : Nat := 0
  weekday : Option Nat := none
  dayOfYear : Option Nat := none
  /-- A week of the year, with the weekday that begins it. -/
  week : Option (Nat × Nat) := none
  isoWeek : Option Nat := none
  offset : Option Int := none

/-- The natural written in digits. -/
def number (cs : List Char) : Nat := Numeral.ofDigits (cs.filterMap Text.decimalValue?)

/-- The place of a word in a list of words, in any case. -/
def place (names : List String) (cs : List Char) : Nat :=
  names.idxOf (Text.lower (String.ofList cs))

/-- The offset in a text of a sign, hours, minutes and perhaps seconds. -/
def zone (cs : List Char) : Except Fault Int :=
  if cs = ['Z'] then .ok 0
  else
    let digits := cs.drop 1
    let whole := fun (hours minutes seconds fraction : List Char) =>
      let total := (number hours * 60 + number minutes) * 60 + number seconds
      let micro := number fraction * Nat.pow 10 (6 - fraction.length)
      let ahead : Int := (total * Moment.second + micro : Nat)
      if cs.head? = some '-' then -ahead else ahead
    let hours := digits.take 2
    if (digits.drop 2).head? = some ':' then
      let rest := digits.drop 3
      let minutes := rest.take 2
      match rest.drop 2 with
      | [] => .ok (whole hours minutes [] [])
      | ':' :: rest => .ok (whole hours minutes (rest.take 2) (rest.drop 3))
      | _ => .error (.mixedColons (String.ofList cs))
    else
      let rest := digits.drop 2
      let seconds := (rest.drop 2).take 2
      if seconds.head? = some ':' then .error (.zoneSeconds (String.ofList seconds))
      else .ok (whole hours (rest.take 2) seconds (rest.drop 5))

/-- Enters what was read for a directive. `half` is what was read for the half of the day. -/
def enter (half : Option (List Char)) (fields : Fields) : Char × List Char → Except Fault Fields
  | ('y', cs) =>
    let y := number cs
    .ok { fields with year := some (if y ≤ 68 then 2000 + y else 1900 + y) }
  | ('Y', cs) => .ok { fields with year := some (number cs) }
  | ('G', cs) => .ok { fields with weekYear := some (number cs) }
  | ('m', cs) => .ok { fields with month := number cs }
  | ('B', cs) => .ok { fields with month := place months cs + 1 }
  | ('b', cs) => .ok { fields with month := place (short months) cs + 1 }
  | ('d', cs) => .ok { fields with day := number cs }
  | ('H', cs) => .ok { fields with hour := number cs }
  | ('I', cs) =>
    let h := number cs % 12
    let afternoon := (half.map fun w => place ["am", "pm"] w).getD 0 == 1
    .ok { fields with hour := if afternoon then h + 12 else h }
  | ('M', cs) => .ok { fields with minute := number cs }
  | ('S', cs) => .ok { fields with second := number cs }
  | ('f', cs) => .ok { fields with microsecond := number cs * Nat.pow 10 (6 - cs.length) }
  | ('A', cs) => .ok { fields with weekday := some (place weekdays cs) }
  | ('a', cs) => .ok { fields with weekday := some (place (short weekdays) cs) }
  | ('w', cs) => .ok { fields with weekday := some ((number cs + 6) % 7) }
  | ('u', cs) => .ok { fields with weekday := some (number cs - 1) }
  | ('j', cs) => .ok { fields with dayOfYear := some (number cs) }
  | ('U', cs) => .ok { fields with week := some (number cs, 6) }
  | ('W', cs) => .ok { fields with week := some (number cs, 0) }
  | ('V', cs) => .ok { fields with isoWeek := some (number cs) }
  | ('z', cs) => (zone cs).map fun offset => { fields with offset := some offset }
  | _ => .ok fields

/-- Refuses combinations of weeks and years that name no day. -/
def Fields.check (fields : Fields) : Except Fault Unit :=
  if fields.weekYear.isSome then
    if fields.dayOfYear.isSome then .error .weekYearWithDay
    else if fields.isoWeek.isNone || fields.weekday.isNone then .error .weekYearAlone
    else .ok ()
  else if fields.isoWeek.isSome then
    if fields.year.isNone || fields.weekday.isNone then .error .weekAlone else .error .weekWithYear
  else .ok ()

/-- The number of the first day of a year. -/
def newYear (year : Nat) : Except Fault Nat :=
  if year < 1 ∨ Date.lastYear < year then .error (.calendar (.year year))
  else .ok (Date.daysBeforeYear year)

/-- The day of the year of a weekday in a week; weeks begin on a given weekday, and the days before
the first of these make up week 0. -/
def dayOfWeek (firstDay week beginning weekday : Nat) : Int :=
  let shift := if beginning = 0 then 0 else 1
  let first := (Date.weekdayOf firstDay + shift) % 7
  let weekday := (weekday + shift) % 7
  if week = 0 then 1 + (weekday : Int) - first
  else 1 + ((7 - first) % 7 : Nat) + 7 * (week - 1 : Nat) + weekday

/-- The year and the day of the year, where they follow from weeks. -/
def Fields.dayInYear (fields : Fields) (year : Nat) : Except Fault (Nat × Option Int) := do
  match fields.dayOfYear, fields.weekday with
  | some day, _ => return (year, some day)
  | none, none => return (year, none)
  | none, some weekday =>
    let (year, day) ← match fields.week, fields.weekYear, fields.isoWeek with
      | some (week, beginning), _, _ => do
        pure (year, dayOfWeek (← newYear year) week beginning weekday)
      | none, some weekYear, some week => do
        let first ← newYear weekYear
        let correction := Date.weekdayOf (first + 3) + 4
        let day := (week * 7 + (weekday + 1) : Int) - correction
        if day < 1 then do
          let before ← newYear (weekYear - 1)
          pure (weekYear - 1, day + first - before)
        else pure (weekYear, day)
      | _, _, _ => return (year, none)
    if day ≤ 0 then
      return (year - 1, some (day + if Date.isLeap (year - 1) then 366 else 365))
    return (year, some day)

/-- The date of some fields. Without a year it lies in 1900. -/
def Fields.date (fields : Fields) : Except Fault Date := do
  let leapDay := fields.month == 2 && fields.day == 29
  let assumed := if leapDay then 1904 else 1900
  let (year, day) ← fields.dayInYear (fields.year.getD assumed)
  let date : Date ← match day with
    | some day => do
      let number := (← newYear year) + (day - 1).toNat
      pure (Date.ofNumber number)
    | none =>
      match Moment.ofFields ⟨year, fields.month, fields.day⟩ 0 0 0 0 none with
      | .ok _ => pure ⟨year, fields.month, fields.day⟩
      | .error fault => throw (.calendar fault)
  if Date.lastYear < date.year then throw (.calendar (.year date.year))
  return if fields.year.isNone && leapDay then { date with year := 1900 } else date

/-- Reads a moment by a pattern. -/
def read (pattern text : String) : Except Fault Moment := do
  let list ← parts pattern pattern.toList
  if let some name := repeated? list then throw (.repeated name)
  match fit? list text.toList with
  | none => throw (.mismatch text pattern)
  | some (found, rest) =>
    if !rest.isEmpty then throw (.remains (String.ofList rest))
    let half := (found.find? (·.1 == 'p')).map (·.2)
    let fields ← found.foldlM (enter half) {}
    fields.check
    let date ← fields.date
    let offset := fields.offset.getD 0
    if (Moment.day : Int) ≤ offset.natAbs then throw (.calendar (.offset offset))
    match Moment.ofFields date fields.hour fields.minute fields.second fields.microsecond
        fields.offset with
    | .ok m => return m
    | .error fault => throw (.calendar fault)

end Bourse.Pattern
