import Bourse.Calendar.Moment
import Bourse.Json.Basic
import Bourse.Number.Numeral
import Bourse.Text.Quoted
/-!
Data of unknown shape, as files and data services supply them, and the text that stands for it in
messages.
-/
namespace Bourse

/-- A datum. A mapping keeps its entries in order. -/
inductive Datum where
  | null
  | bool (b : Bool)
  | int (n : Int)
  | real (x : Float)
  | text (s : String)
  | date (d : Date)
  | moment (m : Moment)
  | list (items : List Datum)
  | mapping (entries : List (Datum × Datum))
deriving Inhabited

namespace Datum

mutual

/-- The datum of a JSON value. -/
def ofJson : Json → Datum
  | .null => null
  | .bool b => bool b
  | .int n => int n
  | .real x => real x
  | .text s => text s
  | .list items => list (ofItems items)
  | .record members => mapping (ofMembers members)

/-- The data of JSON items. -/
def ofItems : List Json → List Datum
  | [] => []
  | item :: rest => ofJson item :: ofItems rest

/-- The entries of JSON members. -/
def ofMembers : List (String × Json) → List (Datum × Datum)
  | [] => []
  | (name, value) :: rest => (text name, ofJson value) :: ofMembers rest

end

/-- Whether a datum counts as true: nothing, false, zero and empty things do not. -/
def isTrue : Datum → Bool
  | null => false
  | bool b => b
  | int n => n != 0
  | real x => x != 0
  | text s => s != ""
  | date _ => true
  | moment _ => true
  | list items => !items.isEmpty
  | mapping entries => !entries.isEmpty

/-- The text of a zone. -/
def zoneText (offset : Int) : String :=
  if offset = 0 then "datetime.timezone.utc" else "datetime.timezone(" ++ spanText offset ++ ")"

/-- A moment by its fields. -/
def momentText (m : Moment) : String :=
  let d := m.date
  let seconds := m.timeOfDay / Moment.second
  let fraction := m.timeOfDay % Moment.second
  let fields : List Nat := [d.year, d.month, d.day, seconds / 3600, seconds / 60 % 60] ++
    (if fraction ≠ 0 then [seconds % 60, fraction]
      else if seconds % 60 ≠ 0 then [seconds % 60] else [])
  let zone := match m.offset with
    | some offset => [s!"tzinfo={zoneText offset}"]
    | none => []
  "datetime.datetime(" ++ ", ".intercalate (fields.map toString ++ zone) ++ ")"

mutual

/-- A datum with its texts in quotes. -/
def quoted : Datum → String
  | null => "None"
  | bool b => if b then "True" else "False"
  | int n => Layout.integer n
  | real x => Layout.float x
  | text s => Text.quoted s
  | date d => s!"datetime.date({d.year}, {d.month}, {d.day})"
  | moment m => momentText m
  | list items => "[" ++ ", ".intercalate (quotedItems items) ++ "]"
  | mapping entries => "\x7b" ++ ", ".intercalate (quotedEntries entries) ++ "\x7d"

/-- The items of a list with their texts in quotes. -/
def quotedItems : List Datum → List String
  | [] => []
  | item :: rest => quoted item :: quotedItems rest

/-- The entries of a mapping with their texts in quotes. -/
def quotedEntries : List (Datum × Datum) → List String
  | [] => []
  | (key, value) :: rest => (quoted key ++ ": " ++ quoted value) :: quotedEntries rest

end

mutual

/-- Whether a datum can be written as text: an integer in it must not have too many digits. -/
def isWritable : Datum → Bool
  | int n => (Layout.digitsOf n.natAbs).length ≤ Numeral.mostDigits
  | list items => areWritable items
  | mapping entries => areEntriesWritable entries
  | _ => true

/-- Whether the items of a list can be written. -/
def areWritable : List Datum → Bool
  | [] => true
  | item :: rest => isWritable item && areWritable rest

/-- Whether the entries of a mapping can be written. -/
def areEntriesWritable : List (Datum × Datum) → Bool
  | [] => true
  | (key, value) :: rest => isWritable key && isWritable value && areEntriesWritable rest

end

/-- A datum as text; a text stands for itself. -/
def shown : Datum → String
  | text s => s
  | date d => Moment.dateText d
  | moment m => m.text " "
  | other => quoted other

/-- The value under a text key. -/
def get? (entries : List (Datum × Datum)) (name : String) : Option Datum :=
  (entries.find? fun entry => match entry.1 with | text s => s == name | _ => false).map (·.2)

/-- Whether two data are the same key of a mapping; numbers and truth values are compared by their
value. -/
def sameKey : Datum → Datum → Bool
  | null, null => true
  | text a, text b => a == b
  | date a, date b => a == b
  | moment a, moment b =>
    match a.offset, b.offset with
    | some _, some _ => a.instant == b.instant
    | none, none => a.clock == b.clock
    | _, _ => false
  | real a, real b => a == b
  | real a, b => realSame a b
  | a, real b => realSame b a
  | a, b =>
    match whole? a, whole? b with
    | some m, some n => m == n
    | _, _ => false
where
  /-- The integer of a datum that has one. -/
  whole? : Datum → Option Int
    | bool b => some (if b then 1 else 0)
    | int n => some n
    | _ => none
  /-- Whether a number equals the integer of a datum. -/
  realSame (x : Float) (d : Datum) : Bool :=
    match whole? d with
    | some n => x == Binary64.ofInt n && Moment.wholePart (Binary64.ofFloat x) == n
    | none => false

/-- Adds an entry; an earlier value under the same key is replaced where it stands. -/
def setEntry (key value : Datum) (entries : List (Datum × Datum)) : List (Datum × Datum) :=
  if entries.any fun entry => sameKey entry.1 key then
    entries.map fun entry => if sameKey entry.1 key then (entry.1, value) else entry
  else entries ++ [(key, value)]

end Datum

end Bourse
