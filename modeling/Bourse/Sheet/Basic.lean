import Bourse.Calendar.Timestamp
import Bourse.Datum
import Bourse.Entries
import Bourse.Json.Printer
import Bourse.Market.Actions
/-!
Sheets: rows of cells under headers, the forms in which they are written and what can go wrong on
the way.
-/
namespace Bourse

/-- A cell of a sheet. -/
inductive Cell where
  | absent
  | truth (b : Bool)
  | whole (n : Int)
  | real (x : Float)
  | text (s : String)

/-- Rows under headers. -/
structure Sheet where
  headers : List String
  rows : List (List Cell)

/-- The forms of a written sheet. -/
inductive SheetFormat where
  | table
  | csv
  | tsv
  | json
  /-- Cells between single spaces, without headers. -/
  | minimal
deriving DecidableEq, Repr

namespace SheetFormat

/-- The name of a form. -/
def name : SheetFormat → String
  | table => "table"
  | csv => "csv"
  | tsv => "tsv"
  | json => "json"
  | minimal => "minimal"

/-- Every form. -/
def all : List SheetFormat := [table, csv, tsv, json, minimal]

/-- The form with a name. -/
def ofName? (name : String) : Option SheetFormat := all.find? (·.name == name)

end SheetFormat

/-- How a sheet is written. -/
structure SheetStyle where
  format : SheetFormat := .table
  /-- The decimal places of numbers that are no integers. -/
  places : Int := 2
  noHeader : Bool := false

/-- The reasons why a sheet cannot be made or written. -/
inductive SheetError where
  /-- A number of decimal places, or an integer of so many digits, that no text can have. -/
  | badPlaces
  /-- A number that rounds to no finite number. -/
  | roundsToInfinity
  /-- A table without columns, an empty row, or a row with more cells than there are headers. -/
  | ragged
  /-- A series with fewer values than there are timestamps. -/
  | shortSeries
  | timestamp (fault : TimestampFault)
  | ratio (fault : RatioFault)
deriving DecidableEq, Repr

namespace Cell

/-- A number that may be missing. -/
def ofOption : Option Float → Cell
  | some x => real x
  | none => absent

/-- Whether a cell has nothing to show. -/
def isMissing : Cell → Bool
  | absent => true
  | real x => x.isNaN
  | _ => false

/-- The most decimal places of a text. -/
def mostPlaces : Int := 2147483647

/-- A number with a number of decimal places. -/
def realText (places : Int) (x : Float) : Except SheetError String :=
  if places < 0 ∨ mostPlaces < places then .error .badPlaces else .ok (Layout.fixed places.toNat x)

/-- The text of an integer, which must not have too many digits. -/
def wholeText (n : Int) : Except SheetError String :=
  if (Datum.int n).isWritable then .ok (Layout.integer n) else .error .badPlaces

/-- The text of a cell; `missing` stands for nothing. -/
def shown (missing : String) (places : Int) (cell : Cell) : Except SheetError String :=
  if cell.isMissing then .ok missing
  else
    match cell with
    | absent => .ok missing
    | truth b => .ok (if b then "True" else "False")
    | whole n => wholeText n
    | real x => realText places x
    | text s => .ok s

/-- The JSON value of a cell; a number is rounded to its decimal places. -/
def toJson (places : Int) (cell : Cell) : Except SheetError Json :=
  if cell.isMissing then .ok .null
  else
    match cell with
    | absent => .ok .null
    | truth b => .ok (.bool b)
    | whole n => .ok (.int n)
    | real x =>
      match roundPlaces? places x with
      | some y => .ok (.real y)
      | none => .error .roundsToInfinity
    | text s => .ok (.text s)

end Cell

namespace Sheet

/-- The texts of all cells. -/
def texts (missing : String) (places : Int) (sheet : Sheet) :
    Except SheetError (List (List String)) :=
  sheet.rows.mapM fun row => row.mapM (Cell.shown missing places)

/-- The members of a record for a row: a cell under each header, and under a repeated header the
last one. Cells without a header are left out. -/
def record (places : Int) (headers : List String) (row : List Cell) : Except SheetError Json := do
  let members ← (headers.zip row).mapM fun (header, cell) => do
    return (header, ← cell.toJson places)
  return .record (Entries.putAll [] members)

/-- The rows as a JSON list of records. -/
def toJson (places : Int) (sheet : Sheet) : Except SheetError Json := do
  return .list (← sheet.rows.mapM (record places sheet.headers))

end Sheet

end Bourse
