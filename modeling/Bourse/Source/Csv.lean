import Bourse.Calendar.Range
import Bourse.Delimited.Reader
import Bourse.Market.Bar
import Bourse.Source.Error
import Bourse.Storage.Files
import Bourse.Text.Utf8
/-!
Histories from delimited files. The first record names the columns, and every other record is a row.
A row counts for a symbol if it names that symbol in any case or none at all; rows without a
timestamp are passed over. The bars come in the order of time, and those of one time in the order of
the file.
-/
namespace Bourse

/-- The names of the columns. -/
structure CsvColumns where
  symbol : String := "symbol"
  timestamp : String := "timestamp"
  opening : String := "open"
  high : String := "high"
  low : String := "low"
  close : String := "close"
  volume : String := "volume"

/-- How a file is read. -/
structure CsvSettings where
  path : String
  columns : CsvColumns := {}
  delimiter : String := ","
  /-- The pattern of timestamps; if it is absent or empty they have the form of ISO 8601. -/
  pattern : Option String := none

/-- The cells of a row by their columns; surplus cells are a list without a column. -/
abbrev Row := List (Datum × Datum)

namespace Row

/-- A row under the names of its columns: of two columns with one name the last counts, and missing
cells are empty. -/
def ofRecord (names record : List String) : Row :=
  let named := (names.zip record).foldl
    (fun row (name, cell) => Datum.setEntry (.text name) (.text cell) row) []
  if names.length < record.length then
    Datum.setEntry .null (.list ((record.drop names.length).map .text)) named
  else
    (names.drop record.length).foldl (fun row name => Datum.setEntry (.text name) .null row) named

/-- The rows under a header; empty records are passed over. -/
def ofRecords : List (List String) → List Row
  | [] => []
  | names :: records => (records.filter (!·.isEmpty)).map (ofRecord names)

/-- The text in a column; nothing if the cell is missing or empty. -/
def text? (row : Row) (column : String) : Option String :=
  match Datum.get? row column with
  | some (.text s) => if s = "" then none else some s
  | _ => none

/-- Whether a row counts for a symbol. -/
def isOf (columns : CsvColumns) (symbol : String) (row : Row) : Bool :=
  match row.text? columns.symbol with
  | some name => Text.upper name == Text.upper symbol
  | none => true

end Row

namespace Csv

/-- The integer of a timestamp that consists of digits, perhaps after hyphens. -/
def digitTimestamp (text : String) : Except SourceFailure Int :=
  match Numeral.integer? text.toList with
  | some n => .ok n
  | none => .error (.broken (.badInteger text))

/-- The moment of a timestamp by a pattern. -/
def patternMoment (pattern text : String) : Except SourceFailure Moment :=
  match Pattern.read pattern text with
  | .ok m => .ok m
  | .error (.repeated _) => .error (.broken (.badPattern pattern))
  | .error fault => .error (.reported (.badTimestamp text fault.message))

/-- The moment of a timestamp in the form of ISO 8601. -/
def isoMoment (text : String) : Except SourceFailure Moment :=
  match Iso.read (Bound.spellOutZones text) with
  | .ok m => .ok m
  | .error fault => .error (.reported (.badTimestamp text fault.message))

/-- Whether a timestamp is a count of seconds. -/
def isCount (text : String) : Bool :=
  let digits := text.toList.dropWhile (· == '-')
  !digits.isEmpty && digits.all Text.isDigit

/-- The seconds since 1970 of a timestamp. -/
def timestamp (settings : CsvSettings) (text : String) : Except SourceFailure Int :=
  if isCount text then digitTimestamp text
  else do
    let moment ← match settings.pattern with
      | some pattern => if pattern = "" then isoMoment text else patternMoment pattern text
      | none => isoMoment text
    return moment.timestamp

/-- The reasons why a cell is no number. -/
inductive CellFault where
  | noColumn (column : String)
  | noCell
  | notNumber (text : String)
  | volumeNotNumber

/-- The text of a fault. -/
def CellFault.message : CellFault → String
  | noColumn column => Text.quoted column
  | noCell => "float() argument must be a string or a real number, not 'NoneType'"
  | notNumber text => s!"could not convert string to float: {Text.quoted text}"
  | volumeNotNumber => "cannot convert float NaN to integer"

/-- The error about a row. -/
def rowFailure (row : Row) (fault : CellFault) : SourceFailure :=
  .reported (.badRow (Datum.mapping row).quoted fault.message)

/-- The number in a column. -/
def number (row : Row) (column : String) : Except SourceFailure Float :=
  match Datum.get? row column with
  | none => .error (rowFailure row (.noColumn column))
  | some (.text s) =>
    match Numeral.float? s.toList with
    | some x => .ok x
    | none => .error (rowFailure row (.notNumber s))
  | some _ => .error (rowFailure row .noCell)

/-- The whole part of the volume. -/
def volume (row : Row) (column : String) : Except SourceFailure Int := do
  match Binary64.ofFloat (← number row column) with
  | .nan => throw (rowFailure row .volumeNotNumber)
  | .infinity _ => throw (.broken .volumeInfinite)
  | finite => return Moment.wholePart finite

/-- The bar of a row with a given timestamp. -/
def bar (columns : CsvColumns) (timestamp : Int) (row : Row) :
    Except SourceFailure (Bar Float) := do
  return {
    timestamp
    opening := ← number row columns.opening
    high := ← number row columns.high
    low := ← number row columns.low
    close := ← number row columns.close
    volume := ← volume row columns.volume }

/-- Whether a timestamp is wanted. -/
def isWanted (range : Option DateRange) (timestamp : Int) : Bool :=
  match range with
  | some range => range.covers timestamp
  | none => true

/-- The bar of a row if the row counts. -/
def bar? (settings : CsvSettings) (symbol : String) (range : Option DateRange) (row : Row) :
    Except SourceFailure (Option (Bar Float)) :=
  if !row.isOf settings.columns symbol then .ok none
  else
    match row.text? settings.columns.timestamp with
    | none => .ok none
    | some text => do
      let time ← timestamp settings (String.ofList (Text.trim text.toList))
      if isWanted range time then return some (← bar settings.columns time row) else return none

/-- The bars of rows, in their order. -/
def bars (settings : CsvSettings) (symbol : String) (range : Option DateRange) :
    List Row → Except SourceFailure (List (Bar Float))
  | [] => .ok []
  | row :: rest => do
    match ← bar? settings symbol range row with
    | some bar => return bar :: (← bars settings symbol range rest)
    | none => bars settings symbol range rest

/-- The bars in the order of time. -/
def inOrder (bars : List (Bar Float)) : List (Bar Float) :=
  bars.mergeSort fun a b => decide (a.timestamp ≤ b.timestamp)

/-- The bars of records that were read up to their end or up to a fault. -/
def barsOf (settings : CsvSettings) (symbol : String) (range : Option DateRange)
    (contents : Delimited.Contents) (isWhole : Bool) : Except SourceFailure (List (Bar Float)) := do
  let found ← bars settings symbol range (Row.ofRecords contents.records)
  if contents.isTooLong then throw (.reported (.fieldTooLong Delimited.mostChars))
  if !isWhole then throw (.broken .undecodable)
  return inOrder found

/-- The bars of a file. -/
def barsOfFile (settings : CsvSettings) (symbol : String) (range : Option DateRange)
    (bytes : ByteArray) : Except SourceFailure (List (Bar Float)) :=
  match settings.delimiter.toList with
  | [delimiter] =>
    let decoded := Text.decode bytes
    let contents := Delimited.read delimiter decoded.text decoded.isWhole
    barsOf settings symbol range contents decoded.isWhole
  | _ => .error (.broken (.badDelimiter settings.delimiter))

/-- The bars of what is stored under the path. -/
def barsOfStored (settings : CsvSettings) (symbol : String) (range : Option DateRange) :
    Stored → Except SourceFailure (List (Bar Float))
  | .file bytes => barsOfFile settings symbol range bytes
  | .folder => .error (.reported (.folder (Path.normal settings.path)))
  | .missing | .blocked => .error (.reported (.fileNotFound settings.path))

/-- Reads the history of a symbol. -/
def history (stored : Stored) (settings : CsvSettings) (symbol : String) (range : Option DateRange)
    (intervalName : String) : Except SourceFailure History := do
  let bars ← barsOfStored settings symbol range stored
  match Interval.ofName? intervalName with
  | some interval => return { symbol, interval, bars }
  | none => throw (.broken (.unknownInterval intervalName))

end Csv

end Bourse
