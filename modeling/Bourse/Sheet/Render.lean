import Bourse.Delimited.Writer
import Bourse.Sheet.Basic
import Bourse.Sheet.Table
/-!
The text of a sheet in each of its forms.
-/
namespace Bourse.Sheet

/-- What stands for a missing value in tables. -/
def dash : String := "-"

/-- A text without line feeds at its end. -/
def dropFinalFeeds (text : String) : String :=
  String.ofList (text.toList.reverse.dropWhile (· == '\n')).reverse

/-- The sheet as delimited text. -/
def delimited (delimiter : Char) (style : SheetStyle) (sheet : Sheet) :
    Except SheetError String := do
  let rows ← sheet.texts "" style.places
  let records := if style.noHeader then rows else sheet.headers :: rows
  return dropFinalFeeds ("\n".intercalate (Delimited.lines delimiter records))

/-- The sheet as an aligned table. -/
def table (style : SheetStyle) (sheet : Sheet) : Except SheetError String := do
  let rows ← sheet.texts dash style.places
  match Table.lines? style.noHeader sheet.headers rows with
  | some lines => return "\n".intercalate lines
  | none => throw .ragged

/-- The sheet as a JSON list of records, in which no integer may have too many digits. -/
def jsonText (style : SheetStyle) (sheet : Sheet) : Except SheetError String := do
  let json ← sheet.toJson style.places
  if (Datum.ofJson json).isWritable then return json.indented 0 else throw .badPlaces

/-- The text of a sheet. -/
def render (style : SheetStyle) (sheet : Sheet) : Except SheetError String :=
  match style.format with
  | .table => sheet.table style
  | .csv => sheet.delimited ',' style
  | .tsv => sheet.delimited '\t' style
  | .json => sheet.jsonText style
  | .minimal => do
    let rows ← sheet.texts dash style.places
    return "\n".intercalate (rows.map fun row => " ".intercalate row)

end Bourse.Sheet
