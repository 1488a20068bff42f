import Bourse.Text.Classes
/-!
Tables in text: every column is as wide as its longest text, the first one stands at the left and
the others at the right, two spaces apart. Widths count characters.
-/
namespace Bourse.Table

/-- Widens columns to the texts of a row; none if the row has more texts than there are columns. -/
def widen? : List Nat → List String → Option (List Nat)
  | widths, [] => some widths
  | [], _ :: _ => none
  | width :: widths, text :: texts =>
    (widen? widths texts).map (max width text.length :: ·)

/-- The widths of all columns. -/
def widths? (headers : List String) (rows : List (List String)) : Option (List Nat) :=
  rows.foldlM widen? (headers.map String.length)

/-- Spaces up to a width. -/
def padding (width : Nat) (text : List Char) : List Char :=
  List.replicate (width - text.length) ' '

/-- A text at the left of its column. -/
def left (width : Nat) (text : String) : List Char := text.toList ++ padding width text.toList

/-- A text at the right of its column. -/
def right (width : Nat) (text : String) : List Char := padding width text.toList ++ text.toList

/-- The space between columns. -/
def gap : List Char := [' ', ' ']

/-- The line of a row without blanks at its end; none if the row or the table is empty. -/
def line? : List Nat → List String → Option String
  | width :: widths, text :: texts =>
    let rest := (texts.zip widths).flatMap fun (text, width) => gap ++ right width text
    some (String.ofList (Text.trimRight (left width text ++ rest)))
  | _, _ => none

/-- The line below the headers. -/
def rule (widths : List Nat) : String :=
  String.ofList (List.replicate (widths.foldr (· + ·) 0 + gap.length * (widths.length - 1)) '-')

/-- The lines above the rows: the headers and the rule. -/
def top? (noHeader : Bool) (widths : List Nat) (headers : List String) : Option (List String) :=
  if noHeader then some [] else (line? widths headers).map fun line => [line, rule widths]

/-- The lines of a table; none if a row is empty or has a text without a column. -/
def lines? (noHeader : Bool) (headers : List String) (rows : List (List String)) :
    Option (List String) := do
  let widths ← widths? headers rows
  let top ← top? noHeader widths headers
  return top ++ (← rows.mapM (line? widths))

end Bourse.Table
