/-!
Delimited text: records on lines, with a delimiter between the fields. A field that holds the
delimiter, a quote or a line feed stands in quotes, and a quote inside is written twice. A record of
one empty field is written as an empty quoted field, which tells it from a record without fields.
-/
namespace Bourse.Delimited

/-- The quote around fields. -/
def quote : Char := '"'

/-- Whether a field needs quotes. -/
def needsQuotes (delimiter : Char) (field : List Char) : Bool :=
  field.any fun c => c == delimiter || c == quote || c == '\n'

/-- A field in quotes. -/
def enclosed (field : List Char) : List Char :=
  quote :: field.flatMap (fun c => if c == quote then [quote, quote] else [c]) ++ [quote]

/-- A field as it is written. -/
def fieldText (delimiter : Char) (field : List Char) : List Char :=
  if needsQuotes delimiter field then enclosed field else field

/-- Fields with the delimiter between them. -/
def joined (delimiter : Char) : List (List Char) → List Char
  | [] => []
  | [field] => fieldText delimiter field
  | field :: rest => fieldText delimiter field ++ delimiter :: joined delimiter rest

/-- The line of a record. -/
def line (delimiter : Char) (record : List (List Char)) : List Char :=
  if record = [[]] then enclosed [] else joined delimiter record

/-- The lines of records. -/
def lines (delimiter : Char) (records : List (List String)) : List String :=
  records.map fun record => String.ofList (line delimiter (record.map String.toList))

end Bourse.Delimited
