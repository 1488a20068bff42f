import Bourse.Delimited.Writer
/-!
Reading delimited text one character at a time. A line feed, a carriage return or both end a record.
Fields in quotes may hold any character; what follows a closing quote belongs to the field. Fields
have a largest length.
-/
namespace Bourse.Delimited

/-- Where the reader stands. -/
inductive Mode where
  | recordStart
  /-- After a carriage return; a line feed that follows belongs to it. -/
  | afterReturn
  | fieldStart
  | plain
  | quoted
  /-- After a quote inside quotes. -/
  | closing
  /-- A field has grown too long; nothing more is read. -/
  | tooLong
deriving DecidableEq, Repr

/-- The state of a reader. The current field and the lists are held last first. -/
structure Reader where
  mode : Mode := .recordStart
  field : List Char := []
  fieldLength : Nat := 0
  fields : List String := []
  records : List (List String) := []

/-- The most characters of a field. -/
def mostChars : Nat := 131072

namespace Reader

/-- Adds a character to the field. -/
def push (reader : Reader) (mode : Mode) (c : Char) : Reader :=
  if mostChars ≤ reader.fieldLength then { reader with mode := .tooLong }
  else { reader with mode, field := c :: reader.field, fieldLength := reader.fieldLength + 1 }

/-- Ends the field. -/
def endField (reader : Reader) (mode : Mode) : Reader :=
  { reader with
    mode, field := [], fieldLength := 0
    fields := String.ofList reader.field.reverse :: reader.fields }

/-- Ends the record. -/
def endRecord (reader : Reader) (mode : Mode) : Reader :=
  { reader with mode, fields := [], records := reader.fields.reverse :: reader.records }

/-- Whether a character ends a line. -/
def isLineEnd (c : Char) : Bool := c == '\n' || c == '\r'

/-- Where the reader stands after the end of a line. -/
def afterLine (c : Char) : Mode := if c == '\r' then .afterReturn else .recordStart

/-- A character at the start of a field. -/
def atFieldStart (delimiter : Char) (reader : Reader) (c : Char) : Reader :=
  if isLineEnd c then (reader.endField .fieldStart).endRecord (afterLine c)
  else if c == quote then { reader with mode := .quoted }
  else if c == delimiter then reader.endField .fieldStart
  else reader.push .plain c

/-- A character at the start of a record; a line end makes an empty record. -/
def atRecordStart (delimiter : Char) (reader : Reader) (c : Char) : Reader :=
  if isLineEnd c then reader.endRecord (afterLine c) else atFieldStart delimiter reader c

/-- A character in a field without quotes, or behind its closing quote. -/
def inPlain (delimiter : Char) (reader : Reader) (c : Char) : Reader :=
  if isLineEnd c then (reader.endField .fieldStart).endRecord (afterLine c)
  else if c == delimiter then reader.endField .fieldStart
  else reader.push .plain c

/-- Reads one character. -/
def step (delimiter : Char) (reader : Reader) (c : Char) : Reader :=
  match reader.mode with
  | .recordStart => atRecordStart delimiter reader c
  | .afterReturn =>
    if c == '\n' then { reader with mode := .recordStart } else atRecordStart delimiter reader c
  | .fieldStart => atFieldStart delimiter reader c
  | .plain => inPlain delimiter reader c
  | .quoted => if c == quote then { reader with mode := .closing } else reader.push .quoted c
  | .closing => if c == quote then reader.push .quoted c else inPlain delimiter reader c
  | .tooLong => reader

/-- Ends the record that the text leaves open. -/
def finish (reader : Reader) : Reader :=
  match reader.mode with
  | .fieldStart | .plain | .quoted | .closing =>
    (reader.endField .fieldStart).endRecord .recordStart
  | _ => reader

end Reader

/-- The records of a text, and whether a field was too long to go on. -/
structure Contents where
  records : List (List String)
  isTooLong : Bool := false
deriving DecidableEq, Repr

/-- The contents that a reader has seen. -/
def Reader.contents (reader : Reader) : Contents :=
  ⟨reader.records.reverse, reader.mode == .tooLong⟩

/-- Reads a text. Without its end, a record that is open is left out. -/
def read (delimiter : Char) (text : List Char) (hasEnd : Bool := true) : Contents :=
  let reader := text.foldl (Reader.step delimiter) {}
  (if hasEnd then reader.finish else reader).contents

end Bourse.Delimited
