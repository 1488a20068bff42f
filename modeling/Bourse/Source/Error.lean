import Bourse.Calendar.Pattern
import Bourse.Log
import Bourse.Datum
import Bourse.Service.Listing
/-!
What can go wrong when histories are fetched. A reported error has a message and spoils one symbol;
a breakdown has none and ends the run.
-/
namespace Bourse

/-- Errors with a message. -/
inductive SourceError where
  | serviceAbsent
  | noFilePath
  | unknownSource (name : String)
  | noSymbols
  | historyFailed (symbol reason : String)
  | actionsFailed (symbol reason : String)
  | fileNotFound (path : String)
  | folder (path : String)
  | fieldTooLong (limit : Nat)
  | badTimestamp (text reason : String)
  | badRow (row reason : String)
deriving DecidableEq, Repr

/-- The text of an error. -/
def SourceError.message : SourceError → String
  | serviceAbsent => Service.absence
  | noFilePath => "CSVDataSource requires 'file_path' in source_params"
  | unknownSource name =>
    s!"Unrecognized data source type: '{name}'. Supported types: yahoo, csv"
  | noSymbols => "No symbols provided"
  | historyFailed symbol reason => s!"Failed to fetch history for symbol '{symbol}': {reason}"
  | actionsFailed symbol reason =>
    s!"Failed to fetch corporate actions for symbol '{symbol}': {reason}"
  | fileNotFound path => s!"CSV file not found: {path}"
  | folder path => s!"Failed to read CSV file: [Errno 21] Is a directory: {Text.quoted path}"
  | fieldTooLong limit => s!"CSV parsing error: field larger than field limit ({limit})"
  | badTimestamp text reason => s!"Failed to parse timestamp '{text}': {reason}"
  | badRow row reason => s!"Failed to parse row {row}: {reason}"

/-- Breakdowns without a message. -/
inductive Breakdown where
  /-- The name of an interval that does not exist. -/
  | unknownInterval (name : String)
  /-- A request that needs a range and has none. -/
  | noRange
  /-- A volume that is no number. -/
  | volumeNotNumber
  /-- A volume without a bound. -/
  | volumeInfinite
  /-- Digits that are no integer. -/
  | badInteger (text : String)
  /-- A pattern that names a directive twice. -/
  | badPattern (pattern : String)
  /-- A delimiter that is not one character. -/
  | badDelimiter (delimiter : String)
  /-- A file that is no text. -/
  | undecodable
deriving DecidableEq, Repr

/-- A reported error or a breakdown. -/
inductive SourceFailure where
  | reported (error : SourceError)
  | broken (breakdown : Breakdown)
deriving DecidableEq, Repr

/-- A request that was sent to the service. -/
inductive ServiceCall where
  | listing (symbol : String)
  | history (symbol start stop interval : String) (adjust timeout : Datum)

/-- The outcome of fetching with the notices and the requests on the way to it. -/
structure Fetched (α : Type) where
  outcome : Except SourceFailure α
  notices : List Notice := []
  calls : List ServiceCall := []

namespace Fetched

variable {α : Type}

/-- A fetch that ends with a reported error. -/
def failed (error : SourceError) (calls : List ServiceCall := []) : Fetched α :=
  { outcome := .error (.reported error), calls }

/-- A fetch that breaks down. -/
def broken (breakdown : Breakdown) (calls : List ServiceCall := []) : Fetched α :=
  { outcome := .error (.broken breakdown), calls }

end Fetched

/-- The part of the program that notices about histories name. -/
def sourceOrigin : String := "tickerscope.data.sources"

end Bourse
