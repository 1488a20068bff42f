import Bourse.Calendar.Range
import Bourse.Config.Document
import Bourse.Config.Periods
import Bourse.Market.Bar
/-!
The configuration of indicators: a symbol, an interval, a range of time and a request. The range is
given by a lookback or by bounds, which may be dates or texts.
-/
namespace Bourse

/-- Which indicators of which symbol are wanted, and over which range. -/
structure IndicatorsConfig where
  symbol : String
  interval : Interval := .oneDay
  range : Option DateRange := none
  request : Request := {}

namespace IndicatorsConfig

/-- The reasons why there is no configuration. -/
inductive Fault where
  | document (error : Config.DocumentError)
  | noSymbol
  | badInterval (name : String)
  /-- An interval that cannot be written as text. -/
  | unwritable
  /-- A lookback that is no text. -/
  | badLookback
  | range (error : RangeError)
  | request (error : Config.RequestError)

/-- The text of a fault, for those that have one. -/
def Fault.message? : Fault → Option String
  | document error => error.message?
  | noSymbol => some "Missing required field: symbol"
  | badInterval name =>
    let options := Config.nameList (Interval.all.map Interval.name)
    some s!"Invalid interval '{name}'. Valid options: {options}"
  | unwritable => none
  | badLookback => none
  | range error => error.message?
  | request error => error.message?

/-- The symbol of a configuration. -/
def symbolOf (entries : List (Datum × Datum)) : Except Fault String :=
  match Datum.get? entries "symbol" with
  | some (.text name) =>
    let trimmed := Text.trim name.toList
    if trimmed.isEmpty then .error .noSymbol else .ok (Text.upper (String.ofList trimmed))
  | _ => .error .noSymbol

/-- The interval of a configuration. -/
def intervalOf (entries : List (Datum × Datum)) : Except Fault Interval :=
  let datum := (Datum.get? entries "interval").getD (.text Interval.oneDay.name)
  if datum.isWritable then
    match Interval.ofName? datum.shown with
    | some interval => .ok interval
    | none => .error (.badInterval datum.shown)
  else .error .unwritable

/-- A bound of the range, unless it is null. -/
def bound? : Datum → Option Bound
  | .null => none
  | .moment m => some (.moment m)
  | datum => some (if datum.isWritable then .text datum.shown else .unwritable)

/-- The lookback of a configuration, if it counts as given. -/
def lookbackOf (datum : Datum) : Except Fault (Option String) :=
  match datum with
  | .text s => .ok (some s)
  | _ => if datum.isTrue then .error .badLookback else .ok none

/-- The range of a configuration, if any of its parts counts as given. -/
def rangeOf (now : Moment) (entries : List (Datum × Datum)) : Except Fault (Option DateRange) := do
  let part := fun name => (Datum.get? entries name).getD .null
  let (lookback, start, stop) := (part "lookback", part "start", part "end")
  if !(lookback.isTrue || start.isTrue || stop.isTrue) then return none
  match DateRange.resolve now (← lookbackOf lookback) (bound? start) (bound? stop) with
  | .ok range => return some range
  | .error error => throw (.range error)

/-- The request of a configuration. -/
def requestOf (entries : List (Datum × Datum)) : Except Fault Request :=
  match Config.buildRequest ((Datum.get? entries "indicators").getD (.mapping [])) with
  | .ok request => .ok request
  | .error error => .error (.request error)

/-- The configuration that entries describe. -/
def ofEntries (now : Moment) (entries : List (Datum × Datum)) : Except Fault IndicatorsConfig := do
  let symbol ← symbolOf entries
  let interval ← intervalOf entries
  let range ← rangeOf now entries
  return ⟨symbol, interval, range, ← requestOf entries⟩

/-- Reads the configuration that is stored under a path. -/
def load (now : Moment) (path : String) (stored : Stored) : Except Fault IndicatorsConfig :=
  match Config.entries path stored with
  | .ok entries => ofEntries now entries
  | .error error => .error (.document error)

end IndicatorsConfig

end Bourse
