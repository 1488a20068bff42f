import Bourse.Calendar.Range
import Bourse.Insertion
import Bourse.Market.Actions
import Bourse.Market.Bar
import Bourse.Source.Error
/-!
Histories and corporate actions from the service. Bars keep the order in which they are handed out;
dividends and splits are cut to a range and sorted by time.
-/
namespace Bourse

/-- The name of an interval in requests to the service. -/
def Interval.serviceName : Interval → String
  | oneHour => "60m"
  | interval => interval.name

/-- Settings that are passed on to the service. -/
structure ServiceSettings where
  timeout : Datum := .int 30
  /-- Whether prices are adjusted for splits and dividends. -/
  adjust : Datum := .bool true

namespace Service

/-- The whole part of a volume. -/
def wholeVolume (x : Float) : Except Breakdown Int :=
  match Binary64.ofFloat x with
  | .nan => .error .volumeNotNumber
  | .infinity _ => .error .volumeInfinite
  | finite => .ok (Moment.wholePart finite)

/-- A bar with its timestamp and its whole volume. -/
def toBar (bar : ServiceBar) : Except Breakdown (Bar Float) := do
  return ⟨bar.time.timestamp, bar.opening, bar.high, bar.low, bar.close, ← wholeVolume bar.volume⟩

/-- The request for the bars of a symbol over the days of a range. -/
def historyCall (settings : ServiceSettings) (symbol : String) (range : DateRange)
    (interval : Interval) : ServiceCall :=
  .history symbol (Moment.plainDate range.start.date) (Moment.plainDate range.stop.date)
    interval.serviceName settings.adjust settings.timeout

/-- The notices after bars were handed out. -/
def historyNotices (symbol : String) (count : Nat) : List Notice :=
  (if count = 0 then [⟨.warning, sourceOrigin, s!"No history returned for {symbol}"⟩] else []) ++
    [⟨.debug, sourceOrigin, s!"Fetched {count} bars for {symbol}"⟩]

/-- The bars of a listing as a history. -/
def historyOf (symbol : String) (interval : Interval) (calls : List ServiceCall)
    (bars : List ServiceBar) : Fetched History :=
  match bars.mapM toBar with
  | .error breakdown => .broken breakdown calls
  | .ok bars =>
    { outcome := .ok { symbol, interval, bars }
      notices := historyNotices symbol bars.length
      calls }

/-- Fetches the history of a symbol. -/
def history (service : Option Service) (settings : ServiceSettings) (symbol : String)
    (range : Option DateRange) (intervalName : String) : Fetched History :=
  match service with
  | none => .failed .serviceAbsent
  | some service =>
    match Interval.ofName? intervalName, range with
    | none, _ => .broken (.unknownInterval intervalName)
    | _, none => .broken .noRange
    | some interval, some range =>
      let opened := ServiceCall.listing symbol
      match service.openListing symbol with
      | .error reason => .failed (.historyFailed symbol reason) [opened]
      | .ok listing =>
        let calls := [opened, historyCall settings symbol range interval]
        match listing.historyFailure with
        | some reason => .failed (.historyFailed symbol reason) calls
        | none => historyOf symbol interval calls listing.bars

/-- A value with its timestamp. -/
structure Event where
  timestamp : Int
  value : Float

/-- Whether an event comes before another: earlier, or at the same time with a smaller value. -/
def Event.isBefore (a b : Event) : Bool :=
  if a.timestamp = b.timestamp then a.value < b.value else a.timestamp < b.timestamp

/-- The events in a range, in the order of time. -/
def events (range : Option DateRange) (rows : List (Moment × Float)) : List Event :=
  let events := rows.map fun (time, value) => (⟨time.timestamp, value⟩ : Event)
  let kept := match range with
    | some range => events.filter fun event => range.covers event.timestamp
    | none => events
  Insertion.sort Event.isBefore kept

/-- The dividends and splits of a listing. -/
def actionsOf (symbol : String) (range : Option DateRange) (listing : Listing) : Actions :=
  { symbol
    dividends := (events range listing.dividends).map fun event => ⟨event.timestamp, event.value⟩
    splits := (events range listing.splits).map fun event => ⟨event.timestamp, event.value⟩ }

/-- The notice after actions were handed out. -/
def actionsNotice (actions : Actions) : Notice :=
  ⟨.debug, sourceOrigin, s!"Fetched {actions.dividends.length} dividends and " ++
    s!"{actions.splits.length} splits for {actions.symbol}"⟩

/-- Fetches the dividends and splits of a symbol. -/
def actions (service : Option Service) (symbol : String) (range : Option DateRange) :
    Fetched Actions :=
  match service with
  | none => .failed .serviceAbsent
  | some service =>
    let calls := [ServiceCall.listing symbol]
    match service.openListing symbol with
    | .error reason => .failed (.actionsFailed symbol reason) calls
    | .ok listing =>
      let actions := actionsOf symbol range listing
      { outcome := .ok actions, notices := [actionsNotice actions], calls }

end Service

end Bourse
