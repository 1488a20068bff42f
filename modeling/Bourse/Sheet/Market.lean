import Bourse.Indicator.Report
import Bourse.Market.Batch
import Bourse.Market.Quote
import Bourse.Sheet.Basic
/-!
The sheets of market data: quotes one a row or side by side, bars of one or more symbols, the latest
rows of a report, and corporate actions in the order of their dates.
-/
namespace Bourse

/-- A column of a sheet of quotes. -/
structure QuoteColumn where
  key : String
  title : String
  cell : Quote → Cell

namespace QuoteColumn

/-- The symbol. -/
def symbol : QuoteColumn := ⟨"symbol", "Symbol", fun q => .text q.symbol⟩

/-- The figures. -/
def figures : List QuoteColumn := [
  ⟨"price", "Price", fun q => .real q.price⟩,
  ⟨"change", "Change", fun q => .real q.change⟩,
  ⟨"change_percent", "Change%", fun q => .real q.changePercent⟩,
  ⟨"volume", "Volume", fun q => .whole q.volume⟩,
  ⟨"market_cap", "MarketCap", fun q => .whole q.marketCap⟩,
  ⟨"pe_ratio", "P/E", fun q => Cell.ofOption q.trailingPe⟩,
  ⟨"dividend_yield", "Yield%", fun q => Cell.ofOption q.dividendYield⟩]

/-- The name of a column: its key in JSON, its title elsewhere. -/
def label (format : SheetFormat) (column : QuoteColumn) : String :=
  if format = .json then column.key else column.title

end QuoteColumn

namespace Sheet

/-- One row a quote. -/
def ofQuotes (format : SheetFormat) (quotes : List Quote) : Sheet :=
  let columns := QuoteColumn.symbol :: QuoteColumn.figures
  { headers := columns.map (QuoteColumn.label format)
    rows := quotes.map fun quote => columns.map (·.cell quote) }

/-- One row a figure and one column a quote. -/
def ofComparison (format : SheetFormat) (quotes : List Quote) : Sheet :=
  { headers := (if format = .json then "field" else "Field") :: quotes.map (·.symbol)
    rows := QuoteColumn.figures.map fun column =>
      .text (column.label format) :: quotes.map column.cell }

/-- The date and time of a timestamp. -/
def minuteCell (timestamp : Int) : Except SheetError Cell :=
  match Moment.ofTimestamp timestamp with
  | .ok m => .ok (.text m.minuteText)
  | .error fault => .error (.timestamp fault)

/-- The date of a timestamp. -/
def dayCell (timestamp : Int) : Except SheetError Cell :=
  match Moment.ofTimestamp timestamp with
  | .ok m => .ok (.text m.dayText)
  | .error fault => .error (.timestamp fault)

/-- The names of the cells of a bar. -/
def barHeaders : List String := ["date", "open", "high", "low", "close", "volume"]

/-- The cells of a bar. -/
def barRow (bar : Bar Float) : Except SheetError (List Cell) := do
  let date ← minuteCell bar.timestamp
  return [
    date, .real bar.opening, .real bar.high, .real bar.low, .real bar.close, .whole bar.volume]

/-- One row a bar. -/
def ofHistory (history : History) : Except SheetError Sheet := do
  return ⟨barHeaders, ← history.bars.mapM barRow⟩

/-- One row a bar, with its symbol in front. -/
def ofBatch (batch : Batch) : Except SheetError Sheet := do
  let rows ← batch.histories.mapM fun (symbol, history) =>
    history.bars.mapM fun bar => do return .text symbol :: (← barRow bar)
  return ⟨"symbol" :: barHeaders, rows.flatten⟩

/-- The value of a series at a bar. -/
def seriesCell (index : Nat) (series : String × List Float) : Except SheetError Cell :=
  match series.2[index]? with
  | some x => .ok (.real x)
  | none => .error .shortSeries

/-- The cells of a report at a bar. -/
def reportRow (report : Report) (index : Nat) (timestamp : Int) :
    Except SheetError (List Cell) := do
  let date ← minuteCell timestamp
  return date :: (← report.series.mapM (seriesCell index))

/-- One row a bar of a report, from the bar with the given index on. -/
def reportRows (report : Report) (index : Nat) : List Int → Except SheetError (List (List Cell))
  | [] => .ok []
  | timestamp :: rest => do
    let row ← reportRow report index timestamp
    return row :: (← reportRows report (index + 1) rest)

/-- One row a bar of a report, or only the given number of last rows. -/
def ofReport (tail : Option Int) (report : Report) : Except SheetError Sheet := do
  let count := report.timestamps.length
  let start := match tail with
    | some kept => ((count : Int) - kept).toNat
    | none => 0
  let rows ← reportRows report start (report.timestamps.drop start)
  return ⟨"date" :: report.series.map (·.1), rows⟩

/-- A row of a sheet of actions before its date is written. -/
structure ActionRow where
  timestamp : Int
  kind : String
  value : Cell

/-- The row of a dividend. -/
def dividendRow (dividend : Dividend) : ActionRow :=
  ⟨dividend.timestamp, "dividend", .real dividend.amount⟩

/-- The row of a split. -/
def splitRow (split : Split) : Except SheetError ActionRow :=
  match split.label with
  | .ok label => .ok ⟨split.timestamp, "split", .text label⟩
  | .error fault => .error (.ratio fault)

/-- One row a dividend or split in the order of time; at equal times dividends come first. -/
def ofActions (actions : Actions) : Except SheetError Sheet := do
  let splits ← actions.splits.mapM splitRow
  let events := (actions.dividends.map dividendRow ++ splits).mergeSort
    fun a b => decide (a.timestamp ≤ b.timestamp)
  let rows ← events.mapM fun event => do
    return [← dayCell event.timestamp, .text event.kind, event.value]
  return ⟨["date", "type", "value"], rows⟩

end Sheet

end Bourse
