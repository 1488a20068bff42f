import Bourse.Cli.Command
import Bourse.Cli.Run
import Bourse.Indicator.Summary
import Bourse.Sheet.Market
/-!
What each command does. A command ends with a status, which is zero where everything that was asked
for was found.
-/
namespace Bourse.Cli

open Run

/-- Shows current quotes. -/
def QuoteSettings.show (settings : QuoteSettings) : Run Nat := do
  let wanted ← collect settings.symbols
  if wanted.isEmpty then throw .noSymbols
  let found ← fetchQuotes wanted
  if found.isEmpty then throw .noQuotes
  let style := settings.display.style
  showSheet style (.ok (Sheet.ofQuotes style.format found))
  return 0

/-- Shows quotes side by side. -/
def QuoteSettings.compare (settings : QuoteSettings) : Run Nat := do
  let wanted ← collect settings.symbols
  if wanted.length < 2 then throw .tooFewSymbols
  let found ← fetchQuotes wanted
  if found.length < 2 then throw (.tooFewQuotes found.length)
  let style := settings.display.style
  showSheet style (.ok (Sheet.ofComparison style.format found))
  return 0

/-- Shows the bars of a symbol, of the last month where no range is given. -/
def HistorySettings.show (settings : HistorySettings) : Run Nat := do
  let range ← givenRange settings.bars.span
  let symbol := Text.upper settings.symbol
  let found ← fetchHistory settings.bars symbol settings.bars.interval range "1mo"
  showSheet settings.display.style (Sheet.ofHistory found)
  return 0

/-- Shows or stores the bars of several symbols, of the last year where no range is given. -/
def DownloadSettings.carryOut (settings : DownloadSettings) : Run Nat := do
  let wanted ← collect settings.symbols
  if wanted.isEmpty then throw .noSymbols
  let source := barSource settings.bars
  let range ← fetchRange source (← givenRange settings.bars.span) "1y"
  let world := (← read).world
  let interval := settings.bars.interval.name
  let batch ← needFetched
    (Source.histories (fun symbol => source.history world symbol range interval) wanted)
  for (symbol, message) in batch.failed do
    warn s!"Warning: {symbol}: {message}"
  warn s!"Downloaded {batch.histories.length} of {wanted.length} symbols"
  let text ← need .sheet (do (← Sheet.ofBatch batch).render settings.display.style)
  match settings.output with
  | none | some "" => if !batch.histories.isEmpty then say text
  | some path =>
    save path (text ++ "\n")
    warn s!"Wrote {path}"
  return if batch.failed.isEmpty then 0 else 1

/-- The actions of one kind, or all of them. -/
def ActionKind.pick (actions : Actions) : Option ActionKind → Actions
  | none => actions
  | some dividends => { actions with splits := [] }
  | some splits => { actions with dividends := [] }

/-- Shows the corporate actions of a symbol. -/
def ActionSettings.show (settings : ActionSettings) : Run Nat := do
  let symbol := Text.upper settings.symbol
  let range ← givenRange settings.span
  let found ← needFetched (Service.actions (← read).world.service symbol range)
  let actions := ActionKind.pick found settings.only
  if actions.isEmpty then
    warn s!"No corporate actions available for {symbol}"
    return 0
  warn s!"{actions.dividends.length} dividends, {actions.splits.length} splits"
  showSheet settings.display.style (Sheet.ofActions actions)
  return 0

/-- What a command about indicators works on. -/
structure IndicatorTask where
  symbol : String
  interval : Interval
  range : Option DateRange
  request : Request

/-- The task that a configuration describes; a range among the options goes before its own. -/
def IndicatorSettings.taskOfConfig (settings : IndicatorSettings) (path : String) :
    Run IndicatorTask := do
  let session ← read
  let config ← need .indicatorsConfig
    (IndicatorsConfig.load session.now path (session.world.stored path))
  let given ← givenRange settings.bars.span
  return ⟨config.symbol, config.interval, given <|> config.range, config.request⟩

/-- The task that options describe. -/
def IndicatorSettings.taskOfOptions (settings : IndicatorSettings) : Run IndicatorTask := do
  match settings.symbol with
  | none | some "" => throw .noSymbol
  | some symbol =>
    let range ← givenRange settings.bars.span
    let request ← need .periods settings.choice.request
    return ⟨Text.upper symbol, settings.bars.interval, range, request⟩

/-- The task of a command about indicators. -/
def IndicatorSettings.task (settings : IndicatorSettings) : Run IndicatorTask :=
  match settings.config with
  | none | some "" => settings.taskOfOptions
  | some path => settings.taskOfConfig path

/-- Shows the latest price and one line a series. -/
def showSummary (style : SheetStyle) (task : IndicatorTask) (history : History) (report : Report) :
    Run Unit := do
  let price := (history.bars.getLast?.map (·.close)).getD 0
  let shown ← need .sheet (Cell.realText style.places price)
  say (s!"{task.symbol}  last close {shown}  " ++
    s!"({history.bars.length} bars, {task.interval.name})")
  say ("\n".intercalate (Summary.lines price report))

/-- Computes and shows indicators over the bars of a symbol, of the last year where no range is
given. A table without a number of last rows is a summary. -/
def IndicatorSettings.show (settings : IndicatorSettings) : Run Nat := do
  let task ← settings.task
  if task.request.isEmpty then
    warn "No indicators specified. Try --sma 20,50 --rsi 14 --macd or --all."
    return 1
  let history ← fetchHistory settings.bars task.symbol task.interval task.range "1y"
  let report ← needLogged .indicator (Indicator.computeLogged history.bars task.request)
  for (label, message) in report.errors do
    warn s!"Warning: {label}: {message}"
  let style := settings.display.style
  if style.format = .table ∧ settings.tail.isNone then showSummary style task history report
  else showSheet style (Sheet.ofReport settings.tail report)
  return 0

/-- The configuration of a screen: that of a file, or that of the options, where a condition makes
the criteria custom. -/
def ScreenSettings.resolve (settings : ScreenSettings) : Run ScreenConfig := do
  match settings.config with
  | none | some "" =>
    let wanted ← collect settings.symbols
    let condition := settings.condition.getD ""
    return ⟨wanted, if condition = "" then settings.criteria else .custom, condition⟩
  | some path =>
    need .screenConfig (ScreenConfig.load path ((← read).world.stored path))

/-- The error of a condition that is used. -/
def ScreenConfig.conditionError? (config : ScreenConfig) : Option Filter.SyntaxError :=
  if config.criteria = .custom then
    match Filter.compile config.condition with
    | .ok _ => none
    | .error error => some error
  else none

/-- Shows the quotes that satisfy a condition, which is checked before any quote is fetched. -/
def ScreenSettings.show (settings : ScreenSettings) : Run Nat := do
  let config ← settings.resolve
  if config.symbols.isEmpty then throw .noSymbols
  match ScreenConfig.conditionError? config with
  | some error =>
    warn s!"Invalid expression: {error.message}"
    return 1
  | none =>
    let found ← fetchQuotes config.symbols
    if found.isEmpty then throw .noQuotes
    let matched ← needLogged .screen (Screen.run config.criteria config.condition found)
    warn s!"{matched.length} of {found.length} symbols match"
    let style := settings.display.style
    if !matched.isEmpty then showSheet style (.ok (Sheet.ofQuotes style.format matched))
    return 0

namespace Command

/-- How the results of a command are shown. -/
def display : Command → Display
  | quote settings => settings.display
  | compare settings => settings.display
  | history settings => settings.display
  | download settings => settings.display
  | actions settings => settings.display
  | indicators settings => settings.display
  | screen settings => settings.display

/-- Carries out a command. -/
def carryOut : Command → Run Nat
  | quote settings => settings.show
  | compare settings => settings.compare
  | history settings => settings.show
  | download settings => settings.carryOut
  | actions settings => settings.show
  | indicators settings => settings.show
  | screen settings => settings.show

end Command

end Bourse.Cli
