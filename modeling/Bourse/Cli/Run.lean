import Bourse.Cli.Options
import Bourse.Config.Indicators
import Bourse.Config.Screen
import Bourse.Indicator.Report
import Bourse.Sheet.Render
import Bourse.Source.Basic
import Bourse.Service.QuoteCache
import Bourse.Storage.Files
import Bourse.Symbols
/-!
Runs of commands: what a run finds, what it leaves behind, and why it may stop.
-/
namespace Bourse.Cli

/-- What a run finds. -/
structure Session where
  world : World := {}
  now : Moment
  /-- The text of the input. -/
  input : String := ""
  /-- Whether the input is a terminal. -/
  terminal : Bool := false
  /-- Whether notices of every level are shown. -/
  verbose : Bool := false

/-- What a run leaves behind. -/
structure Transcript where
  output : String := ""
  errors : String := ""
  /-- The files that were written, with their texts. -/
  written : List (String × String) := []
  calls : List ServiceCall := []

/-- The reasons why a run stops. -/
inductive Fault where
  | noSymbol
  | noSymbols
  | tooFewSymbols
  | noQuotes
  | tooFewQuotes (count : Nat)
  | noBars (symbol : String)
  | range (error : RangeError)
  | periods (error : Config.PeriodError)
  | screenConfig (fault : ScreenConfig.Fault)
  | indicatorsConfig (fault : IndicatorsConfig.Fault)
  | source (failure : SourceFailure)
  | screen (error : ScreenError)
  | indicator (failure : Indicator.Failure)
  | sheet (error : SheetError)
  | write (fault : WriteFault)

/-- The text of an evaluation that failed, where it has one. -/
def evaluationMessage? : Filter.EvalError → Option String
  | .foreign => none
  | .tooLarge _ => none
  | error => some error.message

/-- The text of a fault, for those that have one. -/
def Fault.message? : Fault → Option String
  | noSymbol => some "A symbol is required (or use --config)"
  | noSymbols => some "At least one symbol is required"
  | tooFewSymbols => some "At least two symbols are required for comparison"
  | noQuotes => some "No quote data available."
  | tooFewQuotes count => some s!"Need at least 2 quotes for comparison (got {count})."
  | noBars symbol => some s!"No data available for {symbol}."
  | range error => error.message?
  | periods error => error.message?
  | screenConfig fault => fault.message?
  | indicatorsConfig fault => fault.message?
  | source (.reported error) => some error.message
  | source (.broken _) => none
  | screen (.filter error) => some error.message
  | screen (.evaluation error) => evaluationMessage? error
  | indicator (.refused refusal) => some refusal.message
  | indicator _ => none
  | sheet _ => none
  | write _ => none

/-- A run with a result: it reads the session, adds to the transcript and may stop. -/
abbrev Run (α : Type) := ReaderT Session (ExceptT Fault (StateM Transcript)) α

namespace Run

variable {α ε : Type}

/-- Writes a line to the output. -/
def say (text : String) : Run Unit :=
  modify fun t => { t with output := t.output ++ text ++ "\n" }

/-- Writes a line to the errors. -/
def warn (text : String) : Run Unit :=
  modify fun t => { t with errors := t.errors ++ text ++ "\n" }

/-- Writes a file. -/
def save (path text : String) : Run Unit := do
  match writeFault? (← read).world.stored path with
  | some fault => throw (.write fault)
  | none => modify fun t => { t with written := Entries.put (Path.normal path) text t.written }

/-- Whether a notice is shown: warnings and errors always are. -/
def shows (session : Session) (notice : Notice) : Bool :=
  session.verbose || Level.warning.rank ≤ notice.level.rank

/-- Shows notices. -/
def tell (notices : List Notice) : Run Unit := do
  let session ← read
  (notices.filter (shows session)).forM fun notice => warn notice.line

/-- The result of a step, or a stop. -/
def need (wrap : ε → Fault) : Except ε α → Run α
  | .ok a => pure a
  | .error e => throw (wrap e)

/-- The result of a step that leaves notices. -/
def needLogged (wrap : ε → Fault) (logged : Logged (Except ε α)) : Run α := do
  tell logged.notices
  need wrap logged.result

/-- What was fetched. -/
def needFetched (fetched : Fetched α) : Run α := do
  modify fun t => { t with calls := t.calls ++ fetched.calls }
  tell fetched.notices
  need .source fetched.outcome

/-- Shows a sheet. -/
def showSheet (style : SheetStyle) (sheet : Except SheetError Sheet) : Run Unit := do
  say (← need .sheet (do (← sheet).render style))

/-- The symbols that arguments and the input name. -/
def collect (arguments : List String) : Run (List String) := do
  let session ← read
  let found := Symbols.collect arguments session.input session.terminal
  tell found.notices
  return found.result

/-- The current quotes of symbols. -/
def fetchQuotes (symbols : List String) : Run (List Quote) := do
  let session ← read
  let service? := session.world.service.map Service.quote
  let (_, outcome) := QuoteCache.request {} service? session.now symbols
  let answer ← need (fun error => .source (.reported error)) outcome
  tell answer.notices
  return answer.quotes

/-- The range that options give, if they give one. -/
def givenRange (span : Span) : Run (Option DateRange) := do
  let isGiven := fun (text : Option String) => text.any (· != "")
  if !(isGiven span.lookback || isGiven span.start || isGiven span.stop) then return none
  let now := (← read).now
  return some (← need .range
    (DateRange.resolve now span.lookback (span.start.map .text) (span.stop.map .text)))

/-- The source of bars: a file if one is named, the service otherwise. -/
def barSource (bars : BarChoice) : Source :=
  match bars.file with
  | none | some "" => .service {}
  | some path => .csv { path }

/-- The range to fetch: a file is read as a whole unless a range is given, while the service is
asked for the usual lookback. -/
def fetchRange (source : Source) (given : Option DateRange) (usual : String) :
    Run (Option DateRange) := do
  if given.isSome || source.isFile then return given
  return some (← need .range (DateRange.resolve (← read).now none none none usual))

/-- Fetches the history of a symbol; one without bars stops the run. -/
def fetchHistory (bars : BarChoice) (symbol : String) (interval : Interval)
    (given : Option DateRange) (usual : String) : Run History := do
  let source := barSource bars
  let range ← fetchRange source given usual
  let history ← needFetched (source.history (← read).world symbol range interval.name)
  if history.bars.isEmpty then throw (.noBars symbol)
  return history

end Run

end Bourse.Cli
