import Bourse.Cli.Grammar
import Bourse.Config.Periods
import Bourse.Market.Bar
import Bourse.Screen
import Bourse.Sheet.Basic
/-!
The settings of the commands, and the grammars that describe how they are given as options.
-/
namespace Bourse.Cli

/-- How results are shown. -/
structure Display where
  style : SheetStyle := {}
  /-- Whether notices of every level are shown. -/
  verbose : Bool := false

/-- The range of time that a command is about. -/
structure Span where
  lookback : Option String := none
  start : Option String := none
  stop : Option String := none

/-- Which bars a command is about, and the file that they are read from. -/
structure BarChoice where
  interval : Interval := .oneDay
  span : Span := {}
  file : Option String := none

/-- The corporate actions that are shown. -/
inductive ActionKind where
  | dividends
  | splits
deriving DecidableEq, Repr

namespace ActionKind

/-- The name of a kind. -/
def name : ActionKind → String
  | dividends => "dividends"
  | splits => "splits"

/-- Every kind. -/
def all : List ActionKind := [dividends, splits]

end ActionKind

/-- The settings of a command about the quotes of symbols. -/
structure QuoteSettings where
  display : Display := {}
  symbols : List String := []

/-- The settings of a command about the bars of one symbol. -/
structure HistorySettings where
  display : Display := {}
  bars : BarChoice := {}
  symbol : String := ""

/-- The settings of a command about the bars of several symbols. -/
structure DownloadSettings where
  display : Display := {}
  bars : BarChoice := {}
  symbols : List String := []
  /-- The file that the result is written to. -/
  output : Option String := none

/-- The settings of a command about corporate actions. -/
structure ActionSettings where
  display : Display := {}
  span : Span := {}
  symbol : String := ""
  only : Option ActionKind := none

/-- The indicators that are asked for by options. -/
structure IndicatorChoice where
  all : Bool := false
  sma : Option String := none
  ema : Option String := none
  wma : Option String := none
  rsi : Option Int := none
  macd : Bool := false
  stochastic : Bool := false
  bands : Option Int := none
  bandWidth : Float := 2
  atr : Option Int := none
  adx : Option Int := none
  obv : Bool := false
  vwap : Bool := false

namespace IndicatorChoice

/-- The periods of an option; without any the usual ones stay. -/
def periods (name : String) (text : Option String) (usual : List Int) :
    Except Config.PeriodError (List Int) := do
  let given ← Config.periodList name ((text.map Datum.text).getD .null)
  return if given.isEmpty then usual else given

/-- The request that options describe. With `all` it starts from every indicator; the other options
override it. -/
def request (choice : IndicatorChoice) : Except Config.PeriodError Request := do
  let base : Request := if choice.all then Request.usual else {}
  let sma ← periods "sma" choice.sma base.sma
  let ema ← periods "ema" choice.ema base.ema
  let wma ← periods "wma" choice.wma base.wma
  return {
    sma, ema, wma
    rsi := choice.rsi <|> base.rsi
    macd := choice.macd || base.macd
    stochastic := choice.stochastic || base.stochastic
    bands := choice.bands <|> base.bands
    bandWidth := choice.bandWidth
    atr := choice.atr <|> base.atr
    adx := choice.adx <|> base.adx
    obv := choice.obv || base.obv
    vwap := choice.vwap || base.vwap }

end IndicatorChoice

/-- The settings of a command about indicators. -/
structure IndicatorSettings where
  display : Display := {}
  bars : BarChoice := {}
  symbol : Option String := none
  config : Option String := none
  choice : IndicatorChoice := {}
  /-- How many of the last rows are shown. -/
  tail : Option Int := none

/-- The settings of a screen. -/
structure ScreenSettings where
  display : Display := {}
  symbols : List String := []
  criteria : Criteria := .custom
  condition : Option String := none
  config : Option String := none

/-- The name of the program. -/
def program : String := "tickerscope"

variable {σ : Type}

/-- The option that asks for help. -/
def helpOption : OptionRule σ := ⟨["-h", "--help"], .help⟩

/-- The options of every command. -/
def displayOptions (update : (Display → Display) → σ → σ) : List (OptionRule σ) := [
  ⟨["-f", "--format"], .choice SheetFormat.all SheetFormat.name fun format =>
    update fun d => { d with style := { d.style with format } }⟩,
  ⟨["-p", "--precision"], .integer fun places =>
    update fun d => { d with style := { d.style with places } }⟩,
  ⟨["--no-header"], .flag (update fun d => { d with style := { d.style with noHeader := true } })⟩,
  ⟨["-v", "--verbose"], .flag (update fun d => { d with verbose := true })⟩]

/-- The options for a range of time. -/
def spanOptions (update : (Span → Span) → σ → σ) : List (OptionRule σ) := [
  ⟨["--lookback"], .text fun text => update fun s => { s with lookback := some text }⟩,
  ⟨["--start"], .text fun text => update fun s => { s with start := some text }⟩,
  ⟨["--end"], .text fun text => update fun s => { s with stop := some text }⟩]

/-- The options for bars. -/
def barOptions (update : (BarChoice → BarChoice) → σ → σ) : List (OptionRule σ) :=
  ⟨["-i", "--interval"], .choice Interval.all Interval.name fun interval =>
    update fun b => { b with interval }⟩ ::
  spanOptions (fun change => update fun b => { b with span := change b.span }) ++
  [⟨["--csv"], .text fun text => update fun b => { b with file := some text }⟩]

/-- The grammar of a command about the quotes of symbols. -/
def quoteGrammar (command : String) : Grammar QuoteSettings where
  program := program ++ " " ++ command
  options := helpOption :: displayOptions fun change s => { s with display := change s.display }
  positional := ⟨"symbols", .many, fun symbols s => { s with symbols }⟩

/-- The grammar of a command about the bars of one symbol. -/
def historyGrammar (command : String) : Grammar HistorySettings where
  program := program ++ " " ++ command
  options := helpOption ::
    displayOptions (fun change s => { s with display := change s.display }) ++
    barOptions fun change s => { s with bars := change s.bars }
  positional := ⟨"symbol", .one, fun words s => { s with symbol := words.headD "" }⟩

/-- The grammar of a command about the bars of several symbols. -/
def downloadGrammar (command : String) : Grammar DownloadSettings where
  program := program ++ " " ++ command
  options := helpOption ::
    displayOptions (fun change s => { s with display := change s.display }) ++
    barOptions (fun change s => { s with bars := change s.bars }) ++
    [⟨["-o", "--output"], .text fun text s => { s with output := some text }⟩]
  positional := ⟨"symbols", .many, fun symbols s => { s with symbols }⟩

/-- The grammar of a command about corporate actions. -/
def actionGrammar (command : String) : Grammar ActionSettings where
  program := program ++ " " ++ command
  options := helpOption ::
    displayOptions (fun change s => { s with display := change s.display }) ++
    ⟨["--only"],
      .choice ActionKind.all ActionKind.name fun kind s => { s with only := some kind }⟩ ::
    spanOptions fun change s => { s with span := change s.span }
  positional := ⟨"symbol", .one, fun words s => { s with symbol := words.headD "" }⟩

/-- The options for indicators. -/
def choiceOptions (update : (IndicatorChoice → IndicatorChoice) → σ → σ) : List (OptionRule σ) := [
  ⟨["--sma"], .text fun text => update fun c => { c with sma := some text }⟩,
  ⟨["--ema"], .text fun text => update fun c => { c with ema := some text }⟩,
  ⟨["--wma"], .text fun text => update fun c => { c with wma := some text }⟩,
  ⟨["--rsi"], .integer fun n => update fun c => { c with rsi := some n }⟩,
  ⟨["--macd"], .flag (update fun c => { c with macd := true })⟩,
  ⟨["--stochastic"], .flag (update fun c => { c with stochastic := true })⟩,
  ⟨["--bb"], .integer fun n => update fun c => { c with bands := some n }⟩,
  ⟨["--bb-std"], .real fun x => update fun c => { c with bandWidth := x }⟩,
  ⟨["--atr"], .integer fun n => update fun c => { c with atr := some n }⟩,
  ⟨["--adx"], .integer fun n => update fun c => { c with adx := some n }⟩,
  ⟨["--obv"], .flag (update fun c => { c with obv := true })⟩,
  ⟨["--vwap"], .flag (update fun c => { c with vwap := true })⟩,
  ⟨["--all"], .flag (update fun c => { c with all := true })⟩]

/-- The grammar of a command about indicators. -/
def indicatorGrammar (command : String) : Grammar IndicatorSettings where
  program := program ++ " " ++ command
  options := helpOption ::
    displayOptions (fun change s => { s with display := change s.display }) ++
    barOptions (fun change s => { s with bars := change s.bars }) ++
    ⟨["--config"], .text fun text s => { s with config := some text }⟩ ::
    choiceOptions (fun change s => { s with choice := change s.choice }) ++
    [⟨["--tail"], .integer fun n s => { s with tail := some n }⟩]
  positional := ⟨"symbol", .optional, fun words s => { s with symbol := words.head? }⟩

/-- The grammar of a screen. -/
def screenGrammar (command : String) : Grammar ScreenSettings where
  program := program ++ " " ++ command
  options := helpOption ::
    displayOptions (fun change s => { s with display := change s.display }) ++ [
    ⟨["-c", "--criteria"],
      .choice Criteria.all Criteria.name fun criteria s => { s with criteria }⟩,
    ⟨["-w", "--where"], .text fun text s => { s with condition := some text }⟩,
    ⟨["--config"], .text fun text s => { s with config := some text }⟩]
  positional := ⟨"symbols", .many, fun symbols s => { s with symbols }⟩

end Bourse.Cli
