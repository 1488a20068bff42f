import Bourse.Entries
import Bourse.Indicator.Momentum
import Bourse.Indicator.Request
import Bourse.Indicator.Trend
import Bourse.Indicator.Volume
import Bourse.Log
/-!
Reports: the series of all indicators of a request over the same bars. An indicator that is refused
leaves a message under its label and does not touch the others. Every other failure breaks the
computation off, that of a label whose period cannot be written out among them.
-/
namespace Bourse

/-- Named series over bars, and messages of indicators that were refused. -/
structure Report where
  timestamps : List Int := []
  series : List (String × List Float) := []
  errors : List (String × String) := []

namespace Report

/-- The last value of every series, or none where it is missing. -/
def latest (r : Report) : List (String × Option Float) :=
  r.series.map fun (name, values) => (name, values.getLast?.filter fun x => !x.isNaN)

end Report

namespace Indicator

/-- One indicator of a request: its label and its named series. -/
structure Task where
  label : String
  outcome : Except Failure (List (String × List Float))

/-- The task of an indicator with a period in its label. The label comes first, so nothing is
computed if the period cannot be written out. -/
def labelled (indicator : Kind) (period : Int)
    (outcome : Except Failure (List (String × List Float))) : Task where
  label := s!"{indicator.label}({period})"
  outcome := if (Datum.int period).isWritable then outcome else .error .unwritable

/-- The tasks of a request, in the order in which their series are reported. -/
def tasks (bars : List (Bar Float)) (r : Request) : List Task :=
  let closes := bars.map (·.close)
  let one := fun (name : String) (outcome : Except Failure (List Float)) =>
    outcome.map fun values => [(name, values)]
  r.sma.map (fun p => labelled .sma p (one s!"sma_{p}" (sma closes p))) ++
  r.ema.map (fun p => labelled .ema p (one s!"ema_{p}" (ema closes p))) ++
  r.wma.map (fun p => labelled .wma p (one s!"wma_{p}" (wma closes p))) ++
  r.rsi.toList.map (fun p => labelled .rsi p (one s!"rsi_{p}" (rsi closes p))) ++
  (if r.macd then [⟨Kind.macd.label, (macd closes).map fun lines =>
    [("macd", lines.macd), ("macd_signal", lines.signal), ("macd_histogram", lines.histogram)]⟩]
    else []) ++
  (if r.stochastic then [⟨Kind.stochastic.label, (stochastic bars).map fun lines =>
    [("stoch_k", lines.k), ("stoch_d", lines.d)]⟩] else []) ++
  r.bands.toList.map (fun p => labelled .bollingerBands p
    ((bollingerBands closes p r.bandWidth).map fun lines =>
      [("bb_upper", lines.upper), ("bb_middle", lines.middle), ("bb_lower", lines.lower)])) ++
  r.atr.toList.map (fun p => labelled .atr p (one s!"atr_{p}" (atr bars p))) ++
  r.adx.toList.map (fun p => labelled .adx p (one s!"adx_{p}" (adx bars p))) ++
  (if r.obv then [⟨Kind.obv.label, one "obv" (obv bars)⟩] else []) ++
  (if r.vwap then [⟨Kind.vwap.label, one "vwap" (vwap bars)⟩] else [])

/-- The part of the program that the notices of a computation name. -/
def origin : String := "tickerscope.indicators.engine"

/-- Enters the outcome of a task into a report. -/
def enter (report : Report) (task : Task) : Except Failure Report :=
  match task.outcome with
  | .ok lines =>
    .ok { report with series := Entries.putAll report.series lines }
  | .error (.refused refusal) =>
    .ok { report with errors := Entries.put task.label refusal.message report.errors }
  | .error failure => .error failure

/-- Whether the outcome of a task can be entered into a report: its lines, or its refusal. -/
def Task.isEntered (task : Task) : Bool :=
  match task.outcome with
  | .ok _ | .error (.refused _) => true
  | .error _ => false

/-- The notice about a task that was refused. -/
def refusalNotice? (task : Task) : Option Notice :=
  match task.outcome with
  | .error (.refused refusal) =>
    some ⟨.warning, origin, s!"Skipping {task.label}: {refusal.message}"⟩
  | _ => none

/-- The notice at the end of a computation. -/
def summary (report : Report) : Notice :=
  let (series, bars, failed) :=
    (report.series.length, report.timestamps.length, report.errors.length)
  ⟨.debug, origin, s!"Computed {series} series over {bars} bars ({failed} failed)"⟩

/-- Computes every indicator of a request. -/
def compute (bars : List (Bar Float)) (r : Request) : Except Failure Report :=
  (tasks bars r).foldlM enter { timestamps := bars.map (·.timestamp) }

/-- Computes every indicator of a request and reports what was refused, up to where the
computation breaks off. -/
def computeLogged (bars : List (Bar Float)) (r : Request) : Logged (Except Failure Report) :=
  let refusals := ((tasks bars r).takeWhile Task.isEntered).filterMap refusalNotice?
  match compute bars r with
  | .ok report => ⟨.ok report, refusals ++ [summary report]⟩
  | .error failure => ⟨.error failure, refusals⟩

end Indicator

end Bourse
