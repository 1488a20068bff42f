import Bourse.Indicator.Average
import Bourse.Market.Bar
/-!
Volatility: Bollinger bands, the true range and its average.
-/
namespace Bourse.Indicator

variable {α : Type} [Scalar α]

open Scalar Series

/-- The lines of Bollinger bands. -/
structure Bands (α : Type) where
  upper : List α
  middle : List α
  lower : List α

/-- The mean of the squares of a window less the square of its mean. -/
def variance (p : Nat) (window : List α) : α :=
  mean p (window.map fun x => x * x) - mean p window * mean p window

/-- The root of the variance of a window, where a variance below zero counts as zero. -/
def deviation (p : Nat) (window : List α) : α := sqrt (larger (variance p window) zero)

/-- Bands around the simple average, a multiple of the deviation away. -/
def bollingerBands (prices : List α) (period : Int := 20)
    (width : α := ofInt 2) :
    Except Failure (Bands α) := do
  let p ← checkPeriod .bollingerBands prices.length period period
  return {
    upper := trailing p (fun window => mean p window + width * deviation p window) prices
    middle := trailing p (mean p) prices
    lower := trailing p (fun window => mean p window - width * deviation p window) prices }

/-- The range of a bar, extended to the close before it. -/
def trueRangeAfter (previousClose : α) (bar : Bar α) : α :=
  larger (larger (bar.high - bar.low) (abs (bar.high - previousClose)))
    (abs (bar.low - previousClose))

/-- The true ranges of bars after the first. -/
def laterTrueRanges (bars : List (Bar α)) : List α :=
  List.zipWith (fun bar previous => trueRangeAfter previous.close bar) bars.tail bars

/-- The true range of every bar; the first bar has no close before it. -/
def trueRange : List (Bar α) → List α
  | [] => []
  | first :: rest => (first.high - first.low) :: laterTrueRanges (first :: rest)

/-- The average true range. -/
def atr (bars : List (Bar α)) (period : Int := 14) : Except Failure (List α) := do
  let _ ← checkPeriod .atr bars.length period (period + 1)
  ema (trueRange bars) period

end Bourse.Indicator
