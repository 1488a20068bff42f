import Bourse.Indicator.Volatility
/-!
Trend: convergence and divergence of two exponential averages, and the directional index.
-/
namespace Bourse.Indicator

variable {α : Type} [Scalar α]

open Scalar Series

/-- The lines of the convergence of two averages. -/
structure Macd (α : Type) where
  macd : List α
  signal : List α
  histogram : List α

/-- The signal of a line: the average of the line from its first known value on, if the line has as
many known values as the period. -/
def signalLine (line : List α) (period : Int) : Except Failure (List α) := do
  let known := line.filter fun x => !isMissing x
  if known.length < period then return missingSeries line.length
  let first := (line.takeWhile isMissing).length
  if known.isEmpty then throw .noKnownValue
  let signal ← ema (line.drop first) period
  return missingSeries first ++ signal

/-- The difference of a fast and a slow average, its signal, and how far the one is from the
other. -/
def macd (prices : List α) (fast : Int := 12) (slow : Int := 26) (signal : Int := 9) :
    Except Failure (Macd α) := do
  let _ ← checkPeriod .macd prices.length slow slow
  let fastLine ← ema prices fast
  let slowLine ← ema prices slow
  let line := List.zipWith (· - ·) fastLine slowLine
  let signal ← signalLine line signal
  return ⟨line, signal, List.zipWith (· - ·) line signal⟩

/-- The rise of the highs if it exceeds the fall of the lows, else zero. -/
def upMove (bar previous : Bar α) : α :=
  let up := bar.high - previous.high
  let down := previous.low - bar.low
  if less down up && less zero up then up else zero

/-- The fall of the lows if it exceeds the rise of the highs, else zero. -/
def downMove (bar previous : Bar α) : α :=
  let up := bar.high - previous.high
  let down := previous.low - bar.low
  if less up down && less zero down then down else zero

/-- How far two smoothed movements differ, in percent of their sum; zero without movement. -/
def directionalIndex (range up down : α) : α :=
  let plus := if isZero range then zero else hundred * up / range
  let minus := if isZero range then zero else hundred * down / range
  let total := plus + minus
  if isZero total then zero else abs (plus - minus) / total * hundred

/-- The average directional index: the average of the index of smoothed movements, which starts one
step after those are known. -/
def adx (bars : List (Bar α)) (period : Int := 14) : Except Failure (List α) := do
  let p ← checkPeriod .adx bars.length period (period + 1)
  let ranges ← ema (laterTrueRanges bars) period
  let ups ← ema (List.zipWith upMove bars.tail bars) period
  let downs ← ema (List.zipWith downMove bars.tail bars) period
  let moves := List.zip (ranges.drop p) (List.zip (ups.drop p) (downs.drop p))
  let index := moves.map fun (range, up, down) => directionalIndex range up down
  if index.length < p then return missingSeries bars.length
  let average ← ema index period
  return missingSeries (p + 1) ++ average

end Bourse.Indicator
