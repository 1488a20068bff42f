import Bourse.Indicator.Average
import Bourse.Market.Bar
/-!
Momentum: relative strength, rate of change and the stochastic oscillator.
-/
namespace Bourse.Indicator

variable {α : Type} [Scalar α]

open Scalar Series

/-- The changes from each value to the next. -/
def changes (prices : List α) : List α :=
  List.zipWith (fun next last => next - last) prices.tail prices

/-- A change if it is a rise, else zero. -/
def gain (change : α) : α := if less zero change then change else zero

/-- The size of a change if it is a fall, else zero. -/
def loss (change : α) : α := if less change zero then -change else zero

/-- The strength of rises against falls; without falls it is one hundred. -/
def strength (averageGain averageLoss : α) : α :=
  if isZero averageLoss then hundred
  else hundred - hundred / (ofInt 1 + averageGain / averageLoss)

/-- An average over `p` values moved on by one value. -/
def smooth (p : Nat) (average value : α) : α := (average * ofInt (p - 1 : Nat) + value) / ofInt p

/-- The strengths after changes that follow a pair of averages. -/
def strengthsFrom (p : Nat) (averageGain averageLoss : α) : List α → List α
  | [] => []
  | change :: rest =>
    let averageGain := smooth p averageGain (gain change)
    let averageLoss := smooth p averageLoss (loss change)
    strength averageGain averageLoss :: strengthsFrom p averageGain averageLoss rest

/-- The relative strength index, from the means of the first `period` gains and losses on. -/
def rsi (prices : List α) (period : Int := 14) : Except Failure (List α) := do
  let p ← checkPeriod .rsi prices.length period (period + 1)
  let steps := changes prices
  let averageGain := mean p ((steps.take p).map gain)
  let averageLoss := mean p ((steps.take p).map loss)
  return missingSeries p ++
    strength averageGain averageLoss :: strengthsFrom p averageGain averageLoss (steps.drop p)

/-- The change from a base in percent; from zero it is missing. -/
def percentChange (base price : α) : α :=
  if isZero base then missing else (price - base) / base * hundred

/-- The rate of change over a number of periods. -/
def roc (prices : List α) (period : Int := 12) : Except Failure (List α) := do
  let p ← checkPeriod .roc prices.length period (period + 1)
  return missingSeries p ++ List.zipWith percentChange prices (prices.drop p)

/-- The lowest of some numbers; one that is missing does not replace a known one. -/
def lowest : List α → α
  | [] => missing
  | x :: rest => rest.foldl smaller x

/-- The highest of some numbers; one that is missing does not replace a known one. -/
def highest : List α → α
  | [] => missing
  | x :: rest => rest.foldl larger x

/-- Where the last close of a window lies between its lowest low and its highest high, in percent;
half way if there is no range. -/
def rawStochastic (window : List (Bar α)) : α :=
  let floor := lowest (window.map (·.low))
  let range := highest (window.map (·.high)) - floor
  match window.getLast? with
  | none => missing
  | some last => if isZero range then ofInt 50 else (last.close - floor) / range * hundred

/-- The lines of the stochastic oscillator. -/
structure Stochastic (α : Type) where
  k : List α
  d : List α

/-- The stochastic oscillator: the raw values averaged once for %K and once more for %D. -/
def stochastic (bars : List (Bar α)) (period : Int := 14) (smoothK : Int := 3)
    (smoothD : Int := 3) : Except Failure (Stochastic α) := do
  let p ← checkPeriod .stochastic bars.length period period
  let _ ← checkPeriod .stochastic bars.length smoothK (max period smoothK)
  let _ ← checkPeriod .stochastic bars.length smoothD (max period smoothD)
  let k ← sma (trailing p rawStochastic bars) smoothK
  let d ← sma k smoothD
  return ⟨k, d⟩

end Bourse.Indicator
