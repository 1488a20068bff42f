import Bourse.Indicator.Series
/-!
Moving averages: simple, exponential and linearly weighted.
-/
namespace Bourse.Indicator

variable {α : Type} [Scalar α]

open Scalar Series

/-- The means of the trailing windows; a missing price makes every mean that sees it missing. -/
def sma (prices : List α) (period : Int) : Except Failure (List α) := do
  let p ← checkPeriod .sma prices.length period period
  return trailing p (mean p) prices

/-- The exponential averages of prices that follow an average: each goes the same part of the way
from the last average to the price. -/
def emaFrom (factor previous : α) : List α → List α
  | [] => []
  | price :: rest =>
    let next := (price - previous) * factor + previous
    next :: emaFrom factor next rest

/-- The part of the way that an exponential average goes. -/
def emaFactor (p : Nat) : α := ofInt 2 / (ofInt p + ofInt 1)

/-- The exponential averages of at least `p` prices, from the mean of the first `p` on. -/
def emaSeries (p : Nat) (prices : List α) : List α :=
  let seed := mean p (prices.take p)
  missingSeries (p - 1) ++ seed :: emaFrom (emaFactor p) seed (prices.drop p)

/-- The exponential moving average. -/
def ema (prices : List α) (period : Int) : Except Failure (List α) := do
  let p ← checkPeriod .ema prices.length period period
  return emaSeries p prices

/-- The sum of prices, the `i`-th of them taken `i` times. -/
def weightedSum (prices : List α) : α :=
  (List.zipWith (fun price (i : Nat) => price * ofInt (i + 1)) prices
    (List.range prices.length)).foldl (· + ·) zero

/-- The weighted moving average; the newest price of a window weighs most. -/
def wma (prices : List α) (period : Int) : Except Failure (List α) := do
  let p ← checkPeriod .wma prices.length period period
  return trailing p (fun window => weightedSum window / ofInt (p * (p + 1) / 2 : Nat)) prices

end Bourse.Indicator
