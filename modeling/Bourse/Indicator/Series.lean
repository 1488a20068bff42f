import Bourse.Datum
import Bourse.Indicator.Scalar
/-!
Series: sums in a fixed order of additions, trailing windows, and the conditions under which an
indicator is computed at all.
-/
namespace Bourse

namespace Indicator

/-- The indicators. -/
inductive Kind where
  | sma
  | ema
  | wma
  | rsi
  | stochastic
  | roc
  | macd
  | adx
  | bollingerBands
  | trueRange
  | atr
  | obv
  | vwap
deriving DecidableEq, Repr

/-- The name of an indicator in messages. -/
def Kind.label : Kind → String
  | sma => "SMA"
  | ema => "EMA"
  | wma => "WMA"
  | rsi => "RSI"
  | stochastic => "Stochastic"
  | roc => "ROC"
  | macd => "MACD"
  | adx => "ADX"
  | bollingerBands => "Bollinger Bands"
  | trueRange => "True Range"
  | atr => "ATR"
  | obv => "OBV"
  | vwap => "VWAP"

/-- The reasons to refuse an indicator. -/
inductive Refusal where
  /-- A period below one. -/
  | badPeriod (indicator : Kind) (period : Int)
  /-- Fewer values than the indicator needs. -/
  | insufficient (indicator : Kind) (required : Int) (actual : Nat)
deriving DecidableEq, Repr

/-- The text of a refusal. -/
def Refusal.message : Refusal → String
  | badPeriod indicator period => s!"{indicator.label}: period must be >= 1 (got {period})"
  | insufficient indicator required actual =>
    s!"{indicator.label}: insufficient data (need {required}, have {actual})"

/-- The number that a refusal names first: the period, or how many values are required. -/
def Refusal.number : Refusal → Int
  | badPeriod _ period => period
  | insufficient _ required _ => required

/-- The reasons why an indicator has no series. -/
inductive Failure where
  | refused (refusal : Refusal)
  /-- A message or a label would have a number in it that is too long to be written out. -/
  | unwritable
  /-- A signal was asked for where no value of the line is known. -/
  | noKnownValue
  /-- A volume too large for a number. -/
  | volumeTooLarge
deriving DecidableEq, Repr

/-- The failure of an indicator that is refused, if the number of the refusal can be written. -/
def Failure.ofRefusal (refusal : Refusal) : Failure :=
  if (Datum.int refusal.number).isWritable then .refused refusal else .unwritable

/-- A period as a natural, if it is positive and there are at least `required` values. -/
def checkPeriod (indicator : Kind) (length : Nat) (period required : Int) :
    Except Failure Nat :=
  if period < 1 then .error (.ofRefusal (.badPeriod indicator period))
  else if length < required then .error (.ofRefusal (.insufficient indicator required length))
  else .ok period.toNat

end Indicator

namespace Series

variable {α : Type} [Scalar α]

open Scalar

/-- The sum of few numbers, from left to right and from negative zero on. -/
def sumInOrder (xs : List α) : α := xs.foldl (· + ·) (-zero)

/-- Adds every full block of eight numbers to eight accumulators; also gives what remains. -/
def addBlocks (accumulators : List α) : List α → List α × List α
  | a :: b :: c :: d :: e :: f :: g :: h :: rest =>
    addBlocks (List.zipWith (· + ·) accumulators [a, b, c, d, e, f, g, h]) rest
  | rest => (accumulators, rest)

/-- The sum of eight accumulators, by pairs. -/
def joinEight : List α → α
  | [a, b, c, d, e, f, g, h] => ((a + b) + (c + d)) + ((e + f) + (g + h))
  | _ => zero

/-- The sum of at least eight numbers in eight interleaved sums. -/
def sumInBlocks (xs : List α) : α :=
  let blocks := addBlocks (xs.take 8) (xs.drop 8)
  blocks.2.foldl (· + ·) (joinEight blocks.1)

/-- Where a long sum is divided: near the middle, at a multiple of eight. -/
def splitPoint (n : Nat) : Nat := n / 2 - n / 2 % 8

/-- The pairwise sum. -/
def pairwiseSum (xs : List α) : α :=
  if xs.length < 8 then sumInOrder xs
  else if _ : xs.length ≤ 128 then sumInBlocks xs
  else
    pairwiseSum (xs.take (splitPoint xs.length)) + pairwiseSum (xs.drop (splitPoint xs.length))
termination_by xs.length
decreasing_by all_goals simp only [List.length_take, List.length_drop, splitPoint]; omega

/-- The sum of numbers. -/
def sum (xs : List α) : α := zero + pairwiseSum xs

/-- The sum of numbers divided by a count. -/
def mean (count : Nat) (xs : List α) : α := sum xs / ofInt count

/-- A series of missing values. -/
def missingSeries (length : Nat) : List α := List.replicate length missing

/-- The first `count` tails of a list, the longest first. -/
def tails {β : Type} : Nat → List β → List (List β)
  | 0, _ => []
  | count + 1, xs => xs :: tails count xs.tail

/-- The windows of `period` neighbours, oldest first. -/
def windows {β : Type} (period : Nat) (xs : List β) : List (List β) :=
  (tails (xs.length + 1 - period) xs).map (·.take period)

/-- A figure of every trailing window; places without a full window hold missing values. -/
def trailing {β : Type} (period : Nat) (figure : List β → α) (xs : List β) : List α :=
  missingSeries (period - 1) ++ (windows period xs).map figure

/-- The last value that is known. -/
def lastKnown? (xs : List α) : Option α := xs.reverse.find? fun x => !isMissing x

end Series

end Bourse
