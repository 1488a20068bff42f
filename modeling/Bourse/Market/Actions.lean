import Bourse.Number.Ratio
/-!
Corporate actions: dividends and splits of one security, each with the time in seconds since the
start of 1970.
-/
namespace Bourse

/-- A cash dividend per share. -/
structure Dividend where
  timestamp : Int
  amount : Float

/-- A stock split; the ratio counts new shares for each old one. -/
structure Split where
  timestamp : Int
  ratio : Float

/-- A ratio that no fraction approximates. -/
inductive RatioFault where
  | notNumber
  | infinite
deriving DecidableEq, Repr

namespace Split

/-- The largest denominator of a label. -/
def labelBound : Nat := 1000

/-- The label of a rational ratio, as in `3:2`. -/
def labelOf (ratio : Rat) : String := (Fraction.closest labelBound ratio).text

/-- The label of a split. -/
def label (split : Split) : Except RatioFault String :=
  match Binary64.ofFloat split.ratio with
  | .nan => .error .notNumber
  | .infinity _ => .error .infinite
  | .finite negative mantissa exponent => .ok (labelOf (Binary64.toRat negative mantissa exponent))

end Split

/-- The dividends and splits of one symbol. -/
structure Actions where
  symbol : String
  dividends : List Dividend := []
  splits : List Split := []

/-- Whether there are neither dividends nor splits. -/
def Actions.isEmpty (actions : Actions) : Bool :=
  actions.dividends.isEmpty && actions.splits.isEmpty

end Bourse
