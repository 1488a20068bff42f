import Bourse.Proofs.Indicator.Calls

/-! Averages that go on from one value to the next, as scans. What one step of such an average
keeps, all of its values have. -/
namespace Bourse.Indicator

variable {α : Type} [Scalar α]

open Scalar Series

/-! Exponential averages -/

/-- An exponential average moved on by one price. -/
def emaStep (p : Nat) (average price : α) : α := (price - average) * emaFactor p + average

/-- The exponential averages of prices, the first of which is the mean of `p` prices. -/
def emaValues (p : Nat) (prices : List α) : List α :=
  (prices.drop p).scanl (emaStep p) (mean p (prices.take p))

theorem cons_emaFrom (p : Nat) (previous : α) (prices : List α) :
    previous :: emaFrom (emaFactor p) previous prices = prices.scanl (emaStep p) previous := by
  induction prices generalizing previous with
  | nil => exact List.scanl_nil.symm
  | cons price rest ih =>
    rw [List.scanl_cons, ← ih]
    rfl

theorem emaSeries_eq (p : Nat) (prices : List α) :
    emaSeries p prices = missingSeries (p - 1) ++ emaValues p prices := by
  rw [emaValues, ← cons_emaFrom]
  rfl

/-! Strengths -/

/-- The smoothed averages of values, the first of which is the mean of `p` values. -/
def averages (p : Nat) (values : List α) : List α :=
  (values.drop p).scanl (smooth p) (mean p (values.take p))

theorem cons_strengthsFrom (p : Nat) (averageGain averageLoss : α) (steps : List α) :
    strength averageGain averageLoss :: strengthsFrom p averageGain averageLoss steps =
      List.zipWith strength ((steps.map gain).scanl (smooth p) averageGain)
        ((steps.map loss).scanl (smooth p) averageLoss) := by
  induction steps generalizing averageGain averageLoss with
  | nil =>
    rw [List.map_nil, List.map_nil, List.scanl_nil, List.scanl_nil]
    rfl
  | cons change rest ih =>
    rw [List.map_cons, List.map_cons, List.scanl_cons, List.scanl_cons, List.zipWith_cons_cons,
      ← ih]
    rfl

/-- Each strength compares the average gain with the average loss at its place. -/
theorem rsiSeries_eq (p : Nat) (prices : List α) :
    rsiSeries p prices = missingSeries p ++ List.zipWith strength
      (averages p ((changes prices).map gain)) (averages p ((changes prices).map loss)) := by
  unfold averages
  rw [← List.map_drop, ← List.map_drop, ← List.map_take, ← List.map_take, ← cons_strengthsFrom]
  rfl

end Bourse.Indicator
