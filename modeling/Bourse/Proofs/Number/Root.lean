import Bourse.Proofs.Number.Scale
import Mathlib.Analysis.Real.Sqrt

/-! Fields with square roots. -/

/-- Ordered fields in which every number that is not negative has a root. -/
class SquareRootField (K : Type) extends RootField K where
  root_nonneg {x : K} : 0 ≤ x → 0 ≤ root x
  root_mul_self {x : K} : 0 ≤ x → root x * root x = x

noncomputable instance : SquareRootField ℝ where
  root := Real.sqrt
  root_nonneg _ := Real.sqrt_nonneg _
  root_mul_self := Real.mul_self_sqrt

namespace Bourse.Exact

variable {K : Type} [SquareRootField K]

open Scalar

theorem root_mul_mul_self {c x : K} (hc : 0 ≤ c) (hx : 0 ≤ x) :
    RootField.root (c * c * x) = c * RootField.root x := by
  have hsquare : 0 ≤ c * c * x := mul_nonneg (mul_self_nonneg c) hx
  have hroot := SquareRootField.root_nonneg hx
  have hroots : RootField.root (c * c * x) * RootField.root (c * c * x) =
      c * RootField.root x * (c * RootField.root x) := by
    rw [SquareRootField.root_mul_self hsquare, mul_mul_mul_comm, SquareRootField.root_mul_self hx]
  exact (mul_self_inj (SquareRootField.root_nonneg hsquare) (mul_nonneg hc hroot)).mp hroots

theorem sqrt_scale_mul_self {c : K} (hc : 0 < c) (a : Exact K) :
    sqrt (scale (c * c) a) = scale c (sqrt a) := by
  cases a with
  | missing => rfl
  | known x =>
    rw [scale_known]
    rcases lt_or_ge x 0 with hneg | hnonneg
    · have hneg' : c * c * x < 0 := mul_neg_of_pos_of_neg (mul_pos hc hc) hneg
      have hleft : sqrt (known (c * c * x)) = missing := if_pos hneg'
      have hright : sqrt (known x) = missing := if_pos hneg
      rw [hleft, hright, scale_missing]
    · rw [sqrt_known (mul_nonneg (mul_self_nonneg c) hnonneg), sqrt_known hnonneg, scale_known,
        root_mul_mul_self hc.le hnonneg]

end Bourse.Exact
