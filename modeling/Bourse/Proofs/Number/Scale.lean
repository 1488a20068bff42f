import Bourse.Proofs.Number.Exact

/-! Numbers taken a number of times. Scaling goes through sums, differences and means, and a
positive factor changes no comparison. A change of sign turns comparisons round. -/
namespace Bourse.Exact

variable {K : Type}

open Scalar Series

instance [CommSemigroup K] : CommSemigroup (Exact K) where
  mul_assoc a b c := by
    cases a <;> cases b <;> cases c <;> first | rfl | exact congrArg known (mul_assoc _ _ _)
  mul_comm a b := by
    cases a <;> cases b <;> first | rfl | exact congrArg known (mul_comm _ _)

instance [Distrib K] : Distrib (Exact K) where
  left_distrib a b c := by
    cases a <;> cases b <;> cases c <;> first | rfl | exact congrArg known (mul_add _ _ _)
  right_distrib a b c := by
    cases a <;> cases b <;> cases c <;> first | rfl | exact congrArg known (add_mul _ _ _)

instance [InvolutiveNeg K] : InvolutiveNeg (Exact K) where
  neg_neg a := by
    cases a <;> first | rfl | exact congrArg known (neg_neg _)

/-- A number taken `c` times. -/
def scale [Mul K] (c : K) (a : Exact K) : Exact K := known c * a

theorem scale_known [Mul K] (c x : K) : scale c (known x) = known (c * x) := rfl

theorem scale_missing [Mul K] (c : K) : scale c missing = missing := rfl

variable [RootField K] (c : K) (a b : Exact K)

theorem scale_one : scale 1 a = a := by
  cases a <;> first | rfl | exact congrArg known (one_mul _)

theorem map_scale_one : List.map (scale (1 : K)) = id := by
  rw [funext scale_one, List.map_id_fun']

theorem scale_zero : scale c 0 = 0 := congrArg known (mul_zero c)

theorem scale_zero_eq : scale c Scalar.zero = Scalar.zero := by
  rw [zero_eq, scale_zero]

theorem scale_add : scale c (a + b) = scale c a + scale c b := mul_add _ a b

theorem scale_sub : scale c (a - b) = scale c a - scale c b := by
  cases a <;> cases b <;> first | rfl | exact congrArg known (mul_sub _ _ _)

theorem scale_scale (d : K) : scale c (scale d a) = scale (c * d) a := (mul_assoc _ _ a).symm

theorem scale_mul : scale c (a * b) = scale c a * b := (mul_assoc _ a b).symm

theorem mul_scale : a * scale c b = scale c (a * b) := mul_left_comm a _ b

theorem scale_mul_scale (d : K) : scale c a * scale d b = scale (c * d) (a * b) :=
  mul_mul_mul_comm _ a _ b

theorem scale_div : scale c (a / b) = scale c a / b := by
  cases a with
  | missing => rfl
  | known x =>
    cases b with
    | missing => rfl
    | known y =>
      by_cases hy : y = 0
      · rw [hy]
        have hleft : known x / known 0 = missing := if_pos rfl
        have hright : known (c * x) / known 0 = missing := if_pos rfl
        rw [hleft, scale_known, hright, scale_missing]
      · rw [known_div _ hy, scale_known, scale_known, known_div _ hy, mul_div_assoc]

theorem neg_eq_scale : -a = scale (-1) a := by
  cases a <;> first | rfl | exact congrArg known (neg_one_mul _).symm

theorem scale_neg : scale c (-a) = -scale c a := by
  cases a <;> first | rfl | exact congrArg known (mul_neg _ _)

theorem isMissing_scale : isMissing (scale c a) = isMissing a := by
  cases a <;> rfl

theorem sum_map_scale (xs : List (Exact K)) : (xs.map (scale c)).sum = scale c xs.sum := by
  induction xs with
  | nil => exact (scale_zero c).symm
  | cons x rest ih => rw [List.map_cons, List.sum_cons, List.sum_cons, ih, scale_add]

theorem mean_map_scale (p : Nat) (xs : List (Exact K)) :
    mean p (xs.map (scale c)) = scale c (mean p xs) := by
  rw [mean, mean, sum_eq, sum_eq, sum_map_scale, scale_div]

theorem sum_map_sub (x : K) (xs : List (Exact K)) :
    (xs.map (known x - ·)).sum = known (xs.length * x) - xs.sum := by
  induction xs with
  | nil =>
    rw [List.map_nil, List.sum_nil, List.length_nil, Nat.cast_zero, zero_mul]
    exact congrArg known (sub_zero 0).symm
  | cons y rest ih =>
    rw [List.map_cons, List.sum_cons, List.sum_cons, ih, List.length_cons]
    cases y with
    | missing => rfl
    | known y =>
      cases rest.sum with
      | missing => rfl
      | known total =>
        rw [known_sub, known_sub, known_add, known_add, known_sub, Nat.cast_succ, add_mul, one_mul,
          add_comm (_ * x), add_sub_add_comm]

/-- The mean of the differences from a number. -/
theorem mean_map_sub {p : Nat} (hp : 1 ≤ p) (x : K) {xs : List (Exact K)} (h : xs.length = p) :
    mean p (xs.map (known x - ·)) = known x - mean p xs := by
  have hne : (p : K) ≠ 0 := by
    rw [← Int.cast_natCast]
    exact natCast_ne_zero hp
  rw [mean, mean, sum_eq, sum_eq, sum_map_sub, h, ofInt_eq, Int.cast_natCast]
  cases xs.sum with
  | missing => rfl
  | known total =>
    rw [known_sub, known_div _ hne, known_div _ hne, known_sub, sub_div,
      mul_div_cancel_left₀ x hne]

/-! Factors other than zero -/

section NonZero

variable {c} (hc : c ≠ 0)

include hc

theorem isZero_scale : isZero (scale c a) = isZero a := by
  cases a with
  | missing => rfl
  | known x =>
    rw [scale_known, isZero_known, isZero_known, decide_eq_decide]
    exact mul_eq_zero_iff_left hc

theorem scale_div_scale : scale c a / scale c b = a / b := by
  cases a with
  | missing => cases b <;> rfl
  | known x =>
    cases b with
    | missing => rfl
    | known y =>
      rw [scale_known, scale_known]
      by_cases hy : y = 0
      · rw [hy, mul_zero]
        have hleft : known (c * x) / known 0 = missing := if_pos rfl
        have hright : known x / known 0 = missing := if_pos rfl
        rw [hleft, hright]
      · rw [known_div _ hy, known_div _ (mul_ne_zero hc hy), mul_div_mul_left _ _ hc]

end NonZero

/-! Positive factors -/

section Positive

variable {c} (hc : 0 < c)

include hc

theorem less_scale : less (scale c a) (scale c b) = less a b := by
  cases a with
  | missing => cases b <;> rfl
  | known x =>
    cases b with
    | missing => rfl
    | known y =>
      rw [scale_known, scale_known, less_known, less_known, decide_eq_decide]
      exact mul_lt_mul_iff_right₀ hc

theorem less_zero_scale : less Scalar.zero (scale c a) = less Scalar.zero a := by
  rw [← less_scale Scalar.zero a hc, scale_zero_eq]

theorem less_scale_zero : less (scale c a) Scalar.zero = less a Scalar.zero := by
  rw [← less_scale a Scalar.zero hc, scale_zero_eq]

theorem larger_scale : larger (scale c a) (scale c b) = scale c (larger a b) := by
  rw [larger, larger, less_scale a b hc, apply_ite (scale c)]

theorem smaller_scale : smaller (scale c a) (scale c b) = scale c (smaller a b) := by
  rw [smaller, smaller, less_scale b a hc, apply_ite (scale c)]

theorem abs_scale : Scalar.abs (scale c a) = scale c (Scalar.abs a) := by
  cases a with
  | missing => rfl
  | known x => rw [scale_known, abs_known, abs_known, scale_known, abs_mul, abs_of_pos hc]

end Positive

/-! Changes of sign -/

theorem neg_sub_neg_eq : -a - -b = b - a := by
  cases a <;> cases b <;> first | rfl | exact congrArg known (neg_sub_neg _ _)

theorem neg_sub_eq : -(a - b) = -a + b := by
  cases a <;> cases b <;>
    first | rfl | exact congrArg known ((neg_sub _ _).trans (neg_add_eq_sub _ _).symm)

theorem neg_add_eq : -(a + b) = -a - b := by
  cases a <;> cases b <;> first | rfl | exact congrArg known (neg_add' _ _)

theorem sub_add_eq (d : Exact K) : a - (b + d) = a - b - d := by
  cases a <;> cases b <;> cases d <;> first | rfl | exact congrArg known (sub_add_eq_sub_sub _ _ _)

theorem sub_sub_eq (d : Exact K) : a - (b - d) = a - b + d := by
  cases a <;> cases b <;> cases d <;> first | rfl | exact congrArg known (sub_add _ _ _).symm

theorem less_asymm {a b : Exact K} (h : less a b = true) : less b a = false := by
  cases a with
  | missing => contradiction
  | known x =>
    cases b with
    | missing => contradiction
    | known y =>
      rw [less_known, decide_eq_true_eq] at h
      rw [less_known, decide_eq_false_iff_not]
      exact not_lt.mpr h.le

theorem less_neg : less (-a) (-b) = less b a := by
  cases a with
  | missing => cases b <;> rfl
  | known x =>
    cases b with
    | missing => rfl
    | known y =>
      rw [known_neg, known_neg, less_known, less_known, decide_eq_decide]
      exact neg_lt_neg_iff

theorem less_zero_neg : less Scalar.zero (-a) = less a Scalar.zero := by
  rw [← less_neg Scalar.zero a, neg_zero_eq, zero_eq]

theorem less_neg_zero : less (-a) Scalar.zero = less Scalar.zero a := by
  rw [← less_neg a Scalar.zero, neg_zero_eq, zero_eq]

theorem smaller_neg : smaller (-a) (-b) = -larger a b := by
  rw [larger, smaller, less_neg, apply_ite Neg.neg]

theorem larger_neg : larger (-a) (-b) = -smaller a b := by
  rw [larger, smaller, less_neg, apply_ite Neg.neg]

/-- Numbers are as far from each other in either direction. -/
theorem abs_sub_swap : Scalar.abs (a - b) = Scalar.abs (b - a) := by
  cases a with
  | missing => cases b <;> rfl
  | known x =>
    cases b with
    | missing => rfl
    | known y => rw [known_sub, known_sub, abs_known, abs_known, abs_sub_comm]

theorem larger_missing : larger a missing = a := by
  cases a <;> rfl

theorem larger_right_comm (d : Exact K) : larger (larger a b) d = larger (larger a d) b := by
  cases a with
  | missing => rfl
  | known x =>
    cases b with
    | missing => rw [larger_missing, larger_missing]
    | known y =>
      cases d with
      | missing => rw [larger_missing, larger_missing]
      | known z =>
        rw [larger_known, larger_known, larger_known, larger_known, max_right_comm]

end Bourse.Exact
