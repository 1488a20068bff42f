import Bourse.Proofs.Indicator.Calls
import Bourse.Proofs.Number.Root
import Mathlib.Tactic.FieldSimp
import Mathlib.Tactic.Linarith

/-! The variance of windows. The mean of the squares less the square of the mean is the mean of the
squared deviations, which no window makes negative, and so bands stand as far above the average as
below it. -/
namespace Bourse.Indicator

open Exact Scalar Series

section Deviations

variable {K : Type} [RootField K]

/-- The mean of some numbers. -/
def centre (xs : List K) : K := xs.sum / xs.length

/-- The mean of the squared deviations of some numbers from their mean. -/
def squaredDeviation (xs : List K) : K := (xs.map fun x => (x - centre xs) ^ 2).sum / xs.length

theorem cast_length_ne_zero {xs : List K} (hne : xs ≠ []) : (xs.length : K) ≠ 0 :=
  Nat.cast_ne_zero.mpr (List.length_pos_iff.mpr hne).ne'

/-- Squared distances from any point, with the squares written out. -/
theorem sum_sq_sub (c : K) (xs : List K) : (xs.map fun x => (x - c) ^ 2).sum =
    (xs.map fun x => x * x).sum - 2 * c * xs.sum + xs.length * c ^ 2 := by
  induction xs with
  | nil => simp
  | cons x rest ih =>
    rw [List.map_cons, List.sum_cons, ih, List.map_cons, List.sum_cons, List.sum_cons,
      List.length_cons]
    push_cast
    ring

theorem squaredDeviation_eq {xs : List K} (hne : xs ≠ []) : squaredDeviation xs =
    (xs.map fun x => x * x).sum / xs.length - centre xs * centre xs := by
  have hlength := cast_length_ne_zero hne
  rw [squaredDeviation, sum_sq_sub, centre]
  field_simp
  ring

theorem squaredDeviation_nonneg (xs : List K) : 0 ≤ squaredDeviation xs := by
  apply div_nonneg
  · apply List.sum_nonneg
    exact List.forall_mem_map.mpr fun x _ => sq_nonneg _
  · exact Nat.cast_nonneg _

theorem centre_of_constant {xs : List K} (hne : xs ≠ []) {a : K} (h : ∀ x ∈ xs, x = a) :
    centre xs = a := by
  have hlength := cast_length_ne_zero hne
  have hsum : xs.sum = xs.length * a := by
    rw [List.sum_eq_card_nsmul xs a h, nsmul_eq_mul]
  rw [centre, hsum, mul_div_cancel_left₀ a hlength]

/-- Only numbers that are all the same do not deviate. -/
theorem squaredDeviation_eq_zero {xs : List K} (hne : xs ≠ []) :
    squaredDeviation xs = 0 ↔ ∀ x ∈ xs, ∀ y ∈ xs, x = y := by
  have hlength := cast_length_ne_zero hne
  have hnonneg : ∀ d ∈ xs.map fun x => (x - centre xs) ^ 2, 0 ≤ d :=
    List.forall_mem_map.mpr fun x _ => sq_nonneg _
  constructor
  · intro hzero
    have hsum := (div_eq_zero_iff.mp hzero).resolve_right hlength
    -- squares that sum to zero are zero, so every number is the mean
    have hcentre : ∀ x ∈ xs, x = centre xs := by
      intro x hx
      have hsquare := List.all_zero_of_le_zero_le_of_sum_eq_zero hnonneg hsum
        (List.mem_map_of_mem hx)
      exact sub_eq_zero.mp (pow_eq_zero_iff two_ne_zero |>.mp hsquare)
    intro x hx y hy
    rw [hcentre x hx, ← hcentre y hy]
  · intro hsame
    apply div_eq_zero_iff.mpr
    left
    apply List.sum_eq_zero
    refine List.forall_mem_map.mpr fun x hx => ?_
    rw [centre_of_constant hne fun y hy => hsame y hy x hx, sub_self, zero_pow two_ne_zero]

/-! Windows -/

theorem mean_window {p : Nat} (hp : 1 ≤ p) {window : List K} (h : window.length = p) :
    mean p (window.map Exact.known) = .known (centre window) := by
  rw [mean_map_known hp, centre, h]

/-- What bands take for the variance is the mean of the squared deviations. -/
theorem variance_window {p : Nat} (hp : 1 ≤ p) {window : List K} (h : window.length = p) :
    variance p (window.map Exact.known) = .known (squaredDeviation window) := by
  have hne : window ≠ [] := by
    rintro rfl
    rw [List.length_nil] at h
    omega
  have hsquares : (window.map Exact.known).map (fun x => x * x) =
      (window.map fun x => x * x).map Exact.known := by
    rw [List.map_map, List.map_map]
    rfl
  rw [variance, hsquares, mean_map_known hp, mean_window hp h, known_mul, known_sub,
    squaredDeviation_eq hne, h]

/-- Nothing is cut off from a variance at zero. -/
theorem larger_variance {p : Nat} (hp : 1 ≤ p) {window : List K} (h : window.length = p) :
    larger (variance p (window.map Exact.known)) Scalar.zero =
      .known (squaredDeviation window) := by
  have hzero : (Scalar.zero : Exact K) = .known 0 := zero_eq
  rw [variance_window hp h, hzero, larger_known, max_eq_left (squaredDeviation_nonneg window)]

end Deviations

variable {K : Type} [SquareRootField K]

theorem deviation_window {p : Nat} (hp : 1 ≤ p) {window : List K} (h : window.length = p) :
    deviation p (window.map Exact.known) = .known (RootField.root (squaredDeviation window)) := by
  rw [deviation, larger_variance hp h, sqrt_known (squaredDeviation_nonneg window)]

/-- Bands around a middle: they stand as far above as below, at a width for a variance. -/
structure AreBands (width variance upper middle lower : K) : Prop where
  symmetric : upper - middle = middle - lower
  sq_distance : (upper - middle) ^ 2 = width ^ 2 * variance
  ordered : 0 ≤ width → lower ≤ middle ∧ middle ≤ upper

theorem areBands_root (width middle : K) {variance : K} (h : 0 ≤ variance) :
    AreBands width variance (middle + width * RootField.root variance) middle
      (middle - width * RootField.root variance) := by
  have hroot := SquareRootField.root_nonneg h
  refine ⟨?_, ?_, ?_⟩
  · rw [add_sub_cancel_left, sub_sub_cancel]
  · rw [add_sub_cancel_left, mul_pow, sq (RootField.root variance), SquareRootField.root_mul_self h]
  · intro hwidth
    have hdistance : 0 ≤ width * RootField.root variance := mul_nonneg hwidth hroot
    exact ⟨sub_le_self middle hdistance, le_add_of_nonneg_right hdistance⟩

/-- Bands rest on the variance of their windows. It is the mean of the squared deviations, never
below zero, and zero only for windows that stand still. -/
theorem bands_rest_on_variance {p : Nat} (hp : 1 ≤ p) {prices : List K}
    (hlength : p ≤ prices.length) (width : K) :
    ∃ r, bollingerBands (prices.map Exact.known) p (.known width) = .ok r ∧
      ∀ i, p ≤ i + 1 → i < prices.length →
        let window := (prices.drop (i + 1 - p)).take p
        variance p (window.map Exact.known) = .known (squaredDeviation window) ∧
        larger (variance p (window.map Exact.known)) Scalar.zero =
          .known (squaredDeviation window) ∧
        0 ≤ squaredDeviation window ∧
        (squaredDeviation window = 0 ↔ ∀ x ∈ window, ∀ y ∈ window, x = y) ∧
        ∃ upper lower, r.upper[i]? = some (.known upper) ∧
          r.middle[i]? = some (.known (centre window)) ∧ r.lower[i]? = some (.known lower) ∧
          AreBands width (squaredDeviation window) upper (centre window) lower := by
  have hcount : (p : Int) ≤ (prices.map Exact.known).length := by
    rw [List.length_map]
    exact Int.ofNat_le.mpr hlength
  refine ⟨_, bollingerBands_eq_ok.mpr ⟨p, rfl, hp, hcount, rfl⟩, ?_⟩
  intro i hpi hi window
  have hwindow : window.length = p := by
    rw [List.length_take, List.length_drop]
    omega
  have hne : window ≠ [] := by
    apply List.ne_nil_of_length_pos
    omega
  have hfigure (figure : List (Exact K) → Exact K) :
      (trailing p figure (prices.map Exact.known))[i]? =
        some (figure (window.map Exact.known)) := by
    have hlt : i < (prices.map Exact.known).length := by rwa [List.length_map]
    rw [getElem?_trailing_of_le figure hp hpi hlt, ← List.map_drop, ← List.map_take]
  refine ⟨variance_window hp hwindow, larger_variance hp hwindow, squaredDeviation_nonneg window,
    squaredDeviation_eq_zero hne, _, _, ?_, ?_, ?_,
    areBands_root width (centre window) (squaredDeviation_nonneg window)⟩
  · rw [hfigure, mean_window hp hwindow, deviation_window hp hwindow, known_mul, known_add]
  · rw [hfigure, mean_window hp hwindow]
  · rw [hfigure, mean_window hp hwindow, deviation_window hp hwindow, known_mul, known_sub]

/-- One and three deviate by one from their mean. -/
theorem bands_of_two_prices : 1 ≤ 2 ∧ 2 ≤ ([1, 3] : List ℝ).length ∧
    squaredDeviation ([1, 3] : List ℝ) = 1 ∧
    ∃ r, bollingerBands (([1, 3] : List ℝ).map Exact.known) 2 (.known 1) = .ok r ∧
      r.upper[1]? = some (.known 3) ∧ r.middle[1]? = some (.known 2) ∧
      r.lower[1]? = some (.known 1) := by
  have hpos : 1 ≤ 2 := by decide
  have hlength : 2 ≤ ([1, 3] : List ℝ).length := by decide
  have hcentre : centre ([1, 3] : List ℝ) = 2 := by norm_num [centre]
  have hdeviation : squaredDeviation ([1, 3] : List ℝ) = 1 := by
    rw [squaredDeviation, hcentre]
    norm_num
  obtain ⟨r, hr, hplaces⟩ := bands_rest_on_variance hpos hlength (1 : ℝ)
  obtain ⟨-, -, -, -, upper, lower, hupper, hmiddle, hlower, hbands⟩ :=
    hplaces 1 (by decide) (by decide)
  change AreBands 1 (squaredDeviation [1, 3]) upper (centre [1, 3]) lower at hbands
  change r.middle[1]? = some (.known (centre [1, 3])) at hmiddle
  rw [hcentre] at hmiddle hbands
  rw [hdeviation] at hbands
  obtain ⟨hsymmetric, hsquare, hordered⟩ := hbands
  obtain ⟨-, habove⟩ := hordered zero_le_one
  have hthree : upper = 3 := by nlinarith
  have hone : lower = 1 := by linarith
  rw [hthree] at hupper
  rw [hone] at hlower
  exact ⟨hpos, hlength, hdeviation, r, hr, hupper, hmiddle, hlower⟩

end Bourse.Indicator
