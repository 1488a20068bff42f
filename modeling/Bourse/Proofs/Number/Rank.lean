import Bourse.Proofs.Number.NotANumber
import Mathlib.Data.Prod.Lex

/-! The order of running values. Among values that are numbers the comparison is that of a rank: the
infinities stand at the ends, both zeros in the middle, and between them the exponent decides before
the mantissa. -/
namespace Bourse.Binary64

open Float.Model Float.Model.UnpackedFloat

/-- The places of values in their order. -/
abbrev Rank := ℤ ×ₗ ℤ ×ₗ ℤ

def rankOf : UnpackedFloat → Rank
  | .notANumber => toLex (0, toLex (0, 0))
  | .infinity .negative => toLex (-2, toLex (0, 0))
  | .finite .negative mantissa exponent _ => toLex (-1, toLex (-exponent, -mantissa))
  | .zero _ => toLex (0, toLex (0, 0))
  | .finite .positive mantissa exponent _ => toLex (1, toLex (exponent, mantissa))
  | .infinity .positive => toLex (2, toLex (0, 0))

theorem compare_finite_eq_lt_iff (s t : Sign) {m m' : Nat} {e e' : Int} (hm : 0 < m) (hm' : 0 < m') :
    UnpackedFloat.compare (.finite s m e hm) (.finite t m' e' hm') = some .lt ↔
      rankOf (.finite s m e hm) < rankOf (.finite t m' e' hm') := by
  have horder : (compare e e').then (compare m m') = .lt ↔ e < e' ∨ e = e' ∧ m < m' := by
    rw [Ordering.then_eq_lt, Int.compare_eq_lt, Int.compare_eq_eq, Nat.compare_eq_lt]
  have hreverse : (compare e e').then (compare m m') = .gt ↔ e' < e ∨ e = e' ∧ m' < m := by
    rw [Ordering.then_eq_gt, Int.compare_eq_gt, Int.compare_eq_eq, Nat.compare_eq_gt]
  -- of two negative values the one with the larger part is the smaller one
  cases s <;> cases t <;>
    simp [UnpackedFloat.compare, rankOf, Prod.Lex.toLex_lt_toLex, horder, hreverse]

theorem compare_eq_lt_iff {a b : UnpackedFloat} (ha : a ≠ .notANumber) (hb : b ≠ .notANumber) :
    UnpackedFloat.compare a b = some .lt ↔ rankOf a < rankOf b := by
  cases a with
  | notANumber => exact absurd rfl ha
  | infinity s =>
    cases b with
    | notANumber => exact absurd rfl hb
    | infinity t => cases s <;> cases t <;> decide
    | zero t | finite t m' e' hm' =>
      cases s <;> cases t <;>
        simp [UnpackedFloat.compare, rankOf, Prod.Lex.toLex_lt_toLex]
  | zero s =>
    cases b with
    | notANumber => exact absurd rfl hb
    | infinity t | zero t | finite t m' e' hm' =>
      cases s <;> cases t <;>
        simp [UnpackedFloat.compare, rankOf, Prod.Lex.toLex_lt_toLex]
  | finite s m e hm =>
    cases b with
    | notANumber => exact absurd rfl hb
    | infinity t | zero t =>
      cases s <;> cases t <;>
        simp [UnpackedFloat.compare, rankOf, Prod.Lex.toLex_lt_toLex]
    | finite t m' e' hm' => exact compare_finite_eq_lt_iff s t hm hm'

def rank (x : Float) : Rank := rankOf (unpacked x)

theorem lt_iff_compare {a b : Float} :
    a < b ↔ UnpackedFloat.compare (unpacked a) (unpacked b) = some .lt := by
  change decide ((UnpackedFloat.compare (unpacked a) (unpacked b) == some .lt) = true) = true ↔ _
  rw [decide_eq_true_iff, beq_iff_eq]

theorem le_iff_compare {a b : Float} :
    a ≤ b ↔ (UnpackedFloat.compare (unpacked a) (unpacked b)).any Ordering.isLE = true := by
  change decide ((UnpackedFloat.compare (unpacked a) (unpacked b)).any (·.isLE) = true) = true ↔ _
  exact decide_eq_true_iff

theorem ne_notANumber {x : Float} (h : x.isNaN = false) : unpacked x ≠ .notANumber := by
  rw [ne_eq, ← isNaN_iff, h]
  exact Bool.false_ne_true

theorem lt_iff_rank {a b : Float} (ha : a.isNaN = false) (hb : b.isNaN = false) :
    a < b ↔ rank a < rank b := by
  rw [lt_iff_compare]
  exact compare_eq_lt_iff (ne_notANumber ha) (ne_notANumber hb)

/-! The other way round -/

theorem compare_swap (a b : UnpackedFloat) :
    UnpackedFloat.compare b a = (UnpackedFloat.compare a b).map Ordering.swap := by
  cases a with
  | notANumber => cases b <;> rfl
  | infinity s | zero s =>
    cases b with
    | notANumber => rfl
    | infinity t | zero t | finite t => cases s <;> cases t <;> rfl
  | finite s m e hm =>
    cases b with
    | notANumber => rfl
    | infinity t | zero t => cases s <;> cases t <;> rfl
    | finite t m' e' hm' =>
      have hparts : (compare e' e).then (compare m' m) =
          ((compare e e').then (compare m m')).swap := by
        rw [Ordering.swap_then, Int.compare_swap, Nat.compare_swap]
      cases s <;> cases t
      · exact congrArg (fun order : Ordering => some order.swap) hparts
      · rfl
      · rfl
      · exact congrArg some hparts

theorem exists_compare {a b : UnpackedFloat} (ha : a ≠ .notANumber) (hb : b ≠ .notANumber) :
    ∃ order, UnpackedFloat.compare a b = some order := by
  cases a with
  | notANumber => exact absurd rfl ha
  | infinity s | zero s | finite s =>
    cases b with
    | notANumber => exact absurd rfl hb
    | infinity t | zero t | finite t => cases s <;> cases t <;> exact ⟨_, rfl⟩

/-- Of two numbers one is at most the other exactly if it is not greater. -/
theorem le_iff_not_lt {a b : Float} (ha : a.isNaN = false) (hb : b.isNaN = false) :
    a ≤ b ↔ ¬b < a := by
  obtain ⟨order, horder⟩ := exists_compare (ne_notANumber ha) (ne_notANumber hb)
  rw [le_iff_compare, lt_iff_compare, compare_swap (unpacked a), horder]
  cases order <;> decide

end Bourse.Binary64
