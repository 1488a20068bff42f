import Bourse.Number.Ratio
import Bourse.Proofs.Number.Monotone

/-! Rounding as a distance. The natural nearest to a quotient lies within one half of it and is even
where it lies one half away, and these two properties determine it. The value nearest to a quotient
lies within half a unit in the last place. -/
namespace Bourse

/-- Whether a natural is the one nearest to a number, or the even one of the two nearest. -/
structure IsNearestNat (q : ℚ) (k : ℕ) : Prop where
  le_half : |q - k| ≤ 1 / 2
  even_of_half : |q - k| = 1 / 2 → Even k

theorem isNearestNat_roundDiv (n : ℕ) {d : ℕ} (hd : 0 < d) : IsNearestNat (n / d) (roundDiv n d) := by
  have hd' : (0 : ℚ) < d := by exact_mod_cast hd
  have hquotient : (n : ℚ) / d = (n / d : ℕ) + (n % d : ℕ) / d := by
    rw [div_eq_iff hd'.ne', add_mul, div_mul_cancel₀ _ hd'.ne']
    exact_mod_cast (Nat.div_add_mod' n d).symm
  have hless : n % d < d := Nat.mod_lt n hd
  rw [hquotient]
  unfold roundDiv
  dsimp only
  generalize n / d = whole
  generalize n % d = rest at hless ⊢
  have hrest : (0 : ℚ) ≤ rest / d := by positivity
  split_ifs with hlow hhigh
  · have hhalf : (rest : ℚ) / d < 1 / 2 := by
      rw [div_lt_div_iff₀ hd' two_pos]
      exact_mod_cast (by omega : rest * 2 < 1 * d)
    rw [← abs_of_nonneg hrest] at hhalf
    constructor
    · rw [add_sub_cancel_left]
      exact hhalf.le
    · rw [add_sub_cancel_left]
      exact fun h => absurd h hhalf.ne
  · have hhalf : 1 / 2 < (rest : ℚ) / d := by
      rw [div_lt_div_iff₀ two_pos hd']
      exact_mod_cast (by omega : 1 * d < rest * 2)
    have hone : (rest : ℚ) / d < 1 := (div_lt_one hd').mpr (by exact_mod_cast hless)
    have hdistance : |(whole : ℚ) + rest / d - (whole + 1 : ℕ)| = 1 - rest / d := by
      rw [abs_sub_comm, abs_of_nonneg]
      · push_cast
        ring
      · push_cast
        linarith
    constructor
    · rw [hdistance]
      linarith
    · rw [hdistance]
      intro h
      linarith
  · -- one half away from both neighbours, of which the even one is taken
    have hhalf : (rest : ℚ) / d = 1 / 2 := by
      rw [div_eq_div_iff hd'.ne' two_ne_zero]
      exact_mod_cast (by omega : rest * 2 = 1 * d)
    rw [hhalf]
    constructor
    · rcases Nat.mod_two_eq_zero_or_one whole with heven | hodd
      · rw [heven, Nat.add_zero, add_sub_cancel_left, abs_of_pos one_half_pos]
      · rw [hodd]
        push_cast
        rw [add_sub_add_left_eq_sub]
        norm_num
    · intro _
      rw [Nat.even_iff]
      omega

theorem IsNearestNat.eq_roundDiv {n d k : ℕ} (hd : 0 < d) (h : IsNearestNat (n / d) k) :
    roundDiv n d = k := by
  have hround := isNearestNat_roundDiv n hd
  by_contra hne
  have hapart : (1 : ℚ) ≤ |(roundDiv n d : ℚ) - k| := by
    have hint : (1 : ℤ) ≤ |(roundDiv n d : ℤ) - k| := Int.one_le_abs (by omega)
    exact_mod_cast hint
  have hsplit : |(roundDiv n d : ℚ) - k| ≤ |(roundDiv n d : ℚ) - n / d| + |(n : ℚ) / d - k| :=
    abs_sub_le _ _ _
  rw [abs_sub_comm _ ((n : ℚ) / d)] at hsplit
  have hfirst := hround.le_half
  have hsecond := h.le_half
  -- both lie one half away, so both are even and one apart
  have heven := hround.even_of_half (by linarith)
  have heven' := h.even_of_half (by linarith)
  have hone : |(roundDiv n d : ℤ) - k| = 1 := by
    have hcast : |(roundDiv n d : ℚ) - k| = 1 := by linarith
    exact_mod_cast hcast
  rw [Nat.even_iff] at heven heven'
  rcases (abs_eq zero_le_one).mp hone with hmore | hless
  · omega
  · omega

/-- A natural is the only one nearest to itself. -/
theorem IsNearestNat.eq_of_natCast {n k : ℕ} (h : IsNearestNat n k) : k = n := by
  have hquotient : ((n * 1 : ℕ) : ℚ) / (1 : ℕ) = n := by
    rw [Nat.mul_one, Nat.cast_one, div_one]
  rw [← hquotient] at h
  exact (h.eq_roundDiv Nat.one_pos).symm.trans (roundDiv_mul_right n Nat.one_pos)

/-- Rounding does not pass a natural. -/
theorem IsNearestNat.le_of_le {q : ℚ} {n k : ℕ} (h : IsNearestNat q k) (hq : q ≤ n) : k ≤ n := by
  by_contra hless
  have hnext : (n : ℚ) + 1 ≤ k := by exact_mod_cast Nat.lt_of_not_le hless
  have hhalf := (abs_le.mp h.le_half).1
  linarith

namespace Binary64

variable {num den : ℕ}

/-- Whether a running value is finite and has a certain value. -/
def HasValue (x : Float) (v : ℚ) : Prop :=
  ∃ negative mantissa exponent, ofFloat x = .finite negative mantissa exponent ∧
    toRat negative mantissa exponent = v

theorem toRat_eq (negative : Bool) (mantissa : ℕ) (exponent : ℤ) :
    toRat negative mantissa exponent = (if negative then -1 else 1) * (mantissa * 2 ^ exponent) := by
  have hscaled := scaleTwo_div mantissa 1 exponent
  rw [Nat.cast_one, div_one] at hscaled
  rw [← hscaled, toRat]
  dsimp only
  rw [Rat.mkRat_eq_div]
  cases negative with
  | true =>
    rw [if_pos rfl, if_pos rfl]
    push_cast
    ring
  | false =>
    rw [if_neg Bool.false_ne_true, if_neg Bool.false_ne_true, one_mul]
    rfl

/-- A number whose mantissa is written behind its span has this many units. -/
theorem units_of_mantissa {span mantissa : ℕ} (hmantissa : mantissa ≤ 2 * binade)
    (hnormal : span = 0 ∨ binade ≤ mantissa) :
    units (span * binade + mantissa) = mantissa * 2 ^ span := by
  rcases Nat.lt_or_ge mantissa binade with hsmall | hlarge
  · obtain rfl : span = 0 := by
      rcases hnormal with rfl | hlarge
      · rfl
      · exact absurd hlarge hsmall.not_ge
    rw [Nat.zero_mul, Nat.zero_add, units_of_lt hsmall, Nat.pow_zero, Nat.mul_one]
  · obtain ⟨fraction, rfl⟩ := Nat.exists_eq_add_of_le hlarge
    have hnext : span * binade + (binade + fraction) = (span + 1) * binade + fraction := by ring
    rw [hnext, units_of_binade_le span (by omega)]

theorem units_nearestCode (hnum : 0 < num) (hden : 0 < den)
    (hfinite : nearestCode num den < infinityCode) :
    units (nearestCode num den) =
      mantissaOf num den * 2 ^ (unitOf num den - leastExponent).toNat := by
  rw [nearestCode_eq hnum] at hfinite ⊢
  rw [min_eq_right (by omega)]
  apply units_of_mantissa (mantissaOf_le hnum hden)
  have hleast : leastExponent ≤ unitOf num den := le_max_right _ _
  rcases hleast.lt_or_eq with hless | hequal
  · exact .inr (le_mantissaOf hnum hden hless)
  · left
    rw [← hequal, sub_self, Int.toNat_zero]

theorem hasValue_ofCode {x : Float} {negative : Bool} {code : ℕ} (hcode : code < infinityCode)
    (hx : ofFloat x = ofCode negative code) :
    HasValue x ((if negative then -1 else 1) * (units code * 2 ^ leastExponent)) := by
  obtain ⟨mantissa, span, hvalue, hunits⟩ := ofCode_eq negative hcode
  refine ⟨negative, mantissa, leastExponent + span, hx.trans hvalue, ?_⟩
  rw [toRat_eq, hunits, add_comm leastExponent, zpow_add₀ two_ne_zero, zpow_natCast]
  push_cast
  ring

/-- The value nearest to a quotient is a number of units in the last place of the quotient. -/
theorem hasValue_nearest (negative : Bool) (hnum : 0 < num) (hden : 0 < den)
    (hfinite : nearestCode num den < infinityCode) :
    HasValue (nearest negative num den)
      ((if negative then -1 else 1) * (mantissaOf num den * 2 ^ unitOf num den)) := by
  have hleast : leastExponent ≤ unitOf num den := le_max_right _ _
  have hspan : (((unitOf num den - leastExponent).toNat : ℤ)) = unitOf num den - leastExponent :=
    Int.toNat_of_nonneg (by omega)
  have hvalue := hasValue_ofCode hfinite (ofFloat_floatOfCode negative hfinite.le)
  rw [units_nearestCode hnum hden hfinite] at hvalue
  have hunit : ((mantissaOf num den * 2 ^ (unitOf num den - leastExponent).toNat : ℕ) : ℚ) *
      2 ^ leastExponent = mantissaOf num den * 2 ^ unitOf num den := by
    calc ((mantissaOf num den * 2 ^ (unitOf num den - leastExponent).toNat : ℕ) : ℚ) *
          2 ^ leastExponent
        = mantissaOf num den * (2 ^ (unitOf num den - leastExponent) * 2 ^ leastExponent) := by
          rw [← hspan, zpow_natCast, Int.toNat_natCast]
          push_cast
          ring
      _ = mantissaOf num den * 2 ^ unitOf num den := by
          rw [← zpow_add₀ two_ne_zero, sub_add_cancel]
  rw [hunit] at hvalue
  exact hvalue

/-- The mantissa of a quotient is the natural nearest to the number of its units. -/
theorem isNearestNat_mantissaOf (num : ℕ) (hden : 0 < den) :
    IsNearestNat (num / den * 2 ^ (-unitOf num den)) (mantissaOf num den) := by
  rw [← scaleTwo_div]
  exact isNearestNat_roundDiv _ (scaleTwo_den_pos num hden _)

/-- The value nearest to a quotient is off by half a unit in the last place at most. -/
theorem abs_sub_mantissaOf_le (num : ℕ) (hden : 0 < den) :
    |num / den - mantissaOf num den * (2 : ℚ) ^ unitOf num den| ≤ 2 ^ (unitOf num den - 1) := by
  have hpower : (0 : ℚ) < 2 ^ unitOf num den := zpow_pos two_pos _
  have hhalf := (isNearestNat_mantissaOf num hden).le_half
  calc |num / den - mantissaOf num den * (2 : ℚ) ^ unitOf num den|
      = |(num / den * (2 : ℚ) ^ (-unitOf num den) - mantissaOf num den) * 2 ^ unitOf num den| := by
        rw [sub_mul, mul_assoc, ← zpow_add₀ two_ne_zero, neg_add_cancel, zpow_zero, mul_one]
    _ = |num / den * (2 : ℚ) ^ (-unitOf num den) - mantissaOf num den| * 2 ^ unitOf num den := by
        rw [abs_mul, abs_of_pos hpower]
    _ ≤ 1 / 2 * 2 ^ unitOf num den := mul_le_mul_of_nonneg_right hhalf hpower.le
    _ = 2 ^ (unitOf num den - 1) := by
        rw [zpow_sub₀ two_ne_zero, zpow_one]
        ring

end Binary64

end Bourse
