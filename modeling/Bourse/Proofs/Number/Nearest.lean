import Bourse.Proofs.Number.Coding
import Mathlib

/-! Quotients that are binary64 values themselves. The exponent of the leading bit is the binary
logarithm of a quotient, so a quotient with a mantissa of 53 bits is the value nearest to it, and an
integer up to 2^53 comes back as it was. -/
namespace Bourse

variable {num den : Nat}

theorem scaleTwo_den_pos (num : Nat) (hden : 0 < den) (exponent : Int) :
    0 < (scaleTwo num den exponent).2 := by
  unfold scaleTwo
  split_ifs
  · exact hden
  · exact Nat.mul_pos hden (Nat.two_pow_pos _)

/-- Scaling multiplies the quotient. -/
theorem scaleTwo_div (num den : Nat) (exponent : Int) :
    ((scaleTwo num den exponent).1 : ℚ) / (scaleTwo num den exponent).2 =
      num / den * 2 ^ exponent := by
  unfold scaleTwo
  split_ifs with hsign
  · obtain ⟨k, rfl⟩ := Int.eq_ofNat_of_zero_le hsign
    rw [Int.toNat_natCast, zpow_natCast, Nat.pow_eq]
    push_cast
    ring
  · obtain ⟨k, hk⟩ := Int.eq_ofNat_of_zero_le (by omega : 0 ≤ -exponent)
    have hexponent : exponent = -(k : Int) := by omega
    rw [hk, hexponent, Int.toNat_natCast, zpow_neg, zpow_natCast, Nat.pow_eq]
    push_cast
    rw [div_mul_eq_div_div, div_eq_mul_inv _ ((2 : ℚ) ^ k)]

/-- Where scaling gives a natural, the denominator divides and nothing is left to round. -/
theorem scaleTwo_num_eq {k : Nat} {exponent : Int} (hden : 0 < den)
    (h : (num : ℚ) / den * 2 ^ exponent = k) :
    (scaleTwo num den exponent).1 = k * (scaleTwo num den exponent).2 := by
  have hdenNe : ((scaleTwo num den exponent).2 : ℚ) ≠ 0 := by
    exact_mod_cast (scaleTwo_den_pos num hden exponent).ne'
  have hdiv := scaleTwo_div num den exponent
  rw [h, div_eq_iff hdenNe] at hdiv
  exact_mod_cast hdiv

namespace Binary64

theorem log2_bounds {n : Nat} (hn : 0 < n) :
    (2 : ℚ) ^ (n.log2 : Int) ≤ n ∧ (n : ℚ) < 2 ^ ((n.log2 : Int) + 1) := by
  constructor
  · exact_mod_cast Nat.log2_self_le hn.ne'
  · exact_mod_cast Nat.lt_log2_self

/-- A quotient lies between the powers of two around its leading bit. -/
theorem leadingBit_bounds (hnum : 0 < num) (hden : 0 < den) :
    (2 : ℚ) ^ leadingBit num den ≤ num / den ∧ (num : ℚ) / den < 2 ^ (leadingBit num den + 1) := by
  have hpositive : (0 : ℚ) < den := by exact_mod_cast hden
  obtain ⟨hnumLow, hnumHigh⟩ := log2_bounds hnum
  obtain ⟨hdenLow, hdenHigh⟩ := log2_bounds hden
  have hlow : (2 : ℚ) ^ ((num.log2 : Int) - den.log2 - 1) ≤ num / den := by
    rw [le_div_iff₀ hpositive]
    calc (2 : ℚ) ^ ((num.log2 : Int) - den.log2 - 1) * den
        ≤ 2 ^ ((num.log2 : Int) - den.log2 - 1) * 2 ^ ((den.log2 : Int) + 1) := by gcongr
      _ = 2 ^ (num.log2 : Int) := by
          rw [← zpow_add₀ two_ne_zero]
          congr 1
          ring
      _ ≤ num := hnumLow
  have hhigh : (num : ℚ) / den < 2 ^ ((num.log2 : Int) - den.log2 + 1) := by
    rw [div_lt_iff₀ hpositive]
    calc (num : ℚ) < 2 ^ ((num.log2 : Int) + 1) := hnumHigh
      _ = 2 ^ ((num.log2 : Int) - den.log2 + 1) * 2 ^ (den.log2 : Int) := by
          rw [← zpow_add₀ two_ne_zero]
          congr 1
          ring
      _ ≤ 2 ^ ((num.log2 : Int) - den.log2 + 1) * den := by gcongr
  -- the logarithms leave two candidates, and the comparison picks one of them
  have hless (guess : Int) : (scaleTwo num den (-guess)).1 < (scaleTwo num den (-guess)).2 ↔
      (num : ℚ) / den < 2 ^ guess := by
    have hscaled : (0 : ℚ) < (scaleTwo num den (-guess)).2 := by
      exact_mod_cast scaleTwo_den_pos num hden (-guess)
    have hpower : (0 : ℚ) < 2 ^ guess := zpow_pos two_pos guess
    rw [← Nat.cast_lt (α := ℚ), ← div_lt_one hscaled, scaleTwo_div, zpow_neg, ← div_eq_mul_inv,
      div_lt_one hpower]
  unfold leadingBit
  dsimp only
  split_ifs with hguess
  · rw [hless] at hguess
    exact ⟨hlow, by rwa [sub_add_cancel]⟩
  · rw [hless, not_lt] at hguess
    exact ⟨hguess, hhigh⟩

/-- The exponent of the leading bit is the binary logarithm. -/
theorem leadingBit_eq {exponent : Int} (hnum : 0 < num) (hden : 0 < den)
    (hlow : (2 : ℚ) ^ exponent ≤ num / den) (hhigh : (num : ℚ) / den < 2 ^ (exponent + 1)) :
    leadingBit num den = exponent := by
  obtain ⟨hlow', hhigh'⟩ := leadingBit_bounds hnum hden
  have hle := (zpow_lt_zpow_iff_right₀ one_lt_two).mp (hlow.trans_lt hhigh')
  have hge := (zpow_lt_zpow_iff_right₀ one_lt_two).mp (hlow'.trans_lt hhigh)
  omega

variable {mantissa : Nat} {exponent : Int}

theorem num_pos_of_exact (hmantissa : binade ≤ mantissa)
    (hquotient : (num : ℚ) / den = mantissa * 2 ^ exponent) : 0 < num := by
  have hmantissaPos : 0 < mantissa := Nat.lt_of_lt_of_le (by decide) hmantissa
  have hpositive : (0 : ℚ) < mantissa * 2 ^ exponent :=
    mul_pos (by exact_mod_cast hmantissaPos) (zpow_pos two_pos exponent)
  refine Nat.pos_of_ne_zero ?_
  rintro rfl
  rw [← hquotient, Nat.cast_zero, zero_div] at hpositive
  exact absurd hpositive (lt_irrefl 0)

theorem leadingBit_of_exact (hden : 0 < den) (hmantissa : binade ≤ mantissa)
    (hmantissa' : mantissa < 2 * binade)
    (hquotient : (num : ℚ) / den = mantissa * 2 ^ exponent) :
    leadingBit num den = exponent + 52 := by
  have hlowMantissa : (2 : ℚ) ^ (52 : Int) ≤ mantissa := by exact_mod_cast hmantissa
  have hhighMantissa : (mantissa : ℚ) < 2 ^ (53 : Int) := by exact_mod_cast hmantissa'
  apply leadingBit_eq (num_pos_of_exact hmantissa hquotient) hden
  · rw [hquotient, zpow_add₀ two_ne_zero, mul_comm]
    gcongr
  · rw [hquotient, add_assoc, zpow_add₀ two_ne_zero, mul_comm]
    gcongr
    exact hhighMantissa

theorem nearestCode_of_exact (hden : 0 < den) (hmantissa : binade ≤ mantissa)
    (hmantissa' : mantissa < 2 * binade) (hexponent : leastExponent ≤ exponent)
    (hexponent' : exponent ≤ greatestExponent)
    (hquotient : (num : ℚ) / den = mantissa * 2 ^ exponent) :
    nearestCode num den = (exponent - leastExponent).toNat * binade + mantissa := by
  have hunit : max (leadingBit num den - 52) leastExponent = exponent := by
    rw [leadingBit_of_exact hden hmantissa hmantissa' hquotient, add_sub_cancel_right,
      max_eq_left hexponent]
  have hscaled : (num : ℚ) / den * 2 ^ (-exponent) = mantissa := by
    rw [hquotient, mul_assoc, ← zpow_add₀ two_ne_zero, add_neg_cancel, zpow_zero, mul_one]
  have hround : roundDiv (scaleTwo num den (-exponent)).1 (scaleTwo num den (-exponent)).2 =
      mantissa := by
    rw [scaleTwo_num_eq hden hscaled]
    exact roundDiv_mul_right mantissa (scaleTwo_den_pos num hden _)
  unfold nearestCode
  rw [if_neg (num_pos_of_exact hmantissa hquotient).ne', hunit]
  dsimp only
  rw [hround, min_eq_right]
  -- the exponent leaves room below the code of infinity
  have hinfinity : infinityCode = 2047 * binade := rfl
  have hleast : leastExponent = -1074 := rfl
  have hgreatest : greatestExponent = 971 := rfl
  have hspan : (exponent - leastExponent).toNat ≤ 2045 := by omega
  have hcodes := Nat.mul_le_mul_right binade hspan
  omega

theorem ofCode_of_normal (negative : Bool) (hmantissa : binade ≤ mantissa)
    (hmantissa' : mantissa < 2 * binade) (hexponent : leastExponent ≤ exponent)
    (hexponent' : exponent ≤ greatestExponent) :
    ofCode negative ((exponent - leastExponent).toNat * binade + mantissa) =
      .finite negative mantissa exponent := by
  have hpositive : 0 < binade := by decide
  have hinfinity : infinityCode = 2047 * binade := rfl
  have hleast : leastExponent = -1074 := rfl
  have hgreatest : greatestExponent = 971 := rfl
  obtain ⟨fraction, rfl⟩ := Nat.exists_eq_add_of_le hmantissa
  have hspan : (exponent - leastExponent).toNat ≤ 2045 := by omega
  have hcodes := Nat.mul_le_mul_right binade hspan
  have hsum : (exponent - leastExponent).toNat * binade + (binade + fraction) =
      fraction + binade * ((exponent - leastExponent).toNat + 1) := by
    ring
  have hmod : (fraction + binade * ((exponent - leastExponent).toNat + 1)) % binade = fraction := by
    rw [Nat.add_mul_mod_self_left, Nat.mod_eq_of_lt (by omega)]
  have hdiv : (fraction + binade * ((exponent - leastExponent).toNat + 1)) / binade =
      (exponent - leastExponent).toNat + 1 := by
    rw [Nat.add_mul_div_left _ _ hpositive, Nat.div_eq_of_lt (by omega), Nat.zero_add]
  have hback : leastExponent + ((exponent - leastExponent).toNat + 1 - 1 : Nat) = exponent := by
    omega
  rw [ofCode, if_neg (by omega), if_neg (by omega), if_neg (by omega), hsum, hmod, hdiv, hback]

/-- A quotient with a mantissa of 53 bits is the value nearest to it. -/
theorem ofFloat_nearest_of_exact (negative : Bool) (hden : 0 < den) (hmantissa : binade ≤ mantissa)
    (hmantissa' : mantissa < 2 * binade) (hexponent : leastExponent ≤ exponent)
    (hexponent' : exponent ≤ greatestExponent)
    (hquotient : (num : ℚ) / den = mantissa * 2 ^ exponent) :
    ofFloat (nearest negative num den) = .finite negative mantissa exponent := by
  rw [nearest, ofFloat_floatOfCode negative (nearestCode_le num den),
    nearestCode_of_exact hden hmantissa hmantissa' hexponent hexponent' hquotient,
    ofCode_of_normal negative hmantissa hmantissa' hexponent hexponent']

/-- The largest natural up to which every natural is a value. -/
def greatestWhole : Nat := 2 ^ 53

/-- A positive natural has a mantissa of 53 bits. -/
theorem exists_mantissa {k : Nat} (hk : 0 < k) (hk' : k ≤ greatestWhole) :
    ∃ (mantissa : Nat) (exponent : Int), binade ≤ mantissa ∧ mantissa < 2 * binade ∧
      leastExponent ≤ exponent ∧ exponent ≤ greatestExponent ∧
      (k : ℚ) = mantissa * 2 ^ exponent := by
  have hbinade : binade = 2 ^ 52 := rfl
  have hgreatest : greatestExponent = 971 := rfl
  have hleast : leastExponent = -1074 := rfl
  -- 2^53 itself takes one bit more and is even; below it the mantissa is shifted up to 53 bits
  rcases Nat.eq_or_lt_of_le hk' with rfl | hlt
  · refine ⟨binade, 1, le_rfl, by omega, by omega, by omega, ?_⟩
    rw [hbinade, greatestWhole]
    norm_num
  · have hlog : k.log2 ≤ 52 := Nat.le_of_lt_succ ((Nat.log2_lt hk.ne').mpr hlt)
    obtain ⟨shift, hshift⟩ := Nat.exists_eq_add_of_le hlog
    refine ⟨k * 2 ^ shift, -shift, ?_, ?_, by omega, by omega, ?_⟩
    · calc binade = 2 ^ k.log2 * 2 ^ shift := by rw [hbinade, hshift, pow_add]
        _ ≤ k * 2 ^ shift := Nat.mul_le_mul_right _ (Nat.log2_self_le hk.ne')
    · calc k * 2 ^ shift < 2 ^ (k.log2 + 1) * 2 ^ shift :=
            Nat.mul_lt_mul_of_pos_right Nat.lt_log2_self (Nat.two_pow_pos _)
        _ = 2 * 2 ^ (k.log2 + shift) := by ring
        _ = 2 * binade := by rw [← hshift, hbinade]
    · push_cast
      rw [zpow_neg, zpow_natCast, mul_assoc, mul_inv_cancel₀ (by positivity), mul_one]

theorem div_scaleTwo_of_exact {k : Nat} (hquotient : (k : ℚ) = mantissa * 2 ^ exponent) :
    (scaleTwo mantissa 1 exponent).1 / (scaleTwo mantissa 1 exponent).2 = k := by
  have hscaled : (mantissa : ℚ) / (1 : Nat) * 2 ^ exponent = k := by
    rw [Nat.cast_one, div_one, hquotient]
  rw [scaleTwo_num_eq Nat.one_pos hscaled]
  exact Nat.mul_div_cancel k (scaleTwo_den_pos mantissa Nat.one_pos exponent)

theorem exists_ofFloat_nearest_nat (negative : Bool) {k : Nat} (hden : 0 < den)
    (hk : k ≤ greatestWhole) : ∃ mantissa exponent,
      ofFloat (nearest negative (k * den) den) = .finite negative mantissa exponent ∧
        Moment.wholePart (.finite negative mantissa exponent) =
          if negative then -(k : Int) else k := by
  rcases Nat.eq_zero_or_pos k with rfl | hpositive
  · have hzero : nearestCode (0 * den) den = 0 := by rw [Nat.zero_mul, nearestCode, if_pos rfl]
    have hleast : ofCode negative 0 = .finite negative 0 leastExponent := rfl
    refine ⟨0, leastExponent, ?_, ?_⟩
    · rw [nearest, hzero, ofFloat_floatOfCode negative (Nat.zero_le _), hleast]
    · have hquotient : ((0 : Nat) : ℚ) = (0 : Nat) * 2 ^ leastExponent := by
        rw [Nat.cast_zero, zero_mul]
      simp only [Moment.wholePart, div_scaleTwo_of_exact hquotient]
  · obtain ⟨mantissa, exponent, hlow, hhigh, hleast, hgreatest, hquotient⟩ :=
      exists_mantissa hpositive hk
    have hdenNe : (den : ℚ) ≠ 0 := by exact_mod_cast hden.ne'
    have hexact : ((k * den : Nat) : ℚ) / den = mantissa * 2 ^ exponent := by
      rw [← hquotient, Nat.cast_mul, mul_div_cancel_right₀ _ hdenNe]
    refine ⟨mantissa, exponent, ?_, ?_⟩
    · exact ofFloat_nearest_of_exact negative hden hlow hhigh hleast hgreatest hexact
    · simp only [Moment.wholePart, div_scaleTwo_of_exact hquotient]

/-- An integer up to 2^53 is a value, and its whole part is the integer again. -/
theorem exists_ofFloat_nearest_int {n : Int} (hden : 0 < den) (hn : n.natAbs ≤ greatestWhole) :
    ∃ mantissa exponent, ofFloat (nearest (decide (n < 0)) (n.natAbs * den) den) =
        .finite (decide (n < 0)) mantissa exponent ∧
      Moment.wholePart (.finite (decide (n < 0)) mantissa exponent) = n := by
  obtain ⟨mantissa, exponent, hvalue, hwhole⟩ := exists_ofFloat_nearest_nat (decide (n < 0)) hden hn
  refine ⟨mantissa, exponent, hvalue, hwhole.trans ?_⟩
  by_cases hnegative : n < 0
  · rw [decide_eq_true hnegative, if_pos rfl]
    omega
  · rw [decide_eq_false hnegative, if_neg Bool.false_ne_true]
    omega

theorem nearestDecimal_whole (negative : Bool) {k : Nat} (hk : k ≤ greatestWhole) :
    nearestDecimal negative k 0 = nearest negative (k * 1) 1 := by
  rcases Nat.eq_zero_or_pos k with rfl | hpositive
  · rfl
  · have hlog : k.log2 < 54 := (Nat.log2_lt hpositive.ne').mpr (hk.trans_lt (by decide))
    have hfew : ¬(k = 0 ∨ (0 : Int) < 0 ∧ (k.log2 : Int) + 0 * 3 < -1100) := by omega
    have hmany : ¬((0 : Int) ≤ 0 ∧ 1100 < (k.log2 : Int) + 0 * 3) := by omega
    have hscaled : scaleTen k 1 0 = (k * 1, 1) := rfl
    simp only [nearestDecimal, if_neg hfew, if_neg hmany, hscaled]

/-- An integer up to 2^53 that is read from its digits is that integer. -/
theorem exists_ofFloat_nearestDecimal {n : Int} (hn : n.natAbs ≤ greatestWhole) :
    ∃ mantissa exponent, ofFloat (nearestDecimal (decide (n < 0)) n.natAbs 0) =
        .finite (decide (n < 0)) mantissa exponent ∧
      Moment.wholePart (.finite (decide (n < 0)) mantissa exponent) = n := by
  rw [nearestDecimal_whole _ hn]
  exact exists_ofFloat_nearest_int Nat.one_pos hn

end Binary64

end Bourse
