import Bourse.Proofs.Number.Rounding

/-! The numbers that read back as a value. Around every finite value lies an interval, from half a
unit in the last place below it to half a unit above it, and every number in it is read as the value.
Below a power of two the neighbour is closer, and so is the end of the interval. -/
namespace Bourse

theorem scaleTen_den_pos (num : ℕ) {den : ℕ} (hden : 0 < den) (exponent : ℤ) :
    0 < (scaleTen num den exponent).2 := by
  unfold scaleTen
  split_ifs
  · exact hden
  · exact Nat.mul_pos hden (Nat.pow_pos (by decide))

theorem scaleTen_div (num den : ℕ) (exponent : ℤ) :
    ((scaleTen num den exponent).1 : ℚ) / (scaleTen num den exponent).2 =
      num / den * 10 ^ exponent := by
  unfold scaleTen
  split_ifs with hsign
  · obtain ⟨k, rfl⟩ := Int.eq_ofNat_of_zero_le hsign
    rw [Int.toNat_natCast, zpow_natCast, Nat.pow_eq]
    push_cast
    ring
  · obtain ⟨k, hk⟩ := Int.eq_ofNat_of_zero_le (Int.neg_nonneg.mpr (le_of_not_ge hsign))
    obtain rfl : exponent = -k := by omega
    rw [neg_neg, Int.toNat_natCast, zpow_neg, zpow_natCast, Nat.pow_eq]
    push_cast
    rw [div_mul_eq_div_div]
    rfl

namespace Binary64

/-- Whether a mantissa and an exponent are those of a finite value without sign. -/
structure IsLegal (mantissa : ℕ) (exponent : ℤ) : Prop where
  mantissa_lt : mantissa < 2 * binade
  le_exponent : leastExponent ≤ exponent
  exponent_le : exponent ≤ greatestExponent
  normal : exponent = leastExponent ∨ binade ≤ mantissa

/-- The number of the value with a mantissa and an exponent. -/
def codeOf (mantissa : ℕ) (exponent : ℤ) : ℕ :=
  (exponent - leastExponent).toNat * binade + mantissa

variable {mantissa num den : ℕ} {exponent : ℤ} {negative : Bool} {x : Float} {q : ℚ}

theorem IsLegal.codeOf_lt (h : IsLegal mantissa exponent) : codeOf mantissa exponent < infinityCode := by
  have hspan : (exponent - leastExponent).toNat ≤ 2045 := by
    have hleast : leastExponent = -1074 := rfl
    have hgreatest : greatestExponent = 971 := rfl
    have hexponent := h.exponent_le
    omega
  have hcodes := Nat.mul_le_mul_right binade hspan
  have hinfinity : infinityCode = 2047 * binade := rfl
  have hmantissa := h.mantissa_lt
  unfold codeOf
  omega

theorem isLegal_of_ofCode {code : ℕ} {sign : Bool}
    (h : ofCode sign code = .finite negative mantissa exponent) :
    IsLegal mantissa exponent ∧ codeOf mantissa exponent = code ∧ sign = negative := by
  have hleast : leastExponent = -1074 := rfl
  have hgreatest : greatestExponent = 971 := rfl
  have hinfinity : infinityCode = 2047 * binade := rfl
  have hbinade : 0 < binade := by decide
  unfold ofCode at h
  split_ifs at h with hlarge hequal hsmall
  · obtain ⟨rfl, rfl, rfl⟩ := Binary64.finite.inj h
    refine ⟨⟨by omega, le_rfl, by decide, .inl rfl⟩, ?_, rfl⟩
    rw [codeOf, sub_self, Int.toNat_zero, Nat.zero_mul, Nat.zero_add]
  · obtain ⟨rfl, rfl, rfl⟩ := Binary64.finite.inj h
    have hmod : code % binade < binade := Nat.mod_lt _ hbinade
    have hspan : 1 ≤ code / binade := (Nat.one_le_div_iff hbinade).mpr (Nat.le_of_not_lt hsmall)
    have hdiv : code / binade < 2047 := (Nat.div_lt_iff_lt_mul hbinade).mpr (by omega)
    refine ⟨⟨by omega, by omega, by omega, .inr (Nat.le_add_right _ _)⟩, ?_, rfl⟩
    rw [codeOf, add_sub_cancel_left, Int.toNat_natCast]
    calc (code / binade - 1) * binade + (binade + code % binade)
        = (code / binade - 1 + 1) * binade + code % binade := by ring
      _ = code := by rw [Nat.sub_add_cancel hspan, Nat.div_add_mod']

/-- Running values with the same bits are the same. -/
theorem eq_of_toBits {x y : Float} (h : x.toBits = y.toBits) : x = y := by
  obtain ⟨⟨bits, hvalid⟩⟩ := x
  obtain ⟨⟨bits', hvalid'⟩⟩ := y
  obtain rfl : bits = bits' := h
  rfl

/-- A finite running value is the one with the number of its mantissa and exponent. -/
theorem eq_floatOfCode (h : ofFloat x = .finite negative mantissa exponent) :
    IsLegal mantissa exponent ∧ x = floatOfCode negative (codeOf mantissa exponent) := by
  obtain ⟨hlegal, hcode, hsign⟩ := isLegal_of_ofCode h
  refine ⟨hlegal, eq_of_toBits ?_⟩
  rw [← UInt64.toNat_inj, toBits_floatOfCode negative hlegal.codeOf_lt.le, hcode, ← hsign]
  have hsize : x.toBits.toNat < 2 * signBit := x.toBits.toNat_lt
  by_cases hlarge : signBit ≤ x.toBits.toNat
  · rw [if_pos (decide_eq_true hlarge), Nat.mod_eq_sub_mod hlarge, Nat.mod_eq_of_lt (by omega)]
    omega
  · rw [if_neg (by simpa using hlarge), Nat.mod_eq_of_lt (by omega), Nat.zero_add]

/-! The interval around a value -/

/-- How far the interval reaches below a value, in units in the last place. -/
def reachBelow (mantissa : ℕ) (exponent : ℤ) : ℚ :=
  if mantissa = binade ∧ leastExponent < exponent then 1 / 4 else 1 / 2

/-- Whether a number lies in the interval around a value. The ends belong to it if the mantissa is
even. -/
structure IsAround (mantissa : ℕ) (exponent : ℤ) (q : ℚ) : Prop where
  low : (mantissa - reachBelow mantissa exponent) * 2 ^ exponent ≤ q
  high : q ≤ (mantissa + 1 / 2) * 2 ^ exponent
  inside : ¬Even mantissa →
    (mantissa - reachBelow mantissa exponent) * 2 ^ exponent < q ∧
      q < (mantissa + 1 / 2) * 2 ^ exponent

theorem reachBelow_bounds (mantissa : ℕ) (exponent : ℤ) :
    1 / 4 ≤ reachBelow mantissa exponent ∧ reachBelow mantissa exponent ≤ 1 / 2 := by
  unfold reachBelow
  split_ifs
  · norm_num
  · norm_num

/-- What lies around a value is not more than half a unit from it. -/
theorem IsAround.isNearestNat (h : IsAround mantissa exponent q) :
    IsNearestNat (q * 2 ^ (-exponent)) mantissa := by
  have hpower : (0 : ℚ) < 2 ^ (-exponent) := zpow_pos two_pos _
  obtain ⟨-, hreach⟩ := reachBelow_bounds mantissa exponent
  have hcancel (r : ℚ) : r * 2 ^ exponent * 2 ^ (-exponent) = r := by
    rw [mul_assoc, ← zpow_add₀ two_ne_zero, add_neg_cancel, zpow_zero, mul_one]
  have hlow := mul_le_mul_of_nonneg_right h.low hpower.le
  have hhigh := mul_le_mul_of_nonneg_right h.high hpower.le
  rw [hcancel] at hlow hhigh
  constructor
  · rw [abs_le]
    constructor
    · linarith
    · linarith
  · intro hhalf
    by_contra hodd
    obtain ⟨hlow', hhigh'⟩ := h.inside hodd
    have hlow' := mul_lt_mul_of_pos_right hlow' hpower
    have hhigh' := mul_lt_mul_of_pos_right hhigh' hpower
    rw [hcancel] at hlow' hhigh'
    have hless : |q * 2 ^ (-exponent) - mantissa| < 1 / 2 := by
      rw [abs_lt]
      constructor
      · linarith
      · linarith
    exact hless.ne hhalf

theorem binade_eq : (binade : ℚ) = 2 ^ (52 : ℤ) := by
  norm_num [binade]

theorem binade_mul (exponent : ℤ) : (binade : ℚ) * 2 ^ exponent = 2 ^ (52 + exponent) := by
  rw [zpow_add₀ two_ne_zero, binade_eq]

theorem IsAround.unitOf_le (h : IsAround mantissa exponent (num / den))
    (hlegal : IsLegal mantissa exponent) (hnum : 0 < num) (hden : 0 < den) :
    unitOf num den ≤ exponent := by
  obtain ⟨hlow, -⟩ := leadingBit_bounds hnum hden
  have hpower : (0 : ℚ) < 2 ^ exponent := zpow_pos two_pos _
  have hmantissa : (mantissa : ℚ) + 1 ≤ 2 * binade := by exact_mod_cast hlegal.mantissa_lt
  have hbelow : (2 : ℚ) ^ leadingBit num den < 2 ^ (53 + exponent) := by
    calc (2 : ℚ) ^ leadingBit num den ≤ num / den := hlow
      _ ≤ (mantissa + 1 / 2) * 2 ^ exponent := h.high
      _ < 2 * binade * 2 ^ exponent := by
          apply mul_lt_mul_of_pos_right _ hpower
          linarith
      _ = 2 ^ (53 + exponent) := by
          rw [mul_assoc, binade_mul, ← zpow_one_add₀ two_ne_zero]
          congr 1
          ring
  have hleading := (zpow_lt_zpow_iff_right₀ one_lt_two).mp hbelow
  exact max_le (by omega) hlegal.le_exponent

/-- A number around a value that has a smaller unit than the value lies below a power of two. -/
theorem IsAround.mantissa_eq_of_unitOf_lt (h : IsAround mantissa exponent (num / den))
    (hlegal : IsLegal mantissa exponent) (hnum : 0 < num) (hden : 0 < den)
    (hunit : unitOf num den < exponent) :
    mantissa = binade ∧ unitOf num den = exponent - 1 ∧ mantissaOf num den = 2 * binade := by
  obtain ⟨-, hbits⟩ := leadingBit_bounds hnum hden
  have hpower : (0 : ℚ) < 2 ^ exponent := zpow_pos two_pos _
  have hleast : leastExponent < exponent := (le_max_right _ _).trans_lt hunit
  have hleading : leadingBit num den - 52 ≤ unitOf num den := le_max_left _ _
  have hnormal : binade ≤ mantissa := hlegal.normal.resolve_left hleast.ne'
  have hbelow : (num : ℚ) / den < binade * 2 ^ exponent := by
    calc (num : ℚ) / den < 2 ^ (leadingBit num den + 1) := hbits
      _ ≤ 2 ^ (52 + exponent) := zpow_le_zpow_right₀ one_le_two (by omega)
      _ = binade * 2 ^ exponent := (binade_mul exponent).symm
  have hfirst : mantissa = binade := by
    by_contra hne
    have hlarge : (binade : ℚ) + 1 ≤ mantissa := by
      exact_mod_cast lt_of_le_of_ne hnormal (Ne.symm hne)
    obtain ⟨-, hreach⟩ := reachBelow_bounds mantissa exponent
    have hcover := mul_le_mul_of_nonneg_right
      (show (binade : ℚ) ≤ mantissa - reachBelow mantissa exponent by linarith) hpower.le
    exact absurd (hcover.trans h.low) (not_le.mpr hbelow)
  subst hfirst
  have hlow : (binade - 1 / 4 : ℚ) * 2 ^ exponent ≤ num / den := by
    have hreach : reachBelow binade exponent = 1 / 4 := if_pos ⟨rfl, hleast⟩
    have hends := h.low
    rwa [hreach] at hends
  have hunit' : unitOf num den = exponent - 1 := by
    have habove : (2 : ℚ) ^ (51 + exponent) < 2 ^ (leadingBit num den + 1) := by
      calc (2 : ℚ) ^ (51 + exponent) = 2 ^ (51 : ℤ) * 2 ^ exponent := zpow_add₀ two_ne_zero _ _
        _ ≤ (binade - 1 / 4) * 2 ^ exponent := by
            apply mul_le_mul_of_nonneg_right _ hpower.le
            norm_num [binade]
        _ ≤ num / den := hlow
        _ < 2 ^ (leadingBit num den + 1) := hbits
    have hless := (zpow_lt_zpow_iff_right₀ one_lt_two).mp habove
    omega
  refine ⟨rfl, hunit', ?_⟩
  -- in units of half the size the number is at most one half away from twice the mantissa
  have hdouble : (2 : ℚ) ^ exponent = 2 * 2 ^ (exponent - 1) := by
    rw [← zpow_one_add₀ two_ne_zero]
    congr 1
    ring
  have hunits : IsNearestNat (num / den * 2 ^ (-unitOf num den)) (2 * binade) := by
    have hpower' : (0 : ℚ) < 2 ^ (exponent - 1) := zpow_pos two_pos _
    have hquotient : (num : ℚ) / den * 2 ^ (-unitOf num den) = num / den / 2 ^ (exponent - 1) := by
      rw [hunit', zpow_neg, div_eq_mul_inv _ ((2 : ℚ) ^ (exponent - 1))]
    rw [hdouble] at hlow hbelow
    have hlow' : 2 * (binade : ℚ) - 1 / 2 ≤ num / den / 2 ^ (exponent - 1) := by
      rw [le_div_iff₀ hpower']
      linarith
    have hhigh' : (num : ℚ) / den / 2 ^ (exponent - 1) < 2 * binade := by
      rw [div_lt_iff₀ hpower']
      linarith
    rw [hquotient]
    refine ⟨?_, fun _ => even_two_mul binade⟩
    push_cast
    rw [abs_le]
    constructor
    · linarith
    · linarith
  rw [← scaleTwo_div] at hunits
  exact hunits.eq_roundDiv (scaleTwo_den_pos num hden _)

/-- Every quotient around a value is read as the value. -/
theorem IsAround.nearestCode_eq (h : IsAround mantissa exponent (num / den))
    (hlegal : IsLegal mantissa exponent) (hden : 0 < den) :
    nearestCode num den = codeOf mantissa exponent := by
  have hpower : (0 : ℚ) < 2 ^ exponent := zpow_pos two_pos _
  rcases Nat.eq_zero_or_pos num with rfl | hnum
  · have hzero : mantissa = 0 := by
      by_contra hne
      have hone : (1 : ℚ) ≤ mantissa := by exact_mod_cast Nat.one_le_iff_ne_zero.mpr hne
      obtain ⟨-, hreach⟩ := reachBelow_bounds mantissa exponent
      have hpositive : 0 < (mantissa - reachBelow mantissa exponent) * 2 ^ exponent :=
        mul_pos (by linarith) hpower
      have hlow := h.low
      rw [Nat.cast_zero, zero_div] at hlow
      exact absurd hlow (not_le.mpr hpositive)
    subst hzero
    have hleast : exponent = leastExponent := hlegal.normal.resolve_right (by decide)
    rw [nearestCode, if_pos rfl, codeOf, hleast, sub_self]
    rfl
  · have hcode := hlegal.codeOf_lt
    rw [Binary64.nearestCode_eq hnum]
    rcases (h.unitOf_le hlegal hnum hden).eq_or_lt with hequal | hless
    · have hmantissa : mantissaOf num den = mantissa := by
        have hnearest := h.isNearestNat
        rw [← hequal, ← scaleTwo_div] at hnearest
        exact hnearest.eq_roundDiv (scaleTwo_den_pos num hden _)
      rw [hequal, hmantissa]
      exact min_eq_right hcode.le
    · obtain ⟨hfirst, hunit, hmantissa⟩ :=
        h.mantissa_eq_of_unitOf_lt hlegal hnum hden hless
      have hleast : leastExponent ≤ unitOf num den := le_max_right _ _
      have hspan : (exponent - leastExponent).toNat =
          (unitOf num den - leastExponent).toNat + 1 := by
        omega
      have hcodes : (unitOf num den - leastExponent).toNat * binade + 2 * binade =
          codeOf mantissa exponent := by
        rw [codeOf, hspan, hfirst]
        ring
      rw [hmantissa, hcodes]
      exact min_eq_right hcode.le

/-- What lies around a value other than zero is neither too small nor too large to be read. -/
theorem IsAround.bounds (h : IsAround mantissa exponent q) (hlegal : IsLegal mantissa exponent)
    (hmantissa : mantissa ≠ 0) : 2 ^ (-1075 : ℤ) ≤ q ∧ q < 2 ^ (1024 : ℤ) := by
  have hpower : (0 : ℚ) < 2 ^ exponent := zpow_pos two_pos _
  obtain ⟨-, hreach⟩ := reachBelow_bounds mantissa exponent
  have hone : (1 : ℚ) ≤ mantissa := by exact_mod_cast Nat.one_le_iff_ne_zero.mpr hmantissa
  have hmost : (mantissa : ℚ) + 1 ≤ 2 * binade := by exact_mod_cast hlegal.mantissa_lt
  constructor
  · calc (2 : ℚ) ^ (-1075 : ℤ) = 1 / 2 * 2 ^ leastExponent := by
          have hleast : leastExponent = -1074 := rfl
          rw [hleast, one_div, ← zpow_neg_one, ← zpow_add₀ two_ne_zero]
          rfl
      _ ≤ 1 / 2 * 2 ^ exponent := by
          apply mul_le_mul_of_nonneg_left _ one_half_pos.le
          exact zpow_le_zpow_right₀ one_le_two hlegal.le_exponent
      _ ≤ (mantissa - reachBelow mantissa exponent) * 2 ^ exponent := by
          apply mul_le_mul_of_nonneg_right _ hpower.le
          linarith
      _ ≤ q := h.low
  · calc q ≤ (mantissa + 1 / 2) * 2 ^ exponent := h.high
      _ < 2 * binade * 2 ^ exponent := by
          apply mul_lt_mul_of_pos_right _ hpower
          linarith
      _ ≤ 2 * binade * 2 ^ (greatestExponent : ℤ) := by
          apply mul_le_mul_of_nonneg_left _ (by positivity)
          exact zpow_le_zpow_right₀ one_le_two hlegal.exponent_le
      _ = 2 ^ (1024 : ℤ) := by
          rw [mul_assoc, binade_mul, ← zpow_one_add₀ two_ne_zero]
          rfl

/-- A power of ten in the numbers of a decimal counts for three powers of two at least. -/
theorem decimal_bounds {coefficient : ℕ} (place : ℤ) (hcoefficient : 0 < coefficient) :
    (place < 0 → coefficient * (10 : ℚ) ^ place < 2 ^ ((coefficient.log2 : ℤ) + 1 + place * 3)) ∧
      (0 ≤ place → 2 ^ ((coefficient.log2 : ℤ) + place * 3) ≤ coefficient * (10 : ℚ) ^ place) := by
  obtain ⟨hlow, hhigh⟩ := log2_bounds hcoefficient
  have height (n : ℤ) : (2 : ℚ) ^ (n * 3) = 8 ^ n := by
    rw [mul_comm, zpow_mul]
    norm_num
  constructor
  · intro hplace
    obtain ⟨k, hk⟩ := Int.eq_ofNat_of_zero_le (Int.neg_nonneg.mpr hplace.le)
    obtain rfl : place = -k := by omega
    have hpowers : (10 : ℚ) ^ (-k : ℤ) ≤ 8 ^ (-k : ℤ) := by
      rw [zpow_neg, zpow_neg, zpow_natCast, zpow_natCast]
      apply inv_anti₀ (by positivity)
      exact pow_le_pow_left₀ (by norm_num) (by norm_num) k
    calc coefficient * (10 : ℚ) ^ (-k : ℤ)
        < 2 ^ ((coefficient.log2 : ℤ) + 1) * 10 ^ (-k : ℤ) := by
          apply mul_lt_mul_of_pos_right hhigh
          positivity
      _ ≤ 2 ^ ((coefficient.log2 : ℤ) + 1) * 8 ^ (-k : ℤ) := by gcongr
      _ = 2 ^ ((coefficient.log2 : ℤ) + 1 + -k * 3) := by
          rw [← height, ← zpow_add₀ two_ne_zero]
  · intro hplace
    obtain ⟨k, rfl⟩ := Int.eq_ofNat_of_zero_le hplace
    calc (2 : ℚ) ^ ((coefficient.log2 : ℤ) + k * 3) = 2 ^ (coefficient.log2 : ℤ) * 8 ^ (k : ℤ) := by
          rw [zpow_add₀ two_ne_zero, height]
      _ ≤ coefficient * 8 ^ (k : ℤ) := by gcongr
      _ ≤ coefficient * 10 ^ (k : ℤ) := by
          rw [zpow_natCast, zpow_natCast]
          gcongr
          norm_num

/-- What is read from a decimal around a value is the value. -/
theorem IsAround.nearestDecimal_eq {coefficient : ℕ} {place : ℤ}
    (h : IsAround mantissa exponent (coefficient * 10 ^ place))
    (hlegal : IsLegal mantissa exponent) (negative : Bool) :
    nearestDecimal negative coefficient place = floatOfCode negative (codeOf mantissa exponent) := by
  have hquotient := scaleTen_div coefficient 1 place
  have hden := scaleTen_den_pos coefficient Nat.one_pos place
  rw [Nat.cast_one, div_one] at hquotient
  have hcode : nearestCode (scaleTen coefficient 1 place).1 (scaleTen coefficient 1 place).2 =
      codeOf mantissa exponent := by
    have haround := h
    rw [← hquotient] at haround
    exact haround.nearestCode_eq hlegal hden
  rcases Nat.eq_zero_or_pos coefficient with rfl | hcoefficient
  · have hnum : (scaleTen 0 1 place).1 = 0 := by
      unfold scaleTen
      split_ifs
      · exact Nat.zero_mul _
      · rfl
    rw [hnum, nearestCode, if_pos rfl] at hcode
    rw [nearestDecimal, if_pos (.inl rfl), hcode]
  · obtain ⟨hsmall, hlarge⟩ := decimal_bounds place hcoefficient
    unfold nearestDecimal
    dsimp only
    split_ifs with hzero hinfinite
    · -- far below the least value nothing is around but zero
      obtain ⟨hplace, hscale⟩ := hzero.resolve_left hcoefficient.ne'
      have hmantissa : mantissa = 0 := by
        by_contra hne
        obtain ⟨hlow, -⟩ := h.bounds hlegal hne
        have hless := (zpow_lt_zpow_iff_right₀ one_lt_two).mp (hlow.trans_lt (hsmall hplace))
        omega
      subst hmantissa
      have hleast : exponent = leastExponent := hlegal.normal.resolve_right (by decide)
      rw [codeOf, hleast, sub_self]
      rfl
    · obtain ⟨hplace, hscale⟩ := hinfinite
      exfalso
      have hbig := hlarge hplace
      rcases eq_or_ne mantissa 0 with rfl | hne
      · have hhigh := h.high
        have hleast : exponent = leastExponent := hlegal.normal.resolve_right (by decide)
        have hhalf : ((0 : ℕ) + 1 / 2 : ℚ) * 2 ^ exponent < 2 ^ (0 : ℤ) := by
          rw [hleast, Nat.cast_zero, zero_add, zpow_zero]
          have hless : (2 : ℚ) ^ leastExponent ≤ 1 := zpow_le_one_of_nonpos₀ one_le_two (by decide)
          linarith
        have hless := (zpow_lt_zpow_iff_right₀ one_lt_two).mp ((hbig.trans hhigh).trans_lt hhalf)
        omega
      · obtain ⟨-, hhigh⟩ := h.bounds hlegal hne
        have hless := (zpow_lt_zpow_iff_right₀ one_lt_two).mp (hbig.trans_lt hhigh)
        omega
    · exact congrArg (floatOfCode negative) hcode

/-- The value with the number of a mantissa and an exponent is around itself. -/
theorem isAround_self (mantissa : ℕ) (exponent : ℤ) :
    IsAround mantissa exponent (mantissa * 2 ^ exponent) := by
  have hpower : (0 : ℚ) < 2 ^ exponent := zpow_pos two_pos _
  obtain ⟨hreach, -⟩ := reachBelow_bounds mantissa exponent
  have hlow : (mantissa - reachBelow mantissa exponent) * 2 ^ exponent < mantissa * 2 ^ exponent :=
    mul_lt_mul_of_pos_right (by linarith) hpower
  have hhigh : (mantissa : ℚ) * 2 ^ exponent < (mantissa + 1 / 2) * 2 ^ exponent :=
    mul_lt_mul_of_pos_right (by linarith) hpower
  exact ⟨hlow.le, hhigh.le, fun _ => ⟨hlow, hhigh⟩⟩

end Binary64

end Bourse
