import Bourse.Market.Actions
import Bourse.Proofs.Number.Convergents
import Bourse.Proofs.Number.Rounding

/-! Labels of splits. A label is the closest fraction with a small denominator, so it names the
fraction that a ratio stands for as long as the ratio is nearer to it than half the least distance
of two such fractions. Below 2^31 the unit in the last place is smaller than that. -/
namespace Bourse

namespace Binary64

/-- Whether no finite running value is nearer to a number than the given one. -/
def IsNearest (x : Float) (q : ℚ) : Prop :=
  ∃ v, HasValue x v ∧ ∀ y w, HasValue y w → |v - q| ≤ |w - q|

variable {num den : ℕ}

theorem unitOf_le {bit : ℤ} (hnum : 0 < num) (hden : 0 < den) (hbit : leastExponent + 53 ≤ bit)
    (h : (num : ℚ) / den < 2 ^ bit) : unitOf num den ≤ bit - 53 := by
  obtain ⟨hlow, -⟩ := leadingBit_bounds hnum hden
  have hleading : leadingBit num den < bit :=
    (zpow_lt_zpow_iff_right₀ one_lt_two).mp (hlow.trans_lt h)
  apply max_le
  · omega
  · omega

/-- Some running value is within 2^-23 of a quotient below 2^31. -/
theorem exists_value_near (hden : 0 < den) (h : (num : ℚ) / den < 2 ^ 31) :
    ∃ x v, HasValue x v ∧ |v - num / den| ≤ 1 / 2 ^ 23 := by
  rcases Nat.eq_zero_or_pos num with rfl | hnum
  · have hzero : (0 : ℕ) < infinityCode := by decide
    refine ⟨floatOfCode false 0, _, hasValue_ofCode hzero (ofFloat_floatOfCode false hzero.le), ?_⟩
    rw [units_of_lt (by decide), Nat.cast_zero, zero_mul, mul_zero, zero_div, sub_zero, abs_zero]
    positivity
  · have hfinite : nearestCode num den < infinityCode := by
      apply nearestCode_lt hden
      have hden' : (0 : ℚ) < den := by exact_mod_cast hden
      have hbelow : num < 2 ^ 31 * den := by
        rw [div_lt_iff₀ hden'] at h
        exact_mod_cast h
      exact hbelow.le.trans (Nat.mul_le_mul_right den (by decide))
    refine ⟨nearest false num den, _, hasValue_nearest false hnum hden hfinite, ?_⟩
    have hunit : unitOf num den ≤ (31 : ℤ) - 53 := unitOf_le hnum hden (by decide) h
    rw [if_neg Bool.false_ne_true, one_mul, abs_sub_comm]
    calc |num / den - mantissaOf num den * (2 : ℚ) ^ unitOf num den|
        ≤ 2 ^ (unitOf num den - 1) := abs_sub_mantissaOf_le num hden
      _ ≤ 2 ^ (-23 : ℤ) := zpow_le_zpow_right₀ one_le_two (by omega)
      _ = 1 / 2 ^ 23 := by
          rw [zpow_neg, one_div]
          rfl

end Binary64

namespace Split

variable {r : ℚ} {split : Split}

theorem label_of_hasValue (h : Binary64.HasValue split.ratio r) : split.label = .ok (labelOf r) := by
  obtain ⟨negative, mantissa, exponent, hvalue, rfl⟩ := h
  rw [label, hvalue]

/-- The label of a ratio is the closest fraction in lowest terms. -/
theorem labelOf_isClosest (r : ℚ) : ∃ num den, labelOf r = s!"{num}:{den}" ∧
    Fraction.IsClosest labelBound r ⟨num, den⟩ :=
  ⟨_, _, rfl, Fraction.isClosest_closest r (by decide)⟩

/-- A ratio less than half a millionth from a fraction has the fraction as its label. -/
theorem labelOf_of_near {num : ℤ} {den : ℕ} (hcoprime : num.natAbs.Coprime den) (hden : 1 ≤ den)
    (hbound : den ≤ labelBound) (hnear : |r - num / den| < 1 / 2000000) :
    labelOf r = s!"{num}:{den}" := by
  have hclosest : Fraction.IsClosest labelBound r (Fraction.closest labelBound r) :=
    Fraction.isClosest_closest r (by decide)
  have hequal : Fraction.closest labelBound r = ⟨num, den⟩ := by
    apply hclosest.eq_of_near hcoprime hden hbound
    calc |r - num / den| < 1 / 2000000 := hnear
      _ = 1 / (2 * (labelBound : ℚ) ^ 2) := by norm_num [labelBound]
  rw [labelOf, hequal]
  rfl

/-- The running value nearest to a fraction below 2^31 has the fraction as its label. -/
theorem label_of_isNearest {num den : ℕ} (hcoprime : num.Coprime den) (hden : 1 ≤ den)
    (hbound : den ≤ labelBound) (hsmall : (num : ℚ) / den < 2 ^ 31)
    (hnearest : Binary64.IsNearest split.ratio (num / den)) :
    split.label = .ok s!"{num}:{den}" := by
  obtain ⟨v, hvalue, hleast⟩ := hnearest
  obtain ⟨y, w, hother, hnear⟩ := Binary64.exists_value_near hden hsmall
  rw [label_of_hasValue hvalue]
  apply congrArg Except.ok
  have hcoprime' : (num : ℤ).natAbs.Coprime den := hcoprime
  apply labelOf_of_near hcoprime' hden hbound
  calc |v - ((num : ℤ) : ℚ) / den| ≤ |w - num / den| := hleast y w hother
    _ ≤ 1 / 2 ^ 23 := hnear
    _ < 1 / 2000000 := by norm_num

/-- A label names the fraction that the ratio stands for. -/
theorem label_names_ratio :
    (∀ num den : ℕ, num.Coprime den → 1 ≤ den → den ≤ 1000 →
      (∀ r : ℚ, |r - num / den| < 1 / 2000000 → labelOf r = s!"{num}:{den}") ∧
      (∀ split : Split, (num : ℚ) / den < 2 ^ 31 → Binary64.IsNearest split.ratio (num / den) →
        split.label = .ok s!"{num}:{den}")) ∧
    (∀ r : ℚ, ∃ (num : ℤ) (den : ℕ), labelOf r = s!"{num}:{den}" ∧ num.natAbs.Coprime den ∧
      1 ≤ den ∧ den ≤ 1000 ∧
      ∀ (n : ℤ) (d : ℕ), 1 ≤ d → d ≤ 1000 → |r - num / den| ≤ |r - n / d|) ∧
    (∀ (split : Split) (r : ℚ), Binary64.HasValue split.ratio r → split.label = .ok (labelOf r)) := by
  refine ⟨?_, ?_, ?_⟩
  · intro num den hcoprime hden hbound
    constructor
    · intro r hnear
      have hcoprime' : (num : ℤ).natAbs.Coprime den := hcoprime
      have hlabel : labelOf r = s!"{(num : ℤ)}:{den}" := labelOf_of_near hcoprime' hden hbound hnear
      exact hlabel
    · intro split hsmall hnearest
      exact label_of_isNearest hcoprime hden hbound hsmall hnearest
  · intro r
    obtain ⟨num, den, hlabel, hclosest⟩ := labelOf_isClosest r
    exact ⟨num, den, hlabel, hclosest.coprime, hclosest.den_pos, hclosest.den_le,
      hclosest.le_of_den_le⟩
  · intro split r hvalue
    exact label_of_hasValue hvalue

theorem labelOf_third : labelOf (333333 / 1000000) = "1:3" := by
  obtain ⟨hnear, -⟩ := label_names_ratio.1 1 3 (by decide) (by decide) (by decide)
  apply hnear
  norm_num [abs_lt]

end Split

end Bourse
