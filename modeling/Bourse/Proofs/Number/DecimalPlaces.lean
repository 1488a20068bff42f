import Bourse.Proofs.Number.Interval

/-! Rounding to decimal places. The result is the value nearest to the decimal that is nearest to a
value. With as many places as values can be told apart by, and for values without a fraction, it is
the value itself, so rounding to places behind the point never leaves the finite values. -/
namespace Bourse.Binary64

variable {mantissa places : ℕ} {exponent : ℤ} {negative : Bool} {x : Float}

/-- Whether a running value is finite. -/
def IsFinite (x : Float) : Prop :=
  ∃ negative mantissa exponent, ofFloat x = .finite negative mantissa exponent

/-- Whether a running value is another one rounded to decimal places: first to the nearest decimal,
or the even one of the two nearest, and then to the nearest value. -/
def IsRounded (places : ℕ) (x y : Float) : Prop :=
  ∃ negative mantissa exponent k, ofFloat x = .finite negative mantissa exponent ∧
    IsNearestNat (mantissa * 2 ^ exponent * 10 ^ places) k ∧ y = nearest negative k (10 ^ places)

theorem isFinite_floatOfCode (negative : Bool) {code : ℕ} (hcode : code < infinityCode) :
    IsFinite (floatOfCode negative code) := by
  obtain ⟨mantissa, span, hvalue, -⟩ := ofCode_eq negative hcode
  exact ⟨negative, mantissa, leastExponent + span,
    (ofFloat_floatOfCode negative hcode.le).trans hvalue⟩

theorem isNearestNat_toPlaces (mantissa : ℕ) (exponent : ℤ) (places : ℕ) :
    IsNearestNat (mantissa * 2 ^ exponent * 10 ^ places) (toPlaces mantissa exponent places) := by
  have htwo := scaleTwo_den_pos mantissa Nat.one_pos exponent
  have hten := scaleTen_den_pos (scaleTwo mantissa 1 exponent).1 htwo places
  have hvalue := scaleTen_div (scaleTwo mantissa 1 exponent).1 (scaleTwo mantissa 1 exponent).2 places
  rw [scaleTwo_div, Nat.cast_one, div_one, zpow_natCast] at hvalue
  rw [← hvalue]
  exact isNearestNat_roundDiv _ hten

/-- A decimal next to a finite value is read as a finite value. -/
theorem nearestCode_lt_of_isNearestNat {k : ℕ} (hlegal : IsLegal mantissa exponent)
    (hk : IsNearestNat (mantissa * 2 ^ exponent * 10 ^ places) k) :
    nearestCode k (10 ^ places) < infinityCode := by
  have hden : 0 < 10 ^ places := Nat.pow_pos (by decide)
  have hden' : ((10 ^ places : ℕ) : ℚ) ≠ 0 := by exact_mod_cast hden.ne'
  rcases le_or_gt 0 exponent with hsign | hsign
  · -- without a fraction the value is the decimal
    obtain ⟨e, rfl⟩ := Int.eq_ofNat_of_zero_le hsign
    have hwhole : (mantissa : ℚ) * 2 ^ (e : ℤ) * 10 ^ places =
        (mantissa * 2 ^ e * 10 ^ places : ℕ) := by
      push_cast
      rw [zpow_natCast]
    rw [hwhole] at hk
    have haround := isAround_self mantissa (e : ℤ)
    have hquotient : ((k : ℕ) : ℚ) / (10 ^ places : ℕ) = mantissa * 2 ^ (e : ℤ) := by
      rw [hk.eq_of_natCast, div_eq_iff hden', ← hwhole]
      push_cast
      rfl
    rw [← hquotient] at haround
    rw [haround.nearestCode_eq hlegal hden]
    exact hlegal.codeOf_lt
  · -- with a fraction it is far from the greatest one
    apply nearestCode_lt hden
    apply hk.le_of_le
    push_cast
    gcongr
    have hmost : (mantissa : ℚ) ≤ greatestWhole := by exact_mod_cast hlegal.mantissa_lt.le
    calc (mantissa : ℚ) * 2 ^ exponent ≤ mantissa * 1 := by
          gcongr
          exact zpow_le_one_of_nonpos₀ one_le_two hsign.le
      _ ≤ greatestWhole := by rwa [mul_one]

/-- An interval reaches half of the least unit below and above a value at least. -/
theorem half_unit_le_reachBelow (hlegal : IsLegal mantissa exponent) :
    (2 : ℚ) ^ (-1075 : ℤ) ≤ reachBelow mantissa exponent * 2 ^ exponent := by
  have hleast : leastExponent = -1074 := rfl
  have hexponent := hlegal.le_exponent
  unfold reachBelow
  split_ifs with hfirst
  · have hquarter : (1 / 4 : ℚ) * 2 ^ exponent = 2 ^ (exponent - 2) := by
      rw [zpow_sub₀ two_ne_zero]
      norm_num
      ring
    rw [hquarter]
    exact zpow_le_zpow_right₀ one_le_two (by omega)
  · have hhalf : (1 / 2 : ℚ) * 2 ^ exponent = 2 ^ (exponent - 1) := by
      rw [zpow_sub₀ two_ne_zero, zpow_one]
      ring
    rw [hhalf]
    exact zpow_le_zpow_right₀ one_le_two (by omega)

/-- More decimal places than values can be told apart by change nothing. -/
theorem nearestCode_of_many_places {k : ℕ} (hlegal : IsLegal mantissa exponent)
    (hk : IsNearestNat (mantissa * 2 ^ exponent * 10 ^ places) k) (hplaces : 323 < places) :
    nearestCode k (10 ^ places) = codeOf mantissa exponent := by
  have hden : 0 < 10 ^ places := Nat.pow_pos (by decide)
  have hscale : (0 : ℚ) < 10 ^ places := by positivity
  have hunit : (0 : ℚ) < 2 ^ exponent := zpow_pos two_pos _
  have hstep : (1 / 2 : ℚ) / 10 ^ places < 2 ^ (-1075 : ℤ) := by
    have hpower : (2 : ℚ) ^ 1074 < 10 ^ 324 := by
      exact_mod_cast (by decide +kernel : 2 ^ 1074 < 10 ^ 324)
    have hmore : (10 : ℚ) ^ 324 ≤ 10 ^ places := pow_le_pow_right₀ (by norm_num) hplaces
    have hleast : (2 : ℚ) ^ (-1075 : ℤ) = 1 / 2 / 2 ^ 1074 := by
      rw [zpow_neg, div_div, one_div, ← pow_succ']
      rfl
    rw [hleast]
    exact div_lt_div_of_pos_left one_half_pos (by positivity) (hpower.trans_le hmore)
  have hreach := hstep.trans_le (half_unit_le_reachBelow hlegal)
  obtain ⟨-, hhalf⟩ := reachBelow_bounds mantissa exponent
  have hreach' := mul_le_mul_of_nonneg_right hhalf hunit.le
  have hclose : |mantissa * 2 ^ exponent - (k : ℚ) / (10 ^ places : ℕ)| ≤ 1 / 2 / 10 ^ places := by
    have hdistance : mantissa * 2 ^ exponent - (k : ℚ) / (10 ^ places : ℕ) =
        (mantissa * 2 ^ exponent * 10 ^ places - k) / 10 ^ places := by
      push_cast
      rw [sub_div, mul_div_cancel_right₀ _ hscale.ne']
    rw [hdistance, abs_div, abs_of_pos hscale]
    gcongr
    exact hk.le_half
  obtain ⟨hbelow, habove⟩ := abs_le.mp hclose
  have hlow : (mantissa - reachBelow mantissa exponent) * 2 ^ exponent < (k : ℚ) / (10 ^ places : ℕ) := by
    linarith
  have hhigh : (k : ℚ) / (10 ^ places : ℕ) < (mantissa + 1 / 2) * 2 ^ exponent := by
    linarith
  have haround : IsAround mantissa exponent ((k : ℚ) / (10 ^ places : ℕ)) :=
    ⟨hlow.le, hhigh.le, fun _ => ⟨hlow, hhigh⟩⟩
  exact haround.nearestCode_eq hlegal hden

theorem scaleTen_neg (k places : ℕ) : scaleTen k 1 (-places) = (k, 10 ^ places) := by
  unfold scaleTen
  split_ifs with hsign
  · obtain rfl : places = 0 := by omega
    rw [Nat.cast_zero, neg_zero, Int.toNat_zero, Nat.pow_eq, pow_zero, Nat.mul_one]
  · rw [neg_neg, Int.toNat_natCast, Nat.one_mul, Nat.pow_eq]

/-- Rounding stays within the finite values. -/
theorem IsRounded.isFinite {y : Float} (h : IsRounded places x y) : IsFinite y := by
  obtain ⟨negative, mantissa, exponent, k, hx, hk, rfl⟩ := h
  exact isFinite_floatOfCode negative (nearestCode_lt_of_isNearestNat (eq_floatOfCode hx).1 hk)

/-- Every finite value can be rounded to any number of decimal places. -/
theorem roundPlaces?_of_finite (h : ofFloat x = .finite negative mantissa exponent) (places : ℕ) :
    ∃ y, roundPlaces? places x = some y ∧ IsRounded places x y := by
  obtain ⟨hlegal, hvalue⟩ := eq_floatOfCode h
  have hk := isNearestNat_toPlaces mantissa exponent places
  unfold roundPlaces?
  rw [h]
  dsimp only
  split_ifs with hmany hfew hinfinite
  · have hcode := nearestCode_of_many_places hlegal hk (by omega)
    refine ⟨x, rfl, negative, mantissa, exponent, _, h, hk, ?_⟩
    rw [nearest, hcode]
    exact hvalue
  · omega
  · rw [scaleTen_neg] at hinfinite
    exact absurd hinfinite (nearestCode_lt_of_isNearestNat hlegal hk).ne
  · rw [scaleTen_neg]
    exact ⟨_, rfl, negative, mantissa, exponent, _, h, hk, rfl⟩

end Bourse.Binary64
