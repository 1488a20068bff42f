import Bourse.Proofs.Number.Nearest

/-! Rounding keeps the order of quotients. A larger quotient has a larger nearest value, and a larger
value has a larger whole part, so the whole part of the value nearest to a quotient does not pass
over a value that lies on the way. -/
namespace Bourse

/-- The nearest natural to a larger quotient is larger. -/
theorem roundDiv_mono {n d n' d' : Nat} (hd : 0 < d) (hd' : 0 < d') (h : n * d' ≤ n' * d) :
    roundDiv n d ≤ roundDiv n' d' := by
  have hwhole : n / d ≤ n' / d' := by
    rw [Nat.le_div_iff_mul_le hd']
    refine Nat.le_of_mul_le_mul_right ?_ hd
    calc n / d * d' * d = n / d * d * d' := by ring
      _ ≤ n * d' := Nat.mul_le_mul_right _ (Nat.div_mul_le_self n d)
      _ ≤ n' * d := h
  rcases hwhole.lt_or_eq with hless | hequal
  · calc roundDiv n d ≤ n / d + 1 := by
          unfold roundDiv
          dsimp only
          split_ifs <;> omega
      _ ≤ n' / d' := hless
      _ ≤ roundDiv n' d' := by
          unfold roundDiv
          dsimp only
          split_ifs <;> omega
  · -- of two quotients with the same whole part the remainders decide
    have hrest : n % d * d' ≤ n' % d' * d := by
      have hn : n * d' = n / d * (d * d') + n % d * d' := by
        rw [← mul_assoc, ← add_mul, mul_comm (n / d) d, Nat.div_add_mod]
      have hn' : n' * d = n' / d' * (d * d') + n' % d' * d := by
        rw [mul_comm d d', ← mul_assoc, ← add_mul, mul_comm (n' / d') d', Nat.div_add_mod]
      rw [hn, hn', hequal] at h
      exact Nat.le_of_add_le_add_left h
    have hhalf : d ≤ 2 * (n % d) → d' ≤ 2 * (n' % d') := by
      intro hlarge
      refine Nat.le_of_mul_le_mul_left ?_ hd
      calc d * d' ≤ 2 * (n % d) * d' := Nat.mul_le_mul_right d' hlarge
        _ = 2 * (n % d * d') := mul_assoc _ _ _
        _ ≤ 2 * (n' % d' * d) := Nat.mul_le_mul_left 2 hrest
        _ = d * (2 * (n' % d')) := by ring
    have hmore : d < 2 * (n % d) → d' < 2 * (n' % d') := by
      intro hlarge
      refine Nat.lt_of_mul_lt_mul_left (a := d) ?_
      calc d * d' < 2 * (n % d) * d' := Nat.mul_lt_mul_of_pos_right hlarge hd'
        _ = 2 * (n % d * d') := mul_assoc _ _ _
        _ ≤ 2 * (n' % d' * d) := Nat.mul_le_mul_left 2 hrest
        _ = d * (2 * (n' % d')) := by ring
    unfold roundDiv
    dsimp only
    rw [← hequal]
    split_ifs <;> omega

theorem roundDiv_le {n d k : Nat} (hd : 0 < d) (h : n ≤ k * d) : roundDiv n d ≤ k := by
  calc roundDiv n d ≤ roundDiv (k * 1) 1 := roundDiv_mono hd Nat.one_pos (by rwa [mul_one, mul_one])
    _ = k := roundDiv_mul_right k Nat.one_pos

theorem le_roundDiv {n d k : Nat} (hd : 0 < d) (h : k * d ≤ n) : k ≤ roundDiv n d := by
  calc k = roundDiv (k * 1) 1 := (roundDiv_mul_right k Nat.one_pos).symm
    _ ≤ roundDiv n d := roundDiv_mono Nat.one_pos hd (by rwa [mul_one, mul_one])

theorem natCast_div_le_div_iff {a b c d : Nat} (hb : 0 < b) (hd : 0 < d) :
    (a : ℚ) / b ≤ c / d ↔ a * d ≤ c * b := by
  have hb' : (0 : ℚ) < b := by exact_mod_cast hb
  have hd' : (0 : ℚ) < d := by exact_mod_cast hd
  rw [div_le_div_iff₀ hb' hd', ← Nat.cast_mul, ← Nat.cast_mul, Nat.cast_le]

namespace Binary64

variable {num den num' den' : Nat}

/-! The order of the nearest values -/

theorem leadingBit_mono (hnum : 0 < num) (hden : 0 < den) (hnum' : 0 < num') (hden' : 0 < den')
    (h : (num : ℚ) / den ≤ num' / den') : leadingBit num den ≤ leadingBit num' den' := by
  obtain ⟨hlow, -⟩ := leadingBit_bounds hnum hden
  obtain ⟨-, hhigh⟩ := leadingBit_bounds hnum' hden'
  have hless := (zpow_lt_zpow_iff_right₀ one_lt_two).mp ((hlow.trans h).trans_lt hhigh)
  omega

/-- A scaled quotient is compared with a natural as the quotient with a multiple of the unit. -/
theorem scaleTwo_le_iff (num k : Nat) (hden : 0 < den) (unit : Int) :
    (scaleTwo num den (-unit)).1 ≤ k * (scaleTwo num den (-unit)).2 ↔
      (num : ℚ) / den ≤ k * 2 ^ unit := by
  have hscaled : (0 : ℚ) < (scaleTwo num den (-unit)).2 := by
    exact_mod_cast scaleTwo_den_pos num hden (-unit)
  have hpower : (0 : ℚ) < 2 ^ unit := zpow_pos two_pos unit
  rw [← Nat.cast_le (α := ℚ), Nat.cast_mul, ← div_le_iff₀ hscaled, scaleTwo_div, zpow_neg,
    ← div_eq_mul_inv, div_le_iff₀ hpower]

theorem le_scaleTwo_iff (num k : Nat) (hden : 0 < den) (unit : Int) :
    k * (scaleTwo num den (-unit)).2 ≤ (scaleTwo num den (-unit)).1 ↔
      k * 2 ^ unit ≤ (num : ℚ) / den := by
  have hscaled : (0 : ℚ) < (scaleTwo num den (-unit)).2 := by
    exact_mod_cast scaleTwo_den_pos num hden (-unit)
  have hpower : (0 : ℚ) < 2 ^ unit := zpow_pos two_pos unit
  rw [← Nat.cast_le (α := ℚ), Nat.cast_mul, ← le_div_iff₀ hscaled, scaleTwo_div, zpow_neg,
    ← div_eq_mul_inv, le_div_iff₀ hpower]

theorem scaleTwo_mono (hden : 0 < den) (hden' : 0 < den') (unit : Int)
    (h : (num : ℚ) / den ≤ num' / den') :
    (scaleTwo num den (-unit)).1 * (scaleTwo num' den' (-unit)).2 ≤
      (scaleTwo num' den' (-unit)).1 * (scaleTwo num den (-unit)).2 := by
  rw [← natCast_div_le_div_iff (scaleTwo_den_pos num hden _) (scaleTwo_den_pos num' hden' _),
    scaleTwo_div, scaleTwo_div]
  gcongr

/-- The unit in the last place of the value nearest to a quotient, as an exponent. -/
def unitOf (num den : Nat) : Int := max (leadingBit num den - 52) leastExponent

/-- The mantissa of the value nearest to a quotient. -/
def mantissaOf (num den : Nat) : Nat :=
  roundDiv (scaleTwo num den (-unitOf num den)).1 (scaleTwo num den (-unitOf num den)).2

theorem nearestCode_eq (hnum : 0 < num) (den : Nat) :
    nearestCode num den =
      min infinityCode ((unitOf num den - leastExponent).toNat * binade + mantissaOf num den) := by
  unfold nearestCode
  rw [if_neg hnum.ne']
  rfl

theorem mantissaOf_le (hnum : 0 < num) (hden : 0 < den) : mantissaOf num den ≤ 2 * binade := by
  apply roundDiv_le (scaleTwo_den_pos num hden _)
  rw [scaleTwo_le_iff num _ hden]
  obtain ⟨-, hhigh⟩ := leadingBit_bounds hnum hden
  calc (num : ℚ) / den ≤ 2 ^ (leadingBit num den + 1) := hhigh.le
    _ ≤ 2 ^ (53 + unitOf num den) := by
        apply zpow_le_zpow_right₀ one_le_two
        have hunit : leadingBit num den - 52 ≤ unitOf num den := le_max_left _ _
        omega
    _ = (2 * binade : Nat) * 2 ^ unitOf num den := by
        rw [zpow_add₀ two_ne_zero]
        norm_num [binade]

theorem le_mantissaOf (hnum : 0 < num) (hden : 0 < den) (hunit : leastExponent < unitOf num den) :
    binade ≤ mantissaOf num den := by
  apply le_roundDiv (scaleTwo_den_pos num hden _)
  rw [le_scaleTwo_iff num _ hden]
  obtain ⟨hlow, -⟩ := leadingBit_bounds hnum hden
  calc (binade : ℚ) * 2 ^ unitOf num den = 2 ^ (52 + unitOf num den) := by
        rw [zpow_add₀ two_ne_zero]
        norm_num [binade]
    _ ≤ 2 ^ leadingBit num den := by
        apply zpow_le_zpow_right₀ one_le_two
        have hlead : unitOf num den = leadingBit num den - 52 := by
          rw [unitOf] at hunit ⊢
          exact max_eq_left (by omega)
        omega
    _ ≤ num / den := hlow

/-- The number of the value nearest to a larger quotient is larger. -/
theorem nearestCode_mono (hden : 0 < den) (hden' : 0 < den')
    (h : (num : ℚ) / den ≤ num' / den') : nearestCode num den ≤ nearestCode num' den' := by
  rcases Nat.eq_zero_or_pos num with rfl | hnum
  · rw [nearestCode, if_pos rfl]
    exact Nat.zero_le _
  have hpositive : (0 : ℚ) < den := by exact_mod_cast hden
  have hpositive' : (0 : ℚ) < den' := by exact_mod_cast hden'
  have hnum' : 0 < num' := by
    have hquotient : (0 : ℚ) < num / den := div_pos (by exact_mod_cast hnum) hpositive
    exact_mod_cast (div_pos_iff_of_pos_right hpositive').mp (hquotient.trans_le h)
  have hunits : unitOf num den ≤ unitOf num' den' :=
    max_le_max_right _ (Int.sub_le_sub_right (leadingBit_mono hnum hden hnum' hden' h) 52)
  have hleast : leastExponent ≤ unitOf num den := le_max_right _ _
  rw [nearestCode_eq hnum, nearestCode_eq hnum']
  apply min_le_min_left
  rcases hunits.lt_or_eq with hless | hequal
  · -- a mantissa does not exceed its binade, and that of a larger unit has its leading bit
    have hmantissa := mantissaOf_le hnum hden
    have hmantissa' := le_mantissaOf hnum' hden' (hleast.trans_lt hless)
    have hsteps : (unitOf num den - leastExponent).toNat + 1 ≤
        (unitOf num' den' - leastExponent).toNat := by
      omega
    have hcodes := Nat.mul_le_mul_right binade hsteps
    rw [add_mul, one_mul] at hcodes
    omega
  · apply Nat.add_le_add
    · rw [hequal]
    · rw [mantissaOf, mantissaOf, ← hequal]
      exact roundDiv_mono (scaleTwo_den_pos num hden _) (scaleTwo_den_pos num' hden' _)
        (scaleTwo_mono hden hden' _ h)

/-! The order of values -/

/-- The value of a number, counted in units of the least positive value. -/
def units (code : Nat) : Nat := (code - (code / binade - 1) * binade) * 2 ^ (code / binade - 1)

theorem units_of_lt {code : Nat} (h : code < binade) : units code = code := by
  rw [units, Nat.div_eq_of_lt h, Nat.zero_sub, Nat.zero_mul, Nat.sub_zero, Nat.pow_zero, Nat.mul_one]

theorem units_of_binade (span : Nat) {fraction : Nat} (h : fraction < binade) :
    units ((span + 1) * binade + fraction) = (binade + fraction) * 2 ^ span := by
  have hquotient : ((span + 1) * binade + fraction) / binade = span + 1 := by
    rw [Nat.add_comm, Nat.add_mul_div_right _ _ (by decide), Nat.div_eq_of_lt h, Nat.zero_add]
  have hmantissa : (span + 1) * binade + fraction - span * binade = binade + fraction := by
    rw [add_mul, one_mul]
    omega
  rw [units, hquotient, Nat.add_sub_cancel, hmantissa]

/-- The numbers of a binade go on with the first one of the next. -/
theorem units_of_binade_le (span : Nat) {fraction : Nat} (h : fraction ≤ binade) :
    units ((span + 1) * binade + fraction) = (binade + fraction) * 2 ^ span := by
  rcases h.lt_or_eq with hless | rfl
  · exact units_of_binade span hless
  · have hnext : (span + 1) * binade + binade = (span + 1 + 1) * binade + 0 := by ring
    rw [hnext, units_of_binade (span + 1) (by decide)]
    ring

theorem units_mono : Monotone units := by
  apply monotone_nat_of_le_succ
  intro code
  rcases Nat.lt_or_ge code binade with hsmall | hlarge
  · rw [units_of_lt hsmall]
    rcases Nat.lt_or_ge (code + 1) binade with hnext | hnext
    · rw [units_of_lt hnext]
      exact Nat.le_succ code
    · have hcode : code + 1 = (0 + 1) * binade + 0 := by omega
      rw [hcode, units_of_binade 0 (by decide)]
      omega
  · -- the next number lies in the same binade or begins the one after it
    have hspan : 1 ≤ code / binade := (Nat.one_le_div_iff (by decide)).mpr hlarge
    have hfraction : code % binade < binade := Nat.mod_lt code (by decide)
    have hcode : code = (code / binade - 1 + 1) * binade + code % binade := by
      rw [Nat.sub_add_cancel hspan]
      exact (Nat.div_add_mod' code binade).symm
    rw [hcode, add_assoc, units_of_binade _ hfraction, units_of_binade_le _ hfraction]
    exact Nat.mul_le_mul_right _ (Nat.le_succ _)

theorem ofCode_eq (negative : Bool) {code : Nat} (h : code < infinityCode) :
    ∃ mantissa, ∃ span : Nat,
      ofCode negative code = .finite negative mantissa (leastExponent + span) ∧
        units code = mantissa * 2 ^ span := by
  rw [ofCode, if_neg h.not_gt, if_neg h.ne]
  split_ifs with hsmall
  · refine ⟨code, 0, rfl, ?_⟩
    rw [units_of_lt hsmall, Nat.pow_zero, Nat.mul_one]
  · have hspan : 1 ≤ code / binade :=
      (Nat.one_le_div_iff (by decide)).mpr (Nat.le_of_not_lt hsmall)
    refine ⟨binade + code % binade, code / binade - 1, rfl, ?_⟩
    rw [← units_of_binade _ (Nat.mod_lt code (by decide)), Nat.sub_add_cancel hspan,
      Nat.div_add_mod']

/-- The least positive value goes into one this often. -/
def unitsOfOne : Nat := 2 ^ 1074

theorem unitsOfOne_pos : 0 < unitsOfOne := pow_pos Nat.two_pos 1074

theorem div_scaleTwo_units (mantissa span : Nat) :
    (scaleTwo mantissa 1 (leastExponent + span)).1 / (scaleTwo mantissa 1 (leastExponent + span)).2 =
      mantissa * 2 ^ span / unitsOfOne := by
  have hleast : leastExponent = -1074 := rfl
  unfold scaleTwo unitsOfOne
  split_ifs with hsign
  · obtain ⟨more, rfl⟩ : ∃ more, span = 1074 + more := Nat.exists_eq_add_of_le (by omega)
    have hexponent : (leastExponent + ((1074 + more : Nat) : Int)).toNat = more := by omega
    rw [hexponent, Nat.div_one, Nat.pow_eq, pow_add, ← mul_assoc, mul_right_comm,
      Nat.mul_div_cancel _ (Nat.two_pow_pos 1074)]
  · obtain ⟨less, hless⟩ : ∃ less, 1074 = span + less := Nat.exists_eq_add_of_le (by omega)
    have hexponent : (-(leastExponent + (span : Int))).toNat = less := by omega
    rw [hexponent, Nat.one_mul, Nat.pow_eq, hless, pow_add, mul_comm (2 ^ span) (2 ^ less),
      Nat.mul_div_mul_right _ _ (Nat.two_pow_pos span)]

/-- The whole part of a value is that of its units. -/
theorem wholePart_ofCode (negative : Bool) {code : Nat} (h : code < infinityCode) :
    Moment.wholePart (ofCode negative code) =
      if negative then -((units code / unitsOfOne : Nat) : Int)
      else (units code / unitsOfOne : Nat) := by
  obtain ⟨mantissa, span, hvalue, hunits⟩ := ofCode_eq negative h
  rw [hvalue, hunits]
  simp only [Moment.wholePart, div_scaleTwo_units]

/-! Whole parts of quotients -/

/-- The whole part of the value nearest to a quotient. -/
def nearestWhole (num den : Nat) : Nat := units (nearestCode num den) / unitsOfOne

theorem nearestWhole_mono (hden : 0 < den) (hden' : 0 < den')
    (h : (num : ℚ) / den ≤ num' / den') : nearestWhole num den ≤ nearestWhole num' den' :=
  Nat.div_le_div_right (units_mono (nearestCode_mono hden hden' h))

/-- A natural up to 2^53 over a power of two is a value. -/
theorem exists_mantissa_div {k : Nat} (hk : 0 < k) (hk' : k ≤ greatestWhole) {shift : Nat}
    (hshift : shift ≤ 1000) :
    ∃ mantissa, ∃ span : Nat, binade ≤ mantissa ∧ mantissa < 2 * binade ∧ span ≤ 2045 ∧
      mantissa * 2 ^ span * 2 ^ shift = k * unitsOfOne ∧
      nearestCode k (2 ^ shift) = span * binade + mantissa := by
  have hleast : leastExponent = -1074 := rfl
  have hgreatest : greatestExponent = 971 := rfl
  obtain ⟨mantissa, exponent, hlow, hhigh, -, hexponent, hvalue⟩ := exists_mantissa hk hk'
  -- a number from one on has no bit below the 52nd place after the point
  have hleading : 0 < 53 + exponent := by
    have hone : (1 : ℚ) < 2 ^ (53 + exponent) := by
      calc (1 : ℚ) ≤ k := by exact_mod_cast hk
        _ = mantissa * 2 ^ exponent := hvalue
        _ < (2 * binade : Nat) * 2 ^ exponent := by gcongr
        _ = 2 ^ (53 + exponent) := by
            rw [zpow_add₀ two_ne_zero]
            norm_num [binade]
    exact (one_lt_zpow_iff_right₀ one_lt_two).mp hone
  have hquotient : (k : ℚ) / (2 ^ shift : Nat) = mantissa * 2 ^ (exponent - shift) := by
    rw [hvalue, zpow_sub₀ two_ne_zero, zpow_natCast, Nat.cast_pow, Nat.cast_ofNat, mul_div_assoc]
  refine ⟨mantissa, (exponent - shift - leastExponent).toNat, hlow, hhigh, by omega, ?_, ?_⟩
  · have hspan : ((exponent - shift - leastExponent).toNat : Int) = exponent - shift + 1074 := by
      omega
    have hone : (unitsOfOne : ℚ) = 2 ^ (1074 : Int) := by
      rw [unitsOfOne, Nat.cast_pow, Nat.cast_ofNat]
      exact (zpow_natCast 2 1074).symm
    have hunits : (mantissa : ℚ) * 2 ^ (exponent - shift - leastExponent).toNat * 2 ^ shift =
        k * unitsOfOne := by
      calc (mantissa : ℚ) * 2 ^ (exponent - shift - leastExponent).toNat * 2 ^ shift
          = mantissa * 2 ^ (exponent - shift + 1074) * 2 ^ (shift : Int) := by
            rw [← zpow_natCast (2 : ℚ) (exponent - shift - leastExponent).toNat, hspan, zpow_natCast]
        _ = mantissa * 2 ^ (exponent - shift + 1074 + shift) := by
            rw [mul_assoc, ← zpow_add₀ two_ne_zero]
        _ = mantissa * 2 ^ (exponent + 1074) := by
            congr 2
            omega
        _ = k * unitsOfOne := by rw [zpow_add₀ two_ne_zero, ← mul_assoc, ← hvalue, hone]
    exact_mod_cast hunits
  · exact nearestCode_of_exact (Nat.two_pow_pos shift) hlow hhigh (by omega) (by omega) hquotient

/-- A quotient that is a value has its own whole part. -/
theorem nearestWhole_of_exact {k shift : Nat} (hk : k ≤ greatestWhole) (hshift : shift ≤ 1000) :
    nearestWhole k (2 ^ shift) = k / 2 ^ shift := by
  rcases Nat.eq_zero_or_pos k with rfl | hpositive
  · rw [nearestWhole, nearestCode, if_pos rfl, units_of_lt (by decide), Nat.zero_div, Nat.zero_div]
  · obtain ⟨mantissa, span, hlow, hhigh, -, hunits, hcode⟩ :=
      exists_mantissa_div hpositive hk hshift
    obtain ⟨fraction, rfl⟩ := Nat.exists_eq_add_of_le hlow
    have hnumber : span * binade + (binade + fraction) = (span + 1) * binade + fraction := by ring
    rw [nearestWhole, hcode, hnumber, units_of_binade span (by omega),
      ← Nat.mul_div_mul_right _ _ (Nat.two_pow_pos shift), hunits, mul_comm unitsOfOne,
      Nat.mul_div_mul_right _ _ unitsOfOne_pos]

/-- Up to 2^53 no quotient is rounded to infinity. -/
theorem nearestCode_lt (hden : 0 < den) (h : num ≤ greatestWhole * den) :
    nearestCode num den < infinityCode := by
  obtain ⟨mantissa, span, -, hhigh, hspan, -, hcode⟩ :=
    exists_mantissa_div (k := greatestWhole) (Nat.two_pow_pos 53) le_rfl (Nat.zero_le 1000)
  have hquotient : (num : ℚ) / den ≤ (greatestWhole : Nat) / (2 ^ 0 : Nat) := by
    rwa [natCast_div_le_div_iff hden (Nat.two_pow_pos 0), pow_zero, Nat.mul_one]
  have hinfinity : infinityCode = 2047 * binade := rfl
  have hcodes := Nat.mul_le_mul_right binade hspan
  have hmono := nearestCode_mono hden (Nat.two_pow_pos 0) hquotient
  rw [hcode] at hmono
  omega

theorem wholePart_nearest (negative : Bool) (hden : 0 < den) (h : num ≤ greatestWhole * den) :
    Moment.wholePart (ofFloat (nearest negative num den)) =
      if negative then -(nearestWhole num den : Int) else nearestWhole num den := by
  have hcode := nearestCode_lt hden h
  rw [nearest, ofFloat_floatOfCode negative hcode.le, wholePart_ofCode negative hcode, nearestWhole]

/-- Where 20 bits are left for the fraction, the millionths of a number do not reach the next whole
number. -/
theorem nearestWhole_million (h : num < 2 ^ 33 * 1000000) :
    nearestWhole num 1000000 = num / 1000000 := by
  have hgreatest : greatestWhole = 2 ^ 33 * 2 ^ 20 := rfl
  have hwhole : num / 1000000 < 2 ^ 33 := Nat.div_lt_of_lt_mul (by rwa [mul_comm])
  have hdiv := Nat.div_add_mod num 1000000
  have hmod := Nat.mod_lt num (show 0 < 1000000 by decide)
  apply Nat.le_antisymm
  · -- the last value before the next whole number lies beyond the quotient
    have hquotient : (num : ℚ) / (1000000 : Nat) ≤
        ((num / 1000000 + 1) * 2 ^ 20 - 1 : Nat) / (2 ^ 20 : Nat) := by
      rw [natCast_div_le_div_iff (by decide) (by decide)]
      omega
    calc nearestWhole num 1000000
        ≤ nearestWhole ((num / 1000000 + 1) * 2 ^ 20 - 1) (2 ^ 20) :=
          nearestWhole_mono (by decide) (by decide) hquotient
      _ = ((num / 1000000 + 1) * 2 ^ 20 - 1) / 2 ^ 20 :=
          nearestWhole_of_exact (by omega) (by decide)
      _ ≤ num / 1000000 := by omega
  · have hquotient : ((num / 1000000 : Nat) : ℚ) / (2 ^ 0 : Nat) ≤ num / (1000000 : Nat) := by
      rw [natCast_div_le_div_iff (by decide) (by decide)]
      omega
    calc num / 1000000 = nearestWhole (num / 1000000) (2 ^ 0) := by
          rw [nearestWhole_of_exact (by omega) (Nat.zero_le _), pow_zero, Nat.div_one]
      _ ≤ nearestWhole num 1000000 := nearestWhole_mono (by decide) (by decide) hquotient

end Binary64

end Bourse
