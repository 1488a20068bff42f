import Bourse.Number.Shortest
import Bourse.Proofs.Number.Interval

/-! Shortest decimals are read as the value that they stand for. A decimal is taken only if it lies
in the interval around the value. On the grid of 17 significant digits the point next to the value
always does, since half a step of this grid is less than the interval reaches to either side. -/
namespace Bourse.Shortest

open Binary64

variable {mantissa coefficient num den : ℕ} {exponent place : ℤ}

/-! The leading digit -/

theorem powerLe_iff (k : ℤ) (num : ℕ) (hden : 0 < den) :
    powerLe k num den = true ↔ (10 : ℚ) ^ k ≤ num / den := by
  have hscaled := scaleTen_div 1 1 k
  have hpositive : (0 : ℚ) < (scaleTen 1 1 k).2 := by
    exact_mod_cast scaleTen_den_pos 1 Nat.one_pos k
  have hden' : (0 : ℚ) < den := by exact_mod_cast hden
  rw [Nat.cast_one, div_one, one_mul] at hscaled
  rw [← hscaled, div_le_div_iff₀ hpositive hden']
  unfold powerLe
  dsimp only
  rw [decide_eq_true_eq, ← Nat.cast_mul, ← Nat.cast_mul, Nat.cast_le]

/-- The exponent from which the search for the leading digit starts. -/
def lowDigit (bits : ℤ) : ℤ := (bits * 30103).fdiv 100000 - 1

/-- The start of the search lies below a number with so many bits, as far as values reach. -/
theorem power_lowDigit_le {bits : ℤ} (hlow : -1100 ≤ bits) (hhigh : bits ≤ 1100) :
    (10 : ℚ) ^ lowDigit bits ≤ 2 ^ bits := by
  have hgrows : ∀ b < 1101, 10 ^ (b * 30103 / 100000) ≤ 10 * 2 ^ b := by decide +kernel
  have hshrinks : ∀ b < 1101, 2 ^ b ≤ 10 ^ ((b * 30103 + 99999) / 100000 + 1) := by
    decide +kernel
  rcases le_total 0 bits with hsign | hsign
  · obtain ⟨b, rfl⟩ := Int.eq_ofNat_of_zero_le hsign
    have hdigit : lowDigit b = (b * 30103 / 100000 : ℕ) - 1 := by
      rw [lowDigit, Int.fdiv_eq_ediv_of_nonneg _ (by decide)]
      omega
    have hpower : ((10 ^ (b * 30103 / 100000) : ℕ) : ℚ) ≤ (10 * 2 ^ b : ℕ) := by
      exact_mod_cast hgrows b (by omega)
    push_cast at hpower
    rw [hdigit, zpow_sub₀ (by norm_num), zpow_natCast, zpow_one, zpow_natCast,
      div_le_iff₀ (by norm_num)]
    linarith
  · obtain ⟨b, hb⟩ := Int.eq_ofNat_of_zero_le (Int.neg_nonneg.mpr hsign)
    obtain rfl : bits = -b := by omega
    have hdigit : lowDigit (-b) = -(((b * 30103 + 99999) / 100000 + 1 : ℕ) : ℤ) := by
      rw [lowDigit, Int.fdiv_eq_ediv_of_nonneg _ (by decide)]
      omega
    have hpower : ((2 ^ b : ℕ) : ℚ) ≤ (10 ^ ((b * 30103 + 99999) / 100000 + 1) : ℕ) := by
      exact_mod_cast hshrinks b (by omega)
    push_cast at hpower
    rw [hdigit, zpow_neg, zpow_neg, zpow_natCast, zpow_natCast]
    exact inv_anti₀ (by positivity) hpower

theorem power_leadingDigit_le {num den : ℕ} (hnum : 0 < num) (hden : 0 < den)
    (hnum' : num.log2 < 1050) (hden' : den.log2 < 1080) :
    (10 : ℚ) ^ leadingDigit num den ≤ num / den := by
  unfold leadingDigit
  dsimp only
  rw [← lowDigit]
  split_ifs with hsecond hfirst
  · exact (powerLe_iff _ num hden).mp hsecond
  · exact (powerLe_iff _ num hden).mp hfirst
  · obtain ⟨hnumLow, -⟩ := log2_bounds hnum
    obtain ⟨-, hdenHigh⟩ := log2_bounds hden
    have hden'' : (0 : ℚ) < den := by exact_mod_cast hden
    calc (10 : ℚ) ^ lowDigit ((num.log2 : ℤ) - den.log2 - 1)
        ≤ 2 ^ ((num.log2 : ℤ) - den.log2 - 1) := power_lowDigit_le (by omega) (by omega)
      _ = 2 ^ (num.log2 : ℤ) / 2 ^ ((den.log2 : ℤ) + 1) := by
          rw [← zpow_sub₀ two_ne_zero]
          congr 1
          ring
      _ ≤ num / den := by
          gcongr

/-! Points of a grid -/

/-- Quarters of a unit in the last place and points of a grid, compared as they are in the search. -/
theorem quarters_le_iff (quarters point : ℕ) (exponent place : ℤ) :
    quarters * (scaleTwo 1 1 exponent).1 * (scaleTen 1 1 place).2 ≤
        point * ((scaleTen 1 1 place).1 * (scaleTwo 1 1 exponent).2) ↔
      (quarters : ℚ) * 2 ^ exponent ≤ point * 10 ^ place := by
  have htwo := scaleTwo_div 1 1 exponent
  have hten := scaleTen_div 1 1 place
  have htwoPos : (0 : ℚ) < (scaleTwo 1 1 exponent).2 := by
    exact_mod_cast scaleTwo_den_pos 1 Nat.one_pos exponent
  have htenPos : (0 : ℚ) < (scaleTen 1 1 place).2 := by
    exact_mod_cast scaleTen_den_pos 1 Nat.one_pos place
  rw [Nat.cast_one, div_one, one_mul] at htwo hten
  rw [← htwo, ← hten, ← mul_div_assoc, ← mul_div_assoc, div_le_div_iff₀ htwoPos htenPos,
    ← Nat.cast_le (α := ℚ)]
  push_cast
  rw [mul_assoc (point : ℚ)]

theorem le_quarters_iff (quarters point : ℕ) (exponent place : ℤ) :
    point * ((scaleTen 1 1 place).1 * (scaleTwo 1 1 exponent).2) ≤
        quarters * (scaleTwo 1 1 exponent).1 * (scaleTen 1 1 place).2 ↔
      point * 10 ^ place ≤ (quarters : ℚ) * 2 ^ exponent := by
  have htwo := scaleTwo_div 1 1 exponent
  have hten := scaleTen_div 1 1 place
  have htwoPos : (0 : ℚ) < (scaleTwo 1 1 exponent).2 := by
    exact_mod_cast scaleTwo_den_pos 1 Nat.one_pos exponent
  have htenPos : (0 : ℚ) < (scaleTen 1 1 place).2 := by
    exact_mod_cast scaleTen_den_pos 1 Nat.one_pos place
  rw [Nat.cast_one, div_one, one_mul] at htwo hten
  rw [← htwo, ← hten, ← mul_div_assoc, ← mul_div_assoc, div_le_div_iff₀ htenPos htwoPos,
    ← Nat.cast_le (α := ℚ)]
  push_cast
  rw [mul_assoc (point : ℚ)]

theorem interval_low (hmantissa : 0 < mantissa) (exponent : ℤ) :
    ((interval mantissa exponent).low : ℚ) * 2 ^ (interval mantissa exponent).exponent =
      (mantissa - reachBelow mantissa exponent) * 2 ^ exponent := by
  have hquarter : (2 : ℚ) ^ (exponent - 2) = 2 ^ exponent / 4 := by
    rw [zpow_sub₀ two_ne_zero]
    norm_num
  unfold interval reachBelow
  dsimp only
  split_ifs
  · rw [hquarter, Nat.cast_sub (by omega)]
    push_cast
    ring
  · rw [hquarter, Nat.cast_sub (by omega)]
    push_cast
    ring

theorem interval_high (mantissa : ℕ) (exponent : ℤ) :
    ((interval mantissa exponent).high : ℚ) * 2 ^ (interval mantissa exponent).exponent =
      (mantissa + 1 / 2) * 2 ^ exponent := by
  unfold interval
  dsimp only
  rw [zpow_sub₀ two_ne_zero]
  push_cast
  ring

/-! The search in a grid, with names for what it compares -/

/-- A step of the grid of multiples of a power of ten, in the units of the comparison. -/
def step (around : Interval) (place : ℤ) : ℕ :=
  (scaleTen 1 1 place).1 * (scaleTwo 1 1 around.exponent).2

/-- So many quarters of the last place, in the units of the comparison. -/
def scaled (around : Interval) (place : ℤ) (quarters : ℕ) : ℕ :=
  quarters * (scaleTwo 1 1 around.exponent).1 * (scaleTen 1 1 place).2

/-- Whether a point of the grid is taken. -/
def takes (around : Interval) (place : ℤ) (point : ℕ) : Bool :=
  if around.closed then
    scaled around place around.low ≤ point * step around place &&
      point * step around place ≤ scaled around place around.high
  else
    scaled around place around.low < point * step around place &&
      point * step around place < scaled around place around.high

/-- The point of the grid next to the value. -/
def nearestPoint (around : Interval) (place : ℤ) : ℕ :=
  roundDiv (scaled around place around.value) (step around place)

/-- The neighbour of the value on the other side. -/
def otherPoint (around : Interval) (place : ℤ) : ℕ :=
  let below := scaled around place around.value / step around place
  if nearestPoint around place = below then below + 1 else below

theorem onGrid?_eq (around : Interval) (place : ℤ) :
    onGrid? around place =
      if takes around place (nearestPoint around place) then some (nearestPoint around place)
      else if takes around place (otherPoint around place) then some (otherPoint around place)
      else none :=
  rfl

/-- The points of a grid that the search takes are those around the value. -/
theorem takes_iff (hmantissa : 0 < mantissa) (exponent place : ℤ) (point : ℕ) :
    takes (interval mantissa exponent) place point = true ↔
      IsAround mantissa exponent (point * 10 ^ place) := by
  have hlow := interval_low hmantissa exponent
  have hhigh := interval_high mantissa exponent
  have hclosed : (interval mantissa exponent).closed = true ↔ Even mantissa := by
    rw [Nat.even_iff]
    exact beq_iff_eq
  unfold takes scaled step
  split_ifs with heven
  · rw [Bool.and_eq_true, decide_eq_true_eq, decide_eq_true_eq, quarters_le_iff, le_quarters_iff,
      hlow, hhigh]
    constructor
    · rintro ⟨hbelow, habove⟩
      exact ⟨hbelow, habove, fun hodd => absurd (hclosed.mp heven) hodd⟩
    · exact fun h => ⟨h.low, h.high⟩
  · rw [Bool.and_eq_true, decide_eq_true_eq, decide_eq_true_eq, ← not_le, ← not_le,
      quarters_le_iff, le_quarters_iff, hlow, hhigh, not_le, not_le]
    constructor
    · rintro ⟨hbelow, habove⟩
      exact ⟨hbelow.le, habove.le, fun _ => ⟨hbelow, habove⟩⟩
    · exact fun h => h.inside fun hmantissa => heven (hclosed.mpr hmantissa)

/-- The decimals that are taken lie around the value. -/
theorem isAround_of_onGrid? (hmantissa : 0 < mantissa)
    (h : onGrid? (interval mantissa exponent) place = some coefficient) :
    IsAround mantissa exponent (coefficient * 10 ^ place) := by
  rw [onGrid?_eq] at h
  split_ifs at h with hnearest hother
  · obtain rfl := Option.some.inj h
    exact (takes_iff hmantissa exponent place _).mp hnearest
  · obtain rfl := Option.some.inj h
    exact (takes_iff hmantissa exponent place _).mp hother

/-- The point next to the value is at most half a step away from it. -/
theorem abs_nearestPoint_le (mantissa : ℕ) (exponent place : ℤ) :
    |mantissa * 2 ^ exponent - nearestPoint (interval mantissa exponent) place * (10 : ℚ) ^ place| ≤
      10 ^ place / 2 := by
  have htwoPos : 0 < (scaleTwo 1 1 (exponent - 2)).2 := scaleTwo_den_pos 1 Nat.one_pos _
  have htenPos : 0 < (scaleTen 1 1 place).2 := scaleTen_den_pos 1 Nat.one_pos place
  have htwo := scaleTwo_div 1 1 (exponent - 2)
  have hten := scaleTen_div 1 1 place
  have hgrid : (0 : ℚ) < 10 ^ place := by positivity
  have hup : 0 < (scaleTen 1 1 place).1 := by
    rw [Nat.cast_one, div_one, one_mul] at hten
    rw [← hten] at hgrid
    exact_mod_cast (div_pos_iff_of_pos_right (by exact_mod_cast htenPos)).mp hgrid
  have hquotient : (scaled (interval mantissa exponent) place (4 * mantissa) : ℚ) /
      step (interval mantissa exponent) place = mantissa * 2 ^ exponent / 10 ^ place := by
    have hexponent : (interval mantissa exponent).exponent = exponent - 2 := rfl
    have hquarter : (2 : ℚ) ^ exponent = 4 * 2 ^ (exponent - 2) := by
      rw [zpow_sub₀ two_ne_zero]
      norm_num
      ring
    rw [Nat.cast_one, div_one, one_mul] at htwo hten
    rw [scaled, step, hexponent, hquarter, ← htwo, ← hten]
    have htwoNe : ((scaleTwo 1 1 (exponent - 2)).2 : ℚ) ≠ 0 := by exact_mod_cast htwoPos.ne'
    have htenNe : ((scaleTen 1 1 place).2 : ℚ) ≠ 0 := by exact_mod_cast htenPos.ne'
    have hupNe : ((scaleTen 1 1 place).1 : ℚ) ≠ 0 := by exact_mod_cast hup.ne'
    push_cast
    field_simp
  have hstep : 0 < step (interval mantissa exponent) place := Nat.mul_pos hup htwoPos
  have hnearest := (isNearestNat_roundDiv
    (scaled (interval mantissa exponent) place (4 * mantissa)) hstep).le_half
  rw [hquotient] at hnearest
  calc |mantissa * 2 ^ exponent - nearestPoint (interval mantissa exponent) place * (10 : ℚ) ^ place|
      = |mantissa * 2 ^ exponent / (10 : ℚ) ^ place -
          nearestPoint (interval mantissa exponent) place| * 10 ^ place := by
        rw [← abs_of_pos hgrid, ← abs_mul, abs_of_pos hgrid, sub_mul, div_mul_cancel₀ _ hgrid.ne']
    _ ≤ 1 / 2 * 10 ^ place := mul_le_mul_of_nonneg_right hnearest hgrid.le
    _ = 10 ^ place / 2 := by ring

/-- The grid of 17 digits holds a point that reads back. -/
theorem exists_onGrid? {leading : ℤ} (hlegal : IsLegal mantissa exponent) (hmantissa : 0 < mantissa)
    (hleading : (10 : ℚ) ^ leading ≤ mantissa * 2 ^ exponent) :
    ∃ coefficient, onGrid? (interval mantissa exponent) (leading + 1 - 17) = some coefficient := by
  have hunit : (0 : ℚ) < 2 ^ exponent := zpow_pos two_pos _
  have hclose := abs_nearestPoint_le mantissa exponent (leading + 1 - 17)
  have hhalf : (10 : ℚ) ^ (leading + 1 - 17) / 2 ≤ mantissa / (2 * 10 ^ 16) * 2 ^ exponent := by
    have hplace : leading + 1 - 17 = leading - 16 := by ring
    rw [hplace, zpow_sub₀ (by norm_num)]
    norm_num
    linarith
  have hreach : (mantissa : ℚ) / (2 * 10 ^ 16) < reachBelow mantissa exponent := by
    have hmost : (mantissa : ℚ) < 2 * binade := by exact_mod_cast hlegal.mantissa_lt
    have hbinade : (binade : ℚ) = 4503599627370496 := by norm_num [binade]
    unfold reachBelow
    split_ifs with hfirst
    · rw [hfirst.1, hbinade]
      norm_num
    · rw [hbinade] at hmost
      linarith
  obtain ⟨-, hreach'⟩ := reachBelow_bounds mantissa exponent
  have hless := mul_lt_mul_of_pos_right hreach hunit
  have hless' := mul_le_mul_of_nonneg_right hreach' hunit.le
  obtain ⟨hbelow, habove⟩ := abs_le.mp (hclose.trans hhalf)
  have hlow : (mantissa - reachBelow mantissa exponent) * 2 ^ exponent <
      nearestPoint (interval mantissa exponent) (leading + 1 - 17) * (10 : ℚ) ^ (leading + 1 - 17) := by
    linarith
  have hhigh : nearestPoint (interval mantissa exponent) (leading + 1 - 17) *
      (10 : ℚ) ^ (leading + 1 - 17) < (mantissa + 1 / 2) * 2 ^ exponent := by
    linarith
  have haround := (takes_iff hmantissa exponent (leading + 1 - 17) _).mpr
    ⟨hlow.le, hhigh.le, fun _ => ⟨hlow, hhigh⟩⟩
  rw [onGrid?_eq, if_pos haround]
  exact ⟨_, rfl⟩

/-- What the search returns lies around the value, if its last grid holds such a point. -/
theorem isAround_search {leading : ℤ} (hmantissa : 0 < mantissa) :
    ∀ more digits,
      (∃ c, onGrid? (interval mantissa exponent) (leading + 1 - (digits + more : ℕ)) = some c) →
      IsAround mantissa exponent
        ((search (interval mantissa exponent) leading more digits).1 *
          10 ^ (search (interval mantissa exponent) leading more digits).2)
  | 0, digits, ⟨c, hc⟩ => by
    rw [Nat.add_zero] at hc
    rw [search, hc]
    exact isAround_of_onGrid? hmantissa hc
  | more + 1, digits, hlast => by
    rw [search]
    split
    case h_1 c hc => exact isAround_of_onGrid? hmantissa hc
    case h_2 =>
      rw [← Nat.succ_add_eq_add_succ] at hlast
      exact isAround_search hmantissa more (digits + 1) hlast

/-- Trailing zeros of a coefficient count as powers of ten. -/
theorem stripZeros_value (more coefficient : ℕ) (place : ℤ) :
    ((stripZeros more coefficient place).1 : ℚ) * 10 ^ (stripZeros more coefficient place).2 =
      coefficient * 10 ^ place := by
  induction more generalizing coefficient place with
  | zero => rfl
  | succ more ih =>
    rw [stripZeros]
    split_ifs with hzero
    · have hten : coefficient = coefficient / 10 * 10 := by omega
      rw [ih, zpow_add_one₀ (by norm_num)]
      conv_rhs => rw [hten]
      push_cast
      ring
    · rfl

/-- The quotient of a finite value is in the reach of the search for its leading digit. -/
theorem log2_scaleTwo_lt (hlegal : IsLegal mantissa exponent) (hmantissa : 0 < mantissa) :
    0 < (scaleTwo mantissa 1 exponent).1 ∧ (scaleTwo mantissa 1 exponent).1.log2 < 1050 ∧
      (scaleTwo mantissa 1 exponent).2.log2 < 1080 := by
  have hbinade : 2 * binade = 2 ^ 53 := rfl
  have hmost := hlegal.mantissa_lt
  rw [hbinade] at hmost
  have hleast := hlegal.le_exponent
  have hgreatest := hlegal.exponent_le
  have hleast' : leastExponent = -1074 := rfl
  have hgreatest' : greatestExponent = 971 := rfl
  unfold scaleTwo
  split_ifs with hsign
  · have hpower : 0 < Nat.pow 2 exponent.toNat := Nat.pow_pos two_pos
    have hden : Nat.log2 1 < 1080 := by decide
    refine ⟨Nat.mul_pos hmantissa hpower, ?_, hden⟩
    rw [Nat.log2_lt (Nat.mul_pos hmantissa hpower).ne']
    calc mantissa * Nat.pow 2 exponent.toNat < 2 ^ 53 * 2 ^ exponent.toNat :=
          Nat.mul_lt_mul_of_pos_right hmost hpower
      _ = 2 ^ (53 + exponent.toNat) := (Nat.pow_add 2 _ _).symm
      _ ≤ 2 ^ 1050 := Nat.pow_le_pow_right two_pos (by omega)
  · refine ⟨hmantissa, ?_, ?_⟩
    · exact ((Nat.log2_lt hmantissa.ne').mpr hmost).trans (by decide)
    · rw [Nat.one_mul, Nat.pow_eq, Nat.log2_two_pow]
      omega

/-- The shortest decimal lies around the value. -/
theorem isAround_ofFinite (hlegal : IsLegal mantissa exponent) (negative : Bool) :
    IsAround mantissa exponent ((ofFinite negative mantissa exponent).coefficient *
      10 ^ (ofFinite negative mantissa exponent).exponent) := by
  unfold ofFinite
  split_ifs with hzero
  · rw [hzero]
    have hself := isAround_self 0 exponent
    rwa [Nat.cast_zero, zero_mul] at hself ⊢
  · dsimp only
    have hmantissa : 0 < mantissa := Nat.pos_of_ne_zero hzero
    have hdigit : (10 : ℚ) ^ leadingDigit (scaleTwo mantissa 1 exponent).1
        (scaleTwo mantissa 1 exponent).2 ≤ mantissa * 2 ^ exponent := by
      obtain ⟨hnum, hnum', hden'⟩ := log2_scaleTwo_lt hlegal hmantissa
      have hden := scaleTwo_den_pos mantissa Nat.one_pos exponent
      have hquotient := scaleTwo_div mantissa 1 exponent
      rw [Nat.cast_one, div_one] at hquotient
      rw [← hquotient]
      exact power_leadingDigit_le hnum hden hnum' hden'
    rw [stripZeros_value]
    exact isAround_search hmantissa 16 1 (exists_onGrid? hlegal hmantissa hdigit)

theorem ofFinite_negative (negative : Bool) (mantissa : ℕ) (exponent : ℤ) :
    (ofFinite negative mantissa exponent).negative = negative := by
  unfold ofFinite
  split_ifs
  · rfl
  · rfl

/-- However the number of a shortest decimal is written, it is read as the value. -/
theorem nearestDecimal_of_eq {x : Float} {negative : Bool} {place : ℤ}
    (hx : ofFloat x = .finite negative mantissa exponent)
    (h : (coefficient : ℚ) * 10 ^ place = (ofFinite negative mantissa exponent).coefficient *
      10 ^ (ofFinite negative mantissa exponent).exponent) :
    nearestDecimal negative coefficient place = x := by
  obtain ⟨hlegal, hvalue⟩ := eq_floatOfCode hx
  have haround := isAround_ofFinite hlegal negative
  rw [← h] at haround
  rw [hvalue]
  exact haround.nearestDecimal_eq hlegal negative

end Bourse.Shortest
