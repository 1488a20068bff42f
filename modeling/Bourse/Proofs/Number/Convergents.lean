import Bourse.Number.Ratio
import Mathlib

/-! Fractions with small denominators near a ratio. Two fractions with determinant one leave room
between them only for denominators from the sum of theirs on, so if a ratio lies between them the
closer one is closer than any other fraction up to that sum. The continued fraction of the ratio
ends at such a pair. -/
namespace Bourse.Fraction

/-- The value of a fraction. -/
def value (f : Fraction) : ℚ := f.num / f.den

/-- The cross product of two fractions, which has the sign of their difference. -/
def det (f g : Fraction) : ℤ := f.num * g.den - g.num * f.den

/-- Whether a fraction in lowest terms, with a denominator up to a bound, is closest to a ratio among
all fractions with such denominators. -/
structure IsClosest (bound : ℕ) (r : ℚ) (f : Fraction) : Prop where
  coprime : f.num.natAbs.Coprime f.den
  den_pos : 1 ≤ f.den
  den_le : f.den ≤ bound
  le_of_den_le : ∀ (num : ℤ) (den : ℕ), 1 ≤ den → den ≤ bound → |r - f.value| ≤ |r - num / den|

variable {f g h : Fraction} {r : ℚ}

theorem det_swap (f g : Fraction) : det g f = -det f g := by
  unfold det
  ring

theorem det_step (f : Fraction) (count : ℕ) (g : Fraction) : det g (f.step count g) = det g f := by
  unfold det step
  push_cast
  ring

theorem value_sub_value (hf : 0 < f.den) (hg : 0 < g.den) :
    f.value - g.value = det f g / (f.den * g.den) := by
  have hf' : (f.den : ℚ) ≠ 0 := by exact_mod_cast hf.ne'
  have hg' : (g.den : ℚ) ≠ 0 := by exact_mod_cast hg.ne'
  unfold value det
  push_cast
  field_simp

theorem value_le_iff (hf : 0 < f.den) (hg : 0 < g.den) : g.value ≤ f.value ↔ 0 ≤ det f g := by
  have hproduct : (0 : ℚ) < f.den * g.den := by exact_mod_cast Nat.mul_pos hf hg
  rw [← sub_nonneg, value_sub_value hf hg, le_div_iff₀ hproduct, zero_mul]
  exact Int.cast_nonneg_iff

theorem coprime_of_det (h : (det f g).natAbs = 1) : f.num.natAbs.Coprime f.den := by
  have hgcd : Int.gcd f.num f.den = 1 := by
    apply Int.isCoprime_iff_gcd_eq_one.mp
    -- the determinant combines numerator and denominator to a unit
    rcases Int.natAbs_eq_iff.mp h with hone | hone
    · refine ⟨g.den, -g.num, ?_⟩
      unfold det at hone
      push_cast at hone
      linarith
    · refine ⟨-g.den, g.num, ?_⟩
      unfold det at hone
      push_cast at hone
      linarith
  exact hgcd

/-! Between two neighbours -/

/-- A fraction that lies neither above the upper nor below the lower of two neighbours has at least
the sum of their denominators. -/
theorem le_den_of_between (hdet : det f g = 1) (hupper : det h f < 0) (hlower : 0 < det h g) :
    f.den + g.den ≤ h.den := by
  have hsum : (f.den : ℤ) * det h g - g.den * det h f = h.den * det f g := by
    unfold det
    ring
  rw [hdet, mul_one] at hsum
  have hfirst : (f.den : ℤ) ≤ f.den * det h g := le_mul_of_one_le_right (Int.natCast_nonneg _) hlower
  have hsecond : (g.den : ℤ) * det h f ≤ -g.den := by
    calc (g.den : ℤ) * det h f ≤ g.den * -1 := by
          apply mul_le_mul_of_nonneg_left _ (Int.natCast_nonneg _)
          omega
      _ = -g.den := by ring
  omega

/-- Whether a ratio lies between two neighbours, the first of which may be the upper or the lower
one. -/
inductive Surrounds (r : ℚ) (f g : Fraction) : Prop
  | fromAbove (hdet : det f g = 1) (hlow : g.value ≤ r) (hhigh : r ≤ f.value)
  | fromBelow (hdet : det g f = 1) (hlow : f.value ≤ r) (hhigh : r ≤ g.value)

theorem Surrounds.symm (h : Surrounds r f g) : Surrounds r g f := by
  cases h with
  | fromAbove hdet hlow hhigh => exact .fromBelow hdet hlow hhigh
  | fromBelow hdet hlow hhigh => exact .fromAbove hdet hlow hhigh

theorem abs_sub_le_of_between (hf : 0 < f.den) (hg : 0 < g.den) (hh : 0 < h.den)
    (hdet : det f g = 1) (hden : h.den < f.den + g.den) (hlow : g.value ≤ r) (hhigh : r ≤ f.value) :
    |r - f.value| ≤ |r - h.value| ∨ |r - g.value| ≤ |r - h.value| := by
  by_cases hupper : 0 ≤ det h f
  · left
    have hle : f.value ≤ h.value := (value_le_iff hh hf).mpr hupper
    rw [abs_sub_comm r, abs_sub_comm r, abs_of_nonneg (by linarith), abs_of_nonneg (by linarith)]
    linarith
  · right
    have hlower : det h g ≤ 0 := by
      by_contra hpositive
      have hlarge := le_den_of_between hdet (not_le.mp hupper) (not_le.mp hpositive)
      omega
    have hle : h.value ≤ g.value := by
      rw [value_le_iff hg hh, det_swap]
      omega
    rw [abs_of_nonneg (by linarith), abs_of_nonneg (by linarith)]
    linarith

theorem Surrounds.abs_sub_le (hsides : Surrounds r f g) (hf : 0 < f.den) (hg : 0 < g.den)
    (hh : 0 < h.den) (hden : h.den < f.den + g.den) :
    |r - f.value| ≤ |r - h.value| ∨ |r - g.value| ≤ |r - h.value| := by
  cases hsides with
  | fromAbove hdet hlow hhigh => exact abs_sub_le_of_between hf hg hh hdet hden hlow hhigh
  | fromBelow hdet hlow hhigh =>
    rw [Nat.add_comm] at hden
    exact (abs_sub_le_of_between hg hf hh hdet hden hlow hhigh).symm

theorem Surrounds.natAbs_det (h : Surrounds r f g) : (det f g).natAbs = 1 := by
  cases h with
  | fromAbove hdet => rw [hdet, Int.natAbs_one]
  | fromBelow hdet => rw [det_swap, hdet, Int.natAbs_neg, Int.natAbs_one]

/-- The closer of two neighbours of a ratio is closest up to the sum of their denominators. -/
theorem Surrounds.isClosest (h : Surrounds r f g) (hf : 0 < f.den) (hg : 0 < g.den) {bound : ℕ}
    (hbound : f.den ≤ bound) (hsum : bound < f.den + g.den)
    (hcloser : |r - f.value| ≤ |r - g.value|) : IsClosest bound r f where
  coprime := coprime_of_det h.natAbs_det
  den_pos := hf
  den_le := hbound
  le_of_den_le num den hpositive hden := by
    have hother : 0 < (⟨num, den⟩ : Fraction).den := hpositive
    rcases h.abs_sub_le hf hg hother (hden.trans_lt hsum) with hle | hle
    · exact hle
    · exact hcloser.trans hle

/-! The distance from a ratio -/

/-- What a fraction falls short of a ratio, as a multiple of one over the product of both
denominators. -/
def lack (r : ℚ) (f : Fraction) : ℤ := r.num * f.den - f.num * r.den

theorem sub_value (r : ℚ) (hf : 0 < f.den) : r - f.value = lack r f / (r.den * f.den) := by
  have hf' : (f.den : ℚ) ≠ 0 := by exact_mod_cast hf.ne'
  have hr : (r.den : ℚ) ≠ 0 := by exact_mod_cast r.den_nz
  unfold value lack
  push_cast
  nth_rewrite 1 [← Rat.num_div_den r]
  field_simp

theorem value_le_of_lack (hf : 0 < f.den) (h : 0 ≤ lack r f) : f.value ≤ r := by
  rw [← sub_nonneg, sub_value r hf]
  have hlack : (0 : ℚ) ≤ lack r f := by exact_mod_cast h
  positivity

theorem le_value_of_lack (hf : 0 < f.den) (h : lack r f ≤ 0) : r ≤ f.value := by
  rw [← sub_nonpos, sub_value r hf]
  have hlack : (lack r f : ℚ) ≤ 0 := by exact_mod_cast h
  exact div_nonpos_of_nonpos_of_nonneg hlack (by positivity)

theorem abs_sub_value (r : ℚ) (hf : 0 < f.den) : |r - f.value| = gap r f / (r.den * f.den) := by
  have hgap : |(lack r f : ℚ)| = gap r f := by
    rw [gap, Nat.cast_natAbs, Int.cast_abs]
    rfl
  rw [sub_value r hf, abs_div, hgap, abs_of_nonneg (by positivity : (0 : ℚ) ≤ r.den * f.den)]

theorem isCloser_iff (hf : 0 < f.den) (hg : 0 < g.den) :
    isCloser r f g = true ↔ |r - f.value| < |r - g.value| := by
  have hr : (0 : ℚ) < r.den := by exact_mod_cast r.den_pos
  have hf' : (0 : ℚ) < f.den := by exact_mod_cast hf
  have hg' : (0 : ℚ) < g.den := by exact_mod_cast hg
  rw [isCloser, decide_eq_true_eq, abs_sub_value r hf, abs_sub_value r hg, div_mul_eq_div_div_swap,
    div_mul_eq_div_div_swap, div_lt_div_iff_of_pos_right hr, div_lt_div_iff₀ hf' hg']
  norm_cast

/-! The continued fraction -/

/-- Whether two fractions are the last ones on the way to a ratio of which `n / d` is left: the ratio
is the first of them, `d` times, and the second, `n` times. -/
structure Leaves (r : ℚ) (before last : Fraction) (n d : ℕ) : Prop where
  num : last.num * n + before.num * d = r.num
  den : last.den * n + before.den * d = r.den
  det : (det last before).natAbs = 1
  rest_lt : d < n
  den_pos : 0 < last.den
  den_le : before.den ≤ last.den

variable {before last : Fraction} {n d bound : ℕ}

theorem leaves_start (r : ℚ) :
    Leaves r ⟨1, 0⟩ ⟨r.num / r.den, 1⟩ r.den (r.num % r.den).toNat := by
  have hpositive : (0 : ℤ) < r.den := by exact_mod_cast r.den_pos
  have hrest : ((r.num % r.den).toNat : ℤ) = r.num % r.den :=
    Int.toNat_of_nonneg (Int.emod_nonneg _ hpositive.ne')
  constructor
  · dsimp only
    rw [hrest, one_mul]
    exact Int.ediv_mul_add_emod r.num r.den
  · dsimp only
    rw [one_mul, Nat.zero_mul, Nat.add_zero]
  · simp [Fraction.det]
  · have hless := Int.emod_lt_of_pos r.num hpositive
    omega
  · exact Nat.one_pos
  · exact Nat.zero_le _

/-- At least one step is taken, so the next denominator is not less than the last one. -/
theorem Leaves.den_le_step (h : Leaves r before last n d) (hd : 0 < d) :
    last.den ≤ (before.step (n / d) last).den := by
  have hsteps : 1 ≤ n / d := (Nat.one_le_div_iff hd).mpr h.rest_lt.le
  exact (Nat.le_mul_of_pos_left last.den hsteps).trans (Nat.le_add_left _ _)

theorem Leaves.next (h : Leaves r before last n d) (hd : 0 < d) :
    Leaves r last (before.step (n / d) last) d (n % d) := by
  have hn : d * (n / d) + n % d = n := Nat.div_add_mod n d
  have hrest : n % d < d := Nat.mod_lt n hd
  have hgrows := h.den_le_step hd
  generalize n / d = count at hn hgrows ⊢
  generalize n % d = rest at hn hrest ⊢
  constructor
  · rw [← h.num, ← hn]
    unfold step
    push_cast
    ring
  · rw [← h.den, ← hn]
    unfold step
    ring
  · rw [det_swap, det_step, Int.natAbs_neg]
    exact h.det
  · exact hrest
  · exact h.den_pos.trans_le hgrows
  · exact hgrows

theorem Leaves.lack_step (h : Leaves r before last n d) (count : ℕ) :
    lack r (before.step count last) = (n - count * d) * Fraction.det last before := by
  unfold lack step Fraction.det
  have hden : (r.den : ℤ) = last.den * n + before.den * d := by exact_mod_cast h.den.symm
  rw [← h.num, hden]
  push_cast
  ring

theorem Leaves.lack_last (h : Leaves r before last n d) :
    lack r last = -(d * Fraction.det last before) := by
  unfold lack Fraction.det
  have hden : (r.den : ℤ) = last.den * n + before.den * d := by exact_mod_cast h.den.symm
  rw [← h.num, hden]
  ring

/-- A fraction that is reached before the next convergent lies on the other side of the ratio. -/
theorem Leaves.surrounds (h : Leaves r before last n d) {count : ℕ} (hcount : count * d ≤ n)
    (hden : 0 < (before.step count last).den) : Surrounds r last (before.step count last) := by
  have hlast := h.lack_last
  have hstep := h.lack_step count
  have hrest : (0 : ℤ) ≤ n - count * d := by
    have hcast : (count : ℤ) * d ≤ n := by exact_mod_cast hcount
    omega
  have hother : Fraction.det last (before.step count last) = Fraction.det last before :=
    det_step before count last
  rcases Int.natAbs_eq (Fraction.det last before) with hdet | hdet
  · rw [h.det] at hdet
    rw [hdet] at hlast hstep hother
    apply Surrounds.fromAbove hother
    · exact value_le_of_lack hden (by omega)
    · exact le_value_of_lack h.den_pos (by omega)
  · rw [h.det] at hdet
    rw [hdet] at hlast hstep hother
    apply Surrounds.fromBelow
    · rw [det_swap, hother]
      rfl
    · exact value_le_of_lack h.den_pos (by omega)
    · exact le_value_of_lack hden (by omega)

/-- What is left of nothing: the last convergent is the ratio itself. -/
theorem Leaves.isClosest_last (h : Leaves r before last n 0) (hbound : last.den ≤ bound) :
    gap r last = 0 ∧ IsClosest bound r last := by
  have hgap : gap r last = 0 := by
    have hlack : lack r last = 0 := by rw [h.lack_last, Nat.cast_zero, zero_mul, neg_zero]
    exact Int.natAbs_eq_zero.mpr hlack
  refine ⟨hgap, coprime_of_det h.det, h.den_pos, hbound, ?_⟩
  intro num den _ _
  rw [abs_sub_value r h.den_pos, hgap, Nat.cast_zero, zero_div]
  exact abs_nonneg _

/-- The convergents leave the ratio with nothing behind them, or the next one is beyond the bound. -/
theorem converge_spec (h : Leaves r before last n d) (hlast : last.den ≤ bound) :
    ∃ n' d', Leaves r (converge bound before last n d).1 (converge bound before last n d).2 n' d' ∧
      (converge bound before last n d).2.den ≤ bound ∧
      (d' = 0 ∨ 0 < d' ∧ bound < ((converge bound before last n d).1.step (n' / d')
        (converge bound before last n d).2).den) := by
  fun_induction converge bound before last n d with
  | case1 before last n => exact ⟨n, 0, h, hlast, .inl rfl⟩
  | case2 before last n d hd next hbound =>
    exact ⟨n, d, h, hlast, .inr ⟨Nat.pos_of_ne_zero hd, hbound⟩⟩
  | case3 before last n d hd next hbound ih =>
    exact ih (h.next (Nat.pos_of_ne_zero hd)) (Nat.le_of_not_lt hbound)

/-! The closest fraction -/

/-- The steps that a bound allows end below it, and one more would go beyond it. -/
theorem den_step_bounds (hlast : 0 < last.den) (hbefore : before.den ≤ bound) :
    (before.step ((bound - before.den) / last.den) last).den ≤ bound ∧
      bound < (before.step ((bound - before.den) / last.den) last).den + last.den := by
  have hfits := Nat.div_mul_le_self (bound - before.den) last.den
  have hends := Nat.lt_div_mul_add (a := bound - before.den) hlast
  unfold step
  dsimp only
  omega

theorem isClosest_closest (r : ℚ) (hbound : 1 ≤ bound) : IsClosest bound r (closest bound r) := by
  obtain ⟨n, d, hleaves, hlast, hend⟩ := converge_spec (leaves_start r) hbound
  rw [← convergents] at hleaves hlast hend
  rw [closest]
  generalize convergents bound r = pair at hleaves hlast hend
  obtain ⟨before, last⟩ := pair
  dsimp only at hleaves hlast hend ⊢
  rcases hend with rfl | ⟨hd, hnext⟩
  · obtain ⟨hgap, hclosest⟩ := hleaves.isClosest_last hlast
    rw [isCloser, hgap, Nat.zero_mul, decide_eq_false (Nat.not_lt_zero _), if_neg Bool.false_ne_true]
    exact hclosest
  · -- the next convergent is beyond the bound, so only some of the steps to it can be taken
    obtain ⟨hfits, hsum⟩ := den_step_bounds hleaves.den_pos (hleaves.den_le.trans hlast)
    generalize (bound - before.den) / last.den = count at hfits hsum ⊢
    have hless : count < n / d := by
      by_contra hmany
      have hmul := Nat.mul_le_mul_right last.den (Nat.le_of_not_lt hmany)
      unfold step at hnext hfits
      dsimp only at hnext hfits
      omega
    have hcount : count * d ≤ n :=
      (Nat.mul_le_mul_right d hless.le).trans (Nat.div_mul_le_self n d)
    have hden : 0 < (before.step count last).den := by omega
    have hsides := hleaves.surrounds hcount hden
    split_ifs with hcloser
    · rw [isCloser_iff hden hleaves.den_pos] at hcloser
      exact hsides.symm.isClosest hden hleaves.den_pos hfits hsum hcloser.le
    · rw [isCloser_iff hden hleaves.den_pos, not_lt] at hcloser
      rw [Nat.add_comm] at hsum
      exact hsides.isClosest hleaves.den_pos hden hlast hsum hcloser

/-! Ratios near a fraction -/

/-- Two fractions that differ are apart by one over the product of their denominators. -/
theorem le_abs_value_sub (hf : 0 < f.den) (hg : 0 < g.den) (hne : det f g ≠ 0) :
    1 / (f.den * g.den : ℚ) ≤ |f.value - g.value| := by
  have hproduct : (0 : ℚ) < f.den * g.den := by exact_mod_cast Nat.mul_pos hf hg
  have hone : (1 : ℚ) ≤ |(det f g : ℚ)| := by exact_mod_cast Int.one_le_abs hne
  rw [value_sub_value hf hg, abs_div, abs_of_pos hproduct]
  gcongr

theorem eq_of_det_eq_zero (hf : f.num.natAbs.Coprime f.den) (hg : g.num.natAbs.Coprime g.den)
    (hfpos : 0 < f.den) (hgpos : 0 < g.den) (h : det f g = 0) : f = g := by
  have hvalue : (f.num : ℚ) / (f.den : ℤ) = g.num / (g.den : ℤ) := by
    have hdifference := value_sub_value hfpos hgpos
    rw [h, Int.cast_zero, zero_div, sub_eq_zero] at hdifference
    rw [Int.cast_natCast, Int.cast_natCast]
    exact hdifference
  obtain ⟨hnum, hden⟩ := Rat.div_int_inj (by exact_mod_cast hfpos) (by exact_mod_cast hgpos) hf hg
    hvalue
  cases f
  cases g
  congr 1
  exact Int.ofNat_inj.mp hden

/-- A fraction from which a ratio is less than half the least distance of two fractions away is the
closest one. -/
theorem IsClosest.eq_of_near (h : IsClosest bound r f) (hg : g.num.natAbs.Coprime g.den)
    (hgpos : 1 ≤ g.den) (hgle : g.den ≤ bound) (hnear : |r - g.value| < 1 / (2 * bound ^ 2)) :
    f = g := by
  apply eq_of_det_eq_zero h.coprime hg h.den_pos hgpos
  by_contra hne
  have hproduct : (f.den * g.den : ℚ) ≤ bound ^ 2 := by
    rw [sq]
    exact_mod_cast Nat.mul_le_mul h.den_le hgle
  have hpositive : (0 : ℚ) < f.den * g.den := by exact_mod_cast Nat.mul_pos h.den_pos hgpos
  have hclose : |r - f.value| ≤ |r - g.value| := h.le_of_den_le g.num g.den hgpos hgle
  -- the two fractions cannot be as near to each other as both are to the ratio
  have hless : 1 / (f.den * g.den : ℚ) < 1 / (f.den * g.den) := by
    calc 1 / (f.den * g.den : ℚ) ≤ |f.value - g.value| := le_abs_value_sub h.den_pos hgpos hne
      _ ≤ |f.value - r| + |r - g.value| := abs_sub_le _ _ _
      _ ≤ |r - g.value| + |r - g.value| := by
          rw [abs_sub_comm f.value]
          gcongr
      _ < 1 / (2 * bound ^ 2) + 1 / (2 * bound ^ 2) := by gcongr
      _ = 1 / bound ^ 2 := by ring
      _ ≤ 1 / (f.den * g.den) := one_div_le_one_div_of_le hpositive hproduct
  exact lt_irrefl _ hless

end Bourse.Fraction
