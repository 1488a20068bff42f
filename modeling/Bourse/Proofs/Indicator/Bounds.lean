import Bourse.Proofs.Indicator.Known

/-! Oscillators stay on their scale. In exact arithmetic averages keep their numbers in every convex
set that holds what they average, so the strengths, the places in a window and the directional
indices, which lie between zero and one hundred, do so after any smoothing. -/
namespace Bourse.Indicator

variable {K β : Type}

open Exact Scalar Series

/-- The numbers of a line belong to a set. -/
def LiesIn (s : Set K) (line : List (Exact K)) : Prop := ∀ x, .known x ∈ line → x ∈ s

theorem liesIn_of_isIn {s : Set K} {line : List (Exact K)} (h : ∀ x ∈ line, IsIn s x) :
    LiesIn s line :=
  fun x hx => isIn_known.mp (h (.known x) hx)

variable [RootField K]

theorem liesIn_missingSeries (s : Set K) (n : Nat) :
    LiesIn s (missingSeries n : List (Exact K)) := by
  intro x hx
  cases List.eq_of_mem_replicate hx

theorem LiesIn.missing_append {s : Set K} {line : List (Exact K)} (h : LiesIn s line) (n : Nat) :
    LiesIn s (missingSeries n ++ line) := by
  intro x hx
  rcases List.mem_append.mp hx with hmissing | hline
  · exact liesIn_missingSeries s n x hmissing
  · exact h x hline

/-! Windows -/

theorem liesIn_trailing {s : Set K} {p : Nat} {figure : List β → Exact K} {xs : List β}
    (hp : 1 ≤ p) (hfigure : ∀ start, start + p ≤ xs.length → ∀ x,
      figure ((xs.drop start).take p) = .known x → x ∈ s) :
    LiesIn s (trailing p figure xs) := by
  intro x hx
  obtain ⟨i, hi⟩ := List.mem_iff_getElem?.mp hx
  rcases getElem?_trailing hp hi with ⟨-, hmissing⟩ | ⟨-, hfits, hknown⟩
  · cases hmissing
  · exact hfigure _ hfits x hknown.symm

/-- A mean that is known is a mean of known numbers. -/
theorem LiesIn.trailing_mean {s : Set K} (hs : Convex K s) {p : Nat} (hp : 1 ≤ p)
    {line : List (Exact K)} (h : LiesIn s line) : LiesIn s (trailing p (mean p) line) := by
  refine liesIn_trailing hp fun start hfits x hx => ?_
  have hlength : ((line.drop start).take p).length = p := by
    rw [List.length_take, List.length_drop]
    omega
  have hwindow : ∀ y ∈ (line.drop start).take p, y.IsKnown :=
    (isKnown_mean hp).mp ⟨x, hx⟩
  have hmean := isIn_mean hs hp hlength fun y hy => by
    obtain ⟨z, rfl⟩ := hwindow y hy
    exact isIn_known.mpr (h z (List.mem_of_mem_drop (List.mem_of_mem_take hy)))
  rw [hx] at hmean
  exact isIn_known.mp hmean

/-- The last close of a window lies between its extremes if it lies in its own bar. -/
theorem rawStochastic_mem {window : List (Bar K)} (hne : window ≠ [])
    (h : ∀ bar ∈ window, bar.low ≤ bar.close ∧ bar.close ≤ bar.high) {x : K}
    (hx : rawStochastic (window.map Bar.exact) = .known x) : x ∈ Set.Icc 0 100 := by
  obtain ⟨bar, hbar, close, floor, ceiling, hclose, hfloor, hceiling, hraw⟩ :=
    exists_rawStochastic (mt List.map_eq_nil_iff.mp hne) (hasPrices_exact window)
  obtain ⟨bar, hmem, rfl⟩ := List.mem_map.mp hbar
  obtain ⟨hlow, hhigh⟩ := h bar hmem
  cases hclose
  have hfloor' : floor ≤ bar.close := (hfloor bar.low rfl).trans hlow
  have hceiling' : bar.close ≤ ceiling := hhigh.trans (hceiling bar.high rfl)
  cases hraw.symm.trans hx
  split_ifs with hrange
  · exact ⟨by norm_num, by norm_num⟩
  · have hpos : 0 < ceiling - floor :=
      lt_of_le_of_ne (sub_nonneg.mpr (hfloor'.trans hceiling')) (Ne.symm hrange)
    have hplace : 0 ≤ (bar.close - floor) / (ceiling - floor) :=
      div_nonneg (sub_nonneg.mpr hfloor') hpos.le
    have hplace' : (bar.close - floor) / (ceiling - floor) ≤ 1 :=
      (div_le_one hpos).mpr (sub_le_sub_right hceiling' floor)
    exact ⟨by linarith, by linarith⟩

/-! Lines -/

theorem rsi_liesIn {prices line : List (Exact K)} {period : Int}
    (h : rsi prices period = .ok line) : LiesIn (Set.Icc 0 100) line := by
  obtain ⟨p, -, hp, -, rfl⟩ := rsi_eq_ok.mp h
  rw [rsiSeries_eq]
  exact (liesIn_of_isIn (isIn_strengths hp (changes prices))).missing_append p

theorem stochastic_liesIn {bars : List (Bar K)}
    (hbars : ∀ bar ∈ bars, bar.low ≤ bar.close ∧ bar.close ≤ bar.high)
    {period smoothK smoothD : Int} {r : Stochastic (Exact K)}
    (h : stochastic (bars.map Bar.exact) period smoothK smoothD = .ok r) :
    LiesIn (Set.Icc 0 100) r.k ∧ LiesIn (Set.Icc 0 100) r.d := by
  obtain ⟨p, q, s, -, ⟨hp, hq, hs⟩, -, rfl⟩ := stochastic_eq_ok.mp h
  have hraw : LiesIn (Set.Icc 0 100) (trailing p rawStochastic (bars.map Bar.exact)) := by
    refine liesIn_trailing hp fun start hfits x hx => ?_
    rw [List.length_map] at hfits
    rw [← List.map_drop, ← List.map_take] at hx
    refine rawStochastic_mem ?_ (fun bar hbar => ?_) hx
    · rw [← List.length_pos_iff, List.length_take, List.length_drop]
      omega
    · exact hbars bar (List.mem_of_mem_drop (List.mem_of_mem_take hbar))
  have hk := hraw.trailing_mean (convex_Icc 0 100) hq
  exact ⟨hk, hk.trailing_mean (convex_Icc 0 100) hs⟩

theorem adx_liesIn {bars : List (Bar (Exact K))} (hbars : ∀ bar ∈ bars, HasPrices bar)
    {period : Int} {line : List (Exact K)} (h : adx bars period = .ok line) :
    LiesIn (Set.Icc 0 100) line := by
  obtain ⟨p, -, hp, -, rfl⟩ := adx_eq_ok.mp h
  split_ifs with hfew
  · exact liesIn_missingSeries _ _
  · have hindex := isIn_indexSeries hp hbars
    have hlength : ((indexSeries p bars).take p).length = p := by
      rw [List.length_take, length_indexSeries hp (by omega)]
      omega
    have hseed := isIn_mean (convex_Icc 0 100) hp hlength
      fun x hx => hindex x (List.mem_of_mem_take hx)
    have hvalues := liesIn_of_isIn (isIn_emaValues (convex_Icc 0 100) hp hseed hindex)
    rw [emaSeries_eq]
    exact (hvalues.missing_append (p - 1)).missing_append (p + 1)

theorem isNonneg_later_trueRange {bars : List (Bar (Exact K))}
    (hbars : ∀ bar ∈ bars, HasPrices bar) : ∀ x ∈ (trueRange bars).tail, IsNonneg x := by
  cases bars with
  | nil => exact nofun
  | cons first rest =>
    exact forall_mem_zipWith fun bar hbar previous hprevious =>
      isNonneg_trueRangeAfter bar previous (hbars bar (List.mem_of_mem_tail hbar))
        (hbars previous hprevious)

/-- Oscillators stay on their scale, in exact arithmetic. The relative strength of any prices is a
percentage, missing prices among them or not. So is the place of the close in a window, and every
average of it, if no bar closes outside of its range, and so is the average directional index of any
bars, whose true ranges behind the first are not negative. -/
theorem oscillators_on_scale :
    (∀ (prices line : List (Exact K)) (period : Int), rsi prices period = .ok line →
      LiesIn (Set.Icc 0 100) line) ∧
    (∀ bars : List (Bar K), (∀ bar ∈ bars, bar.low ≤ bar.close ∧ bar.close ≤ bar.high) →
      ∀ (period smoothK smoothD : Int) (r : Stochastic (Exact K)),
        stochastic (bars.map Bar.exact) period smoothK smoothD = .ok r →
        LiesIn (Set.Icc 0 100) r.k ∧ LiesIn (Set.Icc 0 100) r.d) ∧
    (∀ (bars : List (Bar K)) (period : Int) (line : List (Exact K)),
      adx (bars.map Bar.exact) period = .ok line → LiesIn (Set.Icc 0 100) line) ∧
    (∀ bars : List (Bar K), ∀ x ∈ (trueRange (bars.map Bar.exact)).tail, IsNonneg x) :=
  ⟨fun _ _ _ h => rsi_liesIn h, fun _ hbars _ _ _ _ h => stochastic_liesIn hbars h,
    fun bars _ _ h => adx_liesIn (hasPrices_exact bars) h,
    fun bars => isNonneg_later_trueRange (hasPrices_exact bars)⟩

/-- Bars that rise twice and then fall, each of which closes inside of its range. -/
def turningBars : List (Bar ℚ) :=
  [⟨0, 1, 2, 1, 1, 10⟩, ⟨60, 1, 4, 1, 2, 10⟩, ⟨120, 1, 5, 1, 3, 10⟩, ⟨180, 3, 5, 1, 2, 10⟩,
    ⟨240, 1, 5, 0, 2, 10⟩]

/-- A rise and an equal fall have a strength of fifty; the turning bars close at two fifths of their
last range and have an index of eighty. -/
theorem oscillators_on_scale_of_rationals :
    (rsi ([1, 2, 1].map Exact.known) 2 = .ok [.missing, .missing, .known (50 : ℚ)] ∧
      LiesIn (Set.Icc 0 100) [.missing, .missing, .known (50 : ℚ)]) ∧
    (∃ r, stochastic (turningBars.map Bar.exact) 2 1 1 = .ok r ∧ .known 40 ∈ r.d ∧
      LiesIn (Set.Icc 0 100) r.k ∧ LiesIn (Set.Icc 0 100) r.d) ∧
    (adx (turningBars.map Bar.exact) 2 =
        .ok [.missing, .missing, .missing, .missing, .known 80] ∧
      LiesIn (Set.Icc 0 100) [.missing, .missing, .missing, .missing, .known (80 : ℚ)]) := by
  obtain ⟨hrsi, hstochastic, hadx, -⟩ := oscillators_on_scale (K := ℚ)
  have hclose : ∀ bar ∈ turningBars, bar.low ≤ bar.close ∧ bar.close ≤ bar.high := by
    decide +kernel
  have hstrength : rsi ([1, 2, 1].map Exact.known) 2 =
      .ok [.missing, .missing, .known (50 : ℚ)] := by decide +kernel
  have hindex : adx (turningBars.map Bar.exact) 2 =
      .ok [.missing, .missing, .missing, .missing, .known 80] := by decide +kernel
  have hplace : stochastic (turningBars.map Bar.exact) 2 1 1 =
      .ok ⟨stochasticK 2 1 (turningBars.map Bar.exact),
        trailing 1 (mean 1) (stochasticK 2 1 (turningBars.map Bar.exact))⟩ :=
    stochastic_eq_ok.mpr ⟨2, 1, 1, ⟨rfl, rfl, rfl⟩, by decide, by decide, rfl⟩
  exact ⟨⟨hstrength, hrsi _ _ _ hstrength⟩,
    ⟨_, hplace, by decide +kernel, hstochastic _ hclose _ _ _ _ hplace⟩,
    ⟨hindex, hadx _ _ _ hindex⟩⟩

end Bourse.Indicator
