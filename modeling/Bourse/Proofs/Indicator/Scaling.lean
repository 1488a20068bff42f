import Bourse.Proofs.Indicator.Linear
import Bourse.Proofs.Number.Root

/-! Changes of currency. With every price taken the same positive number of times, the figures that
are prices are taken as often, and those that are ratios stay what they are: the comparisons and the
tests for zero go the same way in both runs. -/
namespace Bourse

/-- The bar with its volume taken a number of times. -/
def Bar.timesVolume {α : Type} (v : Int) (bar : Bar α) : Bar α :=
  { bar with volume := v * bar.volume }

namespace Indicator

open Exact Scalar Series

section Ratios

variable {K : Type} [RootField K] {c : K} (hc : 0 < c)

include hc

/-! Ranges and movements -/

theorem laterTrueRanges_scale (bars : List (Bar (Exact K))) :
    laterTrueRanges (bars.map (Bar.mapPrices (scale c))) =
      (laterTrueRanges bars).map (scale c) := by
  refine steps_map (fun bar previous => ?_) bars
  rw [trueRangeAfter, trueRangeAfter, Bar.mapPrices, Bar.mapPrices, ← scale_sub, ← scale_sub,
    ← scale_sub, abs_scale _ hc, abs_scale _ hc, larger_scale _ _ hc, larger_scale _ _ hc]

theorem trueRange_scale (bars : List (Bar (Exact K))) :
    trueRange (bars.map (Bar.mapPrices (scale c))) = (trueRange bars).map (scale c) := by
  cases bars with
  | nil => rfl
  | cons first rest =>
    have hlater := laterTrueRanges_scale hc (first :: rest)
    rw [List.map_cons] at hlater
    rw [List.map_cons, trueRange, trueRange, List.map_cons, hlater, scale_sub]
    rfl

theorem atr_scale (bars : List (Bar (Exact K))) (period : Int) :
    atr (bars.map (Bar.mapPrices (scale c))) period =
      List.map (scale c) <$> atr bars period := by
  rw [atr, atr, List.length_map, trueRange_scale hc, ema_scale, map_bind]

/-- Whether a change is above zero, and above another, is the same for scaled changes. -/
theorem excess_scale (a b : Exact K) :
    (if less (scale c b) (scale c a) && less zero (scale c a) then scale c a else zero) =
      scale c (if less b a && less zero a then a else zero) := by
  rw [less_scale _ _ hc, less_zero_scale _ hc, apply_ite (scale c), scale_zero_eq]

theorem upMoves_scale (bars : List (Bar (Exact K))) :
    List.zipWith upMove (bars.map (Bar.mapPrices (scale c))).tail
      (bars.map (Bar.mapPrices (scale c))) =
      (List.zipWith upMove bars.tail bars).map (scale c) := by
  refine steps_map (fun bar previous => ?_) bars
  rw [upMove, upMove, ← excess_scale hc, scale_sub, scale_sub]
  rfl

theorem downMoves_scale (bars : List (Bar (Exact K))) :
    List.zipWith downMove (bars.map (Bar.mapPrices (scale c))).tail
      (bars.map (Bar.mapPrices (scale c))) =
      (List.zipWith downMove bars.tail bars).map (scale c) := by
  refine steps_map (fun bar previous => ?_) bars
  rw [downMove, downMove, ← excess_scale hc, scale_sub, scale_sub]
  rfl

theorem directionalIndex_scale (range up down : Exact K) :
    directionalIndex (scale c range) (scale c up) (scale c down) =
      directionalIndex range up down := by
  have hshare : ∀ move : Exact K, (if isZero (scale c range) then zero
      else hundred * scale c move / scale c range) =
        if isZero range then zero else hundred * move / range := by
    intro move
    rw [isZero_scale _ hc.ne', mul_comm hundred, ← scale_mul, scale_div_scale _ _ hc.ne', mul_comm]
  rw [directionalIndex, directionalIndex, hshare, hshare]

theorem indexSeries_scale (p : Nat) (bars : List (Bar (Exact K))) :
    indexSeries p (bars.map (Bar.mapPrices (scale c))) = indexSeries p bars := by
  rw [indexSeries, indexSeries, laterTrueRanges_scale hc, upMoves_scale hc, downMoves_scale hc,
    emaSeries_scale, emaSeries_scale, emaSeries_scale, directionalIndices, directionalIndices,
    ← List.map_drop, ← List.map_drop, ← List.map_drop, List.zip_map, List.zip_map, List.map_map]
  exact List.map_congr_left fun move _ => directionalIndex_scale hc move.1 move.2.1 move.2.2

theorem adx_scale (bars : List (Bar (Exact K))) (period : Int) :
    adx (bars.map (Bar.mapPrices (scale c))) period = adx bars period := by
  rw [adx_eq_checked, adx_eq_checked, List.length_map]
  simp only [indexSeries_scale hc]

/-! Strengths -/

theorem gain_scale (change : Exact K) : gain (scale c change) = scale c (gain change) := by
  rw [gain, gain, less_zero_scale _ hc, apply_ite (scale c), scale_zero_eq]

theorem loss_scale (change : Exact K) : loss (scale c change) = scale c (loss change) := by
  rw [loss, loss, less_scale_zero _ hc, apply_ite (scale c), scale_zero_eq, scale_neg]

theorem rsiSeries_scale (p : Nat) (prices : List (Exact K)) :
    rsiSeries p (prices.map (scale c)) = rsiSeries p prices := by
  have hgains : ((changes prices).map (scale c)).map gain =
      ((changes prices).map gain).map (scale c) := by
    rw [List.map_map, List.map_map]
    exact List.map_congr_left fun change _ => gain_scale hc change
  have hlosses : ((changes prices).map (scale c)).map loss =
      ((changes prices).map loss).map (scale c) := by
    rw [List.map_map, List.map_map]
    exact List.map_congr_left fun change _ => loss_scale hc change
  rw [rsiSeries_eq, rsiSeries_eq, changes_scale, hgains, hlosses, averages_scale, averages_scale,
    List.zipWith_map]
  simp only [strength_scale hc.ne']

theorem rsi_scale (prices : List (Exact K)) (period : Int) :
    rsi (prices.map (scale c)) period = rsi prices period := by
  rw [rsi, rsi, List.length_map]
  exact checked_congr fun p _ _ _ => congrArg pure (rsiSeries_scale hc p prices)

/-! Places in windows -/

theorem lowest_scale (xs : List (Exact K)) : lowest (xs.map (scale c)) = scale c (lowest xs) := by
  rw [lowest_eq, lowest_eq]
  exact extreme_map (scale_missing c) (fun a b => smaller_scale a b hc) xs

theorem highest_scale (xs : List (Exact K)) :
    highest (xs.map (scale c)) = scale c (highest xs) := by
  rw [highest_eq, highest_eq]
  exact extreme_map (scale_missing c) (fun a b => larger_scale a b hc) xs

theorem rawStochastic_scale (window : List (Bar (Exact K))) :
    rawStochastic (window.map (Bar.mapPrices (scale c))) = rawStochastic window := by
  have hlow : lowest ((window.map (Bar.mapPrices (scale c))).map (·.low)) =
      scale c (lowest (window.map (·.low))) := by
    rw [← lowest_scale hc, List.map_map, List.map_map]
    rfl
  have hhigh : highest ((window.map (Bar.mapPrices (scale c))).map (·.high)) =
      scale c (highest (window.map (·.high))) := by
    rw [← highest_scale hc, List.map_map, List.map_map]
    rfl
  rw [rawStochastic, rawStochastic, hlow, hhigh, ← scale_sub, isZero_scale _ hc.ne',
    List.getLast?_map]
  cases window.getLast? with
  | none => rfl
  | some last =>
    have hplace : (Bar.mapPrices (scale c) last).close - scale c (lowest (window.map (·.low))) =
        scale c (last.close - lowest (window.map (·.low))) := (scale_sub c _ _).symm
    dsimp only [Option.map_some]
    rw [hplace, scale_div_scale _ _ hc.ne']

theorem stochastic_scale (bars : List (Bar (Exact K))) (period smoothK smoothD : Int) :
    stochastic (bars.map (Bar.mapPrices (scale c))) period smoothK smoothD =
      stochastic bars period smoothK smoothD := by
  have hraw : ∀ p : Nat, trailing p rawStochastic (bars.map (Bar.mapPrices (scale c))) =
      trailing p rawStochastic bars := by
    intro p
    have hwindow := fun window (_ : window.length = p) => rawStochastic_scale hc window
    exact (trailing_map (g := id) rfl hwindow bars).trans (List.map_id _)
  rw [stochastic, stochastic, List.length_map]
  simp only [hraw]

theorem obv_mapPrices (bars : List (Bar (Exact K))) :
    obv (bars.map (Bar.mapPrices (scale c))) = obv bars := by
  have hvolume : ∀ bar : Bar (Exact K),
      (((bar.mapPrices (scale c)).volume : Int) : K) = 1 * bar.volume :=
    fun bar => (one_mul _).symm
  rw [obv_scale (fun a b => less_scale a.close b.close hc) hvolume, map_scale_one, id_map]

end Ratios

/-! Volumes -/

section Volumes

variable {K : Type} [RootField K] {v : Int}

theorem cast_timesVolume (bar : Bar (Exact K)) :
    ((bar.timesVolume v).volume : K) = v * bar.volume := Int.cast_mul v bar.volume

theorem vwap_timesVolume (hv : v ≠ 0) (bars : List (Bar (Exact K))) :
    vwap (bars.map (Bar.timesVolume v)) = vwap bars := by
  have hv' : (v : K) ≠ 0 := Int.cast_ne_zero.mpr hv
  have hprice : ∀ bar : Bar (Exact K),
      typicalPrice (bar.timesVolume v) = scale 1 (typicalPrice bar) :=
    fun bar => (scale_one (typicalPrice bar)).symm
  rw [vwap_scale 1 hv' hprice cast_timesVolume, map_scale_one, id_map]

theorem obv_timesVolume (bars : List (Bar (Exact K))) :
    obv (bars.map (Bar.timesVolume v)) = List.map (scale (v : K)) <$> obv bars :=
  obv_scale (h := Bar.timesVolume v) (fun _ _ => rfl) cast_timesVolume bars

end Volumes

/-! Bands -/

variable {K : Type} [SquareRootField K] {c : K}

theorem deviation_scale (hc : 0 < c) (p : Nat) (window : List (Exact K)) :
    deviation p (window.map (scale c)) = scale c (deviation p window) := by
  -- the variance has the square of the factor, and zero, which bounds it, has any factor
  rw [deviation, deviation, variance_scale, ← sqrt_scale_mul_self hc,
    ← larger_scale _ _ (mul_pos hc hc), scale_zero_eq]

theorem bollingerBands_scale (hc : 0 < c) (prices : List (Exact K)) (period : Int)
    (width : Exact K) :
    bollingerBands (prices.map (scale c)) period width =
      Bands.map (scale c) <$> bollingerBands prices period width := by
  have hmiddle : ∀ p : Nat, trailing p (mean p) (prices.map (scale c)) =
      (trailing p (mean p) prices).map (scale c) :=
    fun p => trailing_map (scale_missing c) (fun window _ => mean_map_scale c p window) prices
  have hupper : ∀ p : Nat, trailing p (fun window => mean p window + width * deviation p window)
      (prices.map (scale c)) =
      (trailing p (fun window => mean p window + width * deviation p window) prices).map
        (scale c) := by
    refine fun p => trailing_map (scale_missing c) (fun window _ => ?_) prices
    rw [mean_map_scale, deviation_scale hc, mul_scale, scale_add]
  have hlower : ∀ p : Nat, trailing p (fun window => mean p window - width * deviation p window)
      (prices.map (scale c)) =
      (trailing p (fun window => mean p window - width * deviation p window) prices).map
        (scale c) := by
    refine fun p => trailing_map (scale_missing c) (fun window _ => ?_) prices
    rw [mean_map_scale, deviation_scale hc, mul_scale, scale_sub]
  rw [bollingerBands, bollingerBands, List.length_map, map_bind]
  simp only [hupper, hmiddle, hlower, map_pure, Bands.map]

/-- A change of currency, in exact arithmetic, for any prices and any parameters. With every price
taken `c` times, averages, bands and ranges are taken `c` times, missing values and refusals are the
same, and oscillators and the balance of volume do not change. With every volume taken `v` times,
the average price by volume does not change and the balance is taken `v` times. -/
theorem indicators_change_of_currency (hc : 0 < c) (prices : List (Exact K))
    (bars : List (Bar (Exact K))) :
    (∀ period, sma (prices.map (scale c)) period = List.map (scale c) <$> sma prices period) ∧
    (∀ period, ema (prices.map (scale c)) period = List.map (scale c) <$> ema prices period) ∧
    (∀ period, wma (prices.map (scale c)) period = List.map (scale c) <$> wma prices period) ∧
    (∀ fast slow signal, macd (prices.map (scale c)) fast slow signal =
      Macd.map (scale c) <$> macd prices fast slow signal) ∧
    (∀ period width, bollingerBands (prices.map (scale c)) period width =
      Bands.map (scale c) <$> bollingerBands prices period width) ∧
    trueRange (bars.map (Bar.mapPrices (scale c))) = (trueRange bars).map (scale c) ∧
    (∀ period, atr (bars.map (Bar.mapPrices (scale c))) period =
      List.map (scale c) <$> atr bars period) ∧
    vwap (bars.map (Bar.mapPrices (scale c))) = List.map (scale c) <$> vwap bars ∧
    (∀ period, rsi (prices.map (scale c)) period = rsi prices period) ∧
    (∀ period smoothK smoothD,
      stochastic (bars.map (Bar.mapPrices (scale c))) period smoothK smoothD =
        stochastic bars period smoothK smoothD) ∧
    (∀ period, roc (prices.map (scale c)) period = roc prices period) ∧
    (∀ period, adx (bars.map (Bar.mapPrices (scale c))) period = adx bars period) ∧
    obv (bars.map (Bar.mapPrices (scale c))) = obv bars ∧
    (∀ v : Int, 0 < v → vwap (bars.map (Bar.timesVolume v)) = vwap bars ∧
      obv (bars.map (Bar.timesVolume v)) = List.map (scale (v : K)) <$> obv bars) := by
  exact ⟨sma_scale c prices, ema_scale c prices, wma_scale c prices, macd_scale c prices,
    bollingerBands_scale hc prices, trueRange_scale hc bars, atr_scale hc bars,
    vwap_mapPrices c bars, rsi_scale hc prices, stochastic_scale hc bars,
    roc_scale hc.ne' prices, adx_scale hc bars, obv_mapPrices hc bars,
    fun v hv => ⟨vwap_timesVolume hv.ne' bars, obv_timesVolume bars⟩⟩

/-- Bands of one deviation around a mean of two end at one and three; for prices twice as high they
end at two and six. -/
theorem bollingerBands_of_doubled_reals :
    bollingerBands ([1, 3].map Exact.known) 2 (.known 1) =
      .ok ⟨[.missing, .known (3 : ℝ)], [.missing, .known 2], [.missing, .known 1]⟩ ∧
    bollingerBands (([1, 3].map Exact.known).map (scale 2)) 2 (.known 1) =
      .ok ⟨[.missing, .known (6 : ℝ)], [.missing, .known 4], [.missing, .known 2]⟩ := by
  have hmean : mean 2 (([1, 3] : List ℝ).map Exact.known) = .known 2 := by
    rw [mean_map_known (by decide)]
    norm_num
  have hsquares : mean 2 ((([1, 3] : List ℝ).map Exact.known).map fun x => x * x) = .known 5 := by
    refine (mean_map_known (by decide) [1 * 1, 3 * 3]).trans ?_
    norm_num
  have hdeviation : deviation 2 (([1, 3] : List ℝ).map Exact.known) = .known 1 := by
    rw [deviation, variance, hmean, hsquares, known_mul, known_sub, zero_eq]
    refine (congrArg sqrt (larger_known _ _)).trans ?_
    rw [sqrt_known (le_max_right _ _)]
    refine congrArg Exact.known (Eq.trans ?_ Real.sqrt_one)
    norm_num [RootField.root]
  have hbands : bollingerBands (([1, 3] : List ℝ).map Exact.known) 2 (.known 1) =
      .ok ⟨[.missing, .known 3], [.missing, .known 2], [.missing, .known 1]⟩ := by
    have hwindow : ∀ figure : List (Exact ℝ) → Exact ℝ,
        trailing 2 figure (([1, 3] : List ℝ).map Exact.known) =
          [.missing, figure (([1, 3] : List ℝ).map Exact.known)] := fun _ => rfl
    refine bollingerBands_eq_ok.mpr ⟨2, rfl, by decide, by decide, ?_⟩
    rw [hwindow, hwindow, hwindow, hmean, hdeviation, known_mul, known_add, known_sub]
    norm_num
  refine ⟨hbands, ?_⟩
  rw [(indicators_change_of_currency two_pos (([1, 3] : List ℝ).map Exact.known) []).2.2.2.2.1 2
    (.known 1), hbands]
  refine congrArg Except.ok ?_
  norm_num [Bands.map, scale_known, scale_missing]

end Indicator

end Bourse
