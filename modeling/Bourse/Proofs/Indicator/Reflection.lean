import Bourse.Proofs.Indicator.Known
import Bourse.Proofs.Indicator.Linear
import Mathlib.Tactic.FieldSimp
import Mathlib.Tactic.Ring

/-! Prices turned upside down. A change of sign makes falls of rises and lows of highs, so averages
change their sign, oscillators turn round at the middle of their scale, and what measures size
without direction stays what it is, ties included. -/
namespace Bourse

/-- The bar turned upside down: its prices change their sign, and its low becomes its high. -/
def Bar.mirror {α : Type} [Neg α] (bar : Bar α) : Bar α :=
  { bar with
    opening := -bar.opening
    high := -bar.low
    low := -bar.high
    close := -bar.close }

namespace Indicator

variable {K : Type} [RootField K]

open Exact Scalar Series

/-- The bands turned upside down. -/
def Bands.mirror (r : Bands (Exact K)) : Bands (Exact K) :=
  ⟨r.lower.map Neg.neg, r.middle.map Neg.neg, r.upper.map Neg.neg⟩

/-- A line turned round at its first value. -/
def overturned (line : List (Exact K)) : List (Exact K) :=
  line.map fun x => Exact.known 2 * line.headD Exact.missing - x

/-! Ranges and movements -/

theorem laterTrueRanges_mirror (bars : List (Bar (Exact K))) :
    laterTrueRanges (bars.map Bar.mirror) = laterTrueRanges bars := by
  have hrange : ∀ bar previous : Bar (Exact K),
      trueRangeAfter previous.mirror.close bar.mirror =
        id (trueRangeAfter previous.close bar) := by
    intro bar previous
    rw [trueRangeAfter, trueRangeAfter, Bar.mirror, Bar.mirror, neg_sub_neg_eq, neg_sub_neg_eq,
      neg_sub_neg_eq, larger_right_comm, abs_sub_swap previous.close, abs_sub_swap previous.close]
    rfl
  exact (steps_map hrange bars).trans (List.map_id _)

theorem trueRange_mirror (bars : List (Bar (Exact K))) :
    trueRange (bars.map Bar.mirror) = trueRange bars := by
  cases bars with
  | nil => rfl
  | cons first rest =>
    have hfirst : first.mirror.high - first.mirror.low = first.high - first.low :=
      neg_sub_neg_eq first.low first.high
    have hlater := laterTrueRanges_mirror (first :: rest)
    rw [List.map_cons] at hlater
    rw [List.map_cons, trueRange, trueRange, hlater, hfirst]

theorem atr_mirror (bars : List (Bar (Exact K))) (period : Int) :
    atr (bars.map Bar.mirror) period = atr bars period := by
  rw [atr, atr, List.length_map, trueRange_mirror]

/-- The highs of the mirrored bars rise as the lows fall. -/
theorem upMove_mirror (bar previous : Bar (Exact K)) :
    upMove bar.mirror previous.mirror = downMove bar previous := by
  rw [upMove, downMove, Bar.mirror, Bar.mirror, neg_sub_neg_eq, neg_sub_neg_eq]

theorem downMove_mirror (bar previous : Bar (Exact K)) :
    downMove bar.mirror previous.mirror = upMove bar previous := by
  rw [upMove, downMove, Bar.mirror, Bar.mirror, neg_sub_neg_eq, neg_sub_neg_eq]

/-- The index does not know a rise from a fall. -/
theorem directionalIndex_swap (range up down : Exact K) :
    directionalIndex range down up = directionalIndex range up down := by
  unfold directionalIndex
  dsimp only
  rw [add_comm, abs_sub_swap]

theorem directionalIndices_swap (p : Nat) (ranges ups downs : List (Exact K)) :
    directionalIndices p ranges downs ups = directionalIndices p ranges ups downs := by
  rw [directionalIndices, directionalIndices, ← List.zip_swap (ups.drop p), List.zip_map_right,
    List.map_map]
  exact List.map_congr_left fun move _ => directionalIndex_swap move.1 move.2.1 move.2.2

theorem indexSeries_mirror (p : Nat) (bars : List (Bar (Exact K))) :
    indexSeries p (bars.map Bar.mirror) = indexSeries p bars := by
  have hups : List.zipWith upMove (bars.map Bar.mirror).tail (bars.map Bar.mirror) =
      List.zipWith downMove bars.tail bars :=
    (steps_map (g := id) upMove_mirror bars).trans (List.map_id _)
  have hdowns : List.zipWith downMove (bars.map Bar.mirror).tail (bars.map Bar.mirror) =
      List.zipWith upMove bars.tail bars :=
    (steps_map (g := id) downMove_mirror bars).trans (List.map_id _)
  rw [indexSeries, indexSeries, laterTrueRanges_mirror, hups, hdowns, directionalIndices_swap]

theorem adx_mirror (bars : List (Bar (Exact K))) (period : Int) :
    adx (bars.map Bar.mirror) period = adx bars period := by
  rw [adx_eq_checked, adx_eq_checked, List.length_map]
  simp only [indexSeries_mirror]

/-! Strengths -/

/-- The average gains of prices, from the place of the first strength on. -/
def averageGains (p : Nat) (prices : List (Exact K)) : List (Exact K) :=
  averages p ((changes prices).map gain)

/-- The average losses of prices, from the place of the first strength on. -/
def averageLosses (p : Nat) (prices : List (Exact K)) : List (Exact K) :=
  averages p ((changes prices).map loss)

/-- Whether the average gain and the average loss at a place of the prices are both zero. -/
def StandsStill (p : Nat) (prices : List (Exact K)) (i : Nat) : Prop :=
  p ≤ i ∧ (averageGains p prices)[i - p]? = some 0 ∧ (averageLosses p prices)[i - p]? = some 0

theorem gain_neg (change : Exact K) : gain (-change) = loss change := by
  rw [gain, loss, less_zero_neg]

theorem loss_neg (change : Exact K) : loss (-change) = gain change := by
  rw [gain, loss, less_neg_zero, neg_neg]

theorem changes_neg (prices : List (Exact K)) :
    changes (prices.map Neg.neg) = (changes prices).map Neg.neg := by
  rw [funext neg_eq_scale, changes_scale]

theorem averageGains_neg (p : Nat) (prices : List (Exact K)) :
    averageGains p (prices.map Neg.neg) = averageLosses p prices := by
  rw [averageGains, averageLosses, changes_neg, List.map_map]
  exact congrArg (averages p) (List.map_congr_left fun change _ => gain_neg change)

theorem averageLosses_neg (p : Nat) (prices : List (Exact K)) :
    averageLosses p (prices.map Neg.neg) = averageGains p prices := by
  rw [averageGains, averageLosses, changes_neg, List.map_map]
  exact congrArg (averages p) (List.map_congr_left fun change _ => loss_neg change)

/-- The share of the gains in all that was gained and lost. -/
theorem strength_known {x y : K} (hx : 0 ≤ x) (hy : 0 ≤ y) (h : x + y ≠ 0) :
    strength (Exact.known x) (Exact.known y) = Exact.known (100 * x / (x + y)) := by
  rw [strength, isZero_known]
  split_ifs with hzero
  · have hy0 : y = 0 := of_decide_eq_true hzero
    rw [hy0, add_zero] at h ⊢
    rw [hundred_eq, mul_div_cancel_right₀ _ h]
  · have hne : y ≠ 0 := by simpa using hzero
    have hpos : 0 < x + y := lt_of_le_of_ne (add_nonneg hx hy) h.symm
    have hone : 1 + x / y = (x + y) / y := by
      rw [add_div, div_self hne, add_comm]
    have hone' : (x + y) / y ≠ 0 := div_ne_zero h hne
    rw [hundred_eq, ofInt_eq, known_div x hne, Int.cast_one, known_add, hone, known_div _ hone',
      known_sub]
    refine congrArg Exact.known ?_
    field_simp
    ring

theorem strength_swap {averageGain averageLoss : Exact K} (hgain : IsNonneg averageGain)
    (hloss : IsNonneg averageLoss) (h : ¬(averageGain = 0 ∧ averageLoss = 0)) :
    strength averageLoss averageGain = hundred - strength averageGain averageLoss := by
  obtain ⟨x, hx, rfl⟩ := hgain
  obtain ⟨y, hy, rfl⟩ := hloss
  have hne : x + y ≠ 0 := by
    intro hsum
    obtain ⟨rfl, rfl⟩ := (add_eq_zero_iff_of_nonneg hx hy).mp hsum
    exact h ⟨rfl, rfl⟩
  have hne' : y + x ≠ 0 := by rwa [add_comm]
  rw [strength_known hx hy hne, strength_known hy hx hne', hundred_eq, known_sub, add_comm y]
  refine congrArg Exact.known ?_
  field_simp
  ring

/-- Two strengths lie opposite each other on the scale, or nothing was gained or lost. -/
theorem rsiSeries_neg {p : Nat} (hp : 1 ≤ p) (prices : List (Exact K)) (i : Nat) :
    (¬StandsStill p prices i → (rsiSeries p (prices.map Neg.neg))[i]? =
      (rsiSeries p prices)[i]?.map (hundred - ·)) ∧
    (StandsStill p prices i →
      (rsiSeries p (prices.map Neg.neg))[i]? = (rsiSeries p prices)[i]?) := by
  have hseries : ∀ prices : List (Exact K), rsiSeries p prices = missingSeries p ++
      List.zipWith strength (averageGains p prices) (averageLosses p prices) := rsiSeries_eq p
  have hlength : (missingSeries p : List (Exact K)).length = p := List.length_replicate
  rw [hseries, hseries, averageGains_neg, averageLosses_neg]
  rcases Nat.lt_or_ge i p with hlt | hge
  · -- no strength has begun, and what is missing stays missing
    rw [List.getElem?_append_left (by omega), List.getElem?_append_left (by omega), missingSeries,
      List.getElem?_replicate, if_pos hlt]
    exact ⟨fun _ => rfl, fun _ => rfl⟩
  · rw [List.getElem?_append_right (by omega), List.getElem?_append_right (by omega), hlength,
      List.getElem?_zipWith, List.getElem?_zipWith]
    constructor
    · intro hmoved
      cases hgain : (averageGains p prices)[i - p]? with
      | none => cases (averageLosses p prices)[i - p]? <;> rfl
      | some averageGain =>
        cases hloss : (averageLosses p prices)[i - p]? with
        | none => rfl
        | some averageLoss =>
          have hgain' : IsNonneg averageGain :=
            isNonneg_averages_gain hp (changes prices) _ (List.mem_of_getElem? hgain)
          have hloss' : IsNonneg averageLoss :=
            isNonneg_averages_loss hp (changes prices) _ (List.mem_of_getElem? hloss)
          refine congrArg some (strength_swap hgain' hloss' ?_)
          rintro ⟨rfl, rfl⟩
          exact hmoved ⟨hge, hgain, hloss⟩
    · rintro ⟨-, hgain, hloss⟩
      rw [hgain, hloss]

theorem rsi_error_iff (prices : List (Exact K)) (period : Int) (failure : Failure) :
    rsi (prices.map Neg.neg) period = .error failure ↔ rsi prices period = .error failure := by
  rw [rsi, rsi, List.length_map]
  cases checkPeriod .rsi prices.length period (period + 1) with
  | error _ => exact Iff.rfl
  | ok _ => exact iff_of_false nofun nofun

theorem rsi_neg {prices values : List (Exact K)} {period : Int}
    (h : rsi prices period = .ok values) :
    ∃ values', rsi (prices.map Neg.neg) period = .ok values' ∧ ∀ i,
      (¬StandsStill period.toNat prices i → values'[i]? = values[i]?.map (hundred - ·)) ∧
      (StandsStill period.toNat prices i → values'[i]? = values[i]?) := by
  obtain ⟨p, rfl, hp, hlength, rfl⟩ := rsi_eq_ok.mp h
  rw [← List.length_map (f := Neg.neg)] at hlength
  exact ⟨_, rsi_eq_ok.mpr ⟨p, rfl, hp, hlength, rfl⟩, rsiSeries_neg hp prices⟩

/-! Places in windows -/

theorem lowest_neg (xs : List (Exact K)) : lowest (xs.map Neg.neg) = -highest xs := by
  rw [lowest_eq, highest_eq]
  exact extreme_map rfl smaller_neg xs

theorem highest_neg (xs : List (Exact K)) : highest (xs.map Neg.neg) = -lowest xs := by
  rw [lowest_eq, highest_eq]
  exact extreme_map rfl larger_neg xs

/-- The distances of a close from both ends of a range make up the range. -/
theorem place_swap (floor ceiling close : Exact K) :
    (if isZero (ceiling - floor) then ofInt 50
      else (ceiling - close) / (ceiling - floor) * hundred) =
    hundred - if isZero (ceiling - floor) then ofInt 50
      else (close - floor) / (ceiling - floor) * hundred := by
  split_ifs with hzero
  · rw [hundred_eq, ofInt_eq, known_sub]
    exact congrArg Exact.known (by norm_num)
  · cases ceiling with
    | missing => cases close <;> cases floor <;> rfl
    | known c =>
      cases floor with
      | missing => cases close <;> rfl
      | known f =>
        cases close with
        | missing => rfl
        | known z =>
          have hne : c - f ≠ 0 := by simpa [known_sub, isZero_known] using hzero
          rw [known_sub, known_sub, known_sub, known_div _ hne, known_div _ hne, hundred_eq,
            known_mul, known_mul, known_sub]
          refine congrArg Exact.known ?_
          field_simp
          ring

theorem rawStochastic_mirror (window : List (Bar (Exact K))) :
    rawStochastic (window.map Bar.mirror) = hundred - rawStochastic window := by
  have hlow : lowest ((window.map Bar.mirror).map (·.low)) = -highest (window.map (·.high)) := by
    rw [← lowest_neg, List.map_map, List.map_map]
    rfl
  have hhigh : highest ((window.map Bar.mirror).map (·.high)) = -lowest (window.map (·.low)) := by
    rw [← highest_neg, List.map_map, List.map_map]
    rfl
  rw [rawStochastic, rawStochastic, hlow, hhigh, neg_sub_neg_eq, List.getLast?_map]
  cases window.getLast? with
  | none => rfl
  | some last =>
    have hclose : last.mirror.close - -highest (window.map (·.high)) =
        highest (window.map (·.high)) - last.close := neg_sub_neg_eq _ _
    dsimp only [Option.map_some]
    rw [hclose]
    exact place_swap _ _ _

theorem sma_complement (prices : List (Exact K)) (period : Int) :
    sma (prices.map (hundred - ·)) period = List.map (hundred - ·) <$> sma prices period := by
  refine sma_map rfl (fun p window hp hlength => ?_) prices period
  rw [hundred_eq]
  exact mean_map_sub hp 100 hlength

theorem stochastic_mirror (bars : List (Bar (Exact K))) (period smoothK smoothD : Int) :
    stochastic (bars.map Bar.mirror) period smoothK smoothD =
      Stochastic.map (hundred - ·) <$> stochastic bars period smoothK smoothD := by
  have hraw : ∀ p : Nat, trailing p rawStochastic (bars.map Bar.mirror) =
      (trailing p rawStochastic bars).map (hundred - ·) :=
    fun p => trailing_map rfl (fun window _ => rawStochastic_mirror window) bars
  simp only [stochastic, List.length_map, hraw, sma_complement, bind_map_left, map_bind, map_pure,
    Stochastic.map]

/-! Bands and volumes -/

theorem deviation_neg (p : Nat) (window : List (Exact K)) :
    deviation p (window.map Neg.neg) = deviation p window := by
  rw [deviation, deviation, funext neg_eq_scale, variance_scale, neg_mul_neg, one_mul, scale_one]

theorem bollingerBands_neg (prices : List (Exact K)) (period : Int) (width : Exact K) :
    bollingerBands (prices.map Neg.neg) period width =
      Bands.mirror <$> bollingerBands prices period width := by
  have hmean : ∀ (p : Nat) (window : List (Exact K)),
      mean p (window.map Neg.neg) = -mean p window := by
    intro p window
    rw [funext neg_eq_scale, mean_map_scale]
  have hmiddle : ∀ p : Nat, trailing p (mean p) (prices.map Neg.neg) =
      (trailing p (mean p) prices).map Neg.neg :=
    fun p => trailing_map rfl (fun window _ => hmean p window) prices
  have hupper : ∀ p : Nat, trailing p (fun window => mean p window + width * deviation p window)
      (prices.map Neg.neg) =
      (trailing p (fun window => mean p window - width * deviation p window) prices).map
        Neg.neg := by
    refine fun p => trailing_map rfl (fun window _ => ?_) prices
    rw [hmean, deviation_neg, neg_sub_eq]
  have hlower : ∀ p : Nat, trailing p (fun window => mean p window - width * deviation p window)
      (prices.map Neg.neg) =
      (trailing p (fun window => mean p window + width * deviation p window) prices).map
        Neg.neg := by
    refine fun p => trailing_map rfl (fun window _ => ?_) prices
    rw [hmean, deviation_neg, neg_add_eq]
  rw [bollingerBands, bollingerBands, List.length_map, map_bind]
  simp only [hupper, hmiddle, hlower, map_pure, Bands.mirror]

theorem typicalPrice_mirror (bar : Bar (Exact K)) :
    typicalPrice bar.mirror = scale (-1) (typicalPrice bar) := by
  rw [typicalPrice, typicalPrice, scale_div, scale_add, scale_add, ← neg_eq_scale, ← neg_eq_scale,
    ← neg_eq_scale, add_comm (-bar.high)]
  rfl

theorem vwap_mirror (bars : List (Bar (Exact K))) :
    vwap (bars.map Bar.mirror) = List.map Neg.neg <$> vwap bars := by
  rw [funext neg_eq_scale]
  exact vwap_scale (-1) one_ne_zero typicalPrice_mirror (fun _ => (one_mul _).symm) bars

/-- What a step adds to the balance, it takes away in the mirror. -/
theorem nextBalance_mirror (level : Exact K) (previous : Bar (Exact K)) (balance : Exact K)
    (bar : Bar (Exact K)) :
    nextBalance previous.mirror (level - balance) bar.mirror =
      (level - ·) <$> nextBalance previous balance bar := by
  have hrise : less previous.mirror.close bar.mirror.close = less bar.close previous.close :=
    less_neg previous.close bar.close
  have hfall : less bar.mirror.close previous.mirror.close = less previous.close bar.close :=
    less_neg bar.close previous.close
  have htraded : volumeOf bar.mirror = volumeOf bar := rfl
  rw [nextBalance, nextBalance, hrise, hfall, obvFrom.moved, obvFrom.moved, obvFrom.moved,
    obvFrom.moved, htraded]
  split_ifs with hfalls hrises hrises
  · rw [less_asymm hfalls] at hrises
    contradiction
  · exact congrArg Except.ok (sub_sub_eq level balance _).symm
  · exact congrArg Except.ok (sub_add_eq level balance _).symm
  · rfl

theorem obv_mirror (bars : List (Bar (Exact K))) :
    obv (bars.map Bar.mirror) = overturned <$> obv bars := by
  cases bars with
  | nil => rfl
  | cons first rest =>
    -- the mirrored balances start from the same volume, which is its own mirror image
    have hstart : Exact.known (first.volume : K) =
        Exact.known 2 * Exact.known (first.volume : K) - Exact.known (first.volume : K) := by
      rw [known_mul, known_sub, two_mul, add_sub_cancel_right]
    have hrest := obvFrom_map (nextBalance_mirror (Exact.known 2 * Exact.known (first.volume : K)))
      first (Exact.known (first.volume : K)) rest
    rw [← hstart] at hrest
    rw [List.map_cons, obv_cons, obv_cons]
    refine (congrArg (List.cons _ <$> ·) hrest).trans ?_
    rw [Functor.map_map, Functor.map_map]
    exact congrArg (· <$> _) (funext fun values => congrArg (· :: _) hstart)

/-- Prices turned upside down, in exact arithmetic, for any prices and any parameters. Averages
change their sign, bands change places, the stochastic oscillator and the strengths turn round at
the middle of their scale, unless nothing was gained or lost, and the balance turns round at its
first value. Rates of change, ranges and the directional index do not change. -/
theorem indicators_reflect (prices : List (Exact K)) (bars : List (Bar (Exact K))) :
    (∀ period, sma (prices.map Neg.neg) period = List.map Neg.neg <$> sma prices period) ∧
    (∀ period, ema (prices.map Neg.neg) period = List.map Neg.neg <$> ema prices period) ∧
    (∀ period, wma (prices.map Neg.neg) period = List.map Neg.neg <$> wma prices period) ∧
    vwap (bars.map Bar.mirror) = List.map Neg.neg <$> vwap bars ∧
    (∀ fast slow signal, macd (prices.map Neg.neg) fast slow signal =
      Macd.map Neg.neg <$> macd prices fast slow signal) ∧
    (∀ period width, bollingerBands (prices.map Neg.neg) period width =
      Bands.mirror <$> bollingerBands prices period width) ∧
    (∀ period smoothK smoothD, stochastic (bars.map Bar.mirror) period smoothK smoothD =
      Stochastic.map (hundred - ·) <$> stochastic bars period smoothK smoothD) ∧
    (∀ period failure,
      rsi (prices.map Neg.neg) period = .error failure ↔ rsi prices period = .error failure) ∧
    (∀ period values, rsi prices period = .ok values →
      ∃ values', rsi (prices.map Neg.neg) period = .ok values' ∧ ∀ i,
        (¬StandsStill period.toNat prices i → values'[i]? = values[i]?.map (hundred - ·)) ∧
        (StandsStill period.toNat prices i → values'[i]? = values[i]?)) ∧
    obv (bars.map Bar.mirror) = overturned <$> obv bars ∧
    (∀ period, roc (prices.map Neg.neg) period = roc prices period) ∧
    trueRange (bars.map Bar.mirror) = trueRange bars ∧
    (∀ period, atr (bars.map Bar.mirror) period = atr bars period) ∧
    (∀ period, adx (bars.map Bar.mirror) period = adx bars period) := by
  refine ⟨?_, ?_, ?_, vwap_mirror bars, ?_, bollingerBands_neg prices, stochastic_mirror bars,
    rsi_error_iff prices, fun _ _ h => rsi_neg h, obv_mirror bars, ?_, trueRange_mirror bars,
    atr_mirror bars, adx_mirror bars⟩
  all_goals rw [funext neg_eq_scale]
  · exact sma_scale (-1) prices
  · exact ema_scale (-1) prices
  · exact wma_scale (-1) prices
  · exact macd_scale (-1) prices
  · exact roc_scale (neg_ne_zero.mpr one_ne_zero) prices

/-- Twice as much gained as lost is a strength of two thirds, and of one third upside down. -/
theorem rsi_of_mirrored_rationals : ∃ values,
    rsi (([1, 3, 2] : List ℚ).map Exact.known) 2 = .ok values ∧
    values[2]? = some (.known (200 / 3)) ∧ ¬StandsStill 2 (([1, 3, 2] : List ℚ).map Exact.known) 2 ∧
    ∃ values', rsi ((([1, 3, 2] : List ℚ).map Exact.known).map Neg.neg) 2 = .ok values' ∧
      values'[2]? = some (.known (100 / 3)) := by
  have hvalues : rsi (([1, 3, 2] : List ℚ).map Exact.known) 2 =
      .ok [.missing, .missing, .known (200 / 3)] := by decide +kernel
  have hmoved : ¬StandsStill 2 (([1, 3, 2] : List ℚ).map Exact.known) 2 := by
    rintro ⟨-, hgain, -⟩
    have hone : (averageGains 2 (([1, 3, 2] : List ℚ).map Exact.known))[0]? =
        some (.known 1) := by decide +kernel
    rw [Nat.sub_self, hone] at hgain
    exact absurd hgain (by decide +kernel)
  obtain ⟨values', hvalues', hplaces⟩ :=
    (indicators_reflect (([1, 3, 2] : List ℚ).map Exact.known) []).2.2.2.2.2.2.2.2.1 2 _ hvalues
  refine ⟨_, hvalues, rfl, hmoved, values', hvalues', ?_⟩
  rw [(hplaces 2).1 hmoved]
  decide +kernel

end Indicator

end Bourse
