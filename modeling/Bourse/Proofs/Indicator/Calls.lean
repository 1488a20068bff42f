import Bourse.Proofs.Indicator.Trend

/-! What calls give. Each of these lemmas says for which periods and for how many values a call
gives anything, and spells out what that is. -/
namespace Bourse.Indicator

variable {α : Type} [Scalar α]

open Scalar Series

theorem sma_eq_ok {prices line : List α} {period : Int} :
    sma prices period = .ok line ↔
      ∃ p : Nat, period = p ∧ 1 ≤ p ∧ period ≤ prices.length ∧ line = trailing p (mean p) prices :=
  checked_eq_ok

theorem sma_of_le {p : Nat} {prices : List α} (hpos : 1 ≤ p) (hlength : p ≤ prices.length) :
    sma prices p = .ok (trailing p (mean p) prices) :=
  sma_eq_ok.mpr ⟨p, rfl, hpos, Int.ofNat_le.mpr hlength, rfl⟩

theorem ema_of_le {p : Nat} {prices : List α} (hpos : 1 ≤ p) (hlength : p ≤ prices.length) :
    ema prices p = .ok (emaSeries p prices) :=
  ema_eq_ok.mpr ⟨p, rfl, hpos, hlength, rfl⟩

theorem wma_eq_ok {prices line : List α} {period : Int} :
    wma prices period = .ok line ↔
      ∃ p : Nat, period = p ∧ 1 ≤ p ∧ period ≤ prices.length ∧ line =
        trailing p (fun window => weightedSum window / ofInt (p * (p + 1) / 2 : Nat)) prices :=
  checked_eq_ok

/-- The strengths of prices behind the first `p` changes. -/
def rsiSeries (p : Nat) (prices : List α) : List α :=
  let averageGain := mean p (((changes prices).take p).map gain)
  let averageLoss := mean p (((changes prices).take p).map loss)
  missingSeries p ++ strength averageGain averageLoss ::
    strengthsFrom p averageGain averageLoss ((changes prices).drop p)

theorem rsi_eq_ok {prices line : List α} {period : Int} :
    rsi prices period = .ok line ↔
      ∃ p : Nat, period = p ∧ 1 ≤ p ∧ period + 1 ≤ prices.length ∧ line = rsiSeries p prices :=
  checked_eq_ok

theorem roc_eq_ok {prices line : List α} {period : Int} :
    roc prices period = .ok line ↔
      ∃ p : Nat, period = p ∧ 1 ≤ p ∧ period + 1 ≤ prices.length ∧
        line = missingSeries p ++ List.zipWith percentChange prices (prices.drop p) :=
  checked_eq_ok

theorem bollingerBands_eq_ok {prices : List α} {period : Int} {width : α} {r : Bands α} :
    bollingerBands prices period width = .ok r ↔
      ∃ p : Nat, period = p ∧ 1 ≤ p ∧ period ≤ prices.length ∧ r =
        { upper := trailing p (fun window => mean p window + width * deviation p window) prices
          middle := trailing p (mean p) prices
          lower := trailing p (fun window => mean p window - width * deviation p window) prices } :=
  checked_eq_ok

theorem atr_eq_checked (bars : List (Bar α)) (period : Int) :
    atr bars period = (do
      let p ← checkPeriod .atr bars.length period (period + 1)
      return emaSeries p (trueRange bars)) := by
  refine checked_congr fun p hperiod hpos hlength => ?_
  have hranges : p ≤ (trueRange bars).length := by
    rw [length_trueRange]
    omega
  rw [hperiod, ema_of_le hpos hranges]
  rfl

theorem atr_eq_ok {bars : List (Bar α)} {line : List α} {period : Int} :
    atr bars period = .ok line ↔
      ∃ p : Nat, period = p ∧ 1 ≤ p ∧ period + 1 ≤ bars.length ∧
        line = emaSeries p (trueRange bars) := by
  rw [atr_eq_checked]
  exact checked_eq_ok

/-- The raw values averaged once. -/
def stochasticK (p q : Nat) (bars : List (Bar α)) : List α :=
  trailing q (mean q) (trailing p rawStochastic bars)

theorem length_stochasticK {p q : Nat} {bars : List (Bar α)} (hp : 1 ≤ p) (hq : 1 ≤ q)
    (hlength : max p q ≤ bars.length) : (stochasticK p q bars).length = bars.length := by
  have hraw : (trailing p rawStochastic bars).length = bars.length :=
    length_trailing rawStochastic hp (by omega)
  exact (length_trailing (mean q) hq (by omega)).trans hraw

theorem stochastic_eq_ok {bars : List (Bar α)} {period smoothK smoothD : Int} {r : Stochastic α} :
    stochastic bars period smoothK smoothD = .ok r ↔
      ∃ p q s : Nat, (period = p ∧ smoothK = q ∧ smoothD = s) ∧ (1 ≤ p ∧ 1 ≤ q ∧ 1 ≤ s) ∧
        max period (max smoothK smoothD) ≤ bars.length ∧
        r = ⟨stochasticK p q bars, trailing s (mean s) (stochasticK p q bars)⟩ := by
  constructor
  · intro h
    obtain ⟨p, hp, h⟩ := bind_eq_ok_iff.mp h
    obtain ⟨q, hq, h⟩ := bind_eq_ok_iff.mp h
    obtain ⟨s, hs, h⟩ := bind_eq_ok_iff.mp h
    obtain ⟨k, hk, h⟩ := bind_eq_ok_iff.mp h
    obtain ⟨d, hd, h⟩ := bind_eq_ok_iff.mp h
    cases h
    obtain ⟨rfl, hp', hpn⟩ := checkPeriod_eq_ok.mp hp
    obtain ⟨rfl, hq', hqn⟩ := checkPeriod_eq_ok.mp hq
    obtain ⟨rfl, hs', hsn⟩ := checkPeriod_eq_ok.mp hs
    obtain ⟨q', hq'', -, -, rfl⟩ := sma_eq_ok.mp hk
    obtain ⟨s', hs'', -, -, rfl⟩ := sma_eq_ok.mp hd
    cases Int.ofNat.inj hq''
    cases Int.ofNat.inj hs''
    exact ⟨p, q, s, ⟨rfl, rfl, rfl⟩, ⟨hp', hq', hs'⟩, by omega, rfl⟩
  · rintro ⟨p, q, s, ⟨rfl, rfl, rfl⟩, ⟨hp, hq, hs⟩, hlength, rfl⟩
    have hraw : (trailing p rawStochastic bars).length = bars.length :=
      length_trailing rawStochastic hp (by omega)
    have hk : (stochasticK p q bars).length = bars.length := length_stochasticK hp hq (by omega)
    refine bind_eq_ok_iff.mpr ⟨p, checkPeriod_eq_ok.mpr ⟨rfl, hp, by omega⟩, ?_⟩
    refine bind_eq_ok_iff.mpr ⟨q, checkPeriod_eq_ok.mpr ⟨rfl, hq, by omega⟩, ?_⟩
    refine bind_eq_ok_iff.mpr ⟨s, checkPeriod_eq_ok.mpr ⟨rfl, hs, by omega⟩, ?_⟩
    refine bind_eq_ok_iff.mpr ⟨stochasticK p q bars, sma_of_le hq (by omega), ?_⟩
    exact bind_eq_ok_iff.mpr ⟨_, sma_of_le hs (by omega), rfl⟩

/-- The difference of two averages. -/
def macdLine (p q : Nat) (prices : List α) : List α :=
  List.zipWith (· - ·) (emaSeries p prices) (emaSeries q prices)

theorem length_macdLine {p q : Nat} {prices : List α} (hp : 1 ≤ p) (hq : 1 ≤ q)
    (hlength : max p q ≤ prices.length) : (macdLine p q prices).length = prices.length := by
  rw [macdLine, List.length_zipWith, length_emaSeries hp (by omega), length_emaSeries hq (by omega),
    Nat.min_self]

theorem macd_eq_ok {prices : List α} {fast slow signal : Int} {r : Macd α} :
    macd prices fast slow signal = .ok r ↔
      ∃ p q : Nat, (fast = p ∧ slow = q) ∧ (1 ≤ p ∧ 1 ≤ q) ∧ max fast slow ≤ prices.length ∧
        ∃ signalled, signalLine (macdLine p q prices) signal = .ok signalled ∧
          r = ⟨macdLine p q prices, signalled,
            List.zipWith (· - ·) (macdLine p q prices) signalled⟩ := by
  constructor
  · intro h
    obtain ⟨-, -, h⟩ := bind_eq_ok_iff.mp h
    obtain ⟨fastLine, hfast, h⟩ := bind_eq_ok_iff.mp h
    obtain ⟨slowLine, hslow, h⟩ := bind_eq_ok_iff.mp h
    obtain ⟨signalled, hsignalled, h⟩ := bind_eq_ok_iff.mp h
    cases h
    obtain ⟨p, rfl, hp, hpn, rfl⟩ := ema_eq_ok.mp hfast
    obtain ⟨q, rfl, hq, hqn, rfl⟩ := ema_eq_ok.mp hslow
    exact ⟨p, q, ⟨rfl, rfl⟩, ⟨hp, hq⟩, by omega, signalled, hsignalled, rfl⟩
  · rintro ⟨p, q, ⟨rfl, rfl⟩, ⟨hp, hq⟩, hlength, signalled, hsignalled, rfl⟩
    refine bind_eq_ok_iff.mpr ⟨q, checkPeriod_eq_ok.mpr ⟨rfl, hq, by omega⟩, ?_⟩
    refine bind_eq_ok_iff.mpr ⟨emaSeries p prices, ema_of_le hp (by omega), ?_⟩
    refine bind_eq_ok_iff.mpr ⟨emaSeries q prices, ema_of_le hq (by omega), ?_⟩
    exact bind_eq_ok_iff.mpr ⟨signalled, hsignalled, rfl⟩

/-- The directional indices of bars. -/
def indexSeries (p : Nat) (bars : List (Bar α)) : List α :=
  directionalIndices p (emaSeries p (laterTrueRanges bars))
    (emaSeries p (List.zipWith upMove bars.tail bars))
    (emaSeries p (List.zipWith downMove bars.tail bars))

theorem length_indexSeries {p : Nat} {bars : List (Bar α)} (hpos : 1 ≤ p)
    (hlength : p + 1 ≤ bars.length) : (indexSeries p bars).length = bars.length - 1 - p := by
  have hsteps : ∀ step : Bar α → Bar α → α,
      (emaSeries p (List.zipWith step bars.tail bars)).length = bars.length - 1 := by
    intro step
    have hcount := length_steps step bars
    rw [length_emaSeries hpos (by omega), hcount]
  have hranges : (emaSeries p (laterTrueRanges bars)).length = bars.length - 1 := hsteps _
  rw [indexSeries, length_directionalIndices ((hsteps _).trans hranges.symm)
    ((hsteps _).trans hranges.symm), hranges]

theorem averageIndex_eq {length p : Nat} (hpos : 1 ≤ p) (index : List α) :
    averageIndex length p p index = .ok (if index.length < p then missingSeries length
      else missingSeries (p + 1) ++ emaSeries p index) := by
  unfold averageIndex
  split_ifs with hfew
  · rfl
  · rw [ema_of_le hpos (Nat.not_lt.mp hfew)]
    rfl

theorem adx_eq_checked (bars : List (Bar α)) (period : Int) :
    adx bars period = (do
      let p ← checkPeriod .adx bars.length period (period + 1)
      return if bars.length < 2 * p + 1 then missingSeries bars.length
        else missingSeries (p + 1) ++ emaSeries p (indexSeries p bars)) := by
  rw [adx_eq]
  refine checked_congr fun p hperiod hpos hlength => ?_
  have hsteps : ∀ step : Bar α → Bar α → α, ema (List.zipWith step bars.tail bars) period =
      .ok (emaSeries p (List.zipWith step bars.tail bars)) := by
    intro step
    have hcount := length_steps step bars
    rw [hperiod, ema_of_le hpos (by omega)]
  have hindex := length_indexSeries hpos (show p + 1 ≤ bars.length by omega)
  have hfew : (indexSeries p bars).length < p ↔ bars.length < 2 * p + 1 := by omega
  rw [laterTrueRanges, hsteps, hsteps, hsteps, hperiod]
  have haverage : averageIndex bars.length p p (indexSeries p bars) =
      .ok (if bars.length < 2 * p + 1 then missingSeries bars.length
        else missingSeries (p + 1) ++ emaSeries p (indexSeries p bars)) := by
    rw [averageIndex_eq hpos, if_congr hfew rfl rfl]
  exact haverage

theorem adx_eq_ok {bars : List (Bar α)} {line : List α} {period : Int} :
    adx bars period = .ok line ↔
      ∃ p : Nat, period = p ∧ 1 ≤ p ∧ period + 1 ≤ bars.length ∧ line =
        if bars.length < 2 * p + 1 then missingSeries bars.length
        else missingSeries (p + 1) ++ emaSeries p (indexSeries p bars) := by
  rw [adx_eq_checked]
  exact checked_eq_ok

end Bourse.Indicator
