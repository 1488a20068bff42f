import Bourse.Proofs.Indicator.LookAhead
import Bourse.Proofs.Indicator.Known

/-! Where indicators are defined. In exact arithmetic and with every price known, each indicator is
accepted exactly for positive periods that fit the values, and has numbers exactly from the place on
where all windows that it rests on are full. -/
namespace Bourse.Indicator

variable {K β ρ : Type}

open Exact Scalar Series

/-- A call is accepted exactly under a condition, and a line of it has as many numbers as there are
values, of which those at some places are known. -/
structure Defined (call : Except Failure ρ) (line : ρ → List (Exact K)) (length : Nat)
    (accepted : Prop) (places : Nat → Prop) : Prop where
  accepts : (∃ r, call = .ok r) ↔ accepted
  length_eq : ∀ r, call = .ok r → (line r).length = length
  known : ∀ r, call = .ok r → KnownAt places (line r)

/-- A steady call that is accepted for positive periods that fit. -/
theorem defined_of_steady {call : List β → Except Failure ρ} {line : ρ → List (Exact K)}
    (hsteady : Steady call line) {xs : List β} {length : Nat} (hxs : xs.length = length)
    {period required : Int} {f : Nat → ρ} {places : Nat → Prop}
    (hcall : ∀ r, call xs = .ok r ↔
      ∃ p : Nat, period = p ∧ 1 ≤ p ∧ required ≤ xs.length ∧ r = f p)
    (hknown : ∀ p : Nat, period = p → 1 ≤ p → required ≤ length → KnownAt places (line (f p))) :
    Defined (call xs) line length (1 ≤ period ∧ required ≤ length) places := by
  subst hxs
  refine ⟨?_, fun r hr => hsteady.length_eq hr, ?_⟩
  · constructor
    · rintro ⟨r, hr⟩
      obtain ⟨p, rfl, hpos, hrequired, -⟩ := (hcall r).mp hr
      exact ⟨by omega, hrequired⟩
    · rintro ⟨hpos, hrequired⟩
      exact ⟨_, (hcall _).mpr ⟨period.toNat, by omega, by omega, hrequired, rfl⟩⟩
  · intro r hr
    obtain ⟨p, hperiod, hpos, hrequired, rfl⟩ := (hcall r).mp hr
    exact hknown p hperiod hpos hrequired

theorem IsKnownLine.defined {call : Except Failure (List (Exact K))} {length : Nat}
    (h : IsKnownLine call length) : Defined call id length True fun _ => True := by
  obtain ⟨line, hline, hlength, hknown⟩ := h
  refine ⟨iff_of_true ⟨line, hline⟩ trivial, fun r hr => ?_, fun r hr => ?_⟩
  · cases hline.symm.trans hr
    exact hlength
  · cases hline.symm.trans hr
    exact (knownFrom_zero.mpr hknown).congr fun i _ => by simp

variable [RootField K]

/-! Prices -/

section Prices

variable (prices : List K) (period : Int)

theorem sma_defined : Defined (sma (prices.map Exact.known) period) id prices.length
    (1 ≤ period ∧ period ≤ prices.length) fun i => period - 1 ≤ i := by
  refine defined_of_steady (steady_sma period) (List.length_map _) (fun _ => sma_eq_ok) ?_
  rintro p rfl hpos -
  have hknown : KnownFrom 0 (prices.map Exact.known) :=
    knownFrom_zero.mpr (isKnown_of_mem_map prices)
  exact (hknown.trailing_mean hpos).congr fun i _ => by omega

theorem ema_defined : Defined (ema (prices.map Exact.known) period) id prices.length
    (1 ≤ period ∧ period ≤ prices.length) fun i => period - 1 ≤ i := by
  refine defined_of_steady (steady_ema period) (List.length_map _) (fun _ => checked_eq_ok) ?_
  rintro p rfl hpos -
  exact (knownFrom_emaSeries hpos (isKnown_of_mem_map prices)).congr fun i _ => by omega

theorem wma_defined : Defined (wma (prices.map Exact.known) period) id prices.length
    (1 ≤ period ∧ period ≤ prices.length) fun i => period - 1 ≤ i := by
  refine defined_of_steady (steady_wma period) (List.length_map _) (fun _ => wma_eq_ok) ?_
  rintro p rfl hpos -
  -- the weights of a window add up to a positive number
  have hweights : 1 ≤ p * (p + 1) / 2 := by
    rw [Nat.le_div_iff_mul_le two_pos]
    nlinarith
  refine (knownFrom_trailing_of_known hpos (isKnown_of_mem_map prices) ?_).congr fun i _ => by omega
  intro window h
  exact (isKnown_weightedSum h).div_ofNat hweights

theorem bollingerBands_defined (width : K) (line : Bands (Exact K) → List (Exact K))
    (hline : line ∈ [Bands.upper, Bands.middle, Bands.lower]) :
    Defined (bollingerBands (prices.map Exact.known) period (.known width)) line prices.length
      (1 ≤ period ∧ period ≤ prices.length) fun i => period - 1 ≤ i := by
  obtain ⟨hupper, hmiddle, hlower⟩ := steady_bollingerBands period (.known width : Exact K)
  -- every line is a figure of windows that is made of their mean and their deviation
  have hfigure : ∀ (p : Nat) (figure : List (Exact K) → Exact K), period = p → 1 ≤ p →
      (∀ window : List (Exact K), (∀ x ∈ window, x.IsKnown) → (figure window).IsKnown) →
      KnownAt (fun i => period - 1 ≤ i) (trailing p figure (prices.map Exact.known)) := by
    rintro p figure rfl hpos hfigure
    have hline := knownFrom_trailing_of_known hpos (isKnown_of_mem_map prices) hfigure
    exact hline.congr fun i _ => by omega
  have hspread : ∀ (p : Nat), 1 ≤ p → ∀ window : List (Exact K), (∀ x ∈ window, x.IsKnown) →
      (mean p window).IsKnown ∧ (Exact.known width * deviation p window).IsKnown := by
    intro p hpos window h
    exact ⟨(isKnown_mean hpos).mpr h, (isKnown_known width).mul (isKnown_deviation hpos h)⟩
  simp only [List.mem_cons, List.not_mem_nil, or_false] at hline
  rcases hline with rfl | rfl | rfl
  · refine defined_of_steady hupper (List.length_map _) (fun _ => bollingerBands_eq_ok) ?_
    intro p hperiod hpos _
    refine hfigure p _ hperiod hpos fun window h => ?_
    obtain ⟨hmean, hwidth⟩ := hspread p hpos window h
    exact hmean.add hwidth
  · refine defined_of_steady hmiddle (List.length_map _) (fun _ => bollingerBands_eq_ok) ?_
    intro p hperiod hpos _
    exact hfigure p _ hperiod hpos fun window h => (hspread p hpos window h).1
  · refine defined_of_steady hlower (List.length_map _) (fun _ => bollingerBands_eq_ok) ?_
    intro p hperiod hpos _
    refine hfigure p _ hperiod hpos fun window h => ?_
    obtain ⟨hmean, hwidth⟩ := hspread p hpos window h
    exact hmean.sub hwidth

theorem rsi_defined : Defined (rsi (prices.map Exact.known) period) id prices.length
    (1 ≤ period ∧ period + 1 ≤ prices.length) fun i => period ≤ i := by
  refine defined_of_steady (steady_rsi period) (List.length_map _) (fun _ => rsi_eq_ok) ?_
  rintro p rfl hpos -
  exact (knownFrom_rsiSeries hpos _).congr fun i _ => by omega

theorem roc_defined : Defined (roc (prices.map Exact.known) period) id prices.length
    (1 ≤ period ∧ period + 1 ≤ prices.length)
    fun i => period ≤ i ∧ ∃ base, prices[((i : Int) - period).toNat]? = some base ∧ base ≠ 0 := by
  refine defined_of_steady (steady_roc period) (List.length_map _) (fun _ => roc_eq_ok) ?_
  rintro p rfl hpos -
  intro i x hi
  have hlength : (missingSeries p : List (Exact K)).length = p := List.length_replicate
  rcases Nat.lt_or_ge i p with hlt | hge
  · -- no base yet
    rw [id, List.getElem?_append_left (by omega), missingSeries, List.getElem?_replicate,
      if_pos hlt] at hi
    cases hi
    exact iff_of_false not_isKnown_missing (by omega)
  · rw [id, List.getElem?_append_right (by omega), hlength] at hi
    obtain ⟨last, price, hlast, hprice, rfl⟩ := List.getElem?_zipWith_eq_some.mp hi
    have hprice' : price.IsKnown :=
      isKnown_of_mem_map prices price (List.mem_of_mem_drop (List.mem_of_getElem? hprice))
    rw [List.getElem?_map] at hlast
    obtain ⟨base, hbase, rfl⟩ := Option.map_eq_some_iff.mp hlast
    have hplace : ((i : Int) - p).toNat = i - p := by omega
    dsimp only
    rw [isKnown_percentChange (isKnown_known base) hprice', isZero_known, decide_eq_false_iff_not,
      hplace, hbase]
    constructor
    · intro hne
      exact ⟨by omega, base, rfl, hne⟩
    · rintro ⟨-, other, hother, hne⟩
      cases hother
      exact hne

theorem knownFrom_macdLine {p q : Nat} (hp : 1 ≤ p) (hq : 1 ≤ q) :
    KnownFrom (max p q - 1) (macdLine p q (prices.map Exact.known)) := by
  have hknown := isKnown_of_mem_map prices
  have hline := (knownFrom_emaSeries hp hknown).zipWith (knownFrom_emaSeries hq hknown)
    fun _ _ => isKnown_sub
  exact hline.congr fun i _ => by omega

theorem macd_accepts (fast slow signal : Int) :
    (∃ r, macd (prices.map Exact.known) fast slow signal = .ok r) ↔
      1 ≤ fast ∧ 1 ≤ slow ∧ 1 ≤ signal ∧ max fast slow ≤ prices.length := by
  have hprices : (prices.map Exact.known).length = prices.length := List.length_map _
  constructor
  · rintro ⟨r, hr⟩
    obtain ⟨p, q, ⟨rfl, rfl⟩, ⟨hp, hq⟩, hlength, signalled, hsignalled, -⟩ := macd_eq_ok.mp hr
    have hfits : max p q ≤ (prices.map Exact.known).length := by omega
    have hline := length_macdLine hp hq hfits
    have hsignal := (signalLine_knownFrom (knownFrom_macdLine prices hp hq) (by omega)).1.mp
      ⟨signalled, hsignalled⟩
    exact ⟨by omega, by omega, hsignal, by omega⟩
  · rintro ⟨hfast, hslow, hsignal, hlength⟩
    obtain ⟨p, rfl⟩ : ∃ p : Nat, fast = p := ⟨fast.toNat, by omega⟩
    obtain ⟨q, rfl⟩ : ∃ q : Nat, slow = q := ⟨slow.toNat, by omega⟩
    have hp : 1 ≤ p := by omega
    have hq : 1 ≤ q := by omega
    have hfits : max p q ≤ (prices.map Exact.known).length := by omega
    have hline := length_macdLine hp hq hfits
    obtain ⟨signalled, hsignalled⟩ :=
      (signalLine_knownFrom (knownFrom_macdLine prices hp hq) (by omega)).1.mpr hsignal
    exact ⟨_, macd_eq_ok.mpr ⟨p, q, ⟨rfl, rfl⟩, ⟨hp, hq⟩, by omega, signalled, hsignalled, rfl⟩⟩

/-- The three lines have a number for each price; the line is known where both averages are, and its
signal and the difference from it as many places later as an average takes. -/
theorem macd_known {fast slow signal : Int} {r : Macd (Exact K)}
    (hr : macd (prices.map Exact.known) fast slow signal = .ok r) :
    (r.macd.length = prices.length ∧ KnownAt (fun i => max fast slow - 1 ≤ i) r.macd) ∧
      (r.signal.length = prices.length ∧
        KnownAt (fun i => max fast slow + signal - 2 ≤ i) r.signal) ∧
      (r.histogram.length = prices.length ∧
        KnownAt (fun i => max fast slow + signal - 2 ≤ i) r.histogram) := by
  have hprices : (prices.map Exact.known).length = prices.length := List.length_map _
  obtain ⟨p, q, ⟨rfl, rfl⟩, ⟨hp, hq⟩, hfits, signalled, hsignalled, rfl⟩ := macd_eq_ok.mp hr
  have hline := knownFrom_macdLine prices hp hq
  have hfits' : max p q ≤ (prices.map Exact.known).length := by omega
  have hlength := length_macdLine hp hq hfits'
  obtain ⟨haccepts, hsignals⟩ := signalLine_knownFrom hline (by omega)
  have hsignal : 1 ≤ signal := haccepts.mp ⟨signalled, hsignalled⟩
  obtain ⟨hlengthSignal, hknown⟩ := hsignals signalled hsignalled
  have hhistogram := hline.zipWith hknown fun _ _ => isKnown_sub
  refine ⟨⟨hlength.trans hprices, hline.congr fun i _ => by omega⟩,
    ⟨hlengthSignal.trans (hlength.trans hprices), hknown.congr fun i _ => by omega⟩, ?_,
    hhistogram.congr fun i _ => by omega⟩
  rw [List.length_zipWith, hlengthSignal, Nat.min_self, hlength, hprices]

theorem macd_defined (fast slow signal : Int) :
    Defined (macd (prices.map Exact.known) fast slow signal) Macd.macd prices.length
      (1 ≤ fast ∧ 1 ≤ slow ∧ 1 ≤ signal ∧ max fast slow ≤ prices.length)
      (fun i => max fast slow - 1 ≤ i) ∧
    ∀ line ∈ [Macd.signal, Macd.histogram],
      Defined (macd (prices.map Exact.known) fast slow signal) line prices.length
        (1 ≤ fast ∧ 1 ≤ slow ∧ 1 ≤ signal ∧ max fast slow ≤ prices.length)
        (fun i => max fast slow + signal - 2 ≤ i) := by
  have haccepts := macd_accepts prices fast slow signal
  refine ⟨⟨haccepts, fun r hr => (macd_known prices hr).1.1,
    fun r hr => (macd_known prices hr).1.2⟩, ?_⟩
  intro line hline
  simp only [List.mem_cons, List.not_mem_nil, or_false] at hline
  rcases hline with rfl | rfl
  · exact ⟨haccepts, fun r hr => (macd_known prices hr).2.1.1,
      fun r hr => (macd_known prices hr).2.1.2⟩
  · exact ⟨haccepts, fun r hr => (macd_known prices hr).2.2.1,
      fun r hr => (macd_known prices hr).2.2.2⟩

end Prices

/-! Bars -/

section Bars

variable (bars : List (Bar K)) (period : Int)

theorem atr_defined : Defined (atr (bars.map Bar.exact) period) id bars.length
    (1 ≤ period ∧ period + 1 ≤ bars.length) fun i => period - 1 ≤ i := by
  refine defined_of_steady (steady_atr period) (List.length_map _) (fun _ => atr_eq_ok) ?_
  rintro p rfl hpos -
  have hranges := isKnown_trueRange (hasPrices_exact bars)
  exact (knownFrom_emaSeries hpos hranges).congr fun i _ => by omega

theorem adx_defined : Defined (adx (bars.map Bar.exact) period) id bars.length
    (1 ≤ period ∧ period + 1 ≤ bars.length) fun i => 2 * period ≤ i := by
  refine defined_of_steady (steady_adx period) (List.length_map _) (fun _ => adx_eq_ok) ?_
  rintro p rfl hpos -
  rw [id]
  split_ifs with hfew
  · -- a line that is too short for the second average has no place from `2 * p` on
    have hknown : KnownFrom (2 * p) (missingSeries (bars.map Bar.exact).length : List (Exact K)) :=
      knownFrom_missingSeries (by omega)
    exact hknown.congr fun i _ => by omega
  · have hindex := fun x hx => (isIn_indexSeries hpos (hasPrices_exact bars) x hx).isKnown
    exact ((knownFrom_emaSeries hpos hindex).missing_append (p + 1)).congr fun i _ => by omega

theorem knownFrom_stochasticK {p q : Nat} (hp : 1 ≤ p) (hq : 1 ≤ q) :
    KnownFrom (p - 1 + (q - 1)) (stochasticK p q (bars.map Bar.exact)) := by
  have hraw : KnownFrom (p - 1) (trailing p rawStochastic (bars.map Bar.exact)) := by
    apply knownFrom_trailing hp
    intro start hfits
    apply isKnown_rawStochastic
    · rw [← List.length_pos_iff, List.length_take, List.length_drop]
      omega
    · intro bar hbar
      exact hasPrices_exact bars bar (List.mem_of_mem_drop (List.mem_of_mem_take hbar))
  exact hraw.trailing_mean hq

theorem stochastic_defined (smoothK smoothD : Int) :
    Defined (stochastic (bars.map Bar.exact) period smoothK smoothD) Stochastic.k bars.length
      (1 ≤ period ∧ 1 ≤ smoothK ∧ 1 ≤ smoothD ∧ max period (max smoothK smoothD) ≤ bars.length)
      (fun i => period + smoothK - 2 ≤ i) ∧
    Defined (stochastic (bars.map Bar.exact) period smoothK smoothD) Stochastic.d bars.length
      (1 ≤ period ∧ 1 ≤ smoothK ∧ 1 ≤ smoothD ∧ max period (max smoothK smoothD) ≤ bars.length)
      (fun i => period + smoothK + smoothD - 3 ≤ i) := by
  have hbars : (bars.map Bar.exact).length = bars.length := List.length_map _
  have haccepts : (∃ r, stochastic (bars.map Bar.exact) period smoothK smoothD = .ok r) ↔
      1 ≤ period ∧ 1 ≤ smoothK ∧ 1 ≤ smoothD ∧
        max period (max smoothK smoothD) ≤ bars.length := by
    constructor
    · rintro ⟨r, hr⟩
      obtain ⟨p, q, s, ⟨rfl, rfl, rfl⟩, ⟨hp, hq, hs⟩, hfits, -⟩ := stochastic_eq_ok.mp hr
      exact ⟨by omega, by omega, by omega, by omega⟩
    · rintro ⟨hperiod, hsmoothK, hsmoothD, hfits⟩
      exact ⟨_, stochastic_eq_ok.mpr ⟨period.toNat, smoothK.toNat, smoothD.toNat,
        ⟨by omega, by omega, by omega⟩, ⟨by omega, by omega, by omega⟩, by omega, rfl⟩⟩
  obtain ⟨hk, hd⟩ := steady_stochastic (α := Exact K) period smoothK smoothD
  refine ⟨⟨haccepts, fun r hr => ?_, fun r hr => ?_⟩, ⟨haccepts, fun r hr => ?_, fun r hr => ?_⟩⟩
  · exact (hk.length_eq hr).trans hbars
  · obtain ⟨p, q, s, ⟨rfl, rfl, rfl⟩, ⟨hp, hq, hs⟩, -, rfl⟩ := stochastic_eq_ok.mp hr
    exact (knownFrom_stochasticK bars hp hq).congr fun i _ => by omega
  · exact (hd.length_eq hr).trans hbars
  · obtain ⟨p, q, s, ⟨rfl, rfl, rfl⟩, ⟨hp, hq, hs⟩, -, rfl⟩ := stochastic_eq_ok.mp hr
    exact ((knownFrom_stochasticK bars hp hq).trailing_mean hs).congr fun i _ => by omega

theorem trueRange_defined :
    Defined (.ok (trueRange (bars.map Bar.exact))) id bars.length True fun _ => True := by
  refine ⟨iff_of_true ⟨_, rfl⟩ trivial, fun r hr => ?_, fun r hr => ?_⟩
  · cases hr
    exact (length_trueRange _).trans (List.length_map _)
  · cases hr
    exact (knownFrom_zero.mpr (isKnown_trueRange (hasPrices_exact bars))).congr fun i _ => by simp

theorem obv_defined : Defined (obv (bars.map Bar.exact)) id bars.length True fun _ => True := by
  have hline := isKnownLine_obv (bars.map Bar.exact)
  rw [List.length_map] at hline
  exact hline.defined

theorem vwap_defined : Defined (vwap (bars.map Bar.exact)) id bars.length True fun _ => True := by
  have hline := isKnownLine_vwap (hasPrices_exact bars)
  rw [List.length_map] at hline
  exact hline.defined

end Bars

/-- Where indicators are defined. In exact arithmetic and for prices that are all known, a call
gives lines exactly if each of its periods is positive and there are as many values as it requires.
Each line has a number for each value, and the known ones are those at the places given here. -/
theorem indicators_defined (prices : List K) (bars : List (Bar K)) :
    (∀ period : Int,
      Defined (sma (prices.map Exact.known) period) id prices.length
        (1 ≤ period ∧ period ≤ prices.length) (fun i => period - 1 ≤ i) ∧
      Defined (ema (prices.map Exact.known) period) id prices.length
        (1 ≤ period ∧ period ≤ prices.length) (fun i => period - 1 ≤ i) ∧
      Defined (wma (prices.map Exact.known) period) id prices.length
        (1 ≤ period ∧ period ≤ prices.length) (fun i => period - 1 ≤ i) ∧
      (∀ width, ∀ line ∈ [Bands.upper, Bands.middle, Bands.lower],
        Defined (bollingerBands (prices.map Exact.known) period (.known width)) line prices.length
          (1 ≤ period ∧ period ≤ prices.length) (fun i => period - 1 ≤ i)) ∧
      Defined (rsi (prices.map Exact.known) period) id prices.length
        (1 ≤ period ∧ period + 1 ≤ prices.length) (fun i => period ≤ i) ∧
      Defined (roc (prices.map Exact.known) period) id prices.length
        (1 ≤ period ∧ period + 1 ≤ prices.length) (fun i =>
          period ≤ i ∧ ∃ base, prices[((i : Int) - period).toNat]? = some base ∧ base ≠ 0) ∧
      Defined (atr (bars.map Bar.exact) period) id bars.length
        (1 ≤ period ∧ period + 1 ≤ bars.length) (fun i => period - 1 ≤ i) ∧
      Defined (adx (bars.map Bar.exact) period) id bars.length
        (1 ≤ period ∧ period + 1 ≤ bars.length) (fun i => 2 * period ≤ i)) ∧
    (∀ period smoothK smoothD : Int,
      Defined (stochastic (bars.map Bar.exact) period smoothK smoothD) Stochastic.k bars.length
        (1 ≤ period ∧ 1 ≤ smoothK ∧ 1 ≤ smoothD ∧ max period (max smoothK smoothD) ≤ bars.length)
        (fun i => period + smoothK - 2 ≤ i) ∧
      Defined (stochastic (bars.map Bar.exact) period smoothK smoothD) Stochastic.d bars.length
        (1 ≤ period ∧ 1 ≤ smoothK ∧ 1 ≤ smoothD ∧ max period (max smoothK smoothD) ≤ bars.length)
        (fun i => period + smoothK + smoothD - 3 ≤ i)) ∧
    (∀ fast slow signal : Int,
      Defined (macd (prices.map Exact.known) fast slow signal) Macd.macd prices.length
        (1 ≤ fast ∧ 1 ≤ slow ∧ 1 ≤ signal ∧ max fast slow ≤ prices.length)
        (fun i => max fast slow - 1 ≤ i) ∧
      ∀ line ∈ [Macd.signal, Macd.histogram],
        Defined (macd (prices.map Exact.known) fast slow signal) line prices.length
          (1 ≤ fast ∧ 1 ≤ slow ∧ 1 ≤ signal ∧ max fast slow ≤ prices.length)
          (fun i => max fast slow + signal - 2 ≤ i)) ∧
    Defined (.ok (trueRange (bars.map Bar.exact))) id bars.length True (fun _ => True) ∧
    Defined (obv (bars.map Bar.exact)) id bars.length True (fun _ => True) ∧
    Defined (vwap (bars.map Bar.exact)) id bars.length True (fun _ => True) := by
  refine ⟨fun period => ?_, stochastic_defined bars, macd_defined prices, trueRange_defined bars,
    obv_defined bars, vwap_defined bars⟩
  exact ⟨sma_defined prices period, ema_defined prices period, wma_defined prices period,
    bollingerBands_defined prices period, rsi_defined prices period, roc_defined prices period,
    atr_defined bars period, adx_defined bars period⟩

/-- Averages over two and three prices and a signal over two of their differences: four prices give
the signal its first number at the last place, and two prices are refused. -/
theorem macd_defined_of_rationals :
    (∃ r : Macd (Exact ℚ), macd ([1, 2, 4, 8].map Exact.known) 2 3 2 = .ok r ∧
      r.signal.length = 4 ∧ KnownAt (fun i => 3 ≤ i) r.signal) ∧
    ¬∃ r : Macd (Exact ℚ), macd ([1, 2].map Exact.known) 2 3 2 = .ok r := by
  have hmany := ((indicators_defined ([1, 2, 4, 8] : List ℚ) []).2.2.1 2 3 2).2 Macd.signal (by simp)
  have hfew := ((indicators_defined ([1, 2] : List ℚ) []).2.2.1 2 3 2).1
  constructor
  · obtain ⟨r, hr⟩ := hmany.accepts.mpr (by decide)
    refine ⟨r, hr, hmany.length_eq r hr, (hmany.known r hr).congr fun i _ => ?_⟩
    omega
  · rw [hfew.accepts]
    decide

end Bourse.Indicator
