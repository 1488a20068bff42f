import Bourse.Proofs.Indicator.LookAhead
import Bourse.Proofs.Indicator.Recurrence
import Bourse.Proofs.Number.Scale

/-! Averages of scaled prices. A factor, of either sign, goes through windows, exponential averages,
signals and weighted prices, and so through every indicator that is linear in its prices. -/
namespace Bourse

/-- The bar with its prices changed alike. -/
def Bar.mapPrices {α β : Type} (f : α → β) (bar : Bar α) : Bar β :=
  { bar with
    opening := f bar.opening
    high := f bar.high
    low := f bar.low
    close := f bar.close }

namespace Indicator

/-- The lines of the convergence with their numbers changed alike. -/
def Macd.map {α β : Type} (f : α → β) (r : Macd α) : Macd β :=
  ⟨r.macd.map f, r.signal.map f, r.histogram.map f⟩

/-- The bands with their numbers changed alike. -/
def Bands.map {α β : Type} (f : α → β) (r : Bands α) : Bands β :=
  ⟨r.upper.map f, r.middle.map f, r.lower.map f⟩

/-- The lines of the stochastic oscillator with their numbers changed alike. -/
def Stochastic.map {α β : Type} (f : α → β) (r : Stochastic α) : Stochastic β :=
  ⟨r.k.map f, r.d.map f⟩

variable {α β γ : Type}

/-! Runs -/

/-- A run over images gives images if every step does. -/
theorem runFrom_map {σ σ' β' γ' : Type} {step : σ → β → Except Failure (γ × σ)}
    {step' : σ' → β' → Except Failure (γ' × σ')} {f : σ → σ'} {g : γ → γ'} {h : β → β'}
    (hstep : ∀ state x, step' (f state) (h x) = Prod.map g f <$> step state x) (state : σ)
    (xs : List β) : runFrom step' (f state) (xs.map h) = List.map g <$> runFrom step state xs := by
  induction xs generalizing state with
  | nil => rfl
  | cons x rest ih =>
    rw [List.map_cons, runFrom, runFrom, hstep]
    simp only [bind_map_left, map_bind, Prod.map_fst, Prod.map_snd, ih, map_pure, List.map_cons]

variable [Scalar α]

open Exact Scalar Series

theorem map_missingSeries {f : α → α} (hf : f Scalar.missing = Scalar.missing) (n : Nat) :
    (missingSeries n).map f = missingSeries n := by
  rw [missingSeries, List.map_replicate, hf]

/-! Windows -/

theorem trailing_map {p : Nat} {figure : List β → α} {figure' : List γ → α} {f : β → γ}
    {g : α → α} (hmissing : g Scalar.missing = Scalar.missing)
    (hfigure : ∀ window, window.length = p → figure' (window.map f) = g (figure window))
    (xs : List β) : trailing p figure' (xs.map f) = (trailing p figure xs).map g := by
  rw [trailing, trailing, List.map_append, map_missingSeries hmissing, windows_eq, windows_eq,
    List.map_map, List.map_map, List.map_map, List.length_map]
  refine congrArg _ (List.map_congr_left fun i hi => ?_)
  have hi := List.mem_range.mp hi
  -- no more tails are taken than have a full window
  have hlength : ((xs.drop i).take p).length = p := by
    rw [List.length_take, List.length_drop]
    omega
  simpa only [Function.comp_apply, ← List.map_drop, ← List.map_take] using hfigure _ hlength

/-- A change that goes through means goes through the averages of windows. -/
theorem sma_map {f : α → α} (hmissing : f Scalar.missing = Scalar.missing)
    (hmean : ∀ p window, 1 ≤ p → window.length = p → mean p (window.map f) = f (mean p window))
    (prices : List α) (period : Int) :
    sma (prices.map f) period = List.map f <$> sma prices period := by
  rw [sma, sma, List.length_map, map_bind]
  refine checked_congr fun p _ hpos _ => ?_
  rw [trailing_map hmissing fun window => hmean p window hpos, map_pure]

/-! Extremes -/

/-- The number of a list that is left when one of two is chosen over and over. -/
def extreme (choose : α → α → α) : List α → α
  | [] => Scalar.missing
  | x :: rest => rest.foldl choose x

theorem lowest_eq (xs : List α) : lowest xs = extreme smaller xs := by
  cases xs <;> rfl

theorem highest_eq (xs : List α) : highest xs = extreme larger xs := by
  cases xs <;> rfl

theorem extreme_map {choose choose' : α → α → α} {f : α → α}
    (hmissing : f Scalar.missing = Scalar.missing)
    (hchoose : ∀ a b, choose' (f a) (f b) = f (choose a b)) (xs : List α) :
    extreme choose' (xs.map f) = f (extreme choose xs) := by
  cases xs with
  | nil => exact hmissing.symm
  | cons x rest =>
    rw [List.map_cons, extreme, extreme, List.foldl_map]
    exact List.foldl_hom f hchoose

/-! Scaled windows -/

variable {K : Type} [RootField K] (c : K)

theorem sma_scale (prices : List (Exact K)) (period : Int) :
    sma (prices.map (scale c)) period = List.map (scale c) <$> sma prices period :=
  sma_map (scale_missing c) (fun p window _ _ => mean_map_scale c p window) prices period

theorem weightedSum_scale (window : List (Exact K)) :
    weightedSum (window.map (scale c)) = scale c (weightedSum window) := by
  have hsum : ∀ xs : List (Exact K), weightedSum xs = Scalar.zero +
      (List.zipWith (fun price (i : Nat) => price * ofInt (i + 1)) xs
        (List.range xs.length)).sum := fun xs => foldl_add_eq _ _
  rw [hsum, hsum, scale_add, ← sum_map_scale, List.map_zipWith, List.length_map,
    List.zipWith_map_left, zero_eq, scale_zero]
  simp only [scale_mul]

theorem wma_scale (prices : List (Exact K)) (period : Int) :
    wma (prices.map (scale c)) period = List.map (scale c) <$> wma prices period := by
  rw [wma, wma, List.length_map, map_bind]
  refine checked_congr fun p _ _ _ => ?_
  rw [map_pure]
  refine congrArg pure (trailing_map (scale_missing c) (fun window _ => ?_) prices)
  rw [weightedSum_scale, scale_div]

/-! Exponential averages -/

theorem emaSeries_scale (p : Nat) (prices : List (Exact K)) :
    emaSeries p (prices.map (scale c)) = (emaSeries p prices).map (scale c) := by
  rw [emaSeries_eq, emaSeries_eq, List.map_append, map_missingSeries (scale_missing c), emaValues,
    emaValues, ← List.map_take, ← List.map_drop, mean_map_scale]
  refine congrArg _ (scanl_map_map (fun average price => ?_) _ _)
  rw [emaStep, emaStep, ← scale_sub, ← scale_mul, ← scale_add]

theorem ema_scale (prices : List (Exact K)) (period : Int) :
    ema (prices.map (scale c)) period = List.map (scale c) <$> ema prices period := by
  rw [ema, ema, List.length_map, map_bind]
  refine checked_congr fun p _ _ _ => ?_
  rw [emaSeries_scale, map_pure]

theorem signalLine_scale (line : List (Exact K)) (period : Int) :
    signalLine (line.map (scale c)) period = List.map (scale c) <$> signalLine line period := by
  -- no factor, not even zero, makes a value known or missing, so the signal begins at its place
  have hmissing : isMissing ∘ scale c = isMissing := funext (isMissing_scale c)
  have hknown : Indicator.known (line.map (scale c)) = (Indicator.known line).map (scale c) := by
    rw [Indicator.known, Indicator.known, List.filter_map]
    refine congrArg _ (List.filter_congr fun x _ => ?_)
    rw [Function.comp_apply, isMissing_scale]
  rw [signalLine_eq, signalLine_eq, hknown, List.takeWhile_map, List.dropWhile_map, hmissing,
    ema_scale]
  simp only [List.length_map, List.isEmpty_map]
  split_ifs
  · exact congrArg Except.ok (map_missingSeries (scale_missing c) _).symm
  · rfl
  · simp only [bind_map_left, map_bind, map_pure, List.map_append,
      map_missingSeries (scale_missing c)]

theorem zipWith_sub_scale (xs ys : List (Exact K)) :
    List.zipWith (· - ·) (xs.map (scale c)) (ys.map (scale c)) =
      (List.zipWith (· - ·) xs ys).map (scale c) := by
  rw [List.zipWith_map, List.map_zipWith]
  simp only [scale_sub]

theorem macd_scale (prices : List (Exact K)) (fast slow signal : Int) :
    macd (prices.map (scale c)) fast slow signal =
      Macd.map (scale c) <$> macd prices fast slow signal := by
  simp only [macd, List.length_map, ema_scale, bind_map_left, map_bind, zipWith_sub_scale,
    signalLine_scale, map_pure, Macd.map]

/-! Squares -/

theorem variance_scale (p : Nat) (window : List (Exact K)) :
    variance p (window.map (scale c)) = scale (c * c) (variance p window) := by
  have hsquares : ((window.map (scale c)).map fun x => x * x) =
      (window.map fun x => x * x).map (scale (c * c)) := by
    rw [List.map_map, List.map_map]
    exact List.map_congr_left fun x _ => scale_mul_scale c x x c
  rw [variance, variance, hsquares, mean_map_scale, mean_map_scale, scale_mul_scale, scale_sub]

/-! Changes -/

theorem changes_scale (prices : List (Exact K)) :
    changes (prices.map (scale c)) = (changes prices).map (scale c) :=
  steps_map (fun next last => (scale_sub c next last).symm) prices

theorem averages_scale (p : Nat) (values : List (Exact K)) :
    averages p (values.map (scale c)) = (averages p values).map (scale c) := by
  rw [averages, averages, ← List.map_take, ← List.map_drop, mean_map_scale]
  refine scanl_map_map (fun average value => ?_) _ _
  rw [smooth, smooth, ← scale_mul, ← scale_add, ← scale_div]

theorem strength_scale {c : K} (hc : c ≠ 0) (averageGain averageLoss : Exact K) :
    strength (scale c averageGain) (scale c averageLoss) = strength averageGain averageLoss := by
  rw [strength, strength, isZero_scale _ hc, scale_div_scale _ _ hc]

theorem roc_scale {c : K} (hc : c ≠ 0) (prices : List (Exact K)) (period : Int) :
    roc (prices.map (scale c)) period = roc prices period := by
  have hchange : ∀ base price : Exact K,
      percentChange (scale c base) (scale c price) = percentChange base price := by
    intro base price
    rw [percentChange, percentChange, isZero_scale base hc, ← scale_sub, scale_div_scale _ _ hc]
  rw [roc, roc, List.length_map]
  refine checked_congr fun p _ _ _ => ?_
  rw [← List.map_drop, List.zipWith_map]
  simp only [hchange]

/-! Volumes -/

theorem typicalPrice_scale (bar : Bar (Exact K)) :
    typicalPrice (bar.mapPrices (scale c)) = scale c (typicalPrice bar) := by
  rw [typicalPrice, typicalPrice, scale_div, scale_add, scale_add]
  rfl

/-- A step of the weighted average with its typical price taken `c` times and its volume `v` times,
and the totals so. -/
theorem averageStep_scale {v : K} (hv : v ≠ 0) {h : Bar (Exact K) → Bar (Exact K)}
    (hprice : ∀ bar, typicalPrice (h bar) = scale c (typicalPrice bar))
    (hvolume : ∀ bar, ((h bar).volume : K) = v * bar.volume) (totals : Exact K × Exact K)
    (bar : Bar (Exact K)) :
    averageStep (Prod.map (scale (c * v)) (scale v) totals) (h bar) =
      Prod.map (scale c) (Prod.map (scale (c * v)) (scale v)) <$> averageStep totals bar := by
  obtain ⟨turnover, volume⟩ := totals
  have hturnover : scale (c * v) turnover + typicalPrice (h bar) * .known (h bar).volume =
      scale (c * v) (turnover + typicalPrice bar * .known bar.volume) := by
    rw [hprice, hvolume, ← scale_known, scale_mul_scale, scale_add]
  have htraded : scale v volume + .known (h bar).volume =
      scale v (volume + .known bar.volume) := by
    rw [hvolume, ← scale_known, scale_add]
  -- both totals have the factor of the volume, so it leaves their quotient
  have haverage : ∀ a b : Exact K, scale (c * v) a / scale v b = scale c (a / b) := by
    intro a b
    rw [mul_comm, ← scale_scale, scale_div_scale _ _ hv, ← scale_div]
  have hstep : ∀ (totals : Exact K × Exact K) (bar : Bar (Exact K)), averageStep totals bar = .ok
      (if isZero (totals.2 + .known bar.volume) then typicalPrice bar
        else (totals.1 + typicalPrice bar * .known bar.volume) / (totals.2 + .known bar.volume),
        totals.1 + typicalPrice bar * .known bar.volume, totals.2 + .known bar.volume) :=
    fun _ _ => rfl
  rw [hstep, hstep, Prod.map_apply, hturnover, htraded, isZero_scale _ hv, haverage, hprice,
    ← apply_ite (scale c)]
  rfl

theorem vwap_scale {v : K} (hv : v ≠ 0) {h : Bar (Exact K) → Bar (Exact K)}
    (hprice : ∀ bar, typicalPrice (h bar) = scale c (typicalPrice bar))
    (hvolume : ∀ bar, ((h bar).volume : K) = v * bar.volume) (bars : List (Bar (Exact K))) :
    vwap (bars.map h) = List.map (scale c) <$> vwap bars := by
  have hstart : (Scalar.zero, Scalar.zero) =
      Prod.map (scale (c * v)) (scale v) ((Scalar.zero, Scalar.zero) : Exact K × Exact K) := by
    rw [Prod.map_apply, zero_eq, scale_zero, scale_zero]
  rw [vwap, vwap, vwapFrom_eq_runFrom, vwapFrom_eq_runFrom]
  conv_lhs => rw [hstart]
  exact runFrom_map (averageStep_scale c hv hprice hvolume) _ bars

theorem vwap_mapPrices (bars : List (Bar (Exact K))) :
    vwap (bars.map (Bar.mapPrices (scale c))) = List.map (scale c) <$> vwap bars :=
  vwap_scale c one_ne_zero (typicalPrice_scale c) (fun _ => (one_mul _).symm) bars

/-- Balances of images are images of balances if every step is. -/
theorem obvFrom_map {h : Bar (Exact K) → Bar (Exact K)} {g : Exact K → Exact K}
    (hstep : ∀ previous balance bar, nextBalance (h previous) (g balance) (h bar) =
      g <$> nextBalance previous balance bar)
    (previous : Bar (Exact K)) (balance : Exact K) (bars : List (Bar (Exact K))) :
    obvFrom (h previous) (g balance) (bars.map h) =
      List.map g <$> obvFrom previous balance bars := by
  -- over the bars, from any bar and balance on
  induction bars generalizing previous balance with
  | nil => rfl
  | cons bar rest ih =>
    rw [List.map_cons, obvFrom_cons, obvFrom_cons, hstep]
    simp only [bind_map_left, map_bind, ih, map_pure, List.map_cons]

theorem obv_cons (first : Bar (Exact K)) (rest : List (Bar (Exact K))) :
    obv (first :: rest) = List.cons (.known (first.volume : K)) <$>
      obvFrom first (.known (first.volume : K)) rest := by
  rw [map_eq_pure_bind]
  rfl

theorem obv_scale {v : K} {h : Bar (Exact K) → Bar (Exact K)}
    (hclose : ∀ a b, less (h a).close (h b).close = less a.close b.close)
    (hvolume : ∀ bar, ((h bar).volume : K) = v * bar.volume) (bars : List (Bar (Exact K))) :
    obv (bars.map h) = List.map (scale v) <$> obv bars := by
  have htraded : ∀ bar, volumeOf (h bar) = scale v <$> volumeOf bar :=
    fun bar => congrArg (fun volume => Except.ok (Exact.known volume)) (hvolume bar)
  have hstep : ∀ previous balance bar, nextBalance (h previous) (scale v balance) (h bar) =
      scale v <$> nextBalance previous balance bar := by
    intro previous balance bar
    rw [nextBalance, nextBalance, hclose, hclose, obvFrom.moved, obvFrom.moved, obvFrom.moved,
      obvFrom.moved, htraded]
    split_ifs
    · exact congrArg Except.ok (scale_add v balance _).symm
    · exact congrArg Except.ok (scale_sub v balance _).symm
    · rfl
  cases bars with
  | nil => rfl
  | cons first rest =>
    rw [List.map_cons, obv, obv, htraded]
    simp only [bind_map_left, map_bind, obvFrom_map hstep, map_pure, List.map_cons]

end Indicator

end Bourse
