import Bourse.Proofs.Indicator.Known
import Bourse.Proofs.Indicator.LookAhead

/-! The weights of averages. In exact arithmetic an average is a mean of the prices that it is made
of, with weights that its period and the places of the prices settle, and so it lies between the
least and the greatest of them. -/
namespace Bourse.Indicator

variable {K : Type} [RootField K]

open Exact Scalar Series

/-! Weights -/

/-- The weights of a window in the simple average. -/
def smaWeights (p : Nat) : List K := List.replicate p (1 / (p : K))

/-- The weights of a window in the weighted average, oldest price first. -/
def wmaWeights (p : Nat) : List K :=
  (List.range p).map fun j => ((j + 1 : Nat) : K) / (p * (p + 1) / 2 : Nat)

/-- The weights of the first `p` prices and of the `n` prices behind them in an average that goes a
part `k` of the way to each of these, oldest price first. -/
def emaWeights (k : K) (p n : Nat) : List K :=
  List.replicate p ((1 - k) ^ n / p) ++ (List.range n).map fun j => k * (1 - k) ^ (n - 1 - j)

/-- The volumes of bars. -/
def volumes (bars : List (Bar (Exact K))) : List K := bars.map fun bar => (bar.volume : K)

/-- The parts that bars have in their volume. -/
def volumeWeights (bars : List (Bar (Exact K))) : List K :=
  (volumes bars).map (· / (volumes bars).sum)

/-- The numbers of a line from a place on are means, with the weights of their places, of the values
at their places, and lie between the least and the greatest of these. -/
def AveragesFrom (first : Nat) (weights : Nat → List K) (values : Nat → List (Exact K))
    (numbers : List (Exact K)) : Prop :=
  ∀ i x, numbers[i]? = some x → i < first ∧ x = .missing ∨
    first ≤ i ∧ IsMeanOf (weights i) (values i) x ∧ IsWithin (values i) x

/-! Windows -/

theorem averagesFrom_trailing {p : Nat} (hp : 1 ≤ p) {figure : List (Exact K) → Exact K}
    {weights : List K} (hfigure : ∀ window : List (Exact K), window.length = p →
      IsMeanOf weights window (figure window)) (prices : List (Exact K)) :
    AveragesFrom (p - 1) (fun _ => weights) (fun i => (prices.drop (i + 1 - p)).take p)
      (trailing p figure prices) := by
  intro i x hi
  rcases getElem?_trailing hp hi with ⟨hlt, rfl⟩ | ⟨hge, hfits, rfl⟩
  · exact .inl ⟨by omega, rfl⟩
  · have hlength : ((prices.drop (i + 1 - p)).take p).length = p := by
      rw [List.length_take, List.length_drop]
      omega
    have hmean := hfigure _ hlength
    exact .inr ⟨by omega, hmean, hmean.isWithin⟩

theorem cast_triangle (p : Nat) : ((p * (p + 1) / 2 : Nat) : K) = p * (p + 1) / 2 := by
  rw [Nat.cast_div (Nat.even_mul_succ_self p).two_dvd two_ne_zero]
  push_cast
  rfl

theorem sum_positions (p : Nat) :
    ((List.range p).map fun j => ((j + 1 : Nat) : K)).sum = (p * (p + 1) / 2 : Nat) := by
  rw [cast_triangle]
  induction p with
  | zero => simp
  | succ p ih =>
    rw [List.range_succ, List.map_append, List.sum_append, ih, List.map_singleton,
      List.sum_singleton]
    push_cast
    ring

theorem weightedSum_eq (window : List (Exact K)) : weightedSum window =
    weighted ((List.range window.length).map fun j => ((j + 1 : Nat) : K)) window := by
  have hsum : weightedSum window = Scalar.zero + (List.zipWith
      (fun price (j : Nat) => price * ofInt (j + 1)) window (List.range window.length)).sum :=
    foldl_add_eq _ _
  have hterm (price : Exact K) (j : Nat) :
      price * ofInt (j + 1) = scale ((j + 1 : Nat) : K) price := by
    rw [scale, mul_comm, ofInt_eq]
    push_cast
    rfl
  rw [hsum, zero_eq, zero_add, weighted, List.zipWith_map_left, List.zipWith_comm]
  simp only [hterm]

theorem isMeanOf_weightedSum {p : Nat} (hp : 1 ≤ p) {window : List (Exact K)}
    (h : window.length = p) : IsMeanOf (wmaWeights p) window
      (weightedSum window / ofInt (p * (p + 1) / 2 : Nat)) := by
  have hlength : ((List.range p).map fun j => ((j + 1 : Nat) : K)).length = window.length := by
    rw [List.length_map, List.length_range, h]
  have hnonneg : ∀ w ∈ (List.range p).map fun j => ((j + 1 : Nat) : K), 0 ≤ w := by
    intro w hw
    obtain ⟨j, -, rfl⟩ := List.mem_map.mp hw
    exact Nat.cast_nonneg _
  have hpos : 0 < p * (p + 1) / 2 := Nat.div_pos (by nlinarith) two_pos
  have hne : ((p * (p + 1) / 2 : Nat) : K) ≠ 0 := Nat.cast_ne_zero.mpr hpos.ne'
  have hmean := isMeanOf_shares hlength hnonneg (sum_positions p) hne
  rw [List.map_map] at hmean
  rwa [weightedSum_eq, ofInt_eq, Int.cast_natCast, h]

/-! Exponential averages -/

theorem emaWeights_zero (k : K) (p : Nat) :
    emaWeights k p 0 = List.replicate p (1 / (p : K)) := by
  rw [emaWeights, pow_zero, List.range_zero, List.map_nil, List.append_nil]

/-- One price more takes its part and leaves the others theirs of the rest. -/
theorem emaWeights_succ (k : K) (p n : Nat) :
    emaWeights k p (n + 1) = (emaWeights k p n).map ((1 - k) * ·) ++ [k] := by
  have hfront : (1 - k) * ((1 - k) ^ n / p) = (1 - k) ^ (n + 1) / p := by
    rw [pow_succ', mul_div_assoc]
  have hlater : ∀ j ∈ List.range n,
      k * (1 - k) ^ (n + 1 - 1 - j) = (1 - k) * (k * (1 - k) ^ (n - 1 - j)) := by
    intro j hj
    have hpower : n + 1 - 1 - j = n - 1 - j + 1 := by
      have := List.mem_range.mp hj
      omega
    rw [hpower, pow_succ', mul_left_comm]
  rw [emaWeights, emaWeights, List.range_succ, List.map_append, List.map_singleton,
    List.map_append, List.map_replicate, List.map_map, hfront, List.map_congr_left hlater,
    Nat.add_sub_cancel, Nat.sub_self, pow_zero, mul_one, List.append_assoc]
  rfl

/-- The average behind some prices is a mean of all of them from the first on. -/
theorem isMeanOf_ema {p : Nat} (hp : 1 ≤ p) {front : List (Exact K)} (hfront : front.length = p)
    (later : List (Exact K)) : IsMeanOf (emaWeights (2 / (p + 1) : K) p later.length)
      (front ++ later) (later.foldl (emaStep p) (mean p front)) := by
  -- from the end of the list, since the newest price is the one that a step adds
  induction later using List.reverseRecOn with
  | nil =>
    rw [List.length_nil, List.append_nil, List.foldl_nil, emaWeights_zero]
    exact isMeanOf_mean hp hfront
  | append_singleton later price ih =>
    rw [List.length_append, List.length_singleton, emaWeights_succ, ← List.append_assoc,
      List.foldl_append, List.foldl_cons, List.foldl_nil, emaStep, emaFactor_eq]
    exact ih.towards (emaFactor_mem hp) price

theorem averagesFrom_emaSeries {p : Nat} (hp : 1 ≤ p) {prices : List (Exact K)}
    (hlength : p ≤ prices.length) : AveragesFrom (p - 1)
      (fun i => emaWeights (2 / (p + 1) : K) p (i + 1 - p)) (fun i => prices.take (i + 1))
      (emaSeries p prices) := by
  intro i x hi
  rcases Nat.lt_or_ge i (p - 1) with hlt | hge
  · rw [getElem?_emaSeries_of_lt prices hlt] at hi
    exact .inl ⟨hlt, (Option.some.inj hi).symm⟩
  · have hmissing : (missingSeries (p - 1) : List (Exact K)).length = p - 1 := List.length_replicate
    rw [emaSeries_eq, List.getElem?_append_right (by omega), hmissing, emaValues,
      List.getElem?_scanl] at hi
    split_ifs at hi with hfits
    have hx := Option.some.inj hi
    rw [List.length_drop] at hfits
    have hcount : ((prices.drop p).take (i - (p - 1))).length = i + 1 - p := by
      rw [List.length_take, List.length_drop]
      omega
    -- the first window and the prices behind it are all prices so far
    have hprices : prices.take p ++ (prices.drop p).take (i - (p - 1)) = prices.take (i + 1) := by
      rw [← List.take_add]
      congr 1
      omega
    have hmean := isMeanOf_ema hp (List.length_take_of_le hlength)
      ((prices.drop p).take (i - (p - 1)))
    rw [hcount, hprices, hx] at hmean
    exact .inr ⟨hge, hmean, hmean.isWithin⟩

/-! Prices by volume -/

theorem weighted_volumes_cons (bar : Bar (Exact K)) (bars : List (Bar (Exact K))) :
    weighted (volumes (bar :: bars)) ((bar :: bars).map typicalPrice) =
      typicalPrice bar * .known (bar.volume : K) +
        weighted (volumes bars) (bars.map typicalPrice) := by
  rw [mul_comm]
  rfl

theorem sum_volumes_cons (bar : Bar (Exact K)) (bars : List (Bar (Exact K))) :
    (volumes (bar :: bars)).sum = bar.volume + (volumes bars).sum := List.sum_cons

/-- The price by volume at a bar divides the turnover of the bars so far by their volume. -/
theorem vwapFrom_place {turnover : Exact K} {volume : K} {bars : List (Bar (Exact K))}
    {numbers : List (Exact K)} (h : vwapFrom turnover (.known volume) bars = .ok numbers)
    {i : Nat} {x : Exact K} (hi : numbers[i]? = some x) : ∃ bar, bars[i]? = some bar ∧
      x = if volume + (volumes (bars.take (i + 1))).sum = 0 then typicalPrice bar
        else (turnover + weighted (volumes (bars.take (i + 1)))
          ((bars.take (i + 1)).map typicalPrice)) /
            .known (volume + (volumes (bars.take (i + 1))).sum) := by
  induction bars generalizing turnover volume numbers i with
  | nil =>
    cases h
    contradiction
  | cons bar rest ih =>
    rw [vwapFrom_eq_runFrom] at h
    obtain ⟨out, tail, hout, htail, rfl⟩ := runFrom_cons_eq_ok.mp h
    obtain rfl := Except.ok.inj hout
    -- what the first bar adds to the totals of the tail is what it adds to the sums of the line
    rw [← vwapFrom_eq_runFrom, known_add] at htail
    rw [List.take_succ_cons, weighted_volumes_cons, sum_volumes_cons, ← add_assoc, ← add_assoc]
    cases i with
    | zero =>
      refine ⟨bar, rfl, ?_⟩
      rw [← Option.some.inj hi, known_add, isZero_known, List.take_zero]
      simp [volumes, weighted]
    | succ i =>
      obtain ⟨other, hother, hx⟩ := ih htail hi
      exact ⟨other, hother, hx⟩

/-- In exact arithmetic every volume is a number, so there is a line for any bars. -/
theorem exists_vwap (bars : List (Bar (Exact K))) :
    ∃ numbers, vwap bars = .ok numbers ∧ numbers.length = bars.length := by
  have hvolumes : ∀ bar ∈ bars, HasVolume bar := fun _ _ => rfl
  have hstep : ∀ (totals : Exact K × Exact K) (bar : Bar (Exact K)), HasVolume bar →
      ∃ out, averageStep totals bar = .ok out := by
    intro totals bar hbar
    obtain ⟨traded, htraded⟩ := hbar.volumeOf
    exact ⟨_, bind_eq_ok_iff.mpr ⟨traded, htraded, rfl⟩⟩
  obtain ⟨numbers, hnumbers⟩ := exists_runFrom hstep hvolumes (Scalar.zero, Scalar.zero)
  rw [← vwapFrom_eq_runFrom] at hnumbers
  exact ⟨numbers, hnumbers, (vwap_noLookAhead bars [] numbers hnumbers nofun).1⟩

theorem sum_volumes_eq_zero_iff {bars : List (Bar (Exact K))} (h : ∀ bar ∈ bars, 0 ≤ bar.volume) :
    (volumes bars).sum = 0 ↔ ∀ bar ∈ bars, bar.volume = 0 := by
  have hnonneg : ∀ v ∈ volumes bars, 0 ≤ v :=
    List.forall_mem_map.mpr fun bar hbar => Int.cast_nonneg (h bar hbar)
  constructor
  · intro hsum bar hbar
    have hmem : (bar.volume : K) ∈ volumes bars := List.mem_map_of_mem hbar
    exact Int.cast_eq_zero.mp (List.all_zero_of_le_zero_le_of_sum_eq_zero hnonneg hsum hmem)
  · intro hzero
    apply List.sum_eq_zero
    refine List.forall_mem_map.mpr fun bar hbar => ?_
    rw [hzero bar hbar, Int.cast_zero]

/-- The prices by volume of bars: the mean of the typical prices so far, each weighted by its part
of the volume, once anything was traded, and the typical price before. -/
def AveragesByVolume (bars : List (Bar (Exact K))) (numbers : List (Exact K)) : Prop :=
  ∀ i bar x, bars[i]? = some bar → numbers[i]? = some x →
    ((∃ earlier ∈ bars.take (i + 1), 0 < earlier.volume) →
      IsMeanOf (volumeWeights (bars.take (i + 1))) ((bars.take (i + 1)).map typicalPrice) x) ∧
    ((∀ earlier ∈ bars.take (i + 1), earlier.volume = 0) → x = typicalPrice bar) ∧
    IsWithin ((bars.take (i + 1)).map typicalPrice) x

theorem averagesByVolume_vwap {bars : List (Bar (Exact K))} (h : ∀ bar ∈ bars, 0 ≤ bar.volume)
    {numbers : List (Exact K)} (hnumbers : vwap bars = .ok numbers) :
    AveragesByVolume bars numbers := by
  intro i bar x hbar hx
  let sofar := bars.take (i + 1)
  have hsofar : ∀ earlier ∈ sofar, 0 ≤ earlier.volume :=
    fun earlier hearlier => h earlier (List.mem_of_mem_take hearlier)
  have hbarmem : bar ∈ sofar := by
    apply List.mem_of_getElem? (i := i)
    rw [List.getElem?_take_of_lt (Nat.lt_succ_self i), hbar]
  have hstart : vwapFrom 0 (.known 0) bars = .ok numbers := by
    rw [vwap, zero_eq] at hnumbers
    exact hnumbers
  obtain ⟨found, hfound, hvalue⟩ := vwapFrom_place hstart hx
  obtain rfl := Option.some.inj (hbar.symm.trans hfound)
  rw [zero_add, zero_add] at hvalue
  -- volumes are not negative, so their sum is zero just as long as nothing was traded
  by_cases hsum : (volumes sofar).sum = 0
  · have hall := (sum_volumes_eq_zero_iff hsofar).mp hsum
    rw [if_pos hsum] at hvalue
    refine ⟨?_, fun _ => hvalue, ?_⟩
    · rintro ⟨earlier, hearlier, hpos⟩
      exact absurd (hall earlier hearlier) hpos.ne'
    · rw [hvalue]
      exact isWithin_of_mem (List.mem_map_of_mem hbarmem)
  · have hmean : IsMeanOf (volumeWeights sofar) (sofar.map typicalPrice) x := by
      rw [if_neg hsum] at hvalue
      rw [hvalue]
      refine isMeanOf_shares ?_ ?_ rfl hsum
      · rw [volumes, List.length_map, List.length_map]
      · exact List.forall_mem_map.mpr fun bar hbar => Int.cast_nonneg (hsofar bar hbar)
    exact ⟨fun _ => hmean, fun hall => absurd ((sum_volumes_eq_zero_iff hsofar).mpr hall) hsum,
      hmean.isWithin⟩

/-- Averages are weighted means. The weights depend on the period and the places of the prices only,
or on the volumes, and so no average leaves the range of what it averages. -/
theorem averages_are_weighted_means (prices numbers : List (Exact K)) (period : Int) :
    (sma prices period = .ok numbers → ∃ p : Nat, period = p ∧ 1 ≤ p ∧
      numbers.length = prices.length ∧
      AveragesFrom (p - 1) (fun _ => smaWeights p) (fun i => (prices.drop (i + 1 - p)).take p)
        numbers) ∧
    (wma prices period = .ok numbers → ∃ p : Nat, period = p ∧ 1 ≤ p ∧
      numbers.length = prices.length ∧
      AveragesFrom (p - 1) (fun _ => wmaWeights p) (fun i => (prices.drop (i + 1 - p)).take p)
        numbers) ∧
    (ema prices period = .ok numbers → ∃ p : Nat, period = p ∧ 1 ≤ p ∧
      numbers.length = prices.length ∧
      AveragesFrom (p - 1) (fun i => emaWeights (2 / (p + 1) : K) p (i + 1 - p))
        (fun i => prices.take (i + 1)) numbers) ∧
    ∀ bars : List (Bar (Exact K)), (∀ bar ∈ bars, 0 ≤ bar.volume) →
      ∃ line, vwap bars = .ok line ∧ line.length = bars.length ∧ AveragesByVolume bars line := by
  refine ⟨?_, ?_, ?_, ?_⟩
  · intro h
    have hlength := (steady_sma period).length_eq h
    obtain ⟨p, rfl, hp, -, rfl⟩ := sma_eq_ok.mp h
    exact ⟨p, rfl, hp, hlength, averagesFrom_trailing hp (fun _ => isMeanOf_mean hp) prices⟩
  · intro h
    have hlength := (steady_wma period).length_eq h
    obtain ⟨p, rfl, hp, -, rfl⟩ := wma_eq_ok.mp h
    exact ⟨p, rfl, hp, hlength, averagesFrom_trailing hp (fun _ => isMeanOf_weightedSum hp) prices⟩
  · intro h
    have hlength := (steady_ema period).length_eq h
    obtain ⟨p, rfl, hp, hle, rfl⟩ := ema_eq_ok.mp h
    exact ⟨p, rfl, hp, hlength, averagesFrom_emaSeries hp hle⟩
  · intro bars h
    obtain ⟨line, hline, hlength⟩ := exists_vwap bars
    exact ⟨line, hline, hlength, averagesByVolume_vwap h hline⟩

/-- Three prices, each twice the last. -/
def doublingPrices : List (Exact ℚ) := [1, 2, 4].map .known

/-- A bar without volume and two with it. -/
def wakingBars : List (Bar (Exact ℚ)) :=
  [⟨0, .known 1, .known 2, .known 0, .known 1, 0⟩, ⟨60, .known 4, .known 4, .known 4, .known 4, 1⟩,
    ⟨120, .known 8, .known 8, .known 8, .known 8, 3⟩]

/-- The exponential average of two takes two thirds of the last price and a sixth of each before. -/
theorem averages_of_doubling_prices :
    (sma doublingPrices 2 = .ok [.missing, .known (3 / 2), .known 3] ∧
      AveragesFrom 1 (fun _ => smaWeights 2) (fun i => (doublingPrices.drop (i - 1)).take 2)
        [.missing, .known (3 / 2), .known 3]) ∧
    (wma doublingPrices 2 = .ok [.missing, .known (5 / 3), .known (10 / 3)] ∧
      AveragesFrom 1 (fun _ => wmaWeights 2) (fun i => (doublingPrices.drop (i - 1)).take 2)
        [.missing, .known (5 / 3), .known (10 / 3)]) ∧
    (ema doublingPrices 2 = .ok [.missing, .known (3 / 2), .known (19 / 6)] ∧
      emaWeights (2 / (2 + 1)) 2 1 = ([1 / 6, 1 / 6, 2 / 3] : List ℚ) ∧
      AveragesFrom 1 (fun i => emaWeights (2 / (2 + 1) : ℚ) 2 (i - 1))
        (fun i => doublingPrices.take (i + 1))
        [.missing, .known (3 / 2), .known (19 / 6)]) ∧
    (∀ bar ∈ wakingBars, 0 ≤ bar.volume) ∧
      vwap wakingBars = .ok [.known 1, .known 4, .known 7] ∧
      AveragesByVolume wakingBars [.known 1, .known 4, .known 7] := by
  have hsma : sma doublingPrices 2 = .ok [.missing, .known (3 / 2), .known 3] := by decide +kernel
  have hwma : wma doublingPrices 2 = .ok [.missing, .known (5 / 3), .known (10 / 3)] := by
    decide +kernel
  have hema : ema doublingPrices 2 = .ok [.missing, .known (3 / 2), .known (19 / 6)] := by
    decide +kernel
  have hvwap : vwap wakingBars = .ok [.known 1, .known 4, .known 7] := by decide +kernel
  have hweights : emaWeights (2 / (2 + 1)) 2 1 = ([1 / 6, 1 / 6, 2 / 3] : List ℚ) := by
    norm_num [emaWeights]
    rfl
  have hvolumes : ∀ bar ∈ wakingBars, 0 ≤ bar.volume := by decide
  obtain ⟨p, hp, -, -, hplain⟩ := (averages_are_weighted_means _ _ _).1 hsma
  obtain ⟨q, hq, -, -, hlinear⟩ := (averages_are_weighted_means _ _ _).2.1 hwma
  obtain ⟨r, hr, -, -, hexponential⟩ := (averages_are_weighted_means _ _ _).2.2.1 hema
  obtain ⟨line, hline, -, hbyVolume⟩ :=
    (averages_are_weighted_means [] [] 0).2.2.2 wakingBars hvolumes
  obtain rfl : 2 = p := Int.ofNat.inj hp
  obtain rfl : 2 = q := Int.ofNat.inj hq
  obtain rfl : 2 = r := Int.ofNat.inj hr
  obtain rfl := Except.ok.inj (hvwap.symm.trans hline)
  exact ⟨⟨hsma, hplain⟩, ⟨hwma, hlinear⟩, ⟨hema, hweights, hexponential⟩, hvolumes, hvwap,
    hbyVolume⟩

end Bourse.Indicator
