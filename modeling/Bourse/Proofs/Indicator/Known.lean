import Bourse.Indicator.Volume
import Bourse.Proofs.Indicator.WarmUp
import Bourse.Proofs.Number.Weighted

/-! What is known of a figure. In exact arithmetic the figures of known prices are known, since no
figure divides by zero and none takes the root of a number below zero, and ranges, movements and
strengths keep the bounds that their divisions rest on. -/
namespace Bourse.Indicator

variable {K : Type}

open Exact Scalar Series

/-! Known prices -/

/-- Whether the prices of a bar that indicators read are known. -/
def HasPrices (bar : Bar (Exact K)) : Prop :=
  bar.high.IsKnown ∧ bar.low.IsKnown ∧ bar.close.IsKnown

theorem hasPrices_exact (bars : List (Bar K)) : ∀ bar ∈ bars.map Bar.exact, HasPrices bar := by
  intro bar hbar
  obtain ⟨bar, -, rfl⟩ := List.mem_map.mp hbar
  exact ⟨isKnown_known _, isKnown_known _, isKnown_known _⟩

theorem isKnown_of_mem_map (prices : List K) : ∀ x ∈ prices.map Exact.known, x.IsKnown := by
  intro x hx
  obtain ⟨y, -, rfl⟩ := List.mem_map.mp hx
  exact isKnown_known y

/-- The steps between bars with known prices. -/
theorem isKnown_steps {step : Bar (Exact K) → Bar (Exact K) → Exact K}
    (hstep : ∀ bar previous, HasPrices bar → HasPrices previous → (step bar previous).IsKnown)
    {bars : List (Bar (Exact K))} (h : ∀ bar ∈ bars, HasPrices bar) :
    ∀ x ∈ List.zipWith step bars.tail bars, x.IsKnown :=
  forall_mem_zipWith fun bar hbar previous hprevious =>
    hstep bar previous (h bar (List.mem_of_mem_tail hbar)) (h previous hprevious)

/-! Lines -/

/-- A line of known numbers, one for each of some values. -/
def IsKnownLine (call : Except Failure (List (Exact K))) (length : Nat) : Prop :=
  ∃ line, call = .ok line ∧ line.length = length ∧ ∀ x ∈ line, x.IsKnown

theorem IsKnownLine.cons {step : Except Failure (Exact K)} {next : Exact K}
    {rest : Except Failure (List (Exact K))} {length : Nat} (hstep : step = .ok next)
    (hnext : next.IsKnown) (h : IsKnownLine rest length) :
    IsKnownLine (do
      let next ← step
      return next :: (← rest)) (length + 1) := by
  obtain ⟨line, rfl, rfl, hknown⟩ := h
  subst hstep
  exact ⟨next :: line, rfl, rfl, List.forall_mem_cons.mpr ⟨hnext, hknown⟩⟩

/-- Choosing one of two known numbers over and over gives a known number that stands in a relation
to all of them if each choice does. -/
theorem exists_foldl_choice {f : Exact K → Exact K → Exact K} {choice : K → K → K}
    {R : K → K → Prop} [Std.Refl R] [IsTrans K R]
    (hf : ∀ a b, f (.known a) (.known b) = .known (choice a b))
    (hleft : ∀ a b, R (choice a b) a) (hright : ∀ a b, R (choice a b) b)
    {x : Exact K} {rest : List (Exact K)} (h : ∀ y ∈ x :: rest, y.IsKnown) :
    ∃ m, rest.foldl f x = .known m ∧ ∀ y, .known y ∈ x :: rest → R m y := by
  induction rest generalizing x with
  | nil =>
    obtain ⟨a, rfl⟩ := h x List.mem_cons_self
    refine ⟨a, rfl, fun y hy => ?_⟩
    cases List.mem_singleton.mp hy
    exact refl_of R a
  | cons next rest ih =>
    obtain ⟨hx, hnext, hrest⟩ : x.IsKnown ∧ next.IsKnown ∧ ∀ y ∈ rest, y.IsKnown := by
      simpa using h
    obtain ⟨a, rfl⟩ := hx
    obtain ⟨b, rfl⟩ := hnext
    obtain ⟨m, hm, hall⟩ := ih (x := .known (choice a b))
      (List.forall_mem_cons.mpr ⟨isKnown_known _, hrest⟩)
    refine ⟨m, by rw [List.foldl_cons, hf, hm], fun y hy => ?_⟩
    have hchoice := hall _ List.mem_cons_self
    rcases List.mem_cons.mp hy with hy | hy
    · cases hy
      exact trans_of R hchoice (hleft _ b)
    rcases List.mem_cons.mp hy with hy | hy
    · cases hy
      exact trans_of R hchoice (hright a _)
    · exact hall y (List.mem_cons_of_mem _ hy)

variable [RootField K]

/-- What is computed where a divisor is not zero, and something known where it is. -/
theorem isKnown_unless {divisor a b : Exact K} (ha : a.IsKnown)
    (hb : isZero divisor = false → b.IsKnown) : (if isZero divisor then a else b).IsKnown := by
  split_ifs with hzero
  · exact ha
  · exact hb (Bool.eq_false_iff.mpr hzero)

/-- A range is no less than the distance of the high from the last close. -/
theorem isNonneg_trueRangeAfter (bar previous : Bar (Exact K)) (hbar : HasPrices bar)
    (hprevious : HasPrices previous) : IsNonneg (trueRangeAfter previous.close bar) := by
  obtain ⟨⟨high, hhigh⟩, ⟨low, hlow⟩, -⟩ := hbar
  obtain ⟨-, -, close, hclose⟩ := hprevious
  rw [trueRangeAfter, hhigh, hlow, hclose, known_sub, known_sub, known_sub, abs_known, abs_known,
    larger_known, larger_known]
  exact isNonneg_known (((abs_nonneg _).trans (le_max_right _ _)).trans (le_max_left _ _))

theorem isKnown_trueRange {bars : List (Bar (Exact K))} (h : ∀ bar ∈ bars, HasPrices bar) :
    ∀ x ∈ trueRange bars, x.IsKnown := by
  cases bars with
  | nil => exact nofun
  | cons first rest =>
    obtain ⟨hhigh, hlow, -⟩ := h first List.mem_cons_self
    exact List.forall_mem_cons.mpr ⟨hhigh.sub hlow, isKnown_steps (fun bar previous hbar hprevious =>
      (isNonneg_trueRangeAfter bar previous hbar hprevious).isKnown) h⟩

theorem isNonneg_upMove (bar previous : Bar (Exact K)) : IsNonneg (upMove bar previous) := by
  unfold upMove
  dsimp only
  split_ifs with hmove
  · exact isNonneg_of_less (Bool.and_eq_true_iff.mp hmove).2
  · exact isNonneg_zero

theorem isNonneg_downMove (bar previous : Bar (Exact K)) : IsNonneg (downMove bar previous) := by
  unfold downMove
  dsimp only
  split_ifs with hmove
  · exact isNonneg_of_less (Bool.and_eq_true_iff.mp hmove).2
  · exact isNonneg_zero

theorem exists_lowest {xs : List (Exact K)} (hne : xs ≠ []) (h : ∀ y ∈ xs, y.IsKnown) :
    ∃ m, lowest xs = .known m ∧ ∀ y, .known y ∈ xs → m ≤ y := by
  obtain ⟨x, rest, rfl⟩ := List.exists_cons_of_ne_nil hne
  exact exists_foldl_choice smaller_known min_le_left min_le_right h

theorem exists_highest {xs : List (Exact K)} (hne : xs ≠ []) (h : ∀ y ∈ xs, y.IsKnown) :
    ∃ m, highest xs = .known m ∧ ∀ y, .known y ∈ xs → y ≤ m := by
  obtain ⟨x, rest, rfl⟩ := List.exists_cons_of_ne_nil hne
  exact exists_foldl_choice (R := (· ≥ ·)) larger_known le_max_left le_max_right h

/-- The figure of a window, in terms of its last close, a lowest low and a highest high. -/
theorem exists_rawStochastic {window : List (Bar (Exact K))} (hne : window ≠ [])
    (h : ∀ bar ∈ window, HasPrices bar) :
    ∃ bar ∈ window, ∃ close floor ceiling, bar.close = .known close ∧
      (∀ low, bar.low = .known low → floor ≤ low) ∧
      (∀ high, bar.high = .known high → high ≤ ceiling) ∧
      rawStochastic window = .known
        (if ceiling - floor = 0 then 50 else (close - floor) / (ceiling - floor) * 100) := by
  have hlast : window.getLast? = some (window.getLast hne) := List.getLast?_eq_some_getLast hne
  have hmem := List.getLast_mem hne
  obtain ⟨close, hclose⟩ := (h _ hmem).2.2
  obtain ⟨floor, hfloor, hlow⟩ := exists_lowest (mt List.map_eq_nil_iff.mp hne)
    (List.forall_mem_map.mpr fun bar hbar => (h bar hbar).2.1)
  obtain ⟨ceiling, hceiling, hhigh⟩ := exists_highest (mt List.map_eq_nil_iff.mp hne)
    (List.forall_mem_map.mpr fun bar hbar => (h bar hbar).1)
  refine ⟨_, hmem, close, floor, ceiling, hclose, fun low heq => hlow low ?_,
    fun high heq => hhigh high ?_, ?_⟩
  · exact List.mem_map.mpr ⟨_, hmem, heq⟩
  · exact List.mem_map.mpr ⟨_, hmem, heq⟩
  · unfold rawStochastic
    rw [hlast, hfloor, hceiling]
    dsimp only
    rw [hclose, known_sub, known_sub, isZero_known, ofInt_eq, Int.cast_ofNat, hundred_eq]
    simp only [decide_eq_true_eq]
    split_ifs with hzero
    · rfl
    · rw [known_div _ hzero, known_mul]

theorem isKnown_rawStochastic {window : List (Bar (Exact K))} (hne : window ≠ [])
    (h : ∀ bar ∈ window, HasPrices bar) : (rawStochastic window).IsKnown := by
  obtain ⟨-, -, close, floor, ceiling, -, -, -, hraw⟩ := exists_rawStochastic hne h
  exact ⟨_, hraw⟩

/-- The share of a movement in a range, in percent. -/
theorem isNonneg_share {range move : Exact K} (hrange : IsNonneg range) (hmove : IsNonneg move) :
    IsNonneg (if isZero range then Scalar.zero else hundred * move / range) := by
  obtain ⟨r, hr, rfl⟩ := hrange
  obtain ⟨m, hm, rfl⟩ := hmove
  split_ifs with hzero
  · exact isNonneg_zero
  · have hne : r ≠ 0 := by simpa [isZero_known] using hzero
    rw [hundred_eq, known_mul, known_div _ hne]
    exact isNonneg_known (div_nonneg (mul_nonneg (by norm_num) hm) hr)

/-- Two movements differ by no more than their sum. -/
theorem isIn_directionalIndex {range up down : Exact K} (hrange : IsNonneg range)
    (hup : IsNonneg up) (hdown : IsNonneg down) :
    IsIn (Set.Icc 0 100) (directionalIndex range up down) := by
  obtain ⟨plus, hplus, hplus'⟩ := isNonneg_share hrange hup
  obtain ⟨minus, hminus, hminus'⟩ := isNonneg_share hrange hdown
  unfold directionalIndex
  dsimp only
  rw [hplus', hminus', known_add, known_sub, abs_known, isZero_known]
  split_ifs with hzero
  · rw [zero_eq]
    exact isIn_known.mpr ⟨le_rfl, by norm_num⟩
  · have hne : plus + minus ≠ 0 := by simpa using hzero
    have hpos : 0 < plus + minus := lt_of_le_of_ne (add_nonneg hplus hminus) hne.symm
    have hdiff : |plus - minus| ≤ plus + minus := abs_sub_le_iff.mpr ⟨by linarith, by linarith⟩
    rw [known_div _ hne, hundred_eq, known_mul, isIn_known]
    have hratio : |plus - minus| / (plus + minus) ≤ 1 := (div_le_one hpos).mpr hdiff
    have hratio' : 0 ≤ |plus - minus| / (plus + minus) := div_nonneg (abs_nonneg _) hpos.le
    exact ⟨by linarith, by linarith⟩

theorem isKnown_percentChange {base price : Exact K} (hbase : base.IsKnown)
    (hprice : price.IsKnown) : (percentChange base price).IsKnown ↔ isZero base = false := by
  unfold percentChange
  split_ifs with hzero
  · exact iff_of_false not_isKnown_missing (by simp [hzero])
  · have hbase' : isZero base = false := Bool.eq_false_iff.mpr hzero
    exact iff_of_true (((hprice.sub hbase).div hbase hbase').mul (isKnown_ofInt 100)) hbase'

/-! Volumes -/

theorem isKnownLine_obvFrom (previous : Bar (Exact K)) {balance : Exact K}
    (hbalance : balance.IsKnown) (bars : List (Bar (Exact K))) :
    IsKnownLine (obvFrom previous balance bars) bars.length := by
  induction bars generalizing previous balance with
  | nil => exact ⟨[], rfl, rfl, nofun⟩
  | cons bar rest ih =>
    have hvolume : (Exact.known (bar.volume : K)).IsKnown := isKnown_known _
    unfold obvFrom
    split_ifs
    · have hnext := hbalance.add hvolume
      exact IsKnownLine.cons rfl hnext (ih bar hnext)
    · have hnext := hbalance.sub hvolume
      exact IsKnownLine.cons rfl hnext (ih bar hnext)
    · exact IsKnownLine.cons rfl hbalance (ih bar hbalance)

theorem isKnownLine_obv (bars : List (Bar (Exact K))) : IsKnownLine (obv bars) bars.length := by
  cases bars with
  | nil => exact ⟨[], rfl, rfl, nofun⟩
  | cons first rest =>
    have hvolume : (Exact.known (first.volume : K)).IsKnown := isKnown_known _
    exact IsKnownLine.cons rfl hvolume (isKnownLine_obvFrom first hvolume rest)

/-! Strengths -/

/-- A change that is missing is no gain. -/
theorem isNonneg_gain (change : Exact K) : IsNonneg (gain change) := by
  unfold gain
  split_ifs with hrise
  · exact isNonneg_of_less hrise
  · exact isNonneg_zero

theorem isNonneg_loss (change : Exact K) : IsNonneg (loss change) := by
  unfold loss
  split_ifs with hfall
  · exact isNonneg_neg_of_less hfall
  · exact isNonneg_zero

/-- A strength divides by one and a quotient of averages, neither of which is negative. -/
theorem isIn_strength {averageGain averageLoss : Exact K} (hgain : IsNonneg averageGain)
    (hloss : IsNonneg averageLoss) :
    IsIn (Set.Icc 0 100) (strength averageGain averageLoss) := by
  obtain ⟨x, hx, rfl⟩ := hgain
  obtain ⟨y, hy, rfl⟩ := hloss
  unfold strength
  rw [isZero_known]
  split_ifs with hzero
  · rw [hundred_eq]
    exact isIn_known.mpr ⟨by norm_num, le_rfl⟩
  · have hne : y ≠ 0 := by simpa using hzero
    -- the inner divisor is at least one, since neither average is negative
    have hone : 1 ≤ 1 + x / y := le_add_of_nonneg_right (div_nonneg hx hy)
    have hpos : 0 < 1 + x / y := one_pos.trans_le hone
    rw [hundred_eq, ofInt_eq, known_div x hne, Int.cast_one, known_add, known_div _ hpos.ne',
      known_sub, isIn_known]
    have hquotient : 0 ≤ 100 / (1 + x / y) := div_nonneg (by norm_num) hpos.le
    have hquotient' : 100 / (1 + x / y) ≤ 100 := div_le_self (by norm_num) hone
    exact ⟨by linarith, by linarith⟩

theorem isNonneg_smooth {p : Nat} (hp : 1 ≤ p) {average value : Exact K}
    (haverage : IsNonneg average) (hvalue : IsNonneg value) :
    IsNonneg (smooth p average value) := by
  obtain ⟨x, hx, rfl⟩ := haverage
  obtain ⟨y, hy, rfl⟩ := hvalue
  have hsmooth : smooth p (Exact.known x) (Exact.known y) =
      Exact.known ((x * ((p - 1 : Nat) : Int) + y) / ((p : Int) : K)) := by
    rw [smooth, ofInt_eq, ofInt_eq, known_mul, known_add, known_div _ (natCast_ne_zero hp)]
  refine ⟨_, ?_, hsmooth⟩
  rw [Int.cast_natCast, Int.cast_natCast]
  positivity

theorem isNonneg_averages {p : Nat} (hp : 1 ≤ p) {values : List (Exact K)}
    (h : ∀ x ∈ values, IsNonneg x) : ∀ y ∈ averages p values, IsNonneg y := by
  have hseed : IsNonneg (mean p (values.take p)) :=
    isNonneg_mean hp fun x hx => h x (List.mem_of_mem_take hx)
  exact forall_mem_scanl hseed fun x hx a ha =>
    isNonneg_smooth hp ha (h x (List.mem_of_mem_drop hx))

theorem isNonneg_averages_gain {p : Nat} (hp : 1 ≤ p) (steps : List (Exact K)) :
    ∀ y ∈ averages p (steps.map gain), IsNonneg y :=
  isNonneg_averages hp (List.forall_mem_map.mpr fun change _ => isNonneg_gain change)

theorem isNonneg_averages_loss {p : Nat} (hp : 1 ≤ p) (steps : List (Exact K)) :
    ∀ y ∈ averages p (steps.map loss), IsNonneg y :=
  isNonneg_averages hp (List.forall_mem_map.mpr fun change _ => isNonneg_loss change)

/-- The strengths of any changes, missing ones among them, are percentages. -/
theorem isIn_strengths {p : Nat} (hp : 1 ≤ p) (steps : List (Exact K)) :
    ∀ y ∈ List.zipWith strength (averages p (steps.map gain)) (averages p (steps.map loss)),
      IsIn (Set.Icc 0 100) y :=
  forall_mem_zipWith fun x hx y hy =>
    isIn_strength (isNonneg_averages_gain hp steps x hx) (isNonneg_averages_loss hp steps y hy)

theorem knownFrom_rsiSeries {p : Nat} (hp : 1 ≤ p) (prices : List (Exact K)) :
    KnownFrom p (rsiSeries p prices) := by
  have hknown := fun y hy => (isIn_strengths hp (changes prices) y hy).isKnown
  rw [rsiSeries_eq]
  exact (knownFrom_zero.mpr hknown).missing_append p

/-! Weighted prices -/

theorem isKnown_typicalPrice {bar : Bar (Exact K)} (h : HasPrices bar) :
    (typicalPrice bar).IsKnown :=
  ((h.1.add h.2.1).add h.2.2).div_ofNat (show 1 ≤ 3 by decide)

theorem isKnownLine_vwapFrom {turnover volume : Exact K} (hturnover : turnover.IsKnown)
    (hvolume : volume.IsKnown) {bars : List (Bar (Exact K))} (h : ∀ bar ∈ bars, HasPrices bar) :
    IsKnownLine (vwapFrom turnover volume bars) bars.length := by
  induction bars generalizing turnover volume with
  | nil => exact ⟨[], rfl, rfl, nofun⟩
  | cons bar rest ih =>
    obtain ⟨hbar, hrest⟩ := List.forall_mem_cons.mp h
    have htraded : (Exact.known (bar.volume : K)).IsKnown := isKnown_known _
    have hprice := isKnown_typicalPrice hbar
    have hturnover' := hturnover.add (hprice.mul htraded)
    have hvolume' := hvolume.add htraded
    have haverage := isKnown_unless hprice fun hzero => hturnover'.div hvolume' hzero
    have hline := ih hturnover' hvolume' hrest
    exact IsKnownLine.cons rfl haverage hline

theorem isKnownLine_vwap {bars : List (Bar (Exact K))} (h : ∀ bar ∈ bars, HasPrices bar) :
    IsKnownLine (vwap bars) bars.length :=
  isKnownLine_vwapFrom (isKnown_ofInt 0) (isKnown_ofInt 0) h

/-! Movements -/

/-- Exponential averages of numbers of a convex set belong to it if the first of them does. -/
theorem isIn_emaValues {s : Set K} (hs : Convex K s) {p : Nat} (hp : 1 ≤ p)
    {xs : List (Exact K)} (hseed : IsIn s (mean p (xs.take p))) (h : ∀ x ∈ xs, IsIn s x) :
    ∀ y ∈ emaValues p xs, IsIn s y := by
  refine forall_mem_scanl hseed fun x hx a ha => ?_
  rw [emaStep, emaFactor_eq]
  exact isIn_towards hs (emaFactor_mem hp) ha (h x (List.mem_of_mem_drop hx))

theorem isNonneg_emaValues {p : Nat} (hp : 1 ≤ p) {xs : List (Exact K)}
    (h : ∀ x ∈ xs, IsNonneg x) : ∀ y ∈ emaValues p xs, IsNonneg y :=
  isIn_emaValues (convex_Ici 0) hp (isNonneg_mean hp fun x hx => h x (List.mem_of_mem_take hx)) h

theorem isIn_indexSeries {p : Nat} (hp : 1 ≤ p) {bars : List (Bar (Exact K))}
    (h : ∀ bar ∈ bars, HasPrices bar) : ∀ x ∈ indexSeries p bars, IsIn (Set.Icc 0 100) x := by
  have hbehind : ∀ step : Bar (Exact K) → Bar (Exact K) → Exact K,
      (∀ bar ∈ bars, ∀ previous ∈ bars, IsNonneg (step bar previous)) →
      ∀ x ∈ (emaSeries p (List.zipWith step bars.tail bars)).drop p, IsNonneg x := by
    intro step hstep x hx
    have hsteps : ∀ x ∈ List.zipWith step bars.tail bars, IsNonneg x :=
      forall_mem_zipWith fun bar hbar => hstep bar (List.mem_of_mem_tail hbar)
    rw [emaSeries_eq, List.drop_append, List.drop_eq_nil_of_le, List.nil_append] at hx
    · exact isNonneg_emaValues hp hsteps x (List.mem_of_mem_drop hx)
    · rw [missingSeries, List.length_replicate]
      exact Nat.sub_le p 1
  intro x hx
  obtain ⟨⟨range, up, down⟩, hmoves, rfl⟩ := List.mem_map.mp hx
  obtain ⟨hrange, hmoves⟩ := List.of_mem_zip hmoves
  obtain ⟨hup, hdown⟩ := List.of_mem_zip hmoves
  refine isIn_directionalIndex (hbehind _ (fun bar hbar previous hprevious => ?_) range hrange)
    (hbehind _ (fun bar _ previous _ => isNonneg_upMove bar previous) up hup)
    (hbehind _ (fun bar _ previous _ => isNonneg_downMove bar previous) down hdown)
  exact isNonneg_trueRangeAfter bar previous (h bar hbar) (h previous hprevious)

end Bourse.Indicator
