import Bourse.Proofs.Indicator.Batch

/-! How calls end. With periods that can be written out, nearly every call gives lines over all its
values or refuses with a message. The exceptions are a signal that is to begin where nothing is
known, and a volume that is taken but is no number; only the second can break off a request. -/
namespace Bourse.Indicator

open Scalar Series

/-- Whether a call ends as it should: it gives lines over all values, or it refuses. -/
def EndsWell {ρ : Type} (length : Nat) (lines : ρ → List (List Float)) (call : Except Failure ρ) :
    Prop :=
  (∃ r, call = .ok r ∧ ∀ line ∈ lines r, line.length = length) ∨
    ∃ refusal, call = .error (.refused refusal)

/-- Whether a signal is asked for where there is none: the averages have prices enough, but no
difference of them is known, and the period of the signal is not positive. -/
def LacksSignal (prices : List Float) (fast slow signal : Int) : Prop :=
  ∃ p q : Nat, (fast = p ∧ slow = q) ∧ (1 ≤ p ∧ 1 ≤ q) ∧ max p q ≤ prices.length ∧ signal < 1 ∧
    ∀ x ∈ macdLine p q prices, isMissing x = true

section Calls

variable {ρ : Type} {length : Nat} {lines : ρ → List (List Float)} {call : Except Failure ρ}

/-- A call whose lines are as long as they should be ends well unless it fails otherwise than by a
refusal. -/
theorem endsWell_iff_onlyRefuses
    (hlengths : ∀ r, call = .ok r → ∀ line ∈ lines r, line.length = length) :
    EndsWell length lines call ↔ OnlyRefuses call := by
  cases hcall : call with
  | ok r => exact iff_of_true (.inl ⟨r, rfl, hlengths r hcall⟩) (onlyRefuses_ok r)
  | error failure =>
    constructor
    · rintro (⟨r, hr, -⟩ | ⟨refusal, hrefusal⟩)
      · contradiction
      · exact failsWithin_error ⟨refusal, Except.error.inj hrefusal⟩
    · intro hrefuses
      obtain ⟨refusal, rfl⟩ := hrefuses failure rfl
      exact .inr ⟨refusal, rfl⟩

theorem onlyRefuses_iff_succeeds (hfails : FailsWithin (· = Failure.volumeTooLarge) call) :
    OnlyRefuses call ↔ Succeeds call := by
  constructor
  · intro hrefuses
    refine succeeds_iff_ne_error.mpr fun failure hfailure => ?_
    obtain ⟨refusal, hrefusal⟩ := hrefuses failure hfailure
    cases hrefusal.symm.trans (hfails failure hfailure)
  · rintro ⟨r, rfl⟩
    exact onlyRefuses_ok r

/-- A call that refuses nothing ends well only by giving its lines. -/
theorem endsWell_iff_succeeds
    (hlengths : ∀ r, call = .ok r → ∀ line ∈ lines r, line.length = length)
    (hfails : FailsWithin (· = Failure.volumeTooLarge) call) :
    EndsWell length lines call ↔ Succeeds call :=
  (endsWell_iff_onlyRefuses hlengths).trans (onlyRefuses_iff_succeeds hfails)

end Calls

/-! Periods -/

/-- A line of its own is a list of one line. -/
theorem length_of_mem_single {length : Nat} {call : Except Failure (List Float)}
    (h : ∀ line, call = .ok line → line.length = length) :
    ∀ line, call = .ok line → ∀ line' ∈ [line], line'.length = length := by
  intro line hline line' hline'
  rw [List.mem_singleton.mp hline']
  exact h line hline

theorem endsWell_of_steady {β : Type} {call : List β → Except Failure (List Float)}
    (hsteady : Steady call id) {xs : List β} (hrefuses : OnlyRefuses (call xs)) :
    EndsWell xs.length (fun line => [line]) (call xs) := by
  refine (endsWell_iff_onlyRefuses (length_of_mem_single ?_)).mpr hrefuses
  intro line hline
  exact hsteady.length_eq hline

theorem endsWell_bollingerBands (prices : List Float) {period : Int} (hperiod : IsNameable period)
    (width : Float) : EndsWell prices.length (fun b => [b.upper, b.middle, b.lower])
      (bollingerBands prices period width) := by
  refine (endsWell_iff_onlyRefuses ?_).mpr (onlyRefuses_bollingerBands prices hperiod width)
  intro b hb line hline
  obtain ⟨hupper, hmiddle, hlower⟩ := steady_bollingerBands (α := Float) period width
  simp only [List.mem_cons, List.not_mem_nil, or_false] at hline
  rcases hline with rfl | rfl | rfl
  · exact hupper.length_eq hb
  · exact hmiddle.length_eq hb
  · exact hlower.length_eq hb

theorem endsWell_stochastic (bars : List (Bar Float)) {period smoothK smoothD : Int}
    (hperiod : IsNameable period) (hK : IsNameable smoothK) (hD : IsNameable smoothD) :
    EndsWell bars.length (fun s => [s.k, s.d]) (stochastic bars period smoothK smoothD) := by
  refine (endsWell_iff_onlyRefuses ?_).mpr (onlyRefuses_stochastic bars hperiod hK hD)
  intro s hs line hline
  obtain ⟨hk, hd⟩ := steady_stochastic (α := Float) period smoothK smoothD
  simp only [List.mem_cons, List.not_mem_nil, or_false] at hline
  rcases hline with rfl | rfl
  · exact hk.length_eq hs
  · exact hd.length_eq hs

/-! Signals -/

theorem macd_of_lacksSignal {prices : List Float} {fast slow signal : Int}
    (h : LacksSignal prices fast slow signal) :
    macd prices fast slow signal = .error .noKnownValue := by
  obtain ⟨p, q, ⟨rfl, rfl⟩, ⟨hp, hq⟩, hlength, hsignal, hmissing⟩ := h
  have hnone : known (macdLine p q prices) = [] := by
    refine List.filter_eq_nil_iff.mpr fun x hx => ?_
    simp [hmissing x hx]
  have hline : signalLine (macdLine p q prices) signal = .error .noKnownValue := by
    have hfew : ¬((([] : List Float).length : Int) < signal) := by
      rw [List.length_nil]
      omega
    rw [signalLine_eq, hnone, if_neg hfew, List.isEmpty_nil, if_pos rfl]
  have hcheck : checkPeriod .macd prices.length q q = .ok q :=
    checkPeriod_eq_ok.mpr ⟨rfl, hq, by omega⟩
  unfold macd
  rw [hcheck, ema_of_le hp (by omega), ema_of_le hq (by omega)]
  change (signalLine (macdLine p q prices) signal >>= _) = _
  rw [hline]
  rfl

theorem endsWell_macd {prices : List Float} {fast slow signal : Int} (hfast : IsNameable fast)
    (hslow : IsNameable slow) (hsignal : IsNameable signal) :
    EndsWell prices.length (fun m => [m.macd, m.signal, m.histogram])
      (macd prices fast slow signal) ↔ ¬LacksSignal prices fast slow signal := by
  rw [endsWell_iff_onlyRefuses]
  · constructor
    · intro hrefuses hlacks
      obtain ⟨refusal, hrefusal⟩ := hrefuses _ (macd_of_lacksSignal hlacks)
      contradiction
    · intro hhas
      refine onlyRefuses_macd prices hfast hslow hsignal fun p q hp hq hposP hposQ hlength => ?_
      -- if no difference is known, a signal whose period is not positive would be lacking
      by_contra hno
      rw [not_or, not_not, not_le] at hno
      refine hhas ⟨p, q, ⟨hp, hq⟩, ⟨hposP, hposQ⟩, hlength, hno.2, fun x hx => ?_⟩
      simpa using List.filter_eq_nil_iff.mp hno.1 x hx
  · intro m hm line hline
    obtain ⟨hmacd, hsignalLine, hhistogram⟩ := steady_macd (α := Float) fast slow signal
    simp only [List.mem_cons, List.not_mem_nil, or_false] at hline
    rcases hline with rfl | rfl | rfl
    · exact hmacd.length_eq hm
    · exact hsignalLine.length_eq hm
    · exact hhistogram.length_eq hm

/-! Volumes -/

theorem failsWithin_volumeOf (bar : Bar Float) :
    FailsWithin (· = Failure.volumeTooLarge) (volumeOf bar : Except Failure Float) := by
  unfold volumeOf
  cases (ofVolume? bar.volume : Option Float) with
  | none => exact failsWithin_error rfl
  | some volume => exact failsWithin_ok volume

theorem failsWithin_runFrom {σ : Type} {ways : Failure → Prop}
    {step : σ → Bar Float → Except Failure (Float × σ)}
    (hstep : ∀ state bar, FailsWithin ways (step state bar)) (state : σ) (bars : List (Bar Float)) :
    FailsWithin ways (runFrom step state bars) := by
  induction bars generalizing state with
  | nil => exact failsWithin_ok []
  | cons bar rest ih =>
    refine (hstep state bar).bind fun out _ => ?_
    exact (ih out.2).bind fun line _ => failsWithin_ok _

theorem failsWithin_obv (bars : List (Bar Float)) :
    FailsWithin (· = Failure.volumeTooLarge) (obv bars) := by
  rw [obv_eq_runFrom]
  refine failsWithin_runFrom (fun last? bar => ?_) none bars
  have hvolume := failsWithin_volumeOf bar
  cases last? with
  | none => exact hvolume.bind fun balance _ => failsWithin_ok _
  | some last =>
    have hnext : FailsWithin (· = Failure.volumeTooLarge) (nextBalance last.1 last.2 bar) := by
      unfold nextBalance
      split_ifs
      · exact hvolume.map _
      · exact hvolume.map _
      · exact failsWithin_ok last.2
    exact hnext.bind fun balance _ => failsWithin_ok _

theorem failsWithin_vwap (bars : List (Bar Float)) :
    FailsWithin (· = Failure.volumeTooLarge) (vwap bars) := by
  rw [vwap, vwapFrom_eq_runFrom]
  refine failsWithin_runFrom (fun totals bar => ?_) _ bars
  exact (failsWithin_volumeOf bar).bind fun traded _ => failsWithin_ok _

/-! Requests -/

theorem Item.onlyRefuses_iff {bars : List (Bar Float)} {item : Item}
    (htell : item.IsTellable bars.length) :
    OnlyRefuses (item.lines bars) ↔ item.HasVolumes bars := by
  constructor
  · intro hrefuses
    cases item with
    | obv =>
      have hsucceeds := (onlyRefuses_iff_succeeds ((failsWithin_obv bars).map _)).mp hrefuses
      exact succeeds_obv.mp (succeeds_map_iff.mp hsucceeds)
    | vwap =>
      have hsucceeds := (onlyRefuses_iff_succeeds ((failsWithin_vwap bars).map _)).mp hrefuses
      exact succeeds_vwap.mp (succeeds_map_iff.mp hsucceeds)
    | _ => trivial
  · intro hvolumes
    exact onlyRefuses_lines htell hvolumes

theorem Item.endsWell_iff {bars : List (Bar Float)} {item : Item} :
    EndsWell bars.length id (item.lines bars) ↔ OnlyRefuses (item.lines bars) :=
  endsWell_iff_onlyRefuses fun _ hlines => (length_lines hlines).2

theorem succeeds_compute_of_isTellable {bars : List (Bar Float)} {r : Request}
    (htell : ∀ item ∈ items r, item.IsTellable bars.length) :
    Succeeds (compute bars r) ↔ ∀ item ∈ items r, OnlyRefuses (item.lines bars) := by
  refine succeeds_compute.trans (forall₂_congr fun item hitem => ?_)
  rw [Item.onlyRefuses_task]
  exact and_iff_right (Item.isLabelled_of_isTellable (htell item hitem))

theorem hasVolumes_items {bars : List (Bar Float)} {r : Request} :
    (∀ item ∈ items r, item.HasVolumes bars) ↔
      (r.obv = true → HasBalance bars) ∧ (r.vwap = true → ∀ bar ∈ bars, HasVolume bar) := by
  constructor
  · intro h
    constructor
    · intro hobv
      exact h .obv (by simp [items, hobv])
    · intro hvwap
      exact h .vwap (by simp [items, hvwap])
  · rintro ⟨hobv, hvwap⟩ item hitem
    cases item with
    | obv => exact hobv (by simpa [items] using hitem)
    | vwap => exact hvwap (by simpa [items] using hitem)
    | _ => trivial

/-- How calls end, whatever the prices, the bars and the periods, as long as the periods and the
numbers next to them can be written out. Averages, bands, strengths, rates, ranges and indices end
well. So does a pair of averages unless its signal is lacking, a balance of volume exactly if the
volumes that it takes are numbers, and an average by volume exactly if all are. A request whose items
can be told of gives a report exactly if all of them end well, which is up to the last two alone. -/
theorem calls_end_well_iff (prices : List Float) (bars : List (Bar Float)) :
    (∀ period, IsNameable period →
      EndsWell prices.length (fun line => [line]) (sma prices period) ∧
      EndsWell prices.length (fun line => [line]) (ema prices period) ∧
      EndsWell prices.length (fun line => [line]) (wma prices period) ∧
      ∀ width, EndsWell prices.length (fun b => [b.upper, b.middle, b.lower])
        (bollingerBands prices period width)) ∧
    (∀ period, IsNameable period → IsNameable (period + 1) →
      EndsWell prices.length (fun line => [line]) (rsi prices period) ∧
      EndsWell prices.length (fun line => [line]) (roc prices period) ∧
      EndsWell bars.length (fun line => [line]) (atr bars period) ∧
      EndsWell bars.length (fun line => [line]) (adx bars period)) ∧
    (∀ period smoothK smoothD, IsNameable period → IsNameable smoothK → IsNameable smoothD →
      EndsWell bars.length (fun s => [s.k, s.d]) (stochastic bars period smoothK smoothD)) ∧
    (∀ fast slow signal, IsNameable fast → IsNameable slow → IsNameable signal →
      (EndsWell prices.length (fun m => [m.macd, m.signal, m.histogram])
        (macd prices fast slow signal) ↔ ¬LacksSignal prices fast slow signal)) ∧
    (trueRange bars).length = bars.length ∧
    (EndsWell bars.length (fun line => [line]) (obv bars) ↔ HasBalance bars) ∧
    (EndsWell bars.length (fun line => [line]) (vwap bars) ↔ ∀ bar ∈ bars, HasVolume bar) ∧
    ∀ r, (∀ item ∈ items r, item.IsTellable bars.length) →
      ((∃ report, compute bars r = .ok report) ↔
        ∀ item ∈ items r, EndsWell bars.length id (item.lines bars)) ∧
      ((∃ report, compute bars r = .ok report) ↔
        (r.obv = true → HasBalance bars) ∧ (r.vwap = true → ∀ bar ∈ bars, HasVolume bar)) := by
  refine ⟨?_, ?_, ?_, ?_, length_trueRange bars, ?_, ?_, ?_⟩
  · intro period hperiod
    refine ⟨?_, ?_, ?_, endsWell_bollingerBands prices hperiod⟩
    · exact endsWell_of_steady (steady_sma period) (onlyRefuses_sma prices hperiod)
    · exact endsWell_of_steady (steady_ema period) (onlyRefuses_ema prices hperiod)
    · exact endsWell_of_steady (steady_wma period) (onlyRefuses_wma prices hperiod)
  · intro period hperiod hnext
    refine ⟨?_, ?_, ?_, ?_⟩
    · exact endsWell_of_steady (steady_rsi period) (onlyRefuses_rsi prices hperiod (.inl hnext))
    · exact endsWell_of_steady (steady_roc period) (onlyRefuses_roc prices hperiod (.inl hnext))
    · exact endsWell_of_steady (steady_atr period) (onlyRefuses_atr bars hperiod (.inl hnext))
    · exact endsWell_of_steady (steady_adx period) (onlyRefuses_adx bars hperiod (.inl hnext))
  · intro period smoothK smoothD hperiod hK hD
    exact endsWell_stochastic bars hperiod hK hD
  · intro fast slow signal hfast hslow hsignal
    exact endsWell_macd hfast hslow hsignal
  · rw [← succeeds_obv]
    refine endsWell_iff_succeeds (length_of_mem_single ?_) (failsWithin_obv bars)
    intro line hline
    exact (obv_noLookAhead bars [] line hline nofun).1
  · rw [← succeeds_vwap]
    refine endsWell_iff_succeeds (length_of_mem_single ?_) (failsWithin_vwap bars)
    intro line hline
    exact (vwap_noLookAhead bars [] line hline nofun).1
  · intro r htell
    have hitems : (∃ report, compute bars r = .ok report) ↔
        ∀ item ∈ items r, OnlyRefuses (item.lines bars) := succeeds_compute_of_isTellable htell
    constructor
    · rw [hitems]
      exact forall₂_congr fun item _ => Item.endsWell_iff.symm
    · rw [hitems, ← hasVolumes_items]
      exact forall₂_congr fun item hitem => Item.onlyRefuses_iff (htell item hitem)

/-- A bar whose volume is beyond all numbers. -/
def floodedBar : Bar Float := ⟨0, 1, 1, 1, 1, 10 ^ 400⟩

theorem not_hasVolume_floodedBar : ¬HasVolume floodedBar := by
  unfold HasVolume
  decide +kernel

/-- A period over a price that is missing leaves no difference known. -/
theorem lacksSignal_missing : LacksSignal [missing] 1 1 0 :=
  ⟨1, 1, ⟨rfl, rfl⟩, ⟨le_rfl, le_rfl⟩, le_rfl, by decide, by decide +kernel⟩

/-- A signal of period zero over a missing difference is lacking and one of period one is not, and
one bar of too much volume breaks off a request for its balance, but not one for its true range. -/
theorem flooded_bar_breaks_off :
    IsNameable 0 ∧ IsNameable 1 ∧ IsNameable 2 ∧
    ¬EndsWell 1 (fun m => [m.macd, m.signal, m.histogram]) (macd [missing] 1 1 0) ∧
    EndsWell 1 (fun m => [m.macd, m.signal, m.histogram]) (macd [missing] 1 1 1) ∧
    ¬EndsWell 1 (fun line => [line]) (obv [floodedBar]) ∧
    ¬(∃ report, compute [floodedBar] { sma := [1], obv := true } = .ok report) ∧
    ∃ report, compute [floodedBar] { sma := [1], atr := some 1 } = .ok report := by
  have hnameable : IsNameable 0 ∧ IsNameable 1 ∧ IsNameable 2 := by decide
  obtain ⟨hzero, hone, htwo⟩ := hnameable
  obtain ⟨-, -, -, hmacd, -, hobv, -, hcompute⟩ := calls_end_well_iff [missing] [floodedBar]
  refine ⟨hzero, hone, htwo, ?_, ?_, ?_, ?_, ?_⟩
  · intro hends
    exact (hmacd 1 1 0 hone hone hzero).mp hends lacksSignal_missing
  · apply (hmacd 1 1 1 hone hone hone).mpr
    rintro ⟨p, q, -, -, -, hsignal, -⟩
    exact absurd hsignal (by decide)
  · intro hends
    exact not_hasVolume_floodedBar (hobv.mp hends).1
  · rw [(hcompute _ (by simp [items, Item.IsTellable, hone])).2]
    exact fun h => not_hasVolume_floodedBar (h.1 rfl).1
  · rw [(hcompute _ (by simp [items, Item.IsTellable, hone, htwo])).2]
    constructor
    · intro h
      contradiction
    · intro h
      contradiction

/-- Calls that neither give lines nor refuse: a signal of period zero over no known difference, an
average over a period that cannot be written out, and the balance and the average price over a volume
that is no number, the former also in a request. -/
theorem calls_break_off :
    macd [(missing : Float)] 1 1 0 = .error .noKnownValue ∧
    sma [(missing : Float)] longPeriod = .error .unwritable ∧
    obv [floodedBar] = .error .volumeTooLarge ∧
    vwap [floodedBar] = .error .volumeTooLarge ∧
    ∀ report, compute [floodedBar] { sma := [1], obv := true } ≠ .ok report := by
  refine ⟨macd_of_lacksSignal lacksSignal_missing, ?_, ?_, ?_, ?_⟩
  · have hpos : 1 ≤ longPeriod := by decide +kernel
    have hlength : ([missing] : List Float).length < longPeriod := by decide +kernel
    rw [sma, checkPeriod_of_not_isNameable hpos hlength not_isNameable_longPeriod]
    rfl
  · apply (failsWithin_obv [floodedBar]).eq_error
    rw [succeeds_obv]
    exact fun hbalance => not_hasVolume_floodedBar hbalance.1
  · apply (failsWithin_vwap [floodedBar]).eq_error
    rw [succeeds_vwap]
    exact fun hvolumes => not_hasVolume_floodedBar (hvolumes _ List.mem_cons_self)
  · intro report hreport
    have hobv : Item.obv ∈ items { sma := [1], obv := true } := by simp [items]
    have hrefuses : OnlyRefuses (Item.obv.lines [floodedBar]) :=
      onlyRefuses_of_mem_items hobv ⟨report, hreport⟩
    have htell : Item.obv.IsTellable [floodedBar].length := trivial
    exact not_hasVolume_floodedBar ((Item.onlyRefuses_iff htell).mp hrefuses).1

end Bourse.Indicator
