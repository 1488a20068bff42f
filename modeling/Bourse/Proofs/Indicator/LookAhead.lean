import Bourse.Proofs.Indicator.Trend

/-! No indicator looks ahead. A call that gives a series for some values gives one for any longer
list of values, and no later value changes an earlier number. -/
namespace Bourse.Indicator

variable {α β γ : Type} [Scalar α]

open Scalar Series

/-- A line of a call depends on no later value: it has a number for each value, and with further
values, each of them allowed, the call gives a line again whose first numbers are the same. -/
def NoLookAhead {ρ : Type} (allowed : β → Prop) (call : List β → Except Failure ρ)
    (line : ρ → List γ) : Prop :=
  ∀ xs ys r, call xs = .ok r → (∀ y ∈ ys, allowed y) →
    (line r).length = xs.length ∧
      ∃ r', call (xs ++ ys) = .ok r' ∧ (line r').take xs.length = line r

/-- Whether the volume of a bar is a number. -/
def HasVolume (bar : Bar α) : Prop := (ofVolume? bar.volume : Option α).isSome = true

theorem Steady.noLookAhead {ρ : Type} {call : List β → Except Failure ρ} {line : ρ → List γ}
    (h : Steady call line) (allowed : β → Prop) : NoLookAhead allowed call line := by
  intro xs ys r hr _
  obtain ⟨hlength, r', hr', hgrows⟩ := h (List.prefix_append xs ys) r hr
  exact ⟨hlength, r', hr', take_eq_of_isPrefix hlength hgrows⟩

/-! Runs -/

/-- The numbers of a recurrence: each step answers a number and the state of the next step, unless
it fails. -/
def runFrom {σ : Type} (step : σ → β → Except Failure (γ × σ)) :
    σ → List β → Except Failure (List γ)
  | _, [] => .ok []
  | state, x :: rest => do
    let out ← step state x
    let line ← runFrom step out.2 rest
    return out.1 :: line

section Runs

variable {σ : Type} {allowed : β → Prop} {step : σ → β → Except Failure (γ × σ)}

theorem runFrom_cons_eq_ok {state : σ} {x : β} {rest : List β} {line : List γ} :
    runFrom step state (x :: rest) = .ok line ↔ ∃ out tail, step state x = .ok out ∧
      runFrom step out.2 rest = .ok tail ∧ out.1 :: tail = line := by
  constructor
  · intro h
    obtain ⟨out, hout, h⟩ := bind_eq_ok_iff.mp h
    obtain ⟨tail, htail, h⟩ := bind_eq_ok_iff.mp h
    exact ⟨out, tail, hout, htail, Except.ok.inj h⟩
  · rintro ⟨out, tail, hout, htail, rfl⟩
    exact bind_eq_ok_iff.mpr ⟨out, hout, bind_eq_ok_iff.mpr ⟨tail, htail, rfl⟩⟩

/-- A recurrence answers wherever each of its steps does. -/
theorem exists_runFrom (hstep : ∀ state x, allowed x → ∃ out, step state x = .ok out)
    {xs : List β} (hxs : ∀ x ∈ xs, allowed x) (state : σ) :
    ∃ line, runFrom step state xs = .ok line := by
  induction xs generalizing state with
  | nil => exact ⟨[], rfl⟩
  | cons x rest ih =>
    obtain ⟨out, hout⟩ := hstep state x (hxs x List.mem_cons_self)
    obtain ⟨line, hline⟩ := ih (fun y hy => hxs y (List.mem_cons_of_mem _ hy)) out.2
    exact ⟨out.1 :: line, runFrom_cons_eq_ok.mpr ⟨out, line, hout, hline, rfl⟩⟩

theorem runFrom_append (hstep : ∀ state x, allowed x → ∃ out, step state x = .ok out)
    {xs ys : List β} (hys : ∀ y ∈ ys, allowed y) {state : σ} {line : List γ}
    (h : runFrom step state xs = .ok line) :
    line.length = xs.length ∧ ∃ longer, runFrom step state (xs ++ ys) = .ok longer ∧
      line <+: longer := by
  induction xs generalizing state line with
  | nil =>
    cases h
    obtain ⟨longer, hlonger⟩ := exists_runFrom hstep hys state
    exact ⟨rfl, longer, hlonger, List.nil_prefix⟩
  | cons x rest ih =>
    obtain ⟨out, tail, hout, htail, rfl⟩ := runFrom_cons_eq_ok.mp h
    obtain ⟨hlength, longer, hlonger, hgrows⟩ := ih htail
    refine ⟨congrArg (· + 1) hlength, out.1 :: longer, ?_, ?_⟩
    · exact runFrom_cons_eq_ok.mpr ⟨out, longer, hout, hlonger, rfl⟩
    · exact List.cons_prefix_cons.mpr ⟨rfl, hgrows⟩

/-- A recurrence depends on no later value. -/
theorem runFrom_noLookAhead (hstep : ∀ state x, allowed x → ∃ out, step state x = .ok out)
    (start : σ) : NoLookAhead allowed (runFrom step start) id := by
  intro xs ys line h hys
  obtain ⟨hlength, longer, hlonger, hgrows⟩ := runFrom_append hstep hys h
  exact ⟨hlength, longer, hlonger, take_eq_of_isPrefix hlength hgrows⟩

end Runs

/-! Volumes -/

theorem HasVolume.volumeOf {bar : Bar α} (h : HasVolume bar) :
    ∃ volume, Indicator.volumeOf bar = .ok volume := by
  obtain ⟨volume, hvolume⟩ := Option.isSome_iff_exists.mp h
  exact ⟨volume, by rw [Indicator.volumeOf, hvolume]⟩

/-- The balance after one more bar. -/
def nextBalance (previous : Bar α) (balance : α) (bar : Bar α) : Except Failure α :=
  if less previous.close bar.close then obvFrom.moved (balance + ·) bar
  else if less bar.close previous.close then obvFrom.moved (balance - ·) bar
  else pure balance

theorem obvFrom_cons (previous : Bar α) (balance : α) (bar : Bar α) (rest : List (Bar α)) :
    obvFrom previous balance (bar :: rest) = (do
      let next ← nextBalance previous balance bar
      return next :: (← obvFrom bar next rest)) := by
  rw [obvFrom, nextBalance]
  split_ifs <;> rfl

theorem HasVolume.nextBalance {bar : Bar α} (h : HasVolume bar) (previous : Bar α) (balance : α) :
    ∃ next, Indicator.nextBalance previous balance bar = .ok next := by
  obtain ⟨volume, hvolume⟩ := h.volumeOf
  unfold Indicator.nextBalance obvFrom.moved
  rw [hvolume]
  split_ifs <;> exact ⟨_, rfl⟩

/-- A step of the balance, behind a bar and its balance or at the first bar. -/
def balanceStep (last? : Option (Bar α × α)) (bar : Bar α) :
    Except Failure (α × Option (Bar α × α)) := do
  let balance ←
    match last? with
    | none => volumeOf bar
    | some (previous, balance) => nextBalance previous balance bar
  return (balance, some (bar, balance))

theorem obvFrom_eq_runFrom (previous : Bar α) (balance : α) (bars : List (Bar α)) :
    obvFrom previous balance bars = runFrom balanceStep (some (previous, balance)) bars := by
  induction bars generalizing previous balance with
  | nil => rfl
  | cons bar rest ih =>
    rw [obvFrom_cons, runFrom, balanceStep]
    simp [ih]

theorem obv_eq_runFrom (bars : List (Bar α)) : obv bars = runFrom balanceStep none bars := by
  cases bars with
  | nil => rfl
  | cons first rest =>
    rw [obv, runFrom, balanceStep]
    simp [obvFrom_eq_runFrom]

theorem obv_noLookAhead : NoLookAhead (HasVolume (α := α)) obv id := by
  rw [show obv = runFrom balanceStep none from funext obv_eq_runFrom]
  refine runFrom_noLookAhead (fun last? bar hbar => ?_) none
  cases last? with
  | none =>
    obtain ⟨volume, hvolume⟩ := hbar.volumeOf
    exact ⟨_, bind_eq_ok_iff.mpr ⟨volume, hvolume, rfl⟩⟩
  | some last =>
    obtain ⟨next, hnext⟩ := hbar.nextBalance last.1 last.2
    exact ⟨_, bind_eq_ok_iff.mpr ⟨next, hnext, rfl⟩⟩

/-- A step of the average price, behind a turnover and a volume. -/
def averageStep (totals : α × α) (bar : Bar α) : Except Failure (α × α × α) := do
  let traded ← volumeOf bar
  let turnover := totals.1 + typicalPrice bar * traded
  let volume := totals.2 + traded
  return (if isZero volume then typicalPrice bar else turnover / volume, turnover, volume)

theorem vwapFrom_eq_runFrom (turnover volume : α) (bars : List (Bar α)) :
    vwapFrom turnover volume bars = runFrom averageStep (turnover, volume) bars := by
  induction bars generalizing turnover volume with
  | nil => rfl
  | cons bar rest ih =>
    rw [vwapFrom, runFrom, averageStep]
    simp [ih]

theorem vwap_noLookAhead : NoLookAhead (HasVolume (α := α)) vwap id := by
  rw [show vwap = runFrom averageStep (zero, zero) from funext (vwapFrom_eq_runFrom zero zero)]
  refine runFrom_noLookAhead (fun totals bar hbar => ?_) (zero, zero)
  obtain ⟨traded, htraded⟩ := hbar.volumeOf
  exact ⟨_, bind_eq_ok_iff.mpr ⟨traded, htraded, rfl⟩⟩

/-- No indicator looks ahead, whatever its parameters: where a call gives a series, a call on a
longer list of values gives one with the same numbers in front. Only the balance of volume and the
average price by volume ask that the further volumes are numbers. -/
theorem indicators_noLookAhead :
    (∀ period, NoLookAhead (fun _ => True) (fun prices : List Float => sma prices period) id) ∧
    (∀ period, NoLookAhead (fun _ => True) (fun prices : List Float => ema prices period) id) ∧
    (∀ period, NoLookAhead (fun _ => True) (fun prices : List Float => wma prices period) id) ∧
    (∀ period, NoLookAhead (fun _ => True) (fun prices : List Float => rsi prices period) id) ∧
    (∀ period, NoLookAhead (fun _ => True) (fun prices : List Float => roc prices period) id) ∧
    (∀ fast slow signal, ∀ line ∈ [Macd.macd, Macd.signal, Macd.histogram],
      NoLookAhead (fun _ => True) (fun prices : List Float => macd prices fast slow signal) line) ∧
    (∀ period width, ∀ line ∈ [Bands.upper, Bands.middle, Bands.lower],
      NoLookAhead (fun _ => True) (fun prices : List Float => bollingerBands prices period width)
        line) ∧
    (∀ period smoothK smoothD, ∀ line ∈ [Stochastic.k, Stochastic.d],
      NoLookAhead (fun _ => True)
        (fun bars : List (Bar Float) => stochastic bars period smoothK smoothD) line) ∧
    (∀ period, NoLookAhead (fun _ => True) (fun bars : List (Bar Float) => adx bars period) id) ∧
    NoLookAhead (fun _ => True) (fun bars : List (Bar Float) => .ok (trueRange bars)) id ∧
    (∀ period, NoLookAhead (fun _ => True) (fun bars : List (Bar Float) => atr bars period) id) ∧
    NoLookAhead HasVolume (fun bars : List (Bar Float) => obv bars) id ∧
    NoLookAhead HasVolume (fun bars : List (Bar Float) => vwap bars) id := by
  refine ⟨fun period => (steady_sma period).noLookAhead _,
    fun period => (steady_ema period).noLookAhead _,
    fun period => (steady_wma period).noLookAhead _,
    fun period => (steady_rsi period).noLookAhead _,
    fun period => (steady_roc period).noLookAhead _, ?_, ?_, ?_,
    fun period => (steady_adx period).noLookAhead _, steady_trueRange.noLookAhead _,
    fun period => (steady_atr period).noLookAhead _, obv_noLookAhead, vwap_noLookAhead⟩
  · intro fast slow signal line hline
    obtain ⟨hmacd, hsignal, hhistogram⟩ := steady_macd (α := Float) fast slow signal
    simp only [List.mem_cons, List.not_mem_nil, or_false] at hline
    rcases hline with rfl | rfl | rfl
    · exact hmacd.noLookAhead _
    · exact hsignal.noLookAhead _
    · exact hhistogram.noLookAhead _
  · intro period width line hline
    obtain ⟨hupper, hmiddle, hlower⟩ := steady_bollingerBands period width
    simp only [List.mem_cons, List.not_mem_nil, or_false] at hline
    rcases hline with rfl | rfl | rfl
    · exact hupper.noLookAhead _
    · exact hmiddle.noLookAhead _
    · exact hlower.noLookAhead _
  · intro period smoothK smoothD line hline
    obtain ⟨hk, hd⟩ := steady_stochastic (α := Float) period smoothK smoothD
    simp only [List.mem_cons, List.not_mem_nil, or_false] at hline
    rcases hline with rfl | rfl
    · exact hk.noLookAhead _
    · exact hd.noLookAhead _

/-- A fourth price gives the signal its first known value and leaves the missing ones before it. -/
theorem macd_signal_begins_later : ∃ r r' : Macd Float,
    macd [1, 2, 4] 1 2 3 = .ok r ∧ r.signal.map Float.isNaN = [true, true, true] ∧
    macd ([1, 2, 4] ++ [8]) 1 2 3 = .ok r' ∧
    r'.signal.map Float.isNaN = [true, true, true, false] ∧ r'.signal.take 3 = r.signal := by
  have hshort : (macd ([1, 2, 4] : List Float) 1 2 3).toOption.map (·.signal.map Float.isNaN) =
      some [true, true, true] := by decide +kernel
  have hlong : (macd ([1, 2, 4] ++ [8] : List Float) 1 2 3).toOption.map
      (·.signal.map Float.isNaN) = some [true, true, true, false] := by decide +kernel
  cases hr : macd ([1, 2, 4] : List Float) 1 2 3 with
  | error failure =>
    rw [hr] at hshort
    contradiction
  | ok r =>
    have hsignal := indicators_noLookAhead.2.2.2.2.2.1 1 2 3 Macd.signal (by simp)
    obtain ⟨-, r', hr', htake⟩ := hsignal [1, 2, 4] [8] r hr fun _ _ => trivial
    dsimp only at hr'
    rw [hr] at hshort
    rw [hr'] at hlong
    exact ⟨r, r', rfl, Option.some.inj hshort, hr', Option.some.inj hlong, htake⟩

end Bourse.Indicator
