import Bourse.Proofs.Datum
import Bourse.Proofs.Indicator.Calls
import Bourse.Proofs.Indicator.LookAhead
import Bourse.Proofs.Results

/-! How calls of indicators fail. Nearly all of them fail in one way only, as long as their periods
and the numbers next to them can be written out: they refuse a period or a list of values that is
too short. Volumes must be numbers besides, and the signal of a line must have a positive period,
for else it would begin at a first known value that there need not be. -/
namespace Bourse.Indicator

variable {α ρ σ : Type} [Scalar α]

open Scalar Series

/-- An integer that can be written out in a message. -/
def IsNameable (n : Int) : Prop := (Datum.int n).isWritable = true

instance (n : Int) : Decidable (IsNameable n) :=
  inferInstanceAs (Decidable ((Datum.int n).isWritable = true))

/-- A call that fails in no other way than by a refusal. -/
def OnlyRefuses (call : Except Failure ρ) : Prop :=
  FailsWithin (fun failure => ∃ refusal, failure = .refused refusal) call

theorem onlyRefuses_ok (r : ρ) : OnlyRefuses (.ok r) := failsWithin_ok r

theorem not_onlyRefuses_error {failure : Failure} (h : ∀ refusal, failure ≠ .refused refusal) :
    ¬OnlyRefuses (.error failure : Except Failure ρ) := by
  intro hrefuses
  obtain ⟨refusal, hrefusal⟩ := hrefuses failure rfl
  exact h refusal hrefusal

theorem OnlyRefuses.bind {x : Except Failure ρ} {f : ρ → Except Failure σ}
    (hx : OnlyRefuses x) (hf : ∀ a, x = .ok a → OnlyRefuses (f a)) : OnlyRefuses (x >>= f) :=
  FailsWithin.bind hx hf

theorem ofRefusal_of_isNameable {refusal : Refusal} (h : IsNameable refusal.number) :
    Failure.ofRefusal refusal = .refused refusal :=
  if_pos h

theorem ofRefusal_of_not_isNameable {refusal : Refusal} (h : ¬IsNameable refusal.number) :
    Failure.ofRefusal refusal = .unwritable :=
  if_neg h

/-- A number behind one that can be written out is positive if it cannot be written out itself. -/
theorem pos_of_not_isNameable_succ {n : Int} (h : IsNameable n) (hnext : ¬IsNameable (n + 1)) :
    1 ≤ n := by
  unfold IsNameable at h hnext
  rw [Datum.isWritable_int] at h hnext
  have hmost : 1 < 10 ^ Numeral.mostDigits := Nat.one_lt_pow (by decide) (by decide)
  generalize 10 ^ Numeral.mostDigits = most at h hnext hmost
  omega

/-- A check refuses in writing, as the number of values that are required need not be named where
there are enough. -/
theorem onlyRefuses_checkPeriod (kind : Kind) {length : Nat} {period required : Int}
    (hperiod : IsNameable period) (hrequired : IsNameable required ∨ required ≤ length) :
    OnlyRefuses (checkPeriod kind length period required) := by
  unfold checkPeriod
  split_ifs with hpos hlength
  · exact failsWithin_error ⟨_, ofRefusal_of_isNameable hperiod⟩
  · exact failsWithin_error
      ⟨_, ofRefusal_of_isNameable (hrequired.resolve_right (not_le.mpr hlength))⟩
  · exact onlyRefuses_ok _

/-- A check has nothing to say where more values are required than can be named. -/
theorem checkPeriod_of_not_isNameable {kind : Kind} {length : Nat} {period required : Int}
    (hpos : 1 ≤ period) (hlength : length < required) (hrequired : ¬IsNameable required) :
    checkPeriod kind length period required = .error .unwritable := by
  rw [checkPeriod, if_neg (not_lt.mpr hpos), if_pos hlength]
  exact congrArg Except.error (ofRefusal_of_not_isNameable hrequired)

/-! Prices -/

section Prices

variable (prices : List α) {period : Int}

theorem onlyRefuses_sma (h : IsNameable period) : OnlyRefuses (sma prices period) :=
  (onlyRefuses_checkPeriod _ h (.inl h)).bind fun _ _ => onlyRefuses_ok _

theorem onlyRefuses_ema (h : IsNameable period) : OnlyRefuses (ema prices period) :=
  (onlyRefuses_checkPeriod _ h (.inl h)).bind fun _ _ => onlyRefuses_ok _

theorem onlyRefuses_wma (h : IsNameable period) : OnlyRefuses (wma prices period) :=
  (onlyRefuses_checkPeriod _ h (.inl h)).bind fun _ _ => onlyRefuses_ok _

theorem onlyRefuses_rsi (h : IsNameable period)
    (hnext : IsNameable (period + 1) ∨ period + 1 ≤ prices.length) :
    OnlyRefuses (rsi prices period) :=
  (onlyRefuses_checkPeriod _ h hnext).bind fun _ _ => onlyRefuses_ok _

theorem onlyRefuses_roc (h : IsNameable period)
    (hnext : IsNameable (period + 1) ∨ period + 1 ≤ prices.length) :
    OnlyRefuses (roc prices period) :=
  (onlyRefuses_checkPeriod _ h hnext).bind fun _ _ => onlyRefuses_ok _

theorem onlyRefuses_bollingerBands (h : IsNameable period) (width : α) :
    OnlyRefuses (bollingerBands prices period width) :=
  (onlyRefuses_checkPeriod _ h (.inl h)).bind fun _ _ => onlyRefuses_ok _

/-- A signal begins, or it refuses its period, if some values of the line are known or its period is
positive. -/
theorem onlyRefuses_signalLine {line : List α} (h : IsNameable period)
    (hknown : known line ≠ [] ∨ 1 ≤ period) : OnlyRefuses (signalLine line period) := by
  rw [signalLine_eq]
  split_ifs with hfew hnone
  · exact onlyRefuses_ok _
  · rw [List.isEmpty_iff] at hnone
    rw [hnone, List.length_nil] at hfew
    exact absurd (hknown.resolve_left (not_not_intro hnone)) (by omega)
  · exact (onlyRefuses_ema _ h).bind fun _ _ => onlyRefuses_ok _

/-- Of two averages and a signal, a signal whose period is not positive needs a known difference. -/
theorem onlyRefuses_macd {fast slow signal : Int} (hfast : IsNameable fast)
    (hslow : IsNameable slow) (hsignal : IsNameable signal)
    (hknown : ∀ p q : Nat, fast = p → slow = q → 1 ≤ p → 1 ≤ q → max p q ≤ prices.length →
      known (macdLine p q prices) ≠ [] ∨ 1 ≤ signal) :
    OnlyRefuses (macd prices fast slow signal) := by
  refine (onlyRefuses_checkPeriod _ hslow (.inl hslow)).bind fun _ _ => ?_
  refine (onlyRefuses_ema _ hfast).bind fun fastLine hfastLine => ?_
  refine (onlyRefuses_ema _ hslow).bind fun slowLine hslowLine => ?_
  obtain ⟨p, hp, hposP, hlengthP, rfl⟩ := ema_eq_ok.mp hfastLine
  obtain ⟨q, hq, hposQ, hlengthQ, rfl⟩ := ema_eq_ok.mp hslowLine
  have hline := hknown p q hp hq hposP hposQ (max_le hlengthP hlengthQ)
  exact (onlyRefuses_signalLine hsignal hline).bind fun _ _ => onlyRefuses_ok _

end Prices

/-! Bars -/

section Bars

variable (bars : List (Bar α)) {period : Int}

theorem onlyRefuses_stochastic {smoothK smoothD : Int} (h : IsNameable period)
    (hk : IsNameable smoothK) (hd : IsNameable smoothD) :
    OnlyRefuses (stochastic bars period smoothK smoothD) := by
  have hmax {smoothing : Int} (hsmoothing : IsNameable smoothing) :
      IsNameable (max period smoothing) := by
    rcases max_choice period smoothing with heq | heq <;> rwa [heq]
  refine (onlyRefuses_checkPeriod _ h (.inl h)).bind fun _ _ => ?_
  refine (onlyRefuses_checkPeriod _ hk (.inl (hmax hk))).bind fun _ _ => ?_
  refine (onlyRefuses_checkPeriod _ hd (.inl (hmax hd))).bind fun _ _ => ?_
  refine (onlyRefuses_sma _ hk).bind fun k _ => ?_
  exact (onlyRefuses_sma _ hd).bind fun _ _ => onlyRefuses_ok _

theorem onlyRefuses_atr (h : IsNameable period)
    (hnext : IsNameable (period + 1) ∨ period + 1 ≤ bars.length) :
    OnlyRefuses (atr bars period) :=
  (onlyRefuses_checkPeriod _ h hnext).bind fun _ _ => onlyRefuses_ema _ h

theorem onlyRefuses_adx (h : IsNameable period)
    (hnext : IsNameable (period + 1) ∨ period + 1 ≤ bars.length) :
    OnlyRefuses (adx bars period) := by
  rw [adx_eq]
  refine (onlyRefuses_checkPeriod _ h hnext).bind fun p _ => ?_
  refine (onlyRefuses_ema _ h).bind fun ranges _ => ?_
  refine (onlyRefuses_ema _ h).bind fun ups _ => ?_
  refine (onlyRefuses_ema _ h).bind fun downs _ => ?_
  unfold averageIndex
  split_ifs
  · exact onlyRefuses_ok _
  · exact (onlyRefuses_ema _ h).bind fun _ _ => onlyRefuses_ok _

end Bars

/-! Volumes -/

theorem succeeds_volumeOf {bar : Bar α} : Succeeds (volumeOf bar) ↔ HasVolume bar := by
  unfold volumeOf HasVolume
  cases (ofVolume? bar.volume : Option α) with
  | none => exact iff_of_false nofun nofun
  | some volume => exact iff_of_true ⟨volume, rfl⟩ rfl

/-- Whether the volume of a bar is a number in case the balance takes it: the close has moved. -/
def HasVolumeIfMoved (previous bar : Bar α) : Prop :=
  less previous.close bar.close = true ∨ less bar.close previous.close = true → HasVolume bar

/-- Whether all volumes that the balance takes are numbers: that of the first bar, and those of the
bars whose close differs from the one before. -/
def HasBalance : List (Bar α) → Prop
  | [] => True
  | first :: rest => HasVolume first ∧ (first :: rest).IsChain HasVolumeIfMoved

theorem succeeds_nextBalance {previous bar : Bar α} {balance : α} :
    Succeeds (nextBalance previous balance bar) ↔ HasVolumeIfMoved previous bar := by
  unfold nextBalance obvFrom.moved HasVolumeIfMoved
  split_ifs with hup hdown
  · rw [succeeds_map_iff, succeeds_volumeOf]
    exact ⟨fun h _ => h, fun h => h (.inl hup)⟩
  · rw [succeeds_map_iff, succeeds_volumeOf]
    exact ⟨fun h _ => h, fun h => h (.inr hdown)⟩
  · exact iff_of_true (succeeds_ok balance) fun hmoved => absurd hmoved (not_or_intro hup hdown)

theorem succeeds_obvFrom {previous : Bar α} {balance : α} {bars : List (Bar α)} :
    Succeeds (obvFrom previous balance bars) ↔ (previous :: bars).IsChain HasVolumeIfMoved := by
  induction bars generalizing previous balance with
  | nil => exact iff_of_true (succeeds_ok []) (List.isChain_singleton _)
  | cons bar rest ih =>
    rw [obvFrom_cons, List.isChain_cons_cons, ← succeeds_nextBalance]
    exact succeeds_bind_const_iff fun next => succeeds_bind_pure_iff.trans ih

theorem succeeds_obv {bars : List (Bar α)} : Succeeds (obv bars) ↔ HasBalance bars := by
  cases bars with
  | nil => exact iff_of_true (succeeds_ok []) trivial
  | cons first rest =>
    rw [HasBalance, ← succeeds_volumeOf]
    exact succeeds_bind_const_iff fun balance => succeeds_bind_pure_iff.trans succeeds_obvFrom

theorem succeeds_vwapFrom {turnover volume : α} {bars : List (Bar α)} :
    Succeeds (vwapFrom turnover volume bars) ↔ ∀ bar ∈ bars, HasVolume bar := by
  induction bars generalizing turnover volume with
  | nil => exact iff_of_true (succeeds_ok []) nofun
  | cons bar rest ih =>
    rw [List.forall_mem_cons, ← succeeds_volumeOf]
    exact succeeds_bind_const_iff fun traded => succeeds_bind_pure_iff.trans ih

theorem succeeds_vwap {bars : List (Bar α)} :
    Succeeds (vwap bars) ↔ ∀ bar ∈ bars, HasVolume bar :=
  succeeds_vwapFrom

/-- Where all volumes are numbers, so are those that the balance takes. -/
theorem hasBalance_of_volumes {bars : List (Bar α)} (h : ∀ bar ∈ bars, HasVolume bar) :
    HasBalance bars := by
  cases bars with
  | nil => trivial
  | cons first rest =>
    refine ⟨h first List.mem_cons_self, List.Pairwise.isChain ?_⟩
    exact List.pairwise_of_forall_mem_list fun _ _ bar hbar _ => h bar hbar

end Bourse.Indicator
