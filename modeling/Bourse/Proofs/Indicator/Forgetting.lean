import Bourse.Proofs.Indicator.Calls

/-! Windows forget the past. A figure of a trailing window depends on the values of the window only,
and so does a figure of figures, whose windows lie behind one another: what stands before them may
be left out. -/
namespace Bourse.Indicator

variable {α β γ ρ : Type} [Scalar α]

open Scalar Series

/-- From a place on, a series is the end of another one, which has `d` more values in front. -/
structure EndsAlike (first d : Nat) (short long : List γ) : Prop where
  length_eq : short.length + d = long.length
  getElem?_eq (i : Nat) : first ≤ i → short[i]? = long[i + d]?

/-- A line of a call forgets the past: if there is a line without the first values, there is one
with them, and from its warm-up on the shorter line has the same numbers. -/
def Forgets (call : List β → Except Failure ρ) (line : ρ → List γ) (warmUp : Int) : Prop :=
  ∀ xs d r, call (xs.drop d) = .ok r →
    ∃ r', call xs = .ok r' ∧ EndsAlike warmUp.toNat d (line r) (line r')

theorem endsAlike_drop {d : Nat} {xs : List β} (h : d ≤ xs.length) :
    EndsAlike 0 d (xs.drop d) xs := by
  refine ⟨?_, ?_⟩
  · rw [List.length_drop]
    omega
  · intro i _
    rw [List.getElem?_drop, Nat.add_comm]

namespace EndsAlike

variable {first d p : Nat} {short long : List β}

/-- A window that begins late enough has the same values in both series. -/
theorem window_eq (h : EndsAlike first d short long) {start : Nat} (hstart : first ≤ start) :
    (short.drop start).take p = (long.drop (start + d)).take p := by
  apply List.ext_getElem?
  intro j
  have hsame : short[start + j]? = long[start + d + j]? := by
    rw [h.getElem?_eq _ (by omega)]
    congr 1
    omega
  rw [List.getElem?_take, List.getElem?_take, List.getElem?_drop, List.getElem?_drop, hsame]

/-- Figures of windows end alike from the first window on that does. -/
theorem trailing (h : EndsAlike first d short long) (hp : 1 ≤ p) (hfits : p ≤ short.length)
    (figure : List β → α) :
    EndsAlike (first + (p - 1)) d (Series.trailing p figure short)
      (Series.trailing p figure long) := by
  have hlength := h.length_eq
  have hshort := length_trailing figure hp hfits
  have hlong := length_trailing figure hp (show p ≤ long.length by omega)
  refine ⟨by omega, ?_⟩
  intro i hi
  by_cases hlt : i < short.length
  · have hstart : i + d + 1 - p = i + 1 - p + d := by omega
    rw [getElem?_trailing_of_le figure hp (by omega) hlt,
      getElem?_trailing_of_le figure hp (by omega) (by omega), hstart, h.window_eq (by omega)]
  · rw [List.getElem?_eq_none (by omega), List.getElem?_eq_none (by omega)]

/-- So do figures of two values that are `p` places apart. -/
theorem behind {figure : β → β → α} (h : EndsAlike 0 d short long) (hfits : p ≤ short.length) :
    EndsAlike p d (missingSeries p ++ List.zipWith figure short (short.drop p))
      (missingSeries p ++ List.zipWith figure long (long.drop p)) := by
  have hlength := h.length_eq
  have hmissing : (missingSeries p : List α).length = p := List.length_replicate
  refine ⟨?_, ?_⟩
  · rw [List.length_append, List.length_append, List.length_zipWith, List.length_zipWith,
      List.length_drop, List.length_drop]
    omega
  · intro i hi
    have hbase : short[i - p]? = long[i + d - p]? := by
      rw [h.getElem?_eq _ (Nat.zero_le _)]
      congr 1
      omega
    have hprice : short[p + (i - p)]? = long[p + (i + d - p)]? := by
      rw [h.getElem?_eq _ (Nat.zero_le _)]
      congr 1
      omega
    rw [List.getElem?_append_right (by omega), List.getElem?_append_right (by omega), hmissing,
      List.getElem?_zipWith, List.getElem?_zipWith, List.getElem?_drop, List.getElem?_drop, hbase,
      hprice]

/-- The windows of an average of figures lie over those of the figures. -/
theorem stochasticK {short long : List (Bar α)} (h : EndsAlike 0 d short long) {q : Nat}
    (hp : 1 ≤ p) (hq : 1 ≤ q) (hfits : max p q ≤ short.length) :
    EndsAlike (p - 1 + (q - 1)) d (Indicator.stochasticK p q short)
      (Indicator.stochasticK p q long) := by
  have hraw : (Series.trailing p rawStochastic short).length = short.length :=
    length_trailing rawStochastic hp (by omega)
  have hends := (h.trailing hp (by omega) rawStochastic).trailing hq (by omega) (mean q)
  rwa [Nat.zero_add] at hends

end EndsAlike

/-! Calls -/

/-- A call that only checks its period forgets the past if what it computes does. -/
theorem forgets_checked {kind : Kind} {period required warmUp : Int} {f : Nat → List β → ρ}
    {line : ρ → List γ} (hrequired : period ≤ required)
    (hline : ∀ p : Nat, period = p → 1 ≤ p → ∀ short long d, required ≤ (short.length : Int) →
      EndsAlike 0 d short long → EndsAlike warmUp.toNat d (line (f p short)) (line (f p long))) :
    Forgets (fun xs => do
      let p ← checkPeriod kind xs.length period required
      return f p xs) line warmUp := by
  intro xs d r h
  obtain ⟨p, hperiod, hp, hlength, rfl⟩ := checked_eq_ok.mp h
  have hdropped : (xs.drop d).length = xs.length - d := List.length_drop
  -- a call on no values at all is refused
  have hd : d ≤ xs.length := by omega
  refine ⟨f p xs, checked_eq_ok.mpr ⟨p, hperiod, hp, by omega, rfl⟩, ?_⟩
  exact hline p hperiod hp _ _ d hlength (endsAlike_drop hd)

/-- So does a line of figures of windows. -/
theorem forgets_trailing {kind : Kind} {period : Int} {f : Nat → List β → ρ} {line : ρ → List α}
    (figure : Nat → List β → α) (hline : ∀ p xs, line (f p xs) = trailing p (figure p) xs) :
    Forgets (fun xs => do
      let p ← checkPeriod kind xs.length period period
      return f p xs) line (period - 1) := by
  apply forgets_checked le_rfl
  intro p hperiod hp short long d hlength h
  have hwarmUp : (period - 1).toNat = 0 + (p - 1) := by omega
  rw [hline, hline, hwarmUp]
  exact h.trailing hp (by omega) (figure p)

theorem forgets_bollingerBands (period : Int) (width : α) :
    ∀ line ∈ [Bands.upper, Bands.middle, Bands.lower],
      Forgets (fun prices => bollingerBands prices period width) line (period - 1) := by
  intro line hline
  simp only [List.mem_cons, List.not_mem_nil, or_false] at hline
  rcases hline with rfl | rfl | rfl
  · exact forgets_trailing _ fun _ _ => rfl
  · exact forgets_trailing _ fun _ _ => rfl
  · exact forgets_trailing _ fun _ _ => rfl

theorem forgets_roc (period : Int) :
    Forgets (fun prices : List α => roc prices period) id period := by
  apply forgets_checked (by omega)
  intro p hperiod hp short long d hlength h
  have hwarmUp : period.toNat = p := by omega
  rw [hwarmUp]
  exact h.behind (by omega)

theorem forgets_stochastic (period smoothK smoothD : Int) :
    Forgets (fun bars : List (Bar α) => stochastic bars period smoothK smoothD) Stochastic.k
        (period + smoothK - 2) ∧
      Forgets (fun bars : List (Bar α) => stochastic bars period smoothK smoothD) Stochastic.d
        (period + smoothK + smoothD - 3) := by
  have hlines : ∀ (bars : List (Bar α)) (d : Nat) (r : Stochastic α),
      stochastic (bars.drop d) period smoothK smoothD = .ok r →
      ∃ r', stochastic bars period smoothK smoothD = .ok r' ∧
        EndsAlike (period + smoothK - 2).toNat d r.k r'.k ∧
        EndsAlike (period + smoothK + smoothD - 3).toNat d r.d r'.d := by
    intro bars d r h
    obtain ⟨p, q, s, ⟨rfl, rfl, rfl⟩, ⟨hp, hq, hs⟩, hlength, rfl⟩ := stochastic_eq_ok.mp h
    have hdropped : (bars.drop d).length = bars.length - d := List.length_drop
    have hfits : max p q ≤ (bars.drop d).length := by omega
    have hcount := length_stochasticK hp hq hfits
    have hk := (endsAlike_drop (show d ≤ bars.length by omega)).stochasticK hp hq hfits
    have hd := hk.trailing hs (by omega) (mean s)
    have hwarmUp : ((p : Int) + q - 2).toNat = p - 1 + (q - 1) := by omega
    have hwarmUp' : ((p : Int) + q + s - 3).toNat = p - 1 + (q - 1) + (s - 1) := by omega
    rw [hwarmUp, hwarmUp']
    exact ⟨_, stochastic_eq_ok.mpr ⟨p, q, s, ⟨rfl, rfl, rfl⟩, ⟨hp, hq, hs⟩, by omega, rfl⟩, hk, hd⟩
  constructor
  · intro bars d r h
    obtain ⟨r', hr', hk, -⟩ := hlines bars d r h
    exact ⟨r', hr', hk⟩
  · intro bars d r h
    obtain ⟨r', hr', -, hd⟩ := hlines bars d r h
    exact ⟨r', hr', hd⟩

/-- Indicators of windows forget the past, whatever their parameters and whatever is missing: a call
without the first values has the numbers of the full call wherever its windows are full. -/
theorem windows_forget_the_past :
    (∀ period, Forgets (fun prices : List α => sma prices period) id (period - 1)) ∧
    (∀ period, Forgets (fun prices : List α => wma prices period) id (period - 1)) ∧
    (∀ period width, ∀ line ∈ [Bands.upper, Bands.middle, Bands.lower],
      Forgets (fun prices : List α => bollingerBands prices period width) line (period - 1)) ∧
    (∀ period, Forgets (fun prices : List α => roc prices period) id period) ∧
    (∀ period smoothK smoothD,
      Forgets (fun bars : List (Bar α) => stochastic bars period smoothK smoothD) Stochastic.k
        (period + smoothK - 2)) ∧
    (∀ period smoothK smoothD,
      Forgets (fun bars : List (Bar α) => stochastic bars period smoothK smoothD) Stochastic.d
        (period + smoothK + smoothD - 3)) := by
  refine ⟨?_, ?_, forgets_bollingerBands, forgets_roc, ?_, ?_⟩
  · intro period
    exact forgets_trailing mean fun _ _ => rfl
  · intro period
    exact forgets_trailing _ fun _ _ => rfl
  · intro period smoothK smoothD
    exact (forgets_stochastic period smoothK smoothD).1
  · intro period smoothK smoothD
    exact (forgets_stochastic period smoothK smoothD).2

/-- What is no number stands in the averages of the windows that see it, and in no later one. -/
theorem average_forgets_nan : ∃ r r' : List Float,
    sma (([Binary64.nanFloat, 1, 3, 5] : List Float).drop 1) 2 = .ok r ∧
    r.map Float.isNaN = [true, false, false] ∧
    sma ([Binary64.nanFloat, 1, 3, 5] : List Float) 2 = .ok r' ∧
    r'.map Float.isNaN = [true, true, false, false] ∧ r[1]? = r'[2]? := by
  have hshort : (sma (([Binary64.nanFloat, 1, 3, 5] : List Float).drop 1) 2).toOption.map
      (·.map Float.isNaN) = some [true, false, false] := by decide +kernel
  have hlong : (sma ([Binary64.nanFloat, 1, 3, 5] : List Float) 2).toOption.map
      (·.map Float.isNaN) = some [true, true, false, false] := by decide +kernel
  cases hr : sma (([Binary64.nanFloat, 1, 3, 5] : List Float).drop 1) 2 with
  | error failure =>
    rw [hr] at hshort
    contradiction
  | ok r =>
    obtain ⟨r', hr', hends⟩ := windows_forget_the_past.1 2 _ 1 r hr
    dsimp only at hr'
    rw [hr] at hshort
    rw [hr'] at hlong
    exact ⟨r, r', rfl, Option.some.inj hshort, hr', Option.some.inj hlong,
      hends.getElem?_eq 1 (by decide)⟩

end Bourse.Indicator
