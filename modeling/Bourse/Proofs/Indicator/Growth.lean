import Bourse.Indicator.Momentum
import Bourse.Indicator.Trend
import Bourse.Indicator.Volume
import Bourse.Proofs.Lists
import Bourse.Proofs.Results
import Mathlib.Tactic.SplitIfs

/-! Series that only grow. What an indicator computes from some values stands at the front of what
it computes from more of them, and it computes one number for each value. -/
namespace Bourse.Indicator

variable {α β γ : Type} [Scalar α]

open Scalar Series

theorem isPrefix_missingSeries {m n : Nat} (h : m ≤ n) :
    (missingSeries m : List α) <+: missingSeries n := by
  refine ⟨missingSeries (n - m), ?_⟩
  rw [missingSeries, missingSeries, missingSeries, List.replicate_append_replicate,
    Nat.add_sub_cancel' h]

/-! Windows -/

theorem tails_eq (count : Nat) (xs : List β) :
    tails count xs = (List.range count).map fun i => xs.drop i := by
  induction count generalizing xs with
  | zero => rfl
  | succ count ih =>
    rw [tails, ih, List.range_succ_eq_map, List.map_cons, List.map_map, List.drop_zero]
    refine congrArg (xs :: ·) (List.map_congr_left fun i _ => ?_)
    rw [Function.comp_apply, List.drop_tail]

theorem windows_eq (p : Nat) (xs : List β) :
    windows p xs = (List.range (xs.length + 1 - p)).map fun i => (xs.drop i).take p := by
  rw [windows, tails_eq, List.map_map]
  rfl

theorem isPrefix_windows (p : Nat) {xs xs' : List β} (h : xs <+: xs') :
    windows p xs <+: windows p xs' := by
  obtain ⟨more, rfl⟩ := h
  have hrange : List.range (xs.length + 1 - p) <+: List.range ((xs ++ more).length + 1 - p) := by
    rw [List.prefix_iff_eq_take, List.take_range, List.length_range, List.length_append]
    congr 1
    omega
  -- a window that was full before is filled by the same values
  have hwindow : ∀ i ∈ List.range (xs.length + 1 - p),
      (xs.drop i).take p = ((xs ++ more).drop i).take p := by
    intro i hi
    have hi := List.mem_range.mp hi
    have hlength : p ≤ (xs.drop i).length := by
      rw [List.length_drop]
      omega
    rw [List.drop_append_of_le_length (by omega), List.take_append_of_le_length hlength]
  rw [windows_eq, windows_eq, List.map_congr_left hwindow]
  exact hrange.map _

theorem isPrefix_trailing (p : Nat) (figure : List β → α) {xs xs' : List β} (h : xs <+: xs') :
    trailing p figure xs <+: trailing p figure xs' :=
  (List.prefix_append_right_inj _).mpr ((isPrefix_windows p h).map figure)

theorem length_trailing {p : Nat} (figure : List β → α) {xs : List β} (hp : 1 ≤ p)
    (h : p ≤ xs.length) : (trailing p figure xs).length = xs.length := by
  rw [trailing, windows_eq, List.length_append, List.length_map, List.length_map, List.length_range,
    missingSeries, List.length_replicate]
  omega

/-- Before the first full window a number is missing, and then it is the figure of its window. -/
theorem getElem?_trailing {p i : Nat} {figure : List β → α} {xs : List β} {x : α} (hp : 1 ≤ p)
    (h : (trailing p figure xs)[i]? = some x) :
    i + 1 < p ∧ x = missing ∨
      p ≤ i + 1 ∧ i + 1 - p + p ≤ xs.length ∧ x = figure ((xs.drop (i + 1 - p)).take p) := by
  have hlength : (missingSeries (p - 1) : List α).length = p - 1 := List.length_replicate
  rw [trailing] at h
  rcases Nat.lt_or_ge i (p - 1) with hlt | hge
  · rw [List.getElem?_append_left (by omega), missingSeries, List.getElem?_replicate,
      if_pos hlt] at h
    exact .inl ⟨by omega, (Option.some.inj h).symm⟩
  · rw [List.getElem?_append_right (by omega), hlength, windows_eq, List.map_map,
      List.getElem?_map] at h
    obtain ⟨start, hstart, rfl⟩ := Option.map_eq_some_iff.mp h
    obtain ⟨hlt, hstart⟩ := List.getElem?_eq_some_iff.mp hstart
    rw [List.length_range] at hlt
    rw [List.getElem_range] at hstart
    have hsame : start = i + 1 - p := by omega
    rw [← hsame]
    exact .inr ⟨by omega, by omega, rfl⟩

/-- From the first full window on there is a figure at every place. -/
theorem getElem?_trailing_of_le {p i : Nat} (figure : List β → α) {xs : List β} (hp : 1 ≤ p)
    (hpi : p ≤ i + 1) (hi : i < xs.length) :
    (trailing p figure xs)[i]? = some (figure ((xs.drop (i + 1 - p)).take p)) := by
  have hlength : (trailing p figure xs).length = xs.length := length_trailing figure hp (by omega)
  have hget := List.getElem?_eq_getElem (hi.trans_eq hlength.symm)
  rcases getElem?_trailing hp hget with ⟨hbefore, -⟩ | ⟨-, -, hfigure⟩
  · omega
  · rw [hget, hfigure]

/-! Recurrences -/

theorem isPrefix_emaFrom (factor previous : α) {xs xs' : List α} (h : xs <+: xs') :
    emaFrom factor previous xs <+: emaFrom factor previous xs' := by
  obtain ⟨more, rfl⟩ := h
  induction xs generalizing previous with
  | nil => exact List.nil_prefix
  | cons x xs ih => exact List.cons_prefix_cons.mpr ⟨rfl, ih _⟩

theorem length_emaFrom (factor previous : α) (xs : List α) :
    (emaFrom factor previous xs).length = xs.length := by
  induction xs generalizing previous with
  | nil => rfl
  | cons x xs ih => exact congrArg (· + 1) (ih _)

theorem isPrefix_emaSeries {p : Nat} {xs xs' : List α} (hp : p ≤ xs.length) (h : xs <+: xs') :
    emaSeries p xs <+: emaSeries p xs' := by
  -- the seed needs the first `p` values only
  have htake : xs'.take p = xs.take p := by
    obtain ⟨more, rfl⟩ := h
    exact List.take_append_of_le_length hp
  rw [emaSeries, emaSeries, htake]
  refine (List.prefix_append_right_inj _).mpr (List.cons_prefix_cons.mpr ⟨rfl, ?_⟩)
  exact isPrefix_emaFrom _ _ (h.drop p)

theorem length_emaSeries {p : Nat} {xs : List α} (hp : 1 ≤ p) (h : p ≤ xs.length) :
    (emaSeries p xs).length = xs.length := by
  rw [emaSeries, List.length_append, List.length_cons, length_emaFrom, missingSeries,
    List.length_replicate, List.length_drop]
  omega

theorem isPrefix_strengthsFrom (p : Nat) (averageGain averageLoss : α) {xs xs' : List α}
    (h : xs <+: xs') :
    strengthsFrom p averageGain averageLoss xs <+: strengthsFrom p averageGain averageLoss xs' := by
  obtain ⟨more, rfl⟩ := h
  induction xs generalizing averageGain averageLoss with
  | nil => exact List.nil_prefix
  | cons x xs ih => exact List.cons_prefix_cons.mpr ⟨rfl, ih _ _⟩

theorem length_strengthsFrom (p : Nat) (averageGain averageLoss : α) (xs : List α) :
    (strengthsFrom p averageGain averageLoss xs).length = xs.length := by
  induction xs generalizing averageGain averageLoss with
  | nil => rfl
  | cons x xs ih => exact congrArg (· + 1) (ih _ _)

/-! Calls -/

theorem checkPeriod_eq_ok {kind : Kind} {length : Nat} {period required : Int} {p : Nat} :
    checkPeriod kind length period required = .ok p ↔ period = p ∧ 1 ≤ p ∧ required ≤ length := by
  unfold checkPeriod
  split_ifs with hperiod hlength
  · exact iff_of_false nofun (by omega)
  · exact iff_of_false nofun (by omega)
  · rw [Except.ok.injEq]
    omega

/-- Behind a check a call may rely on what was checked. -/
theorem checked_congr {ρ : Type} {kind : Kind} {length : Nat} {period required : Int}
    {f g : Nat → Except Failure ρ}
    (h : ∀ p : Nat, period = p → 1 ≤ p → required ≤ length → f p = g p) :
    checkPeriod kind length period required >>= f =
      checkPeriod kind length period required >>= g := by
  cases hcheck : checkPeriod kind length period required with
  | error failure => rfl
  | ok p =>
    obtain ⟨hperiod, hpos, hrequired⟩ := checkPeriod_eq_ok.mp hcheck
    exact h p hperiod hpos hrequired

/-- A call that only checks its period. -/
theorem checked_eq_ok {ρ : Type} {kind : Kind} {length : Nat} {period required : Int}
    {f : Nat → ρ} {r : ρ} :
    (do
      let p ← checkPeriod kind length period required
      return f p : Except Failure ρ) = .ok r ↔
      ∃ p : Nat, period = p ∧ 1 ≤ p ∧ required ≤ length ∧ r = f p := by
  refine bind_eq_ok_iff.trans (exists_congr fun p => ?_)
  rw [checkPeriod_eq_ok]
  constructor
  · rintro ⟨⟨rfl, hpos, hlength⟩, hr⟩
    exact ⟨rfl, hpos, hlength, (Except.ok.inj hr).symm⟩
  · rintro ⟨rfl, hpos, hlength, rfl⟩
    exact ⟨⟨rfl, hpos, hlength⟩, rfl⟩

/-- A line of a call is steady: it has a number for each value, and with more values the call gives
a line again, at whose front it stands. -/
def Steady {ρ : Type} (call : List β → Except Failure ρ) (line : ρ → List γ) : Prop :=
  ∀ ⦃xs xs' : List β⦄, xs <+: xs' → ∀ r, call xs = .ok r →
    (line r).length = xs.length ∧ ∃ r', call xs' = .ok r' ∧ line r <+: line r'

theorem Steady.length_eq {ρ : Type} {call : List β → Except Failure ρ} {line : ρ → List γ}
    (h : Steady call line) {xs : List β} {r : ρ} (hr : call xs = .ok r) :
    (line r).length = xs.length :=
  (h List.prefix_rfl r hr).1

/-- A call that only checks its period is steady if what it computes is. -/
theorem steady_checked {ρ : Type} {kind : Kind} {period required : Int}
    {f : Nat → List β → ρ} {line : ρ → List γ}
    (hline : ∀ p : Nat, period = p → 1 ≤ p → ∀ xs xs', required ≤ (xs.length : Int) → xs <+: xs' →
      (line (f p xs)).length = xs.length ∧ line (f p xs) <+: line (f p xs')) :
    Steady (fun xs => do
      let p ← checkPeriod kind xs.length period required
      return f p xs) line := by
  intro xs xs' hxs r h
  obtain ⟨p, hperiod, hpos, hrequired, rfl⟩ := checked_eq_ok.mp h
  obtain ⟨hlength, hgrows⟩ := hline p hperiod hpos xs xs' hrequired hxs
  have hle := hxs.length_le
  exact ⟨hlength, f p xs', checked_eq_ok.mpr ⟨p, hperiod, hpos, by omega, rfl⟩, hgrows⟩

theorem steady_trailing {kind : Kind} {period : Int} (figure : Nat → List β → α) :
    Steady (fun xs => do
      let p ← checkPeriod kind xs.length period period
      return trailing p (figure p) xs) id := by
  refine steady_checked fun p hperiod hpos xs xs' hrequired hxs => ⟨?_, ?_⟩
  · exact length_trailing (figure p) hpos (by omega)
  · exact isPrefix_trailing p (figure p) hxs

theorem steady_sma (period : Int) : Steady (fun prices : List α => sma prices period) id :=
  steady_trailing mean

theorem steady_wma (period : Int) : Steady (fun prices : List α => wma prices period) id :=
  steady_trailing fun p window => weightedSum window / ofInt (p * (p + 1) / 2 : Nat)

theorem steady_ema (period : Int) : Steady (fun prices : List α => ema prices period) id := by
  refine steady_checked fun p hperiod hpos xs xs' hrequired hxs => ⟨?_, ?_⟩
  · exact length_emaSeries hpos (by omega)
  · exact isPrefix_emaSeries (by omega) hxs

theorem steady_rsi (period : Int) : Steady (fun prices : List α => rsi prices period) id := by
  refine steady_checked fun p hperiod hpos xs xs' hrequired hxs => ⟨?_, ?_⟩
  · dsimp only [id]
    rw [List.length_append, List.length_cons, length_strengthsFrom, missingSeries,
      List.length_replicate, List.length_drop, changes, length_steps]
    omega
  · -- the first averages are those of the first `p` changes, which later prices leave alone
    have hsteps : changes xs <+: changes xs' := isPrefix_steps _ hxs
    have htake : (changes xs').take p = (changes xs).take p := by
      obtain ⟨more, hmore⟩ := hsteps
      rw [← hmore, List.take_append_of_le_length]
      rw [changes, length_steps]
      omega
    dsimp only [id]
    rw [htake]
    refine (List.prefix_append_right_inj _).mpr (List.cons_prefix_cons.mpr ⟨rfl, ?_⟩)
    exact isPrefix_strengthsFrom p _ _ (hsteps.drop p)

theorem steady_roc (period : Int) : Steady (fun prices : List α => roc prices period) id := by
  refine steady_checked fun p hperiod hpos xs xs' hrequired hxs => ⟨?_, ?_⟩
  · dsimp only [id]
    rw [List.length_append, List.length_zipWith, missingSeries, List.length_replicate,
      List.length_drop]
    omega
  · exact (List.prefix_append_right_inj _).mpr (isPrefix_zipWith percentChange hxs (hxs.drop p))

theorem steady_bollingerBands (period : Int) (width : α) :
    Steady (fun prices => bollingerBands prices period width) Bands.upper ∧
      Steady (fun prices => bollingerBands prices period width) Bands.middle ∧
      Steady (fun prices => bollingerBands prices period width) Bands.lower := by
  refine ⟨?_, ?_, ?_⟩ <;> exact steady_checked fun p hperiod hpos xs xs' hrequired hxs =>
    ⟨length_trailing _ hpos (by omega), isPrefix_trailing p _ hxs⟩

/-! True ranges -/

theorem isPrefix_trueRange {xs xs' : List (Bar α)} (h : xs <+: xs') :
    trueRange xs <+: trueRange xs' := by
  cases xs with
  | nil => exact List.nil_prefix
  | cons first rest =>
    have hlater : laterTrueRanges (first :: rest) <+: laterTrueRanges xs' := isPrefix_steps _ h
    obtain ⟨more, rfl⟩ := h
    exact List.cons_prefix_cons.mpr ⟨rfl, hlater⟩

theorem length_trueRange (xs : List (Bar α)) : (trueRange xs).length = xs.length := by
  cases xs with
  | nil => rfl
  | cons first rest => exact congrArg (· + 1) (length_steps _ (first :: rest))

theorem steady_trueRange :
    Steady (fun bars : List (Bar α) => .ok (trueRange bars)) id := by
  intro xs xs' hxs r h
  cases h
  exact ⟨length_trueRange xs, trueRange xs', rfl, isPrefix_trueRange hxs⟩

theorem checkPeriod_mono {kind : Kind} {n n' : Nat} {period required : Int} {p : Nat}
    (h : checkPeriod kind n period required = .ok p) (hle : n ≤ n') :
    checkPeriod kind n' period required = .ok p := by
  obtain ⟨hperiod, hpos, hrequired⟩ := checkPeriod_eq_ok.mp h
  exact checkPeriod_eq_ok.mpr ⟨hperiod, hpos, by omega⟩

theorem steady_atr (period : Int) :
    Steady (fun bars : List (Bar α) => atr bars period) id := by
  intro xs xs' hxs r h
  obtain ⟨p, hp, hr⟩ := bind_eq_ok_iff.mp h
  obtain ⟨hlength, r', hr', hgrows⟩ := steady_ema period (isPrefix_trueRange hxs) r hr
  refine ⟨hlength.trans (length_trueRange xs), r', ?_, hgrows⟩
  exact bind_eq_ok_iff.mpr ⟨p, checkPeriod_mono hp hxs.length_le, hr'⟩

/-! Lines of several averages -/

theorem steady_stochastic (period smoothK smoothD : Int) :
    Steady (fun bars : List (Bar α) => stochastic bars period smoothK smoothD) Stochastic.k ∧
      Steady (fun bars : List (Bar α) => stochastic bars period smoothK smoothD) Stochastic.d := by
  -- the second line is an average of the first, so both are shown at once
  have hlines : ∀ ⦃xs xs' : List (Bar α)⦄, xs <+: xs' → ∀ r,
      stochastic xs period smoothK smoothD = .ok r →
      r.k.length = xs.length ∧ r.d.length = xs.length ∧
        ∃ r', stochastic xs' period smoothK smoothD = .ok r' ∧ r.k <+: r'.k ∧ r.d <+: r'.d := by
    intro xs xs' hxs r h
    obtain ⟨p, hp, h⟩ := bind_eq_ok_iff.mp h
    obtain ⟨q, hq, h⟩ := bind_eq_ok_iff.mp h
    obtain ⟨s, hs, h⟩ := bind_eq_ok_iff.mp h
    obtain ⟨k, hk, h⟩ := bind_eq_ok_iff.mp h
    obtain ⟨d, hd, h⟩ := bind_eq_ok_iff.mp h
    cases h
    obtain ⟨hperiod, hpos, hrequired⟩ := checkPeriod_eq_ok.mp hp
    have hle := hxs.length_le
    have hraw := isPrefix_trailing p rawStochastic hxs
    obtain ⟨hlengthK, k', hk', hgrowsK⟩ := steady_sma smoothK hraw k hk
    obtain ⟨hlengthD, d', hd', hgrowsD⟩ := steady_sma smoothD hgrowsK d hd
    have hlength : k.length = xs.length :=
      hlengthK.trans (length_trailing rawStochastic hpos (by omega))
    refine ⟨hlength, hlengthD.trans hlength, ⟨k', d'⟩, ?_, hgrowsK, hgrowsD⟩
    refine bind_eq_ok_iff.mpr ⟨p, checkPeriod_mono hp hle, bind_eq_ok_iff.mpr
      ⟨q, checkPeriod_mono hq hle, bind_eq_ok_iff.mpr ⟨s, checkPeriod_mono hs hle, ?_⟩⟩⟩
    exact bind_eq_ok_iff.mpr ⟨k', hk', bind_eq_ok_iff.mpr ⟨d', hd', rfl⟩⟩
  constructor
  · intro xs xs' hxs r h
    obtain ⟨hlength, -, r', hr', hgrows, -⟩ := hlines hxs r h
    exact ⟨hlength, r', hr', hgrows⟩
  · intro xs xs' hxs r h
    obtain ⟨-, hlength, r', hr', -, hgrows⟩ := hlines hxs r h
    exact ⟨hlength, r', hr', hgrows⟩

end Bourse.Indicator
