import Bourse.Proofs.Indicator.Recurrence
import Bourse.Proofs.Number.Exact

/-! How long lines take to warm up. In exact arithmetic a line that is known from a place on gives
windows, averages and signals that are known from a later place on. -/
namespace Bourse.Indicator

variable {K β : Type}

open Exact Scalar Series

/-- The places of a line that are known. -/
def KnownAt (places : Nat → Prop) (xs : List (Exact K)) : Prop :=
  ∀ i x, xs[i]? = some x → (x.IsKnown ↔ places i)

/-- A line that is known from a place on, and missing before. -/
abbrev KnownFrom (first : Nat) (xs : List (Exact K)) : Prop := KnownAt (first ≤ ·) xs

theorem knownFrom_zero {xs : List (Exact K)} :
    KnownFrom 0 xs ↔ ∀ x ∈ xs, x.IsKnown := by
  constructor
  · intro h x hx
    obtain ⟨i, hi⟩ := List.mem_iff_getElem?.mp hx
    exact (h i x hi).mpr (Nat.zero_le i)
  · intro h i x hi
    exact iff_of_true (h x (List.mem_of_getElem? hi)) (Nat.zero_le i)

theorem KnownFrom.cons {x : Exact K} {xs : List (Exact K)} {first : Nat}
    (h : KnownFrom (first + 1) (x :: xs)) : ¬x.IsKnown ∧ KnownFrom first xs := by
  refine ⟨fun hx => ?_, fun i y hi => ?_⟩
  · exact absurd ((h 0 x rfl).mp hx) (Nat.not_succ_le_zero first)
  · rw [h (i + 1) y hi]
    exact Nat.succ_le_succ_iff

theorem KnownAt.zipWith {places places' : Nat → Prop} {xs xs' : List (Exact K)}
    {f : Exact K → Exact K → Exact K} (h : KnownAt places xs) (h' : KnownAt places' xs')
    (hf : ∀ a b, (f a b).IsKnown ↔ a.IsKnown ∧ b.IsKnown) :
    KnownAt (fun i => places i ∧ places' i) (List.zipWith f xs xs') := by
  intro i z hi
  obtain ⟨x, y, hx, hy, rfl⟩ := List.getElem?_zipWith_eq_some.mp hi
  rw [hf, h i x hx, h' i y hy]

theorem KnownAt.congr {places places' : Nat → Prop} {xs : List (Exact K)}
    (h : KnownAt places xs) (hplaces : ∀ i, i < xs.length → (places i ↔ places' i)) :
    KnownAt places' xs := by
  intro i x hi
  have hlt : i < xs.length := (List.getElem?_eq_some_iff.mp hi).1
  rw [h i x hi, hplaces i hlt]

theorem KnownFrom.drop {xs : List (Exact K)} {first : Nat} (h : KnownFrom first xs) (n : Nat) :
    KnownFrom (first - n) (xs.drop n) := by
  intro i x hi
  rw [List.getElem?_drop] at hi
  rw [h (n + i) x hi]
  omega

/-- The numbers of a window are known if the window begins where the line is known. -/
theorem KnownFrom.window {xs : List (Exact K)} {first : Nat} (h : KnownFrom first xs)
    {start p : Nat} (hp : 1 ≤ p) (hstart : start < xs.length) :
    (∀ x ∈ (xs.drop start).take p, x.IsKnown) ↔ first ≤ start := by
  constructor
  · -- the oldest number of the window decides
    intro hall
    obtain ⟨x, hx⟩ : ∃ x, xs[start]? = some x := ⟨xs[start], List.getElem?_eq_getElem hstart⟩
    have hmem : ((xs.drop start).take p)[0]? = some x := by
      rw [List.getElem?_take_of_lt hp, List.getElem?_drop]
      exact hx
    exact (h start x hx).mp (hall x (List.mem_of_getElem? hmem))
  · intro hfirst x hx
    obtain ⟨i, hi⟩ := List.mem_iff_getElem?.mp (List.mem_of_mem_take hx)
    rw [List.getElem?_drop] at hi
    exact (h (start + i) x hi).mpr (by omega)

variable [RootField K]

theorem KnownFrom.missing_append {xs : List (Exact K)} {first : Nat} (h : KnownFrom first xs)
    (n : Nat) : KnownFrom (n + first) (missingSeries n ++ xs) := by
  intro i x hi
  have hlength : (missingSeries n : List (Exact K)).length = n := List.length_replicate
  rcases Nat.lt_or_ge i n with hlt | hge
  · rw [List.getElem?_append_left (by omega), missingSeries, List.getElem?_replicate,
      if_pos hlt] at hi
    cases hi
    exact iff_of_false not_isKnown_missing (by omega)
  · rw [List.getElem?_append_right (by omega), hlength] at hi
    rw [h (i - n) x hi]
    omega

theorem knownFrom_missingSeries {first n : Nat} (h : n ≤ first) :
    KnownFrom first (missingSeries n : List (Exact K)) := by
  intro i x hi
  rw [missingSeries, List.getElem?_replicate] at hi
  split_ifs at hi with hlt
  cases hi
  exact iff_of_false not_isKnown_missing (by omega)

/-- Figures that are known wherever their window fits. -/
theorem knownFrom_trailing {p : Nat} {figure : List β → Exact K} {xs : List β} (hp : 1 ≤ p)
    (hfigure : ∀ start, start + p ≤ xs.length →
      (figure ((xs.drop start).take p)).IsKnown) :
    KnownFrom (p - 1) (trailing p figure xs) := by
  intro i x hi
  rcases getElem?_trailing hp hi with ⟨hlt, rfl⟩ | ⟨hge, hfits, rfl⟩
  · exact iff_of_false not_isKnown_missing (by omega)
  · exact iff_of_true (hfigure _ hfits) (by omega)

theorem knownFrom_trailing_of_known {p : Nat} {figure : List (Exact K) → Exact K}
    {xs : List (Exact K)} (hp : 1 ≤ p) (h : ∀ x ∈ xs, x.IsKnown)
    (hfigure : ∀ window : List (Exact K), (∀ x ∈ window, x.IsKnown) → (figure window).IsKnown) :
    KnownFrom (p - 1) (trailing p figure xs) := by
  apply knownFrom_trailing hp
  intro start _
  exact hfigure _ fun x hx => h x (List.mem_of_mem_drop (List.mem_of_mem_take hx))

theorem isKnown_weightedSum {window : List (Exact K)} (h : ∀ x ∈ window, x.IsKnown) :
    (weightedSum window).IsKnown := by
  have hterms : ∀ y ∈ List.zipWith (fun price (i : Nat) => price * ofInt (i + 1)) window
      (List.range window.length), y.IsKnown :=
    forall_mem_zipWith fun x hx i _ => (h x hx).mul (isKnown_ofInt _)
  have hsum : weightedSum window = Scalar.zero + _ := foldl_add_eq _ _
  rw [hsum]
  exact (isKnown_ofInt 0).add (isKnown_sum.mpr hterms)

/-- The missing values of a line that is known from a place on are those before it. -/
theorem KnownFrom.split {xs : List (Exact K)} {first : Nat} (h : KnownFrom first xs) :
    xs.takeWhile isMissing = xs.take first ∧ xs.dropWhile isMissing = xs.drop first ∧
      Indicator.known xs = xs.drop first := by
  induction xs generalizing first with
  | nil => simp [Indicator.known]
  | cons x rest ih =>
    cases first with
    | zero =>
      have hall := knownFrom_zero.mp h
      have hx : isMissing x = false := isMissing_eq_false.mpr (hall x List.mem_cons_self)
      have hknown : Indicator.known (x :: rest) = x :: rest :=
        List.filter_eq_self.mpr fun y hy => by simp [isMissing_eq_false.mpr (hall y hy)]
      simp [hx, hknown]
    | succ first =>
      obtain ⟨hmissing, hrest⟩ := h.cons
      obtain ⟨htake, hdrop, hknown⟩ := ih hrest
      have hx : isMissing x = true := by
        rw [← Bool.not_eq_false]
        exact mt isMissing_eq_false.mp hmissing
      have hskip : Indicator.known (x :: rest) = Indicator.known rest :=
        List.filter_cons_of_neg (by simp [hx])
      simp [hx, htake, hdrop, hskip, hknown]

/-! Windows -/

/-- The means of a line that is known from a place on are known `p - 1` places later. -/
theorem KnownFrom.trailing_mean {xs : List (Exact K)} {first p : Nat} (h : KnownFrom first xs)
    (hp : 1 ≤ p) : KnownFrom (first + (p - 1)) (trailing p (mean p) xs) := by
  intro i x hi
  rcases getElem?_trailing hp hi with ⟨hlt, rfl⟩ | ⟨hge, hfits, rfl⟩
  · exact iff_of_false not_isKnown_missing (by omega)
  · rw [isKnown_mean hp, h.window hp (by omega)]
    omega

theorem isKnown_deviation {p : Nat} (hp : 1 ≤ p) {window : List (Exact K)}
    (h : ∀ x ∈ window, x.IsKnown) : (deviation p window).IsKnown := by
  have hsquares : ∀ y ∈ window.map fun x => x * x, y.IsKnown := by
    intro y hy
    obtain ⟨x, hx, rfl⟩ := List.mem_map.mp hy
    exact (h x hx).mul (h x hx)
  have hmean := (isKnown_mean hp).mpr h
  obtain ⟨v, hv⟩ : (variance p window).IsKnown :=
    ((isKnown_mean hp).mpr hsquares).sub (hmean.mul hmean)
  -- the root is taken of no number below zero
  have hlarger : larger (variance p window) Scalar.zero = .known (max v 0) := by
    rw [hv, zero_eq]
    exact larger_known v 0
  rw [deviation, hlarger, sqrt_known (le_max_right v 0)]
  exact isKnown_known _

/-! Exponential averages -/

theorem emaFactor_eq (p : Nat) : (emaFactor p : Exact K) = .known (2 / (p + 1)) := by
  have hpos : (0 : K) < p + 1 := Nat.cast_add_one_pos p
  rw [emaFactor, ofInt_eq, ofInt_eq, ofInt_eq, known_add, Int.cast_natCast, Int.cast_one,
    Int.cast_ofNat, known_div _ hpos.ne']

/-- An exponential average goes a part of the way to the price, never beyond it. -/
theorem emaFactor_mem {p : Nat} (hp : 1 ≤ p) : (2 / (p + 1) : K) ∈ Set.Icc (0 : K) 1 := by
  have hpos : (0 : K) < p + 1 := Nat.cast_add_one_pos p
  refine ⟨div_nonneg zero_le_two hpos.le, (div_le_one hpos).mpr ?_⟩
  have hone : (1 : K) ≤ p := Nat.one_le_cast.mpr hp
  linarith

theorem isKnown_emaFactor (p : Nat) : (emaFactor p : Exact K).IsKnown := by
  rw [emaFactor_eq]
  exact isKnown_known _

theorem isKnown_emaValues {p : Nat} (hp : 1 ≤ p) {xs : List (Exact K)}
    (h : ∀ x ∈ xs, x.IsKnown) : ∀ y ∈ emaValues p xs, y.IsKnown := by
  have hseed : (mean p (xs.take p)).IsKnown :=
    (isKnown_mean hp).mpr fun x hx => h x (List.mem_of_mem_take hx)
  refine forall_mem_scanl hseed fun x hx a ha => ?_
  exact (((h x (List.mem_of_mem_drop hx)).sub ha).mul (isKnown_emaFactor p)).add ha

theorem knownFrom_emaSeries {p : Nat} (hp : 1 ≤ p) {xs : List (Exact K)}
    (h : ∀ x ∈ xs, x.IsKnown) : KnownFrom (p - 1) (emaSeries p xs) := by
  rw [emaSeries_eq]
  exact (knownFrom_zero.mpr (isKnown_emaValues hp h)).missing_append (p - 1)

/-! Signals -/

/-- The signal of a line is known as many places behind the first known value as an average over its
period takes, and is refused only for its period. -/
theorem signalLine_knownFrom {xs : List (Exact K)} {first : Nat} (h : KnownFrom first xs)
    (hfirst : first < xs.length) {period : Int} :
    ((∃ signal, signalLine xs period = .ok signal) ↔ 1 ≤ period) ∧
      ∀ signal, signalLine xs period = .ok signal →
        signal.length = xs.length ∧ KnownFrom (first + (period.toNat - 1)) signal := by
  obtain ⟨htake, hdrop, hknown⟩ := h.split
  have hcount : (Indicator.known xs).length = xs.length - first := by rw [hknown, List.length_drop]
  have hall : ∀ x ∈ xs.drop first, x.IsKnown := by
    have hfrom := h.drop first
    rw [Nat.sub_self] at hfrom
    exact knownFrom_zero.mp hfrom
  constructor
  · constructor
    · rintro ⟨signal, hsignal⟩
      rcases signalLine_eq_ok.mp hsignal with ⟨hfew, -⟩ | ⟨p, rfl, hpos, -, -⟩
      · omega
      · omega
    · -- too few known values are no reason to refuse, only to have no signal
      intro hperiod
      by_cases hfew : ((Indicator.known xs).length : Int) < period
      · exact ⟨_, signalLine_eq_ok.mpr (.inl ⟨hfew, rfl⟩)⟩
      · exact ⟨_, signalLine_eq_ok.mpr (.inr ⟨period.toNat, by omega, by omega, by omega, rfl⟩)⟩
  · intro signal hsignal
    rcases signalLine_eq_ok.mp hsignal with ⟨hfew, rfl⟩ | ⟨p, rfl, hpos, hmany, rfl⟩
    · -- the average would begin behind the end of the line
      exact ⟨List.length_replicate, knownFrom_missingSeries (by omega)⟩
    · rw [htake, hdrop, List.length_take, Nat.min_eq_left hfirst.le]
      have hlength : (xs.drop first).length = xs.length - first := List.length_drop
      refine ⟨?_, (knownFrom_emaSeries hpos hall).missing_append first⟩
      rw [List.length_append, length_emaSeries hpos (by omega), missingSeries,
        List.length_replicate]
      omega

end Bourse.Indicator
