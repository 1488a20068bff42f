import Bourse.Proofs.Indicator.Growth
import Bourse.Proofs.Number.NotANumber

/-! The lines of trends only grow. Where the signal of a line begins depends on which of its values
are known, and the line of two averages settles that early: its known values stand together, since
no average comes back from a missing number or from infinity. -/
namespace Bourse.Indicator

open Scalar Series

/-- The laws of missing numbers that exponential averages rest on. -/
class LawfulMissing (α : Type) [Scalar α] : Prop where
  sub_missing (x : α) : isMissing (x - missing) = true
  missing_sub (x : α) : isMissing (missing - x) = true
  /-- Two averages whose difference is missing have no known difference after the next price. -/
  step_sub {a b : α} (p q : Nat) (price : α) : isMissing (a - b) = true →
    isMissing (((price - a) * emaFactor p + a) - ((price - b) * emaFactor q + b)) = true

theorem signOf?_emaFactor_ne (p : Nat) :
    Binary64.signOf? (Binary64.unpacked (emaFactor p)) ≠ some .negative := by
  have hsum : Binary64.signOf? (Binary64.unpacked (ofInt p + ofInt 1 : Float)) ≠
      some .negative := by
    rw [Binary64.unpacked_add, Binary64.signOf?_packed]
    exact Binary64.signOf?_add_ne (Binary64.signOf?_ofNat_ne p) (Binary64.signOf?_ofNat_ne 1)
  rw [emaFactor, Binary64.unpacked_div, Binary64.signOf?_packed]
  exact Binary64.signOf?_div_ne (Binary64.signOf?_ofNat_ne 2) hsum

/-- What is no number stays none along an average. -/
theorem isNaN_step {a : Float} (h : a.isNaN = true) (factor price : Float) :
    ((price - a) * factor + a).isNaN = true :=
  Binary64.isNaN_add_of_left
    (Binary64.isNaN_mul_of_left (Binary64.isNaN_sub_of_right price h) factor) a

instance : LawfulMissing Float where
  sub_missing x := Binary64.isNaN_sub_of_right x Binary64.isNaN_nanFloat
  missing_sub x := Binary64.isNaN_sub_of_left Binary64.isNaN_nanFloat x
  step_sub {a b} p q price h := by
    rcases Binary64.isNaN_sub h with ha | hb | ⟨sign, ha, -⟩
    · -- what is lost in an average is lost for good: it is no number, or an infinity that no price
      -- leads back from
      exact Binary64.isNaN_sub_of_left (isNaN_step ha _ price) _
    · exact Binary64.isNaN_sub_of_right _ (isNaN_step hb _ price)
    · exact Binary64.isNaN_sub_of_left
        (Binary64.isNaN_step_of_infinity ha (signOf?_emaFactor_ne p) price) _

variable {α : Type} [Scalar α]

/-! The line of two averages -/

/-- The known values of a line stand together: behind the first of them, once a value is missing,
so are all that follow. -/
def Settles (line : List α) : Prop :=
  (line.dropWhile isMissing).Pairwise fun x y => isMissing x = true → isMissing y = true

theorem missing_of_emaFrom [LawfulMissing α] {a b : α} (p q : Nat) (h : isMissing (a - b) = true)
    (prices : List α) :
    ∀ z ∈ List.zipWith (· - ·) (emaFrom (emaFactor p) a prices) (emaFrom (emaFactor q) b prices),
      isMissing z = true := by
  induction prices generalizing a b with
  | nil => exact nofun
  | cons price rest ih =>
    have hnext := LawfulMissing.step_sub p q price h
    rintro z (_ | ⟨_, hz⟩)
    · exact hnext
    · exact ih hnext z hz

theorem pairwise_emaFrom [LawfulMissing α] (a b : α) (p q : Nat) (prices : List α) :
    (List.zipWith (· - ·) (a :: emaFrom (emaFactor p) a prices)
      (b :: emaFrom (emaFactor q) b prices)).Pairwise
      fun x y => isMissing x = true → isMissing y = true := by
  induction prices generalizing a b with
  | nil => exact List.pairwise_singleton _ _
  | cons price rest ih =>
    exact List.Pairwise.cons (fun z hz h => missing_of_emaFrom p q h (price :: rest) z hz) (ih _ _)

/-- Behind its seed an average goes on from one number. -/
theorem drop_emaFrom (factor previous : α) (n : Nat) {prices : List α} (h : n ≤ prices.length) :
    ∃ a, (previous :: emaFrom factor previous prices).drop n =
      a :: emaFrom factor a (prices.drop n) := by
  induction n generalizing previous prices with
  | zero => exact ⟨previous, rfl⟩
  | succ n ih =>
    cases prices with
    | nil => exact absurd h (Nat.not_succ_le_zero n)
    | cons price rest => exact ih _ (Nat.le_of_succ_le_succ h)

theorem drop_emaSeries {p n : Nat} {prices : List α} (hp : 1 ≤ p) (hpn : p ≤ n + 1)
    (hn : n < prices.length) :
    ∃ a, (emaSeries p prices).drop n = a :: emaFrom (emaFactor p) a (prices.drop (n + 1)) := by
  have hlength : (missingSeries (p - 1) : List α).length = p - 1 := List.length_replicate
  have hrest : n - (p - 1) ≤ (prices.drop p).length := by
    rw [List.length_drop]
    omega
  obtain ⟨a, ha⟩ := drop_emaFrom (emaFactor p) (mean p (prices.take p)) (n - (p - 1)) hrest
  refine ⟨a, ?_⟩
  rw [emaSeries, List.drop_append, List.drop_eq_nil_of_le (by omega), hlength, List.nil_append, ha,
    List.drop_drop]
  congr 3
  omega

theorem getElem?_emaSeries_of_lt {p i : Nat} (prices : List α) (hi : i < p - 1) :
    (emaSeries p prices)[i]? = some missing := by
  have hlength : i < (missingSeries (p - 1) : List α).length := by
    rw [missingSeries, List.length_replicate]
    exact hi
  rw [emaSeries, List.getElem?_append_left hlength, missingSeries, List.getElem?_replicate,
    if_pos hi]

/-- Before both averages have begun, their difference is missing. -/
theorem missing_of_mem_take [LawfulMissing α] (p q : Nat) (prices : List α) :
    ∀ z ∈ (List.zipWith (· - ·) (emaSeries p prices) (emaSeries q prices)).take (max p q - 1),
      isMissing z = true := by
  intro z hz
  obtain ⟨i, hi⟩ := List.mem_iff_getElem?.mp hz
  rw [List.getElem?_take] at hi
  split_ifs at hi with hlt
  obtain ⟨x, y, hx, hy, rfl⟩ := List.getElem?_zipWith_eq_some.mp hi
  by_cases hp : i < p - 1
  · rw [getElem?_emaSeries_of_lt prices hp] at hx
    cases hx
    exact LawfulMissing.missing_sub y
  · have hq : i < q - 1 := by omega
    rw [getElem?_emaSeries_of_lt prices hq] at hy
    cases hy
    exact LawfulMissing.sub_missing x

theorem settles_of_emaSeries [LawfulMissing α] {p q : Nat} {prices : List α} (hp : 1 ≤ p)
    (hq : 1 ≤ q) (hp' : p ≤ prices.length) (hq' : q ≤ prices.length) :
    Settles (List.zipWith (· - ·) (emaSeries p prices) (emaSeries q prices)) := by
  have hbegun := missing_of_mem_take p q prices
  -- from `n` on both averages are recurrences over the same prices
  obtain ⟨n, hn⟩ : ∃ n, n = max p q - 1 := ⟨_, rfl⟩
  rw [← hn] at hbegun
  obtain ⟨a, ha⟩ := drop_emaSeries hp (show p ≤ n + 1 by omega) (show n < prices.length by omega)
  obtain ⟨b, hb⟩ := drop_emaSeries hq (show q ≤ n + 1 by omega) (show n < prices.length by omega)
  have htail := pairwise_emaFrom a b p q (prices.drop (n + 1))
  rw [← ha, ← hb, ← List.drop_zipWith] at htail
  rw [Settles, ← List.take_append_drop n (List.zipWith (· - ·) _ _),
    List.dropWhile_append_of_pos hbegun]
  exact htail.sublist (List.dropWhile_sublist _)

/-! The signal of a line -/

/-- The values of a line that are known. -/
def known (line : List α) : List α := line.filter fun x => !isMissing x

theorem signalLine_eq (line : List α) (period : Int) :
    signalLine line period =
      if ((known line).length : Int) < period then .ok (missingSeries line.length)
      else if (known line).isEmpty then .error .noKnownValue
      else do
        let signal ← ema (line.dropWhile isMissing) period
        return missingSeries (line.takeWhile isMissing).length ++ signal := by
  rw [← drop_length_takeWhile]
  rfl

theorem ema_eq_ok {prices line : List α} {period : Int} :
    ema prices period = .ok line ↔
      ∃ p : Nat, period = p ∧ 1 ≤ p ∧ p ≤ prices.length ∧ line = emaSeries p prices := by
  refine checked_eq_ok.trans (exists_congr fun p => ?_)
  refine and_congr_right fun hperiod => and_congr_right fun _ => and_congr_left fun _ => ?_
  rw [hperiod]
  exact Int.ofNat_le

theorem known_dropWhile (line : List α) : known (line.dropWhile isMissing) = known line := by
  have hmissing : known (line.takeWhile isMissing) = [] := by
    refine List.filter_eq_nil_iff.mpr fun z hz => ?_
    simp [List.all_eq_true.mp List.all_takeWhile z hz]
  calc known (line.dropWhile isMissing)
      = known (line.takeWhile isMissing) ++ known (line.dropWhile isMissing) := by
        rw [hmissing, List.nil_append]
    _ = known line := by
        rw [known, known, ← List.filter_append, List.takeWhile_append_dropWhile, known]

theorem length_known_le (line : List α) :
    (known line).length ≤ (line.dropWhile isMissing).length := by
  rw [← known_dropWhile]
  exact List.length_filter_le _ _

/-- A signal is missing where too few values are known, and else an average from the first known
value on. -/
theorem signalLine_eq_ok {line signal : List α} {period : Int} :
    signalLine line period = .ok signal ↔
      ((known line).length : Int) < period ∧ signal = missingSeries line.length ∨
      ∃ p : Nat, period = p ∧ 1 ≤ p ∧ p ≤ (known line).length ∧
        signal = missingSeries (line.takeWhile isMissing).length ++
          emaSeries p (line.dropWhile isMissing) := by
  rw [signalLine_eq]
  split_ifs with hfew hnone
  · constructor
    · intro h
      exact .inl ⟨hfew, (Except.ok.inj h).symm⟩
    · rintro (⟨-, rfl⟩ | ⟨p, rfl, -, hknown, -⟩)
      · rfl
      · omega
  · rw [List.isEmpty_iff] at hnone
    constructor
    · exact nofun
    · rintro (⟨hless, -⟩ | ⟨p, rfl, hpos, hknown, -⟩)
      · omega
      · rw [hnone, List.length_nil] at hknown
        omega
  · constructor
    · intro h
      obtain ⟨average, haverage, h⟩ := bind_eq_ok_iff.mp h
      obtain ⟨p, rfl, hpos, hlength, rfl⟩ := ema_eq_ok.mp haverage
      exact .inr ⟨p, rfl, hpos, by omega, (Except.ok.inj h).symm⟩
    · rintro (⟨hless, -⟩ | ⟨p, rfl, hpos, hknown, rfl⟩)
      · omega
      · have hlength := hknown.trans (length_known_le line)
        exact bind_eq_ok_iff.mpr ⟨_, ema_eq_ok.mpr ⟨p, rfl, hpos, hlength, rfl⟩, rfl⟩

/-- Where missing values stay missing, as many values are known at the front as are known at all. -/
theorem known_of_mem_take {line : List α} {p : Nat}
    (hline : line.Pairwise fun x y => isMissing x = true → isMissing y = true)
    (hp : p ≤ (known line).length) : ∀ z ∈ line.take p, isMissing z = false := by
  induction hline generalizing p with
  | nil => exact fun z hz => absurd (List.mem_of_mem_take hz) List.not_mem_nil
  | @cons x rest hx hrest ih =>
    cases p with
    | zero => exact nofun
    | succ p =>
      cases hmissing : isMissing x with
      | true =>
        have hnone : known (x :: rest) = [] := by
          refine List.filter_eq_nil_iff.mpr fun z hz => ?_
          rcases List.mem_cons.mp hz with rfl | hz
          · simp [hmissing]
          · simp [hx z hz hmissing]
        rw [hnone] at hp
        exact absurd hp (Nat.not_succ_le_zero p)
      | false =>
        have hcons : known (x :: rest) = x :: known rest :=
          List.filter_cons_of_pos (by simp [hmissing])
        rw [hcons, List.length_cons] at hp
        rintro z (_ | ⟨_, hz⟩)
        · exact hmissing
        · exact ih (by omega) z hz

/-- A line that is too short of known values ends before the longer one has its first average. -/
theorem length_lt_of_known_lt {line line' : List α} {p : Nat} (h : line <+: line')
    (hsettles : Settles line') (hfew : (known line).length < p) (hmany : p ≤ (known line').length) :
    line.length < (line'.takeWhile isMissing).length + p := by
  by_contra hlong
  rw [Nat.not_lt] at hlong
  rw [← known_dropWhile] at hmany
  have htake := known_of_mem_take hsettles hmany
  -- the first `p` known values of the longer line all stand in the shorter one
  have hfront : line'.takeWhile isMissing ++ (line'.dropWhile isMissing).take p <+: line := by
    have hwhole := List.takeWhile_append_dropWhile (p := isMissing) (l := line')
    refine List.prefix_of_prefix_length_le ?_ h ?_
    · conv_rhs => rw [← hwhole]
      exact (List.prefix_append_right_inj _).mpr (List.take_prefix _ _)
    · rw [List.length_append, List.length_take]
      omega
  have hknown : known ((line'.dropWhile isMissing).take p) = (line'.dropWhile isMissing).take p :=
    List.filter_eq_self.mpr fun z hz => by simp [htake z hz]
  have hcount := (hfront.filter fun x => !isMissing x).length_le
  rw [List.filter_append, List.length_append] at hcount
  have hlength := congrArg List.length hknown
  rw [List.length_take] at hlength
  have hle := List.length_filter_le (fun x : α => !isMissing x) (line'.dropWhile isMissing)
  unfold known at *
  omega

/-- The missing values in front of an average and before its seed. -/
theorem isPrefix_missing_emaSeries {m n p : Nat} (h : m ≤ n + (p - 1)) (xs : List α) :
    (missingSeries m : List α) <+: missingSeries n ++ emaSeries p xs := by
  have hfront : (missingSeries n ++ missingSeries (p - 1) : List α) = missingSeries (n + (p - 1)) :=
    List.replicate_append_replicate
  rw [emaSeries, ← List.append_assoc, hfront]
  exact (isPrefix_missingSeries h).trans (List.prefix_append _ _)

theorem signalLine_grows {line line' signal : List α} {period : Int} (h : line <+: line')
    (hsettles : Settles line') (hsignal : signalLine line period = .ok signal) :
    signal.length = line.length ∧
      ∃ signal', signalLine line' period = .ok signal' ∧ signal <+: signal' := by
  have hmore : (known line).length ≤ (known line').length := (h.filter _).length_le
  -- either too few values are known so far, or the signal has begun for good
  rcases signalLine_eq_ok.mp hsignal with ⟨hfew, rfl⟩ | ⟨p, rfl, hpos, hknown, rfl⟩
  · refine ⟨List.length_replicate, ?_⟩
    -- the longer line may be too short of known values as well
    by_cases hfew' : ((known line').length : Int) < period
    · refine ⟨_, signalLine_eq_ok.mpr (.inl ⟨hfew', rfl⟩), ?_⟩
      exact isPrefix_missingSeries h.length_le
    · obtain ⟨p, rfl⟩ : ∃ p : Nat, period = p := ⟨period.toNat, by omega⟩
      refine ⟨_, signalLine_eq_ok.mpr (.inr ⟨p, rfl, by omega, by omega, rfl⟩), ?_⟩
      -- the average begins behind the end of the shorter line
      have hlength := length_lt_of_known_lt h hsettles (show (known line).length < p by omega)
        (by omega)
      exact isPrefix_missing_emaSeries (by omega) _
  · have hlength := hknown.trans (length_known_le line)
    constructor
    · rw [List.length_append, length_emaSeries hpos hlength, missingSeries, List.length_replicate,
        length_takeWhile_add_length_dropWhile]
    · -- the first known value stays the first, so the average goes on from the same seed
      refine ⟨_, signalLine_eq_ok.mpr (.inr ⟨p, rfl, hpos, hknown.trans hmore, rfl⟩), ?_⟩
      have hsplit := length_takeWhile_add_length_dropWhile isMissing line
      obtain ⟨more, rfl⟩ := h
      have hempty : (line.dropWhile isMissing).isEmpty = false := by
        rw [List.isEmpty_eq_false_iff_exists_mem]
        exact List.exists_mem_of_length_pos (by omega)
      rw [List.takeWhile_append, if_neg (by omega), List.dropWhile_append, hempty,
        if_neg Bool.false_ne_true]
      exact (List.prefix_append_right_inj _).mpr
        (isPrefix_emaSeries hlength (List.prefix_append _ _))

/-! The lines of trends -/

theorem ema_grows {period : Int} {prices prices' : List α} (h : prices <+: prices')
    {line : List α} (hline : ema prices period = .ok line) :
    line.length = prices.length ∧ ∃ line', ema prices' period = .ok line' ∧ line <+: line' :=
  steady_ema period h line hline

theorem settles_of_ema [LawfulMissing α] {prices fastLine slowLine : List α} {fast slow : Int}
    (hfast : ema prices fast = .ok fastLine) (hslow : ema prices slow = .ok slowLine) :
    Settles (List.zipWith (· - ·) fastLine slowLine) := by
  obtain ⟨p, -, hp, hp', rfl⟩ := ema_eq_ok.mp hfast
  obtain ⟨q, -, hq, hq', rfl⟩ := ema_eq_ok.mp hslow
  exact settles_of_emaSeries hp hq hp' hq'

theorem macd_grows [LawfulMissing α] {fast slow signal : Int} {prices prices' : List α}
    (h : prices <+: prices') {r : Macd α} (hr : macd prices fast slow signal = .ok r) :
    (r.macd.length = prices.length ∧ r.signal.length = prices.length ∧
      r.histogram.length = prices.length) ∧
    ∃ r', macd prices' fast slow signal = .ok r' ∧
      r.macd <+: r'.macd ∧ r.signal <+: r'.signal ∧ r.histogram <+: r'.histogram := by
  obtain ⟨p, hp, hr⟩ := bind_eq_ok_iff.mp hr
  obtain ⟨fastLine, hfast, hr⟩ := bind_eq_ok_iff.mp hr
  obtain ⟨slowLine, hslow, hr⟩ := bind_eq_ok_iff.mp hr
  obtain ⟨signalled, hsignal, hr⟩ := bind_eq_ok_iff.mp hr
  cases hr
  obtain ⟨hlengthFast, fastLine', hfast', hgrowsFast⟩ := ema_grows h hfast
  obtain ⟨hlengthSlow, slowLine', hslow', hgrowsSlow⟩ := ema_grows h hslow
  have hline := isPrefix_zipWith (· - ·) hgrowsFast hgrowsSlow
  obtain ⟨hlengthSignal, signalled', hsignal', hgrowsSignal⟩ :=
    signalLine_grows hline (settles_of_ema hfast' hslow') hsignal
  have hlength : (List.zipWith (· - ·) fastLine slowLine).length = prices.length := by
    rw [List.length_zipWith, hlengthFast, hlengthSlow, Nat.min_self]
  refine ⟨⟨hlength, hlengthSignal.trans hlength, ?_⟩,
    ⟨List.zipWith (· - ·) fastLine' slowLine', signalled', _⟩, ?_, hline, hgrowsSignal,
    isPrefix_zipWith (· - ·) hline hgrowsSignal⟩
  · rw [List.length_zipWith, hlengthSignal, Nat.min_self, hlength]
  · exact bind_eq_ok_iff.mpr ⟨p, checkPeriod_mono hp h.length_le, bind_eq_ok_iff.mpr
      ⟨fastLine', hfast', bind_eq_ok_iff.mpr ⟨slowLine', hslow', bind_eq_ok_iff.mpr
        ⟨signalled', hsignal', rfl⟩⟩⟩⟩

theorem steady_macd [LawfulMissing α] (fast slow signal : Int) :
    Steady (fun prices : List α => macd prices fast slow signal) Macd.macd ∧
      Steady (fun prices : List α => macd prices fast slow signal) Macd.signal ∧
      Steady (fun prices : List α => macd prices fast slow signal) Macd.histogram := by
  refine ⟨?_, ?_, ?_⟩
  · intro prices prices' h r hr
    obtain ⟨⟨hlength, -, -⟩, r', hr', hgrows, -, -⟩ := macd_grows h hr
    exact ⟨hlength, r', hr', hgrows⟩
  · intro prices prices' h r hr
    obtain ⟨⟨-, hlength, -⟩, r', hr', -, hgrows, -⟩ := macd_grows h hr
    exact ⟨hlength, r', hr', hgrows⟩
  · intro prices prices' h r hr
    obtain ⟨⟨-, -, hlength⟩, r', hr', -, -, hgrows⟩ := macd_grows h hr
    exact ⟨hlength, r', hr', hgrows⟩

/-- The average of the directional index behind what comes before it. -/
def averageIndex (length : Nat) (period : Int) (p : Nat) (index : List α) :
    Except Failure (List α) :=
  if index.length < p then .ok (missingSeries length)
  else do
    let average ← ema index period
    return missingSeries (p + 1) ++ average

/-- The directional indices of bars, from one step behind the first averages of the movements. -/
def directionalIndices (p : Nat) (ranges ups downs : List α) : List α :=
  (List.zip (ranges.drop p) (List.zip (ups.drop p) (downs.drop p))).map
    fun (range, up, down) => directionalIndex range up down

theorem adx_eq (bars : List (Bar α)) (period : Int) :
    adx bars period = (do
      let p ← checkPeriod .adx bars.length period (period + 1)
      let ranges ← ema (laterTrueRanges bars) period
      let ups ← ema (List.zipWith upMove bars.tail bars) period
      let downs ← ema (List.zipWith downMove bars.tail bars) period
      averageIndex bars.length period p (directionalIndices p ranges ups downs)) := rfl

theorem length_directionalIndices {p : Nat} {ranges ups downs : List α}
    (hups : ups.length = ranges.length) (hdowns : downs.length = ranges.length) :
    (directionalIndices p ranges ups downs).length = ranges.length - p := by
  rw [directionalIndices, List.length_map, List.length_zip, List.length_zip, List.length_drop,
    List.length_drop, List.length_drop, hups, hdowns, Nat.min_self, Nat.min_self]

theorem isPrefix_directionalIndices (p : Nat) {ranges ranges' ups ups' downs downs' : List α}
    (hranges : ranges <+: ranges') (hups : ups <+: ups') (hdowns : downs <+: downs') :
    directionalIndices p ranges ups downs <+: directionalIndices p ranges' ups' downs' := by
  have hmoves := isPrefix_zipWith Prod.mk (hups.drop p) (hdowns.drop p)
  exact (isPrefix_zipWith Prod.mk (hranges.drop p) hmoves).map _

/-- The index has its first average only where it has `p` values, and up to there nothing but
missing values stands in its place. -/
theorem averageIndex_grows {p n n' : Nat} {index index' line : List α} (h : index <+: index')
    (hn : index.length + (p + 1) = n) (hn' : n ≤ n')
    (hline : averageIndex n p p index = .ok line) :
    line.length = n ∧ ∃ line', averageIndex n' p p index' = .ok line' ∧ line <+: line' := by
  have hle := h.length_le
  unfold averageIndex at hline ⊢
  split_ifs at hline with hfew
  · cases hline
    refine ⟨List.length_replicate, ?_⟩
    split_ifs with hfew'
    · -- still too few values for an average
      exact ⟨_, rfl, isPrefix_missingSeries hn'⟩
    · -- the first average stands behind all that was missing so far
      have haverage := ema_eq_ok.mpr ⟨p, rfl, by omega, Nat.not_lt.mp hfew', rfl⟩
      exact ⟨_, bind_eq_ok_iff.mpr ⟨_, haverage, rfl⟩, isPrefix_missing_emaSeries (by omega) _⟩
  · obtain ⟨average, haverage, hline⟩ := bind_eq_ok_iff.mp hline
    cases hline
    obtain ⟨hlength, average', haverage', hgrows⟩ := ema_grows h haverage
    rw [if_neg (by omega)]
    refine ⟨?_, _, bind_eq_ok_iff.mpr ⟨average', haverage', rfl⟩,
      (List.prefix_append_right_inj _).mpr hgrows⟩
    rw [List.length_append, hlength, missingSeries, List.length_replicate]
    omega

theorem steady_adx (period : Int) : Steady (fun bars : List (Bar α) => adx bars period) id := by
  intro xs xs' hxs r h
  dsimp only at h ⊢
  rw [adx_eq] at h ⊢
  obtain ⟨p, hp, h⟩ := bind_eq_ok_iff.mp h
  obtain ⟨ranges, hranges, h⟩ := bind_eq_ok_iff.mp h
  obtain ⟨ups, hups, h⟩ := bind_eq_ok_iff.mp h
  obtain ⟨downs, hdowns, h⟩ := bind_eq_ok_iff.mp h
  have hp' := checkPeriod_mono hp hxs.length_le
  obtain ⟨rfl, hpos, hrequired⟩ := checkPeriod_eq_ok.mp hp
  obtain ⟨hlengthRanges, ranges', hranges', hgrowsRanges⟩ :=
    ema_grows (isPrefix_steps _ hxs) hranges
  obtain ⟨hlengthUps, ups', hups', hgrowsUps⟩ := ema_grows (isPrefix_steps _ hxs) hups
  obtain ⟨hlengthDowns, downs', hdowns', hgrowsDowns⟩ := ema_grows (isPrefix_steps _ hxs) hdowns
  rw [length_steps] at hlengthRanges hlengthUps hlengthDowns
  have hcount := length_directionalIndices (p := p) (hlengthUps.trans hlengthRanges.symm)
    (hlengthDowns.trans hlengthRanges.symm)
  have hgrows := isPrefix_directionalIndices p hgrowsRanges hgrowsUps hgrowsDowns
  obtain ⟨hlength, r', hr', hbegins⟩ := averageIndex_grows hgrows (by omega) hxs.length_le h
  exact ⟨hlength, r', bind_eq_ok_iff.mpr ⟨p, hp', bind_eq_ok_iff.mpr ⟨ranges', hranges', bind_eq_ok_iff.mpr
    ⟨ups', hups', bind_eq_ok_iff.mpr ⟨downs', hdowns', hr'⟩⟩⟩⟩, hbegins⟩

end Bourse.Indicator
