import Bourse.Calendar.Range
import Bourse.Proofs.Calendar.InCalendar
import Bourse.Proofs.Number.Monotone

/-! The order of moments and of their timestamps. Of two moments the later one does not have the
earlier timestamp, though both may lie in one second; up to the year 2242 a timestamp is the number
of seconds since 1970 cut towards zero, and beyond it may be rounded up to the next second. So a
range that looks at timestamps differs from the range of its instants only where a bound and an
instant share their second. -/
namespace Bourse

namespace Moment

open Binary64

/-- The whole part of a number of microseconds in seconds, rounded to binary64 before it is cut. -/
def wholeSeconds (elapsed : Int) : Int :=
  if elapsed < 0 then -(nearestWhole elapsed.natAbs second : Int)
  else nearestWhole elapsed.natAbs second

theorem second_pos : 0 < second := by decide

theorem nearestWhole_second_mono {a b : Nat} (h : a ≤ b) :
    nearestWhole a second ≤ nearestWhole b second := by
  apply nearestWhole_mono second_pos second_pos
  gcongr

theorem wholeSeconds_mono : Monotone wholeSeconds := by
  intro a b h
  unfold wholeSeconds
  split_ifs with ha hb hb
  · exact Int.neg_le_neg (Int.ofNat_le.mpr (nearestWhole_second_mono (by omega)))
  · omega
  · omega
  · exact Int.ofNat_le.mpr (nearestWhole_second_mono (by omega))

/-- A whole number of seconds up to 2^53 is cut to itself. -/
theorem wholeSeconds_mul_second {n : Int} (hn : n.natAbs ≤ greatestWhole) :
    wholeSeconds (n * second) = n := by
  have hsecond : second = 1000000 := rfl
  have habs : (n * second).natAbs = n.natAbs * second := Int.natAbs_mul _ _
  have hwhole : nearestWhole (n.natAbs * second) second = n.natAbs := by
    have hquotient : ((n.natAbs * second : Nat) : ℚ) / second = (n.natAbs : Nat) / (2 ^ 0 : Nat) := by
      have hne : (second : ℚ) ≠ 0 := by exact_mod_cast second_pos.ne'
      rw [Nat.cast_mul, mul_div_cancel_right₀ _ hne, pow_zero, Nat.cast_one, div_one]
    calc nearestWhole (n.natAbs * second) second = nearestWhole n.natAbs (2 ^ 0) :=
          le_antisymm (nearestWhole_mono second_pos (Nat.two_pow_pos 0) hquotient.le)
            (nearestWhole_mono (Nat.two_pow_pos 0) second_pos hquotient.ge)
      _ = n.natAbs := by
          rw [nearestWhole_of_exact hn (Nat.zero_le _), pow_zero, Nat.div_one]
  rw [wholeSeconds, habs, hwhole]
  split_ifs with hsign
  · rw [hsecond] at hsign
    omega
  · rw [hsecond] at hsign
    omega

/-- The number of seconds from which on a fraction has less than 20 bits. -/
def fineLimit : Nat := 2 ^ 33

/-- Up to 2^33 seconds nothing is rounded up to the next second. -/
theorem wholeSeconds_eq_tdiv {elapsed : Int} (h : elapsed.natAbs < fineLimit * second) :
    wholeSeconds elapsed = elapsed.tdiv second := by
  have hwhole : nearestWhole elapsed.natAbs second = elapsed.natAbs / second :=
    nearestWhole_million h
  rw [wholeSeconds, hwhole]
  split_ifs with hsign
  · have hback : elapsed = -(elapsed.natAbs : Int) := by omega
    calc -((elapsed.natAbs / second : Nat) : Int)
        = -((elapsed.natAbs : Int).tdiv second) := rfl
      _ = (-(elapsed.natAbs : Int)).tdiv second := (Int.neg_tdiv _ _).symm
      _ = elapsed.tdiv second := by rw [← hback]
  · have hback : elapsed = (elapsed.natAbs : Int) := by omega
    calc ((elapsed.natAbs / second : Nat) : Int)
        = (elapsed.natAbs : Int).tdiv second := rfl
      _ = elapsed.tdiv second := by rw [← hback]

section Counts

variable {elapsed n : Int}

/-- Up to 2^53 seconds a number of seconds that is not exceeded bounds the whole seconds. -/
theorem wholeSeconds_le (h : elapsed.natAbs ≤ greatestWhole * second) (hle : elapsed ≤ n * second) :
    wholeSeconds elapsed ≤ n := by
  have hsecond : second = 1000000 := rfl
  rw [hsecond] at h hle
  -- a bound of more seconds than there are exact values for is not reached at all
  rcases lt_or_ge (greatestWhole : Int) n with hlarge | hsmall
  · calc wholeSeconds elapsed ≤ wholeSeconds ((greatestWhole : Int) * second) := by
          apply wholeSeconds_mono
          rw [hsecond]
          omega
      _ = greatestWhole := wholeSeconds_mul_second (Int.natAbs_natCast _).le
      _ ≤ n := hlarge.le
  · calc wholeSeconds elapsed ≤ wholeSeconds (n * second) := wholeSeconds_mono hle
      _ = n := wholeSeconds_mul_second (by omega)

theorem le_wholeSeconds (h : elapsed.natAbs ≤ greatestWhole * second) (hle : n * second ≤ elapsed) :
    n ≤ wholeSeconds elapsed := by
  have hsecond : second = 1000000 := rfl
  rw [hsecond] at h hle
  rcases lt_or_ge n (-greatestWhole : Int) with hsmall | hlarge
  · calc n ≤ -greatestWhole := hsmall.le
      _ = wholeSeconds (-greatestWhole * second) := by
          rw [wholeSeconds_mul_second]
          rw [Int.natAbs_neg, Int.natAbs_natCast]
      _ ≤ wholeSeconds elapsed := by
          apply wholeSeconds_mono
          rw [hsecond]
          omega
  · calc n = wholeSeconds (n * second) := (wholeSeconds_mul_second (by omega)).symm
      _ ≤ wholeSeconds elapsed := wholeSeconds_mono hle

/-- Before a full second after the start of 1970, and up to 2^33 seconds, whole seconds are fewer. -/
theorem wholeSeconds_lt (hpos : 0 < n) (hfine : n ≤ fineLimit) (hlt : elapsed < n * second) :
    wholeSeconds elapsed < n := by
  -- before 1970 fractions are cut upwards, but not above zero
  rcases lt_or_ge elapsed 0 with hnegative | hpositive
  · calc wholeSeconds elapsed ≤ wholeSeconds (0 * second) := by
          apply wholeSeconds_mono
          rw [Int.zero_mul]
          exact hnegative.le
      _ = 0 := wholeSeconds_mul_second (Nat.zero_le _)
      _ < n := hpos
  · have hlimit : elapsed.natAbs < fineLimit * second := by
      have hsecond : second = 1000000 := rfl
      rw [hsecond] at hlt ⊢
      omega
    rw [wholeSeconds_eq_tdiv hlimit, Int.tdiv_eq_ediv_of_nonneg hpositive]
    exact Int.ediv_lt_of_lt_mul (by exact_mod_cast second_pos) hlt

end Counts

variable {m a b : Moment}

/-! Timestamps -/

theorem InCalendar.natAbs_le (h : m.InCalendar) :
    (m.instant - epoch).natAbs ≤ greatestWhole * second := by
  obtain ⟨hclock, hoffset⟩ := h
  have hlimit : limit = 3652059 * 86400000000 := rfl
  have hday : day = 86400000000 := rfl
  have hepoch : epoch = 719162 * 86400000000 := rfl
  have hgreatest : greatestWhole * second = 9007199254740992000000 := rfl
  rw [instant, hgreatest]
  omega

theorem InCalendar.timestamp_eq (h : m.InCalendar) :
    m.timestamp = wholeSeconds (m.instant - epoch) := by
  have hwhole := wholePart_nearest (decide (m.instant - epoch < 0)) second_pos h.natAbs_le
  simp only [decide_eq_true_eq] at hwhole
  exact hwhole

/-- The later of two moments has the later timestamp, or both have the same. -/
theorem timestamp_mono (ha : a.InCalendar) (hb : b.InCalendar) (h : a.instant ≤ b.instant) :
    a.timestamp ≤ b.timestamp := by
  rw [ha.timestamp_eq, hb.timestamp_eq]
  exact wholeSeconds_mono (Int.sub_le_sub_right h _)

end Moment

/-- An instant, in microseconds since the start of the year 1, and the timestamp that it goes by. -/
structure Stamp where
  instant : Int
  timestamp : Int

/-- The stamp of a count of seconds since 1970. -/
def Stamp.ofCount (n : Int) : Stamp := ⟨Moment.epoch + n * Moment.second, n⟩

/-- The stamp of a moment. -/
def Moment.stamp (m : Moment) : Stamp := ⟨m.instant, m.timestamp⟩

namespace Stamp

open Moment Binary64

/-- The stamps that are given as counts of seconds or by moments of the calendar. -/
inductive IsSound : Stamp → Prop
  | count (n : Int) : IsSound (ofCount n)
  | moment {m : Moment} (h : m.InCalendar) : IsSound m.stamp

variable {stamp : Stamp} {bound : Moment}

/-- A stamp that is not before a bound does not have an earlier timestamp. -/
theorem IsSound.timestamp_ge (h : stamp.IsSound) (hbound : bound.InCalendar)
    (hle : bound.instant ≤ stamp.instant) : bound.timestamp ≤ stamp.timestamp := by
  cases h with
  | moment hm => exact timestamp_mono hbound hm hle
  | count n =>
    change bound.instant ≤ epoch + n * second at hle
    change bound.timestamp ≤ n
    rw [hbound.timestamp_eq]
    exact wholeSeconds_le hbound.natAbs_le (by omega)

/-- A stamp that is not after a bound does not have a later timestamp. -/
theorem IsSound.timestamp_le (h : stamp.IsSound) (hbound : bound.InCalendar)
    (hle : stamp.instant ≤ bound.instant) : stamp.timestamp ≤ bound.timestamp := by
  cases h with
  | moment hm => exact timestamp_mono hm hbound hle
  | count n =>
    change epoch + n * second ≤ bound.instant at hle
    change n ≤ bound.timestamp
    rw [hbound.timestamp_eq]
    exact le_wholeSeconds hbound.natAbs_le (by omega)

/-- Before a full second after the start of 1970, and up to 2^33 seconds, timestamps are earlier. -/
theorem IsSound.timestamp_lt (h : stamp.IsSound) {n : Int} (hpos : 0 < n) (hfine : n ≤ fineLimit)
    (hlt : stamp.instant < epoch + n * second) : stamp.timestamp < n := by
  cases h with
  | count k =>
    change epoch + k * second < epoch + n * second at hlt
    change k < n
    have hsecond : second = 1000000 := rfl
    rw [hsecond] at hlt
    omega
  | @moment m hm =>
    change m.instant < epoch + n * second at hlt
    change m.timestamp < n
    rw [hm.timestamp_eq]
    exact wholeSeconds_lt hpos hfine (by omega)

end Stamp

namespace DateRange

/-- Whether the instant of a stamp lies in a range. -/
def contains (range : DateRange) (stamp : Stamp) : Bool :=
  range.start.instant ≤ stamp.instant && stamp.instant < range.stop.instant

/-- Whether the instant of a stamp lies in a range whose bounds take their whole second along: what
has the timestamp of a bound counts as not before it. -/
def keeps (range : DateRange) (stamp : Stamp) : Bool :=
  (range.start.instant ≤ stamp.instant || stamp.timestamp == range.start.timestamp) &&
    (stamp.instant < range.stop.instant && stamp.timestamp != range.stop.timestamp)

variable {range : DateRange} {stamp : Stamp}

theorem covers_eq_keeps (hstart : range.start.InCalendar) (hstop : range.stop.InCalendar)
    (h : stamp.IsSound) : range.covers stamp.timestamp = range.keeps stamp := by
  have hstartGe := h.timestamp_ge hstart
  have hstartLe := h.timestamp_le hstart
  have hstopGe := h.timestamp_ge hstop
  have hstopLe := h.timestamp_le hstop
  rw [Bool.eq_iff_iff, covers, keeps]
  simp only [Bool.and_eq_true, Bool.or_eq_true, decide_eq_true_eq, beq_iff_eq, bne_iff_ne, ne_eq]
  omega

/-- The ranges between full seconds after the start of 1970, up to the year 2242. -/
structure IsSharp (range : DateRange) : Prop where
  exists_start : ∃ n : Int, 0 < n ∧ n ≤ Moment.fineLimit ∧
    range.start.instant = Moment.epoch + n * Moment.second
  exists_stop : ∃ n : Int, 0 < n ∧ n ≤ Moment.fineLimit ∧
    range.stop.instant = Moment.epoch + n * Moment.second

theorem keeps_eq_contains (hsharp : range.IsSharp) (h : stamp.IsSound) :
    range.keeps stamp = range.contains stamp := by
  have hgreatest : (Moment.fineLimit : Int) ≤ Binary64.greatestWhole := by decide
  obtain ⟨⟨first, hfirst, hfirst', hstart⟩, ⟨last, hlast, hlast', hstop⟩⟩ := hsharp
  have hfirstTime := Moment.timestamp_of_instant hstart (by omega)
  have hlastTime := Moment.timestamp_of_instant hstop (by omega)
  have hbefore := h.timestamp_lt hfirst hfirst'
  have hbefore' := h.timestamp_lt hlast hlast'
  rw [← hstart] at hbefore
  rw [← hstop] at hbefore'
  rw [Bool.eq_iff_iff, keeps, contains, hfirstTime, hlastTime]
  simp only [Bool.and_eq_true, Bool.or_eq_true, decide_eq_true_eq, beq_iff_eq, bne_iff_ne, ne_eq]
  omega

end DateRange

end Bourse
