import Bourse.Calendar.Timestamp
import Bourse.Proofs.Calendar.Date
import Bourse.Proofs.Number.Nearest

/-! Moments and their timestamps. A timestamp with a date leads to the clock that is as many seconds
after the start of 1970, and a clock on a full second has its timestamp back through the number of
its seconds, which is exact. -/
namespace Bourse.Moment

theorem shift?_eq_some {m shifted : Moment} {microseconds : Int}
    (h : m.shift? microseconds = some shifted) :
    (shifted.clock : Int) = m.clock + microseconds ∧ shifted.clock < limit := by
  simp only [shift?] at h
  split_ifs at h with hout
  cases h
  rw [not_or, Int.not_lt, Int.not_le] at hout
  obtain ⟨hlow, hhigh⟩ := hout
  have hclock : (((m.clock : Int) + microseconds).toNat : Int) = m.clock + microseconds :=
    Int.toNat_of_nonneg hlow
  refine ⟨hclock, Int.ofNat_lt.mp ?_⟩
  rwa [hclock]

/-- A timestamp with a date is as many seconds after the start of 1970 as it says. -/
theorem clock_of_ofTimestamp {seconds : Int} {m : Moment} (h : ofTimestamp seconds = .ok m) :
    (m.clock : Int) = epoch + seconds * second ∧ m.clock < limit := by
  unfold ofTimestamp at h
  split_ifs at h
  cases hshift : ({ clock := epoch, offset := some 0 } : Moment).shift? (seconds * second) with
  | none =>
    rw [hshift] at h
    exact nomatch h
  | some shifted =>
    rw [hshift] at h
    cases h
    exact shift?_eq_some hshift

/-- A timestamp has a date exactly if the clock that it leads to belongs to the calendar. -/
theorem exists_ofTimestamp_iff {seconds : Int} : (∃ m, ofTimestamp seconds = .ok m) ↔
    0 ≤ (epoch : Int) + seconds * second ∧ (epoch : Int) + seconds * second < limit := by
  constructor
  · rintro ⟨m, hm⟩
    obtain ⟨hclock, hlimit⟩ := clock_of_ofTimestamp hm
    rw [← hclock]
    exact ⟨Int.natCast_nonneg _, Int.ofNat_lt.mpr hlimit⟩
  · rintro ⟨hlow, hhigh⟩
    -- the calendar lies within the other bounds
    have hepoch : (epoch : Int) = 62135596800000000 := rfl
    have hlimit : (limit : Int) = 315537897600000000 := rfl
    have hsecond : (second : Int) = 1000000 := rfl
    have hword : wordLimit = 9223372036854775808 := rfl
    have hfirst : firstSecond = -67768040609740800 := rfl
    have hlast : lastSecond = 67768036191676799 := rfl
    have hshift : ({ clock := epoch, offset := some 0 } : Moment).shift? (seconds * second) =
        some { clock := ((epoch : Int) + seconds * second).toNat, offset := some 0 } := by
      have hin : ¬((epoch : Int) + seconds * second < 0 ∨
          (limit : Int) ≤ (epoch : Int) + seconds * second) := by omega
      rw [shift?]
      exact if_neg hin
    rw [hepoch, hsecond] at hlow hhigh
    rw [hlimit] at hhigh
    unfold ofTimestamp
    rw [if_neg (by omega), if_neg (by omega), hshift]
    exact ⟨_, rfl⟩

theorem isValid_date {m : Moment} (h : m.clock < limit) : m.date.IsValid :=
  Date.isValid_ofNumber ((Nat.div_lt_iff_lt_mul (by decide)).mpr h)

/-- The timestamp of a full second is the number of seconds. -/
theorem timestamp_of_instant {m : Moment} {seconds : Int}
    (hinstant : m.instant = epoch + seconds * second)
    (hseconds : seconds.natAbs ≤ Binary64.greatestWhole) : m.timestamp = seconds := by
  have hsecond : 0 < second := by decide
  have helapsed : m.instant - epoch = seconds * second := by omega
  have habs : (seconds * second).natAbs = seconds.natAbs * second := Int.natAbs_mul _ _
  have hsign : seconds * second < 0 ↔ seconds < 0 := by
    have hvalue : (second : Int) = 1000000 := rfl
    rw [hvalue]
    omega
  obtain ⟨mantissa, exponent, hvalue, hwhole⟩ :=
    Binary64.exists_ofFloat_nearest_int hsecond hseconds
  simp only [timestamp, Moment.seconds, helapsed, habs, hsign, hvalue, hwhole]

end Bourse.Moment
