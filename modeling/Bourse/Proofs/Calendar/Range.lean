import Bourse.Calendar.Range
import Bourse.Proofs.Results
import Mathlib.Tactic.SplitIfs

/-! How ranges of time fail without a message. A lookback does where its count has too many digits
or leads out of the calendar, and bounds do where one cannot be written as text or where a range
that has an end only would start before the calendar. -/
namespace Bourse

namespace DateRange

variable {now : Moment}

theorem failsSilently_daysBefore_iff {m : Moment} {days : Nat} :
    FailsSilently RangeError.message? (daysBefore m days) ↔
      m.shift? (-(days * Moment.day : Nat)) = none := by
  have hshift (shifted : Option Moment) : FailsSilently RangeError.message?
      (shifted.elim (.error .outOfCalendar) .ok) ↔ shifted = none := by
    cases shifted with
    | some start => exact iff_of_false (not_failsSilently_ok _) nofun
    | none => exact iff_of_true (failsSilently_error_iff.mpr rfl) rfl
  exact hshift _

/-- Whether a lookback is lost without a message: its count has too many digits, or the range would
start before the calendar. -/
def IsLost (now : Moment) (lookback : String) : Prop :=
  ∃ digits unit, splitLookback? lookback = some (digits, unit) ∧
    (Numeral.mostDigits < digits.length ∨ digits.length ≤ Numeral.mostDigits ∧
      ∃ days, unitDays? unit = some days ∧
        now.shift? (-(Pattern.number digits * days * Moment.day : Nat)) = none)

theorem failsSilently_ofLookback_iff {lookback : String} :
    FailsSilently RangeError.message? (ofLookback lookback now) ↔ IsLost now lookback := by
  unfold ofLookback IsLost
  cases splitLookback? lookback with
  | none => exact iff_of_false (failsSilently_error_iff.not.mpr nofun) fun ⟨_, _, h, _⟩ => nomatch h
  | some parts =>
    obtain ⟨digits, unit⟩ := parts
    simp only [Option.some.injEq, Prod.mk.injEq, and_assoc, exists_and_left, exists_eq_left']
    split_ifs with hlong
    · exact iff_of_true (failsSilently_error_iff.mpr rfl) (.inl hlong)
    rw [or_iff_right hlong, and_iff_right (Nat.le_of_not_lt hlong)]
    cases unitDays? unit with
    | none => exact iff_of_false (failsSilently_error_iff.not.mpr nofun) fun ⟨_, h, _⟩ => nomatch h
    | some days =>
      simp only [Option.some.injEq, exists_eq_left', failsSilently_bind_iff,
        failsSilently_daysBefore_iff]
      exact or_iff_left fun ⟨_, _, h⟩ => not_failsSilently_ok _ h

end DateRange

theorem Bound.failsSilently_resolve_iff {bound : Bound} :
    FailsSilently RangeError.message? bound.resolve ↔ bound = .unwritable := by
  cases bound with
  | moment m => exact iff_of_false (not_failsSilently_ok _) nofun
  | unwritable => exact iff_of_true (failsSilently_error_iff.mpr rfl) rfl
  | text text =>
    refine iff_of_false ?_ nofun
    simp only [Bound.resolve]
    split
    · exact not_failsSilently_ok _
    · split
      · exact not_failsSilently_ok _
      · exact failsSilently_error_iff.not.mpr nofun

namespace DateRange

variable {now : Moment} {start stop : Option Bound}

/-- The end of a range of bounds. -/
def lastOf (now : Moment) (stop : Option Bound) : Except RangeError Moment :=
  stop.elim (.ok now) Bound.resolve

/-- The start of a range of bounds that ends at a moment. -/
def firstOf (start : Option Bound) (last : Moment) : Except RangeError Moment :=
  start.elim (daysBefore last 365) Bound.resolve

theorem resolve_of_text {text usual : String} (h : text ≠ "") :
    resolve now (some text) start stop usual = ofLookback text now := by
  simp only [resolve, if_pos h]

theorem resolve_of_bounds {lookback : Option String} {usual : String}
    (hlookback : lookback = none ∨ lookback = some "") (hbounds : start ≠ none ∨ stop ≠ none) :
    resolve now lookback start stop usual = (do
      let last ← lastOf now stop
      let first ← firstOf start last
      if last.instant ≤ first.instant then throw .empty
      return ⟨first, last⟩) := by
  have hnone : (start.isNone && stop.isNone) = false := by
    rw [Bool.and_eq_false_iff, Option.isNone_eq_false_iff, Option.isNone_eq_false_iff,
      Option.isSome_iff_ne_none, Option.isSome_iff_ne_none]
    exact hbounds
  -- an empty lookback counts as none
  rcases hlookback with rfl | rfl
  all_goals
    simp only [resolve, hnone, ne_eq, not_true_eq_false, if_false, Bool.false_eq_true]
    cases stop <;> cases start <;> rfl

/-- Whether bounds are lost without a message: one that counts cannot be written as text, or a range
that has an end only would start before the calendar. -/
def AreLost (now : Moment) (start stop : Option Bound) : Prop :=
  stop = some .unwritable ∨ ∃ last, lastOf now stop = .ok last ∧
    (start = some .unwritable ∨
      start = none ∧ last.shift? (-(365 * Moment.day : Nat)) = none)

theorem failsSilently_resolve_iff {lookback : Option String} {usual : String}
    (hlookback : lookback = none ∨ lookback = some "") (hbounds : start ≠ none ∨ stop ≠ none) :
    FailsSilently RangeError.message? (resolve now lookback start stop usual) ↔
      AreLost now start stop := by
  have hlast : FailsSilently RangeError.message? (lastOf now stop) ↔ stop = some .unwritable := by
    cases stop with
    | none => exact iff_of_false (not_failsSilently_ok now) nofun
    | some bound => exact Bound.failsSilently_resolve_iff.trans (Option.some_inj).symm
  have hfirst (last : Moment) : FailsSilently RangeError.message? (firstOf start last) ↔
      start = some .unwritable ∨ start = none ∧ last.shift? (-(365 * Moment.day : Nat)) = none := by
    cases start with
    | none =>
      rw [or_iff_right nofun, and_iff_right rfl]
      exact failsSilently_daysBefore_iff
    | some bound =>
      rw [or_iff_left fun h => nomatch h.1]
      exact Bound.failsSilently_resolve_iff.trans (Option.some_inj).symm
  rw [resolve_of_bounds hlookback hbounds, failsSilently_bind_iff, hlast]
  refine or_congr_right (exists_congr fun last => and_congr_right fun _ => ?_)
  rw [failsSilently_bind_iff, hfirst]
  refine or_iff_left ?_
  rintro ⟨first, -, hempty⟩
  -- an empty range has a message
  split_ifs at hempty
  · obtain ⟨error, herror, hnone⟩ := hempty
    cases herror
    exact nomatch hnone
  · exact not_failsSilently_ok _ hempty

end DateRange

end Bourse
