import Bourse.Proofs.Calendar.InCalendar
import Bourse.Proofs.Calendar.Range
import Bourse.Proofs.Calendar.Timestamp

/-! What becomes of the wish for a range. A range that is made of bounds starts before its end,
since the bounds are compared. A range that is made of a lookback is not looked at again, so it is
empty where the count is zero; and what leads out of the calendar fails without a message. -/
namespace Bourse

namespace Moment

variable {m shifted : Moment} {microseconds : Int}

theorem instant_of_shift? (h : m.shift? microseconds = some shifted) :
    shifted.instant = m.instant + microseconds := by
  have hclock := (shift?_eq_some h).1
  have hoffset : shifted.offset = m.offset := by
    simp only [shift?] at h
    split_ifs at h
    cases h
    rfl
  rw [instant, instant, hclock, hoffset]
  omega

end Moment

namespace DateRange

/-- Whether the wish for a range is settled: by a range that starts before its end, or by an error
that has a message. -/
def IsSettled (outcome : Except RangeError DateRange) : Prop :=
  (∃ range, outcome = .ok range ∧ range.start.instant < range.stop.instant) ∨
    ∃ error text, outcome = .error error ∧ error.message? = some text

theorem isSettled_iff {outcome : Except RangeError DateRange} :
    IsSettled outcome ↔ ¬FailsSilently RangeError.message? outcome ∧
      ∀ range, outcome = .ok range → range.start.instant < range.stop.instant := by
  rw [not_failsSilently_iff]
  constructor
  · rintro (⟨range, rfl, hlt⟩ | ⟨error, text, rfl, htext⟩)
    · refine ⟨.inl (succeeds_ok range), ?_⟩
      intro other hother
      cases hother
      exact hlt
    · exact ⟨.inr ⟨error, text, rfl, htext⟩, nofun⟩
  · rintro ⟨⟨range, hrange⟩ | hmessage, hstarts⟩
    · exact .inl ⟨range, hrange, hstarts range hrange⟩
    · exact .inr hmessage

/-! Lookbacks -/

variable {now : Moment} {lookback : String}

/-- Whether a lookback goes back by nothing: its unit is known, and its count is zero. -/
def IsIdle (lookback : String) : Prop :=
  ∃ digits unit days, splitLookback? lookback = some (digits, unit) ∧
    digits.length ≤ Numeral.mostDigits ∧ unitDays? unit = some days ∧ Pattern.number digits = 0

theorem days_pos_of_unitDays? {unit : String} {days : Nat} (h : unitDays? unit = some days) :
    0 < days := by
  obtain ⟨before, after, hunits, -⟩ := List.lookup_eq_some_iff.mp h
  have hall : ∀ entry ∈ [("d", 1), ("w", 7), ("wk", 7), ("m", 30), ("mo", 30), ("y", 365)],
      0 < entry.2 := by decide
  apply hall (unit, days)
  rw [hunits]
  exact List.mem_append_right before List.mem_cons_self

theorem daysBefore_eq_ok_iff {m first : Moment} {days : Nat} :
    daysBefore m days = .ok first ↔ m.shift? (-(days * Moment.day : Nat)) = some first := by
  have helim (shifted : Option Moment) :
      shifted.elim (.error .outOfCalendar) .ok = (.ok first : Except RangeError Moment) ↔
        shifted = some first := by
    cases shifted with
    | none => exact iff_of_false nofun nofun
    | some found => exact (Except.ok.injEq _ _).to_iff.trans (Option.some_inj).symm
  exact helim _

/-- A range of a lookback ends now and starts as many days before as the lookback counts. -/
theorem ofLookback_eq_ok_iff {range : DateRange} :
    ofLookback lookback now = .ok range ↔
      ∃ digits unit days, splitLookback? lookback = some (digits, unit) ∧
        digits.length ≤ Numeral.mostDigits ∧ unitDays? unit = some days ∧
        now.shift? (-(Pattern.number digits * days * Moment.day : Nat)) = some range.start ∧
        range.stop = now := by
  unfold ofLookback
  cases splitLookback? lookback with
  | none => exact iff_of_false nofun nofun
  | some parts =>
    obtain ⟨digits, unit⟩ := parts
    simp only [Option.some.injEq, Prod.mk.injEq, and_assoc, exists_and_left, exists_eq_left']
    split_ifs with hlong
    · exact iff_of_false nofun fun h => absurd h.1 (Nat.not_le_of_lt hlong)
    rw [and_iff_right (Nat.le_of_not_lt hlong)]
    cases unitDays? unit with
    | none => exact iff_of_false nofun nofun
    | some days =>
      simp only [Option.some.injEq, exists_eq_left', bind_eq_ok_iff, daysBefore_eq_ok_iff]
      constructor
      · rintro ⟨first, hfirst, hrange⟩
        cases hrange
        exact ⟨hfirst, rfl⟩
      · rintro ⟨hfirst, rfl⟩
        exact ⟨range.start, hfirst, rfl⟩

/-- The range of a lookback is in order exactly if the lookback goes back by something. -/
theorem start_lt_stop_iff {range : DateRange} (h : ofLookback lookback now = .ok range) :
    range.start.instant < range.stop.instant ↔ ¬IsIdle lookback := by
  obtain ⟨digits, unit, days, hsplit, hlength, hunit, hfirst, hstop⟩ := ofLookback_eq_ok_iff.mp h
  have hinstant := Moment.instant_of_shift? hfirst
  rw [hinstant, hstop]
  have hidle : IsIdle lookback ↔ Pattern.number digits = 0 := by
    constructor
    · rintro ⟨digits', unit', days', hsplit', -, -, hzero⟩
      rw [hsplit] at hsplit'
      cases hsplit'
      exact hzero
    · exact fun hzero => ⟨digits, unit, days, hsplit, hlength, hunit, hzero⟩
  have hspan : 0 < Pattern.number digits * days * Moment.day ↔ Pattern.number digits ≠ 0 := by
    rw [mul_assoc, Nat.mul_pos_iff_of_pos_right, Nat.pos_iff_ne_zero]
    exact Nat.mul_pos (days_pos_of_unitDays? hunit) (by decide)
  rw [hidle, ← ne_eq, ← hspan]
  omega

theorem isSettled_ofLookback_iff :
    IsSettled (ofLookback lookback now) ↔ ¬(IsIdle lookback ∨ IsLost now lookback) := by
  rw [isSettled_iff, failsSilently_ofLookback_iff, not_or, and_comm]
  refine and_congr_left fun hlost => ?_
  constructor
  · intro hstarts hidle
    obtain ⟨digits, unit, days, hsplit, hlength, hunit, -⟩ := id hidle
    -- what is not lost leads to a moment of the calendar
    cases hfirst : now.shift? (-(Pattern.number digits * days * Moment.day : Nat)) with
    | none => exact hlost ⟨digits, unit, hsplit, .inr ⟨hlength, days, hunit, hfirst⟩⟩
    | some first =>
      have hrange : ofLookback lookback now = .ok ⟨first, now⟩ :=
        ofLookback_eq_ok_iff.mpr ⟨digits, unit, days, hsplit, hlength, hunit, hfirst, rfl⟩
      exact (start_lt_stop_iff hrange).mp (hstarts _ hrange) hidle
  · intro hidle range hrange
    exact (start_lt_stop_iff hrange).mpr hidle

/-! Bounds -/

variable {start stop : Option Bound} {usual : String}

theorem resolve_of_nothing {lookback : Option String}
    (hlookback : lookback = none ∨ lookback = some "") :
    resolve now lookback none none usual = ofLookback usual now := by
  rcases hlookback with rfl | rfl
  all_goals
    simp only [resolve, Option.isNone_none, Bool.and_self, if_true, ne_eq, not_true_eq_false,
      if_false]

theorem isSettled_resolve_of_bounds_iff {lookback : Option String}
    (hlookback : lookback = none ∨ lookback = some "") (hbounds : start ≠ none ∨ stop ≠ none) :
    IsSettled (resolve now lookback start stop usual) ↔ ¬AreLost now start stop := by
  rw [isSettled_iff, failsSilently_resolve_iff hlookback hbounds]
  refine and_iff_left ?_
  intro range hrange
  rw [resolve_of_bounds hlookback hbounds] at hrange
  obtain ⟨last, -, hrange⟩ := bind_eq_ok_iff.mp hrange
  obtain ⟨first, -, hrange⟩ := bind_eq_ok_iff.mp hrange
  -- bounds out of order are refused
  split_ifs at hrange with horder
  · contradiction
  · obtain rfl : ⟨first, last⟩ = range := Except.ok.inj hrange
    exact Int.not_le.mp horder

/-! Wishes -/

/-- How the wish for a range is spoilt: the lookback that it comes down to is idle or lost, or the
bounds are lost. -/
inductive IsSpoilt (now : Moment) (lookback : Option String) (start stop : Option Bound)
    (usual : String) : Prop
  | given {text : String} (hlookback : lookback = some text) (hgiven : text ≠ "")
      (hspoilt : IsIdle text ∨ IsLost now text) : IsSpoilt now lookback start stop usual
  | usual (hlookback : lookback = none ∨ lookback = some "") (hstart : start = none)
      (hstop : stop = none) (hspoilt : IsIdle usual ∨ IsLost now usual) :
      IsSpoilt now lookback start stop usual
  | bounds (hlookback : lookback = none ∨ lookback = some "")
      (hbounds : start ≠ none ∨ stop ≠ none) (hlost : AreLost now start stop) :
      IsSpoilt now lookback start stop usual

/-- Whatever lookback, bounds and usual lookback are given, the wish for a range is settled unless
it is spoilt: a lookback counts nothing, or what is asked for has too many digits or leads out of
the calendar. -/
theorem settled_unless_spoilt (now : Moment) (lookback : Option String) (start stop : Option Bound)
    (usual : String) :
    IsSettled (resolve now lookback start stop usual) ↔
      ¬IsSpoilt now lookback start stop usual := by
  by_cases hgiven : lookback = none ∨ lookback = some ""
  · by_cases hbounds : start ≠ none ∨ stop ≠ none
    · rw [isSettled_resolve_of_bounds_iff hgiven hbounds, not_iff_not]
      constructor
      · exact .bounds hgiven hbounds
      · intro h
        cases h with
        | given hlookback hnonempty => simp [hlookback, hnonempty] at hgiven
        | usual _ hstart hstop => exact absurd hbounds (by simp [hstart, hstop])
        | bounds _ _ hlost => exact hlost
    · obtain ⟨rfl, rfl⟩ : start = none ∧ stop = none := by simpa using hbounds
      rw [resolve_of_nothing hgiven, isSettled_ofLookback_iff, not_iff_not]
      constructor
      · exact .usual hgiven rfl rfl
      · intro h
        cases h with
        | given hlookback hnonempty => simp [hlookback, hnonempty] at hgiven
        | usual _ _ _ hspoilt => exact hspoilt
        | bounds _ hbounds' => exact absurd hbounds' hbounds
  · obtain ⟨text, rfl⟩ : ∃ text, lookback = some text :=
      Option.ne_none_iff_exists'.mp fun hnone => hgiven (.inl hnone)
    have hnonempty : text ≠ "" := fun hempty => hgiven (.inr (congrArg some hempty))
    rw [resolve_of_text hnonempty, isSettled_ofLookback_iff, not_iff_not]
    constructor
    · exact .given rfl hnonempty
    · intro h
      cases h with
      | given hlookback _ hspoilt =>
        cases hlookback
        exact hspoilt
      | usual hlookback => exact absurd hlookback hgiven
      | bounds hlookback => exact absurd hlookback hgiven

/-- A lookback of no days, on the first of June 2024, leads to a range that is empty. -/
theorem lookback_of_no_days_is_not_settled :
    let now : Moment := ⟨63852796800000000, some 0⟩
    now.InCalendar ∧ ¬IsSettled (resolve now (some "0d") none none usualLookback) := by
  intro now
  have hsplit : splitLookback? "0d" = some (['0'], "d") := by
    decide +kernel
  have hidle : IsIdle "0d" := ⟨['0'], "d", 1, hsplit, by decide, rfl, rfl⟩
  refine ⟨⟨by decide, by decide⟩, ?_⟩
  rw [resolve_of_text (by decide), isSettled_ofLookback_iff, not_not]
  exact .inl hidle

end DateRange

end Bourse
