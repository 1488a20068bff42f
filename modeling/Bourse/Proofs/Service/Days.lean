import Bourse.Proofs.Calendar.Iso
import Bourse.Proofs.Number.Places
import Bourse.Proofs.Text.Split
import Bourse.Service.History

/-! The days that the service is asked for, as instants. The text of a day stands for the midnight
with which the day begins. So a range starts inside the days that are asked for, and all of it lies
in them exactly if it ends at midnight: what it has of the day of its end is not asked for. -/
namespace Bourse

/-! Days as text -/

/-- The date of a year, a month and a day with hyphens between them. -/
def Date.named? (text : String) : Option Date := do
  match ← (Text.split (· == '-') text.toList).mapM Numeral.integer? with
  | [year, month, day] => some ⟨year.toNat, month.toNat, day.toNat⟩
  | _ => none

namespace Numeral

theorem integer?_padded_two {n : Nat} (h : n < 100) :
    integer? (Moment.padded 2 n).toList = some (n : Int) := by
  have hlength := Moment.length_padded (by decide : 0 < 2) h
  have hne : (Moment.padded 2 n).toList ≠ [] := by
    rw [← List.length_pos_iff, hlength]
    decide
  have hshort : (Moment.padded 2 n).toList.length ≤ mostDigits := by
    rw [hlength]
    decide
  rw [integer?_of_isDigit (Moment.isDigit_of_mem_padded 2 n) hne hshort, Moment.toList_padded,
    ofDigits_padZeros]

end Numeral

/-- The parts of a date as it is written out. -/
def Date.parts (date : Date) : List (List Char) :=
  [Layout.digitsOf date.year, (Moment.padded 2 date.month).toList,
    (Moment.padded 2 date.day).toList]

theorem Moment.toList_plainDate (date : Date) :
    (plainDate date).toList = ['-'].intercalate date.parts := by
  have hyear : (Layout.integer (date.year : Int)).toList = Layout.digitsOf date.year := by
    rw [Layout.toList_integer, decide_eq_false (by omega), Int.natAbs_natCast]
    rfl
  simp [plainDate, Date.parts, hyear, List.intercalate]

theorem Date.named?_plainDate {date : Date} (h : date.IsValid) :
    named? (Moment.plainDate date) = some date := by
  obtain ⟨hyear, hmonth, hday⟩ := h.fits
  -- the parts are of digits alone, so the hyphens are where the text is cut
  have hdigits : ∀ part ∈ date.parts, '-' ∉ part := by
    have hhyphen {part : List Char} (hpart : ∀ c ∈ part, c.isDigit = true) : '-' ∉ part :=
      fun hmem => absurd (hpart '-' hmem) (by decide)
    simp only [parts, List.forall_mem_cons]
    exact ⟨hhyphen Numeral.isDigit_of_mem_digitsOf, hhyphen (Moment.isDigit_of_mem_padded 2 _),
      hhyphen (Moment.isDigit_of_mem_padded 2 _), List.forall_mem_nil _⟩
  have hyearFits : date.year < 10 ^ Numeral.mostDigits :=
    hyear.trans_le (Nat.pow_le_pow_right (by decide : 0 < 10) (by decide : 4 ≤ Numeral.mostDigits))
  have hread : date.parts.mapM Numeral.integer? =
      some [(date.year : Int), (date.month : Int), (date.day : Int)] := by
    simp [parts, Layout.integer?_digitsOf hyearFits, Numeral.integer?_padded_two hmonth,
      Numeral.integer?_padded_two hday]
  have hsplit := Text.split_intercalate hdigits (List.cons_ne_nil _ _)
  rw [named?, Moment.toList_plainDate, hsplit, hread]
  rfl

/-! Instants -/

/-- A stretch of time in microseconds of universal time, up to but without its last instant. -/
structure Window where
  first : Int
  last : Int

def Window.Contains (window : Window) (instant : Int) : Prop :=
  window.first ≤ instant ∧ instant < window.last

def DateRange.window (range : DateRange) : Window := ⟨range.start.instant, range.stop.instant⟩

namespace Moment

/-- The midnight, in universal time, that begins the day of a text. -/
def midnight? (text : String) : Option Int :=
  (Date.named? text).bind fun date => (ofFields date 0 0 0 0 (some 0)).toOption.map instant

/-- The clock at the midnight that begins the day of a moment. -/
def midnight (m : Moment) : Int := m.clock - m.timeOfDay

variable {m : Moment}

theorem midnight_eq : m.midnight = (m.clock / day * day : Nat) := by
  have hparts := Nat.div_add_mod' m.clock day
  rw [midnight, timeOfDay]
  omega

theorem midnight?_plainDate (h : m.clock < limit) :
    midnight? (plainDate m.date) = some m.midnight := by
  have hvalid := isValid_date h
  have hfields : ofFields m.date 0 0 0 0 (some 0) =
      .ok ⟨m.date.number * day + ((0 * 60 + 0) * 60 + 0) * second + 0, some 0⟩ :=
    ofFields_eq_ok hvalid (by decide) (by decide) (by decide) 0 (some 0)
  have hnumber : m.date.number = m.clock / day := Date.number_ofNumber _
  rw [midnight?, Date.named?_plainDate hvalid, Option.bind_some, hfields, hnumber, midnight_eq]
  simp [Except.toOption, instant]

theorem midnight_eq_clock_iff : m.midnight = m.clock ↔ m.timeOfDay = 0 := by
  rw [midnight]
  omega

end Moment

/-! What is asked for -/

/-- The stretch of time that a request asks for, if it asks for bars: from the midnight of its start
up to the midnight of its end. -/
def ServiceCall.window? : ServiceCall → Option Window
  | .listing _ => none
  | .history _ start stop _ _ _ => do return ⟨← Moment.midnight? start, ← Moment.midnight? stop⟩

/-- A range in universal time, on days of the calendar, that starts before it ends. -/
structure DateRange.IsUniversal (range : DateRange) : Prop where
  start_lt : range.start.clock < Moment.limit
  stop_lt : range.stop.clock < Moment.limit
  start_offset : range.start.offset.getD 0 = 0
  stop_offset : range.stop.offset.getD 0 = 0
  start_lt_stop : range.start.clock < range.stop.clock

namespace DateRange

variable {range : DateRange}

theorem IsUniversal.window_eq (h : range.IsUniversal) :
    range.window = ⟨range.start.clock, range.stop.clock⟩ := by
  rw [window, Moment.instant, Moment.instant, h.start_offset, h.stop_offset, Int.sub_zero,
    Int.sub_zero]

/-- The days of a range, from the first midnight to the last. -/
def days (range : DateRange) : Window := ⟨range.start.midnight, range.stop.midnight⟩

/-- Of a range, its days contain what lies before the day of its end. -/
theorem IsUniversal.days_contains_iff (h : range.IsUniversal) {t : Int}
    (ht : range.window.Contains t) : range.days.Contains t ↔ t < range.stop.midnight := by
  rw [h.window_eq] at ht
  have hstart : range.start.midnight ≤ range.start.clock := by
    rw [Moment.midnight]
    omega
  exact and_iff_right (hstart.trans ht.1)

theorem IsUniversal.days_contain_all_iff (h : range.IsUniversal) :
    (∀ t, range.window.Contains t → range.days.Contains t) ↔ range.stop.timeOfDay = 0 := by
  have horder := h.start_lt_stop
  rw [← Moment.midnight_eq_clock_iff]
  constructor
  · intro hall
    -- the last microsecond of the range has to lie before the last midnight
    have hlast : range.window.Contains (range.stop.clock - 1) := by
      rw [h.window_eq, Window.Contains]
      dsimp only
      omega
    have hbefore := (h.days_contains_iff hlast).mp (hall _ hlast)
    have hmidnight : range.stop.midnight = range.stop.clock - range.stop.timeOfDay := rfl
    omega
  · intro hmidnight t ht
    rw [h.days_contains_iff ht, hmidnight]
    rw [h.window_eq] at ht
    exact ht.2

end DateRange

namespace Service

variable {range : DateRange} {settings : ServiceSettings} {symbol : String} {interval : Interval}

theorem window?_historyCall (h : range.IsUniversal) :
    (historyCall settings symbol range interval).window? = some range.days := by
  rw [historyCall, ServiceCall.window?, Moment.midnight?_plainDate h.start_lt,
    Moment.midnight?_plainDate h.stop_lt]
  rfl

/-- Whatever becomes of the bars, opening a listing and asking for its history are the requests. -/
theorem calls_history {service : Service} {listing : Listing} {name : String}
    (hlisting : service.openListing symbol = .ok listing)
    (hinterval : Interval.ofName? name = some interval) :
    (history (some service) settings symbol (some range) name).calls =
      [.listing symbol, historyCall settings symbol range interval] := by
  simp only [history, hinterval, hlisting]
  cases listing.historyFailure with
  | some reason => rfl
  | none =>
    simp only [historyOf]
    cases listing.bars.mapM toBar with
    | error breakdown => rfl
    | ok bars => rfl

/-- The history of a range is asked for in one request, and that asks for the instants of the range
up to the midnight before its end; so it asks for the whole range exactly if the range ends at
midnight. -/
theorem history_asks_up_to_midnight (settings : ServiceSettings) {service : Service}
    {listing : Listing} {name : String} (hlisting : service.openListing symbol = .ok listing)
    (hinterval : Interval.ofName? name = some interval) (hrange : range.IsUniversal) :
    ∃ window,
      (history (some service) settings symbol (some range) name).calls.filterMap
        ServiceCall.window? = [window] ∧
      (∀ t, range.window.Contains t → (window.Contains t ↔ t < range.stop.midnight)) ∧
      ((∀ t, range.window.Contains t → window.Contains t) ↔ range.stop.timeOfDay = 0) := by
  refine ⟨range.days, ?_, fun t ht => hrange.days_contains_iff ht, hrange.days_contain_all_iff⟩
  rw [calls_history hlisting hinterval]
  have hopening : (ServiceCall.listing symbol).window? = none := rfl
  simp [hopening, window?_historyCall hrange]

/-- From three in the afternoon at the end of 2023 up to the midnight after the leap day of 2024, by
the hour: all of it is asked for. -/
theorem winter_is_asked_for :
    let range : DateRange := ⟨⟨63839631600000000, some 0⟩, ⟨63844848000000000, some 0⟩⟩
    let calls := (history (some {}) {} "KO" (some range) "1h").calls
    (({} : Service).openListing "KO" = .ok {} ∧ Interval.ofName? "1h" = some .oneHour ∧
      range.IsUniversal) ∧
    ∃ window, calls.filterMap ServiceCall.window? = [window] ∧
      ∀ t, range.window.Contains t → window.Contains t := by
  intro range calls
  have hlisting : ({} : Service).openListing "KO" = .ok {} := rfl
  have hinterval : Interval.ofName? "1h" = some .oneHour := by decide
  have hrange : range.IsUniversal := ⟨by decide, by decide, rfl, rfl, by decide⟩
  refine ⟨⟨hlisting, hinterval, hrange⟩, ?_⟩
  obtain ⟨window, hwindow, -, hall⟩ :=
    history_asks_up_to_midnight {} hlisting hinterval hrange
  exact ⟨window, hwindow, hall.mpr (by decide)⟩

/-- A range that starts at midnight and ends at noon of the same day is universal, and none of it is
asked for. -/
theorem morning_is_not_asked_for :
    let range : DateRange := ⟨⟨63839750400000000, some 0⟩, ⟨63839793600000000, some 0⟩⟩
    let calls := (history (some {}) {} "X" (some range) "1d").calls
    range.IsUniversal ∧ range.window.Contains range.start.clock ∧
      ∃ window, calls.filterMap ServiceCall.window? = [window] ∧
        ¬window.Contains range.start.clock := by
  intro range calls
  have hrange : range.IsUniversal := ⟨by decide, by decide, rfl, rfl, by decide⟩
  have hcalls : calls = [.listing "X", historyCall {} "X" range .oneDay] :=
    calls_history rfl (by decide)
  have hopening : (ServiceCall.listing "X").window? = none := rfl
  have hstart : range.window.Contains range.start.clock := by
    rw [hrange.window_eq]
    exact ⟨by decide, by decide⟩
  refine ⟨hrange, hstart, range.days, ?_, ?_⟩
  · rw [hcalls]
    simp [hopening, window?_historyCall hrange]
  · intro hcontains
    -- both ends of what is asked for are the same midnight
    exact absurd hcontains.2 (by decide)

end Service

end Bourse
