import Bourse.Proofs.Calendar.Pattern
import Bourse.Proofs.Calendar.Iso

/-! Moments of the calendar. A clock that is read, from a text of ISO 8601 or by a pattern, is on a
day of the calendar: its date is a date of the calendar, the hour, the minute and the second are in
their ranges, and at most six digits of a fraction count, so its microseconds are less than a
second. Its offset is less than a day. -/
namespace Bourse

namespace Date

theorem daysBeforeMonth_add_daysInMonth_le (year : Nat) {month : Nat} (hpos : 1 ≤ month)
    (hle : month ≤ 12) : daysBeforeMonth year month + daysInMonth year month ≤ daysInYear year := by
  cases hleap : isLeap year <;> interval_cases month <;>
    simp [daysBeforeMonth, daysBeforeMonths, daysInMonth, daysInYear, hleap]

theorem daysBeforeYear_succ {year : Nat} (h : 1 ≤ year) :
    daysBeforeYear (year + 1) = daysBeforeYear year + daysInYear year := by
  obtain ⟨past, rfl⟩ := Nat.exists_eq_add_of_le' h
  have hleap : isLeap (past + 1) = true ↔
      4 ∣ past + 1 ∧ (¬100 ∣ past + 1 ∨ 400 ∣ past + 1) := by
    simp only [isLeap, Bool.and_eq_true, Bool.or_eq_true, beq_iff_eq, bne_iff_ne, ne_eq,
      Nat.dvd_iff_mod_eq_zero]
  -- a span of years is full where its length divides the number of the year
  have hfour := Nat.succ_div (a := past) (b := 4)
  have hhundred := Nat.succ_div (a := past) (b := 100)
  have hlong := Nat.succ_div (a := past) (b := 400)
  have hdays : daysInYear (past + 1) + (if 100 ∣ past + 1 then 1 else 0) =
      365 + (if 4 ∣ past + 1 then 1 else 0) + if 400 ∣ past + 1 then 1 else 0 := by
    have hcenturies : 400 ∣ past + 1 → 100 ∣ past + 1 := Nat.dvd_trans (by decide)
    have hfours : 100 ∣ past + 1 → 4 ∣ past + 1 := Nat.dvd_trans (by decide)
    simp only [daysInYear, hleap]
    by_cases h4 : 4 ∣ past + 1
    · by_cases h100 : 100 ∣ past + 1
      · by_cases h400 : 400 ∣ past + 1 <;> simp [h4, h100, h400]
      · simp [h4, h100, mt hcenturies h100]
    · simp [h4, mt hfours h4, mt (hfours ∘ hcenturies) h4]
  generalize (if 4 ∣ past + 1 then 1 else 0 : Nat) = fourth at hfour hdays
  generalize (if 100 ∣ past + 1 then 1 else 0 : Nat) = century at hhundred hdays
  generalize (if 400 ∣ past + 1 then 1 else 0 : Nat) = longest at hlong hdays
  rw [daysBeforeYear, daysBeforeYear, Nat.add_sub_cancel, Nat.add_sub_cancel, hfour, hhundred, hlong]
  clear hleap
  omega

theorem IsValid.number_lt {date : Date} (h : date.IsValid) : date.number < count := by
  obtain ⟨hyearPos, hyearLe, hmonthPos, hmonthLe, hdayPos, hdayLe⟩ := h
  have hmonth := daysBeforeMonth_add_daysInMonth_le date.year hmonthPos hmonthLe
  calc date.number
      < daysBeforeYear date.year + daysInYear date.year := by
        rw [number]
        omega
    _ = daysBeforeYear (date.year + 1) := (daysBeforeYear_succ hyearPos).symm
    _ ≤ count := by
        have hlast : lastYear = 9999 := rfl
        rw [count, daysBeforeYear, daysBeforeYear]
        omega

end Date

namespace Moment

/-- The moments of the calendar: the clock is on one of its days, and it is ahead or behind by less
than a day. -/
structure InCalendar (m : Moment) : Prop where
  clock_lt : m.clock < limit
  offset_lt : (m.offset.getD 0).natAbs < day

variable {m : Moment}

/-- Fields in their ranges and microseconds of less than a second make a moment of the calendar. -/
theorem inCalendar_of_ofFields {date : Date} {hour minute seconds microsecond : Nat}
    {offset : Option Int} (h : ofFields date hour minute seconds microsecond offset = .ok m)
    (hmicrosecond : microsecond < second) (hoffset : (offset.getD 0).natAbs < day) :
    m.InCalendar := by
  unfold ofFields at h
  split_ifs at h with hyear hmonth hday hhour hminute hseconds
  cases h
  have hnumber : date.number < Date.count :=
    Date.IsValid.number_lt ⟨by omega, by omega, by omega, by omega, by omega, by omega⟩
  have hsecond : second = 1000000 := rfl
  have hdayLength : day = 86400000000 := rfl
  refine ⟨?_, hoffset⟩
  calc date.number * day + ((hour * 60 + minute) * 60 + seconds) * second + microsecond
      < (date.number + 1) * day := by
        rw [hsecond] at hmicrosecond ⊢
        rw [hdayLength]
        omega
    _ ≤ Date.count * day := Nat.mul_le_mul_right day hnumber

end Moment

namespace Iso

theorem digit?_lt {c : Char} {d : Nat} (h : digit? c = some d) : d < 10 := by
  unfold digit? at h
  split_ifs at h with hrange
  cases h
  have hhigh : c.toNat ≤ 57 := UInt32.le_iff_toNat_le.mp hrange.2
  omega

theorem digits?_lt {n value : Nat} {cs rest : List Char} (h : digits? n cs = some (value, rest)) :
    value < 10 ^ n := by
  induction n generalizing cs value with
  | zero =>
    cases h
    exact Nat.one_pos
  | succ n ih =>
    cases cs with
    | nil => contradiction
    | cons c more =>
      rw [digits?] at h
      split at h
      · next d tail rest' hd htail =>
        cases h
        calc d * 10 ^ n + tail
            < d * 10 ^ n + 10 ^ n := Nat.add_lt_add_left (ih htail) _
          _ = (d + 1) * 10 ^ n := (Nat.succ_mul d _).symm
          _ ≤ 10 * 10 ^ n := Nat.mul_le_mul_right _ (digit?_lt hd)
          _ = 10 ^ (n + 1) := (Nat.pow_succ').symm
      · contradiction

/-- Whether a time of day has less than a second in microseconds. -/
def Clock.IsFine (time : Clock) : Prop := time.microsecond < Moment.second

theorem isFine_of_fraction? {time found : Clock} {rest : List Char} {complete : Bool}
    (h : fraction? time rest = some (found, complete)) : found.IsFine := by
  unfold fraction? at h
  simp only [Option.bind_eq_bind, Option.bind_eq_some_iff] at h
  obtain ⟨⟨value, more⟩, hdigits, hfound⟩ := h
  cases hfound
  have hvalue := digits?_lt hdigits
  have hwidth : min 6 rest.length ≤ 6 := Nat.min_le_left _ _
  calc value * 10 ^ (6 - min 6 rest.length)
      < 10 ^ min 6 rest.length * 10 ^ (6 - min 6 rest.length) :=
        Nat.mul_lt_mul_of_pos_right hvalue (Nat.pow_pos (by decide))
    _ = Moment.second := by
        rw [← Nat.pow_add, Nat.add_sub_cancel' hwidth]
        rfl

theorem isFine_of_clock? {cs : List Char} {time : Clock} {complete : Bool}
    (h : clock? cs = some (time, complete)) : time.IsFine := by
  have hzero : 0 < Moment.second := by decide
  unfold clock? at h
  simp only [Option.bind_eq_bind, Option.bind_eq_some_iff] at h
  obtain ⟨⟨hour, rest⟩, -, h⟩ := h
  dsimp only at h
  split at h
  · cases h
    exact hzero
  · cases h
    exact hzero
  split at h
  · exact isFine_of_fraction? h
  obtain ⟨⟨minute, rest⟩, -, h⟩ := Option.bind_eq_some_iff.mp h
  dsimp only at h
  split at h
  · cases h
    exact hzero
  · cases h
    exact hzero
  split at h
  · exact isFine_of_fraction? h
  split at h
  · contradiction
  obtain ⟨⟨seconds, rest⟩, -, h⟩ := Option.bind_eq_some_iff.mp h
  dsimp only at h
  split at h
  · cases h
    exact hzero
  · cases h
    exact hzero
  split_ifs at h
  · exact isFine_of_fraction? h
  · exact isFine_of_fraction? h

theorem isFine_of_time? {cs : List Char} {time : Clock} {offset : Option Int}
    (h : time? cs = some (time, offset)) : time.IsFine := by
  unfold time? at h
  dsimp only at h
  split at h
  all_goals
    simp only [Option.bind_eq_bind, Option.bind_eq_some_iff] at h
    obtain ⟨⟨found, complete⟩, hclock, h⟩ := h
    have hfine := isFine_of_clock? hclock
  · split at h
    · cases h
      exact hfine
    · contradiction
  · split at h
    · cases h
      exact hfine
    · contradiction
  · obtain ⟨⟨zone, ends⟩, -, h⟩ := h
    split at h
    · contradiction
    · cases h
      exact hfine

theorem isFine_of_parts? {text : List Char} {date : Date} {time : Clock} {offset : Option Int}
    (h : parts? text = some (date, time, offset)) : time.IsFine := by
  unfold parts? at h
  simp only [Option.bind_eq_bind] at h
  split at h
  · contradiction
  obtain ⟨found, -, h⟩ := Option.bind_eq_some_iff.mp h
  split_ifs at h
  · cases h
    exact (by decide : 0 < Moment.second)
  · obtain ⟨⟨clock, zone⟩, hclock, hfound⟩ := Option.bind_eq_some_iff.mp h
    cases hfound
    exact isFine_of_time? hclock

theorem inCalendar_of_read {text : String} {m : Moment} (h : read text = .ok m) :
    m.InCalendar := by
  unfold read at h
  split at h
  · contradiction
  · next date time offset hparts =>
    split_ifs at h with hoffset
    exact Moment.inCalendar_of_ofFields h (isFine_of_parts? hparts) (by omega)

end Iso

namespace Pattern

theorem number_lt (cs : List Char) : number cs < 10 ^ cs.length := by
  have hdigits : ∀ d ∈ cs.filterMap Text.decimalValue?, d < 10 := by
    intro d hd
    obtain ⟨c, -, hc⟩ := List.mem_filterMap.mp hd
    exact Numeral.decimalValue?_lt hc
  calc number cs < 10 ^ (cs.filterMap Text.decimalValue?).length := Numeral.ofDigits_lt hdigits
    _ ≤ 10 ^ cs.length :=
        Nat.pow_le_pow_right (by decide) (List.length_filterMap_le _ _)

/-- Whether a directive is none of fractions or its choices have at most six digits. -/
def Part.IsFine (part : Part) : Prop :=
  ∀ choices, part = .directive 'f' choices → ∀ choice ∈ choices, choice.length ≤ 6

theorem isFine_of_composite? {name : Char} {several : List Part}
    (h : composite? name = some several) : ∀ part ∈ several, part.IsFine := by
  unfold composite? at h
  dsimp only at h
  split at h
  case h_5 => contradiction
  all_goals
    cases h
    simp [Part.IsFine, plain]

theorem isFine_of_choices? {name : Char} {choices : List (List Class)}
    (h : choices? name = some choices) : (Part.directive name choices).IsFine := by
  intro other heq
  cases heq
  cases h
  decide

theorem isFine_of_parts {pattern : String} {cs : List Char} {list : List Part}
    (h : parts pattern cs = .ok list) : ∀ part ∈ list, part.IsFine := by
  fun_induction parts pattern cs generalizing list with
  | case1 =>
    cases h
    exact List.forall_mem_nil _
  | case2 => contradiction
  | case3 => contradiction
  | case4 name rest _ several hseveral ih =>
    obtain ⟨more, hmore, rfl⟩ := map_eq_ok_iff.mp h
    exact List.forall_mem_append.mpr ⟨isFine_of_composite? hseveral, ih hmore⟩
  | case5 name rest _ choices hchoices _ ih =>
    obtain ⟨more, hmore, rfl⟩ := map_eq_ok_iff.mp h
    exact List.forall_mem_cons.mpr ⟨isFine_of_choices? hchoices, ih hmore⟩
  | case6 => contradiction
  | case7 c rest _ _ ih =>
    obtain ⟨more, hmore, rfl⟩ := map_eq_ok_iff.mp h
    have hfine := ih hmore
    split_ifs
    · split
      · exact hfine
      · exact List.forall_mem_cons.mpr ⟨nofun, hfine⟩
    · exact List.forall_mem_cons.mpr ⟨nofun, hfine⟩

theorem length_take? {classes : List Class} {cs taken rest : List Char}
    (h : take? classes cs = some (taken, rest)) : taken.length = classes.length := by
  induction classes generalizing cs taken with
  | nil =>
    cases h
    rfl
  | cons cls more ih =>
    cases cs with
    | nil => contradiction
    | cons c cs =>
      rw [take?] at h
      split_ifs at h
      obtain ⟨⟨tail, after⟩, htail, hfound⟩ := Option.map_eq_some_iff.mp h
      cases hfound
      rw [List.length_cons, List.length_cons, ih htail]

/-- Whether what was read for a directive is none of a fraction or has at most six digits. -/
def IsFineEntry (entry : Char × List Char) : Prop := entry.1 = 'f' → entry.2.length ≤ 6

theorem isFineEntry_of_fit? {list : List Part} {cs rest : List Char} {found : Found}
    (hlist : ∀ part ∈ list, part.IsFine) (h : fit? list cs = some (found, rest)) :
    ∀ entry ∈ found, IsFineEntry entry := by
  induction list generalizing cs found with
  | nil =>
    cases h
    exact List.forall_mem_nil _
  | cons part more ih =>
    obtain ⟨hpart, hmore⟩ := List.forall_mem_cons.mp hlist
    cases part with
    | literal x =>
      cases cs with
      | nil => contradiction
      | cons c tail =>
        rw [fit?] at h
        split_ifs at h
        exact ih hmore h
    | blanks =>
      rw [fit?] at h
      obtain ⟨i, -, hfit⟩ := List.exists_of_findSome?_eq_some h
      exact ih hmore hfit
    | directive name choices =>
      rw [fit?] at h
      obtain ⟨choice, hchoice, hfit⟩ := List.exists_of_findSome?_eq_some h
      split at hfit
      · contradiction
      · next taken tail htaken =>
        obtain ⟨⟨others, after⟩, hothers, heq⟩ := Option.map_eq_some_iff.mp hfit
        cases heq
        refine List.forall_mem_cons.mpr ⟨?_, ih hmore hothers⟩
        rintro rfl
        rw [length_take? htaken]
        exact hpart choices rfl choice hchoice

theorem microsecond_lt_of_enter {half : Option (List Char)} {fields entered : Fields}
    {entry : Char × List Char} (hentry : IsFineEntry entry)
    (hfields : fields.microsecond < Moment.second) (h : enter half fields entry = .ok entered) :
    entered.microsecond < Moment.second := by
  unfold enter at h
  split at h
  -- only the directive of a fraction sets the microseconds, and that of an offset can fail
  case h_12 =>
    cases h
    have hlength := hentry rfl
    calc number _ * 10 ^ (6 - _)
        < 10 ^ _ * 10 ^ (6 - _) := Nat.mul_lt_mul_of_pos_right (number_lt _) (Nat.pow_pos (by decide))
      _ = Moment.second := by
          rw [← Nat.pow_add, Nat.add_sub_cancel' hlength]
          rfl
  case h_21 =>
    obtain ⟨offset, -, rfl⟩ := map_eq_ok_iff.mp h
    exact hfields
  all_goals
    cases h
    exact hfields

theorem inCalendar_of_read {pattern text : String} {m : Moment} (h : read pattern text = .ok m) :
    m.InCalendar := by
  unfold read at h
  obtain ⟨list, hlist, h⟩ := bind_eq_ok_iff.mp h
  dsimp only at h
  split at h
  · contradiction
  split at h
  · contradiction
  next found rest hfit =>
  split at h
  · contradiction
  obtain ⟨fields, hfields, h⟩ := bind_eq_ok_iff.mp h
  obtain ⟨-, -, h⟩ := bind_eq_ok_iff.mp h
  obtain ⟨date, -, h⟩ := bind_eq_ok_iff.mp h
  split at h
  · contradiction
  next hoffset =>
  split at h
  · next moment hmoment =>
    cases h
    -- six digits at most were read for a fraction, and the fold keeps them below a second
    have hentries := isFineEntry_of_fit? (isFine_of_parts hlist) hfit
    have hmicrosecond : fields.microsecond < Moment.second := by
      refine foldlM_preserves (P := fun fields => fields.microsecond < Moment.second)
        (fun entry hentry _ _ => microsecond_lt_of_enter (hentries entry hentry)) ?_ hfields
      decide
    exact Moment.inCalendar_of_ofFields hmoment hmicrosecond (by omega)
  · contradiction

end Pattern

end Bourse
