import Bourse.Calendar.Iso
import Bourse.Proofs.Calendar.Timestamp
import Bourse.Proofs.Number.Places

/-! Texts of dates and times and their reading. Padded fields have a fixed width, so each is read as
the number it was written from, and a full minute is read back from its text. -/
namespace Bourse

open Numeral

namespace Iso

theorem digit?_of_isDigit {c : Char} (h : c.isDigit = true) : digit? c = some (c.toNat - 48) := by
  rw [digit?, if_pos (Text.range_of_isDigit h)]

/-- As many digits as there are in front are read, and what follows them is left. -/
theorem digits?_append {digits : List Char} (h : ∀ c ∈ digits, c.isDigit = true)
    (rest : List Char) :
    digits? digits.length (digits ++ rest) = some (Nat.ofDigitChars 10 digits 0, rest) := by
  induction digits with
  | nil => rfl
  | cons c more ih =>
    obtain ⟨hc, hmore⟩ := List.forall_mem_cons.mp h
    -- the first digit counts as often as the power of ten for the digits behind it says
    have hvalue : Nat.ofDigitChars 10 (c :: more) 0 =
        (c.toNat - 48) * Nat.pow 10 more.length + Nat.ofDigitChars 10 more 0 := by
      have hzero : '0'.toNat = 48 := rfl
      rw [Nat.ofDigitChars_cons, Nat.ofDigitChars_eq_ofDigitChars_zero, Nat.mul_zero, Nat.zero_add,
        hzero, Nat.mul_comm, Nat.pow_eq]
    rw [List.length_cons, List.cons_append, digits?, digit?_of_isDigit hc, ih hmore, hvalue]

end Iso

namespace Moment

theorem toList_padded (width n : Nat) :
    (padded width n).toList = Layout.padZeros width (Layout.digitsOf n) := by
  rw [padded, String.toList_ofList]

theorem isDigit_of_mem_padded (width n : Nat) :
    ∀ c ∈ (padded width n).toList, c.isDigit = true := by
  rw [toList_padded]
  exact isDigit_of_mem_padZeros isDigit_of_mem_digitsOf

theorem length_padded {width n : Nat} (hwidth : 0 < width) (h : n < 10 ^ width) :
    (padded width n).toList.length = width := by
  rw [toList_padded, Layout.length_padZeros]
  exact max_eq_left (Layout.length_digitsOf_le hwidth h)

/-- A padded number is read from as many characters as its width says. -/
theorem digits?_padded {width n : Nat} (hwidth : 0 < width) (h : n < 10 ^ width)
    (rest : List Char) : Iso.digits? width ((padded width n).toList ++ rest) = some (n, rest) := by
  have hread := Iso.digits?_append (isDigit_of_mem_padded width n) rest
  have hvalue : Nat.ofDigitChars 10 (padded width n).toList 0 = n := by
    rw [toList_padded, Layout.padZeros, Nat.ofDigitChars_append, Nat.ofDigitChars_replicate_zero,
      Nat.mul_zero]
    exact Nat.ofDigitChars_ten_toDigits
  rwa [length_padded hwidth h, hvalue] at hread

theorem exists_padded_two {n : Nat} (h : n < 100) :
    ∃ a b, (padded 2 n).toList = [a, b] ∧ a.isDigit = true ∧ b.isDigit = true := by
  obtain ⟨a, b, htext⟩ := List.length_eq_two.mp (length_padded (by decide : 0 < 2) h)
  have hdigits := isDigit_of_mem_padded 2 n
  rw [htext] at hdigits
  exact ⟨a, b, htext, hdigits a (by simp), hdigits b (by simp)⟩

theorem toList_dateText (date : Date) : (dateText date).toList =
    (padded 4 date.year).toList ++
      '-' :: ((padded 2 date.month).toList ++ '-' :: (padded 2 date.day).toList) := by
  simp [dateText]

end Moment

namespace Iso

open Moment

variable {date : Date}

theorem date?_dateText (hyear : date.year < 10000) (hmonth : date.month < 100)
    (hday : date.day < 100) : date? (dateText date).toList = some date := by
  obtain ⟨a, b, hmonthText, hdigit, -⟩ := exists_padded_two hmonth
  have hweek : a ≠ 'W' := Text.ne_of_isDigit hdigit rfl
  have hyearRead := digits?_padded (by decide : 0 < 4) hyear
    ('-' :: ((padded 2 date.month).toList ++ '-' :: (padded 2 date.day).toList))
  have hmonthRead := digits?_padded (by decide : 0 < 2) hmonth
    ('-' :: (padded 2 date.day).toList)
  have hdayRead := digits?_padded (by decide : 0 < 2) hday []
  rw [List.append_nil] at hdayRead
  rw [hmonthText, List.cons_append, List.cons_append, List.nil_append] at hmonthRead
  rw [date?, toList_dateText, hyearRead, hmonthText]
  simp [hweek, hmonthRead, hdayRead]

theorem length_dateText (hyear : date.year < 10000) (hmonth : date.month < 100)
    (hday : date.day < 100) : (dateText date).toList.length = 10 := by
  rw [toList_dateText]
  simp [length_padded (by decide : 0 < 4) hyear, length_padded (by decide : 0 < 2) hmonth,
    length_padded (by decide : 0 < 2) hday]

variable {hour minute : Nat}

/-- Hours and minutes as they are written. -/
def minuteChars (hour minute : Nat) : List Char :=
  (padded 2 hour).toList ++ ':' :: (padded 2 minute).toList

theorem length_minuteChars (hhour : hour < 100) (hminute : minute < 100) :
    (minuteChars hour minute).length = 5 := by
  rw [minuteChars, List.length_append, List.length_cons, length_padded (by decide : 0 < 2) hhour,
    length_padded (by decide : 0 < 2) hminute]

theorem clock?_minuteChars (hhour : hour < 100) (hminute : minute < 100) :
    clock? (minuteChars hour minute) = some ({ hour, minute }, true) := by
  obtain ⟨a, b, hminuteText, -, -⟩ := exists_padded_two hminute
  have hhourRead := digits?_padded (by decide : 0 < 2) hhour [':', a, b]
  have hminuteRead := digits?_padded (by decide : 0 < 2) hminute []
  rw [hminuteText, List.append_nil] at hminuteRead
  rw [minuteChars, hminuteText]
  simp [clock?, hhourRead, hminuteRead]

/-- No character of the time begins an offset. -/
theorem takeWhile_minuteChars (hour minute : Nat) :
    (minuteChars hour minute).takeWhile (fun c => !(c == '+' || c == '-' || c == 'Z')) =
      minuteChars hour minute := by
  have hdigit (c : Char) (hc : c.isDigit = true) :
      (!(c == '+' || c == '-' || c == 'Z')) = true := by
    simp [Text.ne_of_isDigit hc (rfl : '+'.isDigit = false),
      Text.ne_of_isDigit hc (rfl : '-'.isDigit = false),
      Text.ne_of_isDigit hc (rfl : 'Z'.isDigit = false)]
  rw [List.takeWhile_eq_self_iff, minuteChars, List.forall_mem_append, List.forall_mem_cons]
  exact ⟨fun c hc => hdigit c (isDigit_of_mem_padded 2 hour c hc), by decide,
    fun c hc => hdigit c (isDigit_of_mem_padded 2 minute c hc)⟩

theorem time?_minuteChars (hhour : hour < 100) (hminute : minute < 100) :
    time? (minuteChars hour minute) = some ({ hour, minute }, none) := by
  unfold time?
  dsimp only
  rw [takeWhile_minuteChars, List.drop_length]
  simp only [clock?_minuteChars hhour hminute, Option.bind_eq_bind, Option.bind_some, if_true]

/-- With hyphens around the month the date takes ten characters. -/
theorem dateLength_of_hyphen {year : List Char} {c : Char} {rest : List Char}
    (hyear : year.length = 4) (hc : c ≠ 'W') (hrest : rest.length ≠ 1) :
    dateLength (year ++ '-' :: c :: rest) = 10 := by
  have hlength : (year ++ '-' :: c :: rest).length ≠ 7 := by
    rw [List.length_append, List.length_cons, List.length_cons]
    omega
  have hfour : (year ++ '-' :: c :: rest).getD 4 '\x00' = '-' := by
    rw [List.getD_append_right _ _ _ _ (by omega), hyear]
    rfl
  have hfive : (year ++ '-' :: c :: rest).getD 5 '\x00' ≠ 'W' := by
    rw [List.getD_append_right _ _ _ _ (by omega), hyear]
    exact hc
  unfold dateLength
  dsimp only
  rw [if_neg hlength, if_pos hfour, if_neg hfive]

/-- A date and a time without seconds are read from their text. -/
theorem parts?_of_minute (separator : Char) (hyear : date.year < 10000) (hmonth : date.month < 100)
    (hday : date.day < 100) (hhour : hour < 100) (hminute : minute < 100) :
    parts? ((dateText date).toList ++ separator :: minuteChars hour minute) =
      some (date, { hour, minute }, none) := by
  have hdateLength := length_dateText hyear hmonth hday
  have htimeLength := length_minuteChars hhour hminute
  have hwidth :
      dateLength ((dateText date).toList ++ separator :: minuteChars hour minute) = 10 := by
    obtain ⟨a, b, hmonthText, ha, -⟩ := exists_padded_two hmonth
    have hweek : a ≠ 'W' := Text.ne_of_isDigit ha rfl
    rw [toList_dateText, hmonthText, List.append_assoc]
    apply dateLength_of_hyphen (length_padded (by decide) hyear) hweek
    simp [htimeLength]
  have hlength : ((dateText date).toList ++ separator :: minuteChars hour minute).length = 16 := by
    rw [List.length_append, List.length_cons, hdateLength, htimeLength]
  have htake : ((dateText date).toList ++ separator :: minuteChars hour minute).take 10 =
      (dateText date).toList := List.take_left' hdateLength
  have hdrop : ((dateText date).toList ++ separator :: minuteChars hour minute).drop (10 + 1) =
      minuteChars hour minute := by
    rw [← List.drop_drop, List.drop_left' hdateLength]
    rfl
  simp [parts?, hlength, hwidth, htake, hdrop, date?_dateText hyear hmonth hday,
    time?_minuteChars hhour hminute]

end Iso

namespace Moment

open Iso

variable {m : Moment}

theorem ofFields_eq_ok {date : Date} {hour minute seconds : Nat} (hdate : date.IsValid)
    (hhour : hour ≤ 23) (hminute : minute ≤ 59) (hseconds : seconds ≤ 59) (microsecond : Nat)
    (offset : Option Int) : ofFields date hour minute seconds microsecond offset =
      .ok ⟨date.number * day + ((hour * 60 + minute) * 60 + seconds) * second + microsecond,
        offset⟩ := by
  obtain ⟨hyearPos, hyearLe, hmonthPos, hmonthLe, hdayPos, hdayLe⟩ := hdate
  rw [ofFields, if_neg (by omega), if_neg (by omega), if_neg (by omega), if_neg (by omega),
    if_neg (by omega), if_neg (by omega)]

/-- A year of four digits needs no padding. -/
theorem integer_eq_padded {year : Nat} (h : 1000 ≤ year) :
    Layout.integer (year : Int) = padded 4 year := by
  have hlength : ¬(Layout.digitsOf year).length ≤ 3 := by
    rw [Layout.digitsOf, Nat.length_toDigits_le_iff (by decide) (by decide)]
    omega
  have hzeros : 4 - (Layout.digitsOf year).length = 0 := by omega
  have hsign : ¬(year : Int) < 0 := by omega
  rw [Layout.integer, padded, Layout.padZeros, if_neg hsign, Int.natAbs_natCast, hzeros]
  rfl

def hourOf (m : Moment) : Nat := m.timeOfDay / (60 * second) / 60

def minuteOf (m : Moment) : Nat := m.timeOfDay / (60 * second) % 60

theorem hourOf_le (m : Moment) : m.hourOf ≤ 23 := by
  have hday : day = 86400000000 := rfl
  have hsecond : second = 1000000 := rfl
  rw [hourOf, timeOfDay, hday, hsecond]
  omega

theorem minuteOf_le (m : Moment) : m.minuteOf ≤ 59 := by
  rw [minuteOf]
  omega

theorem toList_minuteText (hyear : 1000 ≤ m.date.year) :
    m.minuteText.toList = (dateText m.date).toList ++ ' ' :: minuteChars m.hourOf m.minuteOf := by
  have hdate : plainDate m.date = dateText m.date := by
    rw [plainDate, dateText, integer_eq_padded hyear]
  rw [minuteText, hdate, minuteChars, hourOf, minuteOf]
  simp [toString]

/-- A full minute is read back from its text. -/
theorem read_minuteText (hclock : m.clock < limit) (hyear : 1000 ≤ m.date.year)
    (hfull : 60 * second ∣ m.clock) : Iso.read m.minuteText = .ok ⟨m.clock, none⟩ := by
  have hday : day = 86400000000 := rfl
  have hsecond : second = 1000000 := rfl
  have hvalid := isValid_date hclock
  obtain ⟨hyearFits, hmonthFits, hdayFits⟩ := hvalid.fits
  have hhour := m.hourOf_le
  have hminute := m.minuteOf_le
  have hnumber : m.date.number = m.clock / day := Date.number_ofNumber _
  -- on a full minute the date, the hour and the minute say all there is
  have hback : m.clock / day * day + ((m.hourOf * 60 + m.minuteOf) * 60 + 0) * second + 0 =
      m.clock := by
    rw [hsecond] at hfull
    rw [hourOf, minuteOf, timeOfDay, hday, hsecond]
    omega
  have hparts : parts? m.minuteText.toList =
      some (m.date, { hour := m.hourOf, minute := m.minuteOf }, none) := by
    rw [toList_minuteText hyear]
    exact parts?_of_minute ' ' hyearFits hmonthFits hdayFits (by omega) (by omega)
  have hoffset : ¬(day : Int) ≤ ((none : Option Int).getD 0).natAbs := by decide
  rw [Iso.read, hparts]
  dsimp only
  rw [if_neg hoffset, ofFields_eq_ok hvalid hhour hminute (by decide), hnumber, hback]

/-! The characters of a minute -/

theorem length_minuteText (hclock : m.clock < limit) (hyear : 1000 ≤ m.date.year) :
    m.minuteText.toList.length = 16 := by
  obtain ⟨hyearFits, hmonthFits, hdayFits⟩ := (isValid_date hclock).fits
  have hhour := m.hourOf_le
  have hminute := m.minuteOf_le
  rw [toList_minuteText hyear, List.length_append, List.length_cons,
    length_dateText hyearFits hmonthFits hdayFits, length_minuteChars (by omega) (by omega)]

/-- Whether a character can stand in the text of a minute. -/
def IsMinuteChar (c : Char) : Prop := c.isDigit = true ∨ c ∈ ['-', ' ', ':']

theorem isMinuteChar_of_mem (hyear : 1000 ≤ m.date.year) :
    ∀ c ∈ m.minuteText.toList, IsMinuteChar c := by
  have hpadded (width n : Nat) : ∀ c ∈ (padded width n).toList, IsMinuteChar c :=
    fun c hc => .inl (isDigit_of_mem_padded width n c hc)
  have hmark (c : Char) (hc : c ∈ ['-', ' ', ':']) : IsMinuteChar c := .inr hc
  rw [toList_minuteText hyear, toList_dateText, minuteChars]
  simp only [List.forall_mem_append, List.forall_mem_cons]
  exact ⟨⟨hpadded _ _, hmark _ (by decide), hpadded _ _, hmark _ (by decide), hpadded _ _⟩,
    hmark _ (by decide), hpadded _ _, hmark _ (by decide), hpadded _ _⟩

/-- The text of a minute begins and ends with digits, and a blank stands in it. -/
theorem exists_minuteText (hclock : m.clock < limit) (hyear : 1000 ≤ m.date.year) :
    ∃ first inner last, m.minuteText.toList = first :: (inner ++ [last]) ∧
      first.isDigit = true ∧ last.isDigit = true ∧ ' ' ∈ inner := by
  have hminute := m.minuteOf_le
  obtain ⟨c, d, hminuteText, -, hd⟩ := exists_padded_two (n := m.minuteOf) (by omega)
  have hyearLength := length_padded (by decide : 0 < 4) (isValid_date hclock).fits.1
  obtain ⟨a, more, hyearText⟩ : ∃ a more, (padded 4 m.date.year).toList = a :: more := by
    apply List.exists_cons_of_ne_nil
    rw [← List.length_pos_iff, hyearLength]
    decide
  have ha : a.isDigit = true := by
    apply isDigit_of_mem_padded 4 m.date.year
    rw [hyearText]
    exact List.mem_cons_self
  refine ⟨a, more ++
    '-' :: ((padded 2 m.date.month).toList ++ '-' :: (padded 2 m.date.day).toList) ++
    ' ' :: ((padded 2 m.hourOf).toList ++ [':', c]), d, ?_, ha, hd, ?_⟩
  · rw [toList_minuteText hyear, toList_dateText, hyearText, minuteChars, hminuteText]
    simp
  · exact List.mem_append_right _ List.mem_cons_self

end Moment

end Bourse
