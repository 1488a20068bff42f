import Bourse.Calendar.Date
import Mathlib.Tactic.IntervalCases
import Mathlib.Tactic.SplitIfs

/-! Dates and their numbers. The number of a day is that of the first day of its year, the days of
the months before and the days of the month before it; taking these off one after another gives a
date of the calendar, and its number is the one to begin with. -/
namespace Bourse.Date

/-- The dates of the calendar. -/
structure IsValid (date : Date) : Prop where
  year_pos : 1 ≤ date.year
  year_le : date.year ≤ lastYear
  month_pos : 1 ≤ date.month
  month_le : date.month ≤ 12
  day_pos : 1 ≤ date.day
  day_le : date.day ≤ daysInMonth date.year date.month

/-- The days of a year. -/
def daysInYear (year : Nat) : Nat := if isLeap year then 366 else 365

/-- A date of the calendar fits into four digits of the year and two each of month and day. -/
theorem IsValid.fits {date : Date} (h : date.IsValid) :
    date.year < 10000 ∧ date.month < 100 ∧ date.day < 100 := by
  have hlast : lastYear = 9999 := rfl
  have hdays : daysInMonth date.year date.month ≤ 31 := by
    unfold daysInMonth
    split_ifs <;> decide
  obtain ⟨-, hyear, -, hmonth, -, hday⟩ := h
  omega

/-! Months -/

theorem daysBeforeMonth_one (year : Nat) : daysBeforeMonth year 1 = 0 := rfl

theorem daysBeforeMonth_succ (year : Nat) {month : Nat} (hpos : 1 ≤ month) (hle : month < 12) :
    daysBeforeMonth year (month + 1) = daysBeforeMonth year month + daysInMonth year month := by
  cases hleap : isLeap year <;> interval_cases month <;>
    simp [daysBeforeMonth, daysBeforeMonths, daysInMonth, hleap]

theorem daysBeforeMonth_last (year : Nat) :
    daysBeforeMonth year 12 + daysInMonth year 12 = daysInYear year := by
  cases hleap : isLeap year <;>
    simp [daysBeforeMonth, daysBeforeMonths, daysInMonth, daysInYear, hleap]

/-- The month of a day begins at or before it, and the months behind begin later. -/
theorem monthOf_spec (year dayOfYear : Nat) {bound : Nat} (hbound : 1 ≤ bound) :
    1 ≤ monthOf year dayOfYear bound ∧ monthOf year dayOfYear bound ≤ bound ∧
      daysBeforeMonth year (monthOf year dayOfYear bound) ≤ dayOfYear ∧
      ∀ month, monthOf year dayOfYear bound < month → month ≤ bound →
        dayOfYear < daysBeforeMonth year month := by
  -- the search goes down from the bound, so it stops at the last month that has begun
  induction bound with
  | zero => contradiction
  | succ month ih =>
    rw [monthOf]
    split_ifs with hbegun
    · exact ⟨Nat.le_add_left 1 month, Nat.le_refl _, hbegun, fun _ hlt hle => by omega⟩
    · rcases Nat.eq_zero_or_pos month with rfl | hpos
      · rw [Nat.zero_add, daysBeforeMonth_one] at hbegun
        exact absurd (Nat.zero_le _) hbegun
      · obtain ⟨hone, hmost, hstart, hlater⟩ := ih hpos
        refine ⟨hone, Nat.le_succ_of_le hmost, hstart, fun later hlt hle => ?_⟩
        rcases Nat.eq_or_lt_of_le hle with rfl | hless
        · exact Nat.lt_of_not_le hbegun
        · exact hlater later hlt (Nat.le_of_lt_succ hless)

theorem lt_daysInMonth_monthOf {year dayOfYear : Nat} (h : dayOfYear < daysInYear year) :
    dayOfYear - daysBeforeMonth year (monthOf year dayOfYear 12) <
      daysInMonth year (monthOf year dayOfYear 12) := by
  obtain ⟨hone, hmost, hstart, hlater⟩ := monthOf_spec year dayOfYear (by decide : 1 ≤ 12)
  rcases Nat.eq_or_lt_of_le hmost with hlast | hless
  · have hlength := daysBeforeMonth_last year
    rw [hlast] at hstart ⊢
    omega
  · have hlength := daysBeforeMonth_succ year hone hless
    have hnext := hlater _ (Nat.lt_add_one _) hless
    omega

/-! Years -/

section Spans

variable {a b c d : Nat}

theorem daysBeforeYear_of_spans (hb : b ≤ 3) (hc : c ≤ 24) (hd : d ≤ 3) :
    daysBeforeYear (a * 400 + b * 100 + c * 4 + d + 1) =
      a * 146097 + b * 36524 + c * 1461 + d * 365 := by
  rw [daysBeforeYear, Nat.add_sub_cancel]
  omega

theorem isLeap_of_spans (hb : b ≤ 3) (hc : c ≤ 24) (hd : d ≤ 3) :
    isLeap (a * 400 + b * 100 + c * 4 + d + 1) = true ↔ d = 3 ∧ (c < 24 ∨ b = 3) := by
  simp only [isLeap, Bool.and_eq_true, Bool.or_eq_true, beq_iff_eq, bne_iff_ne, ne_eq]
  omega

end Spans

/-- A number leads to a year that begins at or before it, and to a day of that year. -/
theorem exists_year (n : Nat) : ∃ year dayOfYear, 1 ≤ year ∧ daysBeforeYear year + dayOfYear = n ∧
    dayOfYear < daysInYear year ∧
    ofNumber n = ⟨year, monthOf year dayOfYear 12,
      dayOfYear - daysBeforeMonth year (monthOf year dayOfYear 12) + 1⟩ := by
  refine ⟨_, _, ?_, ?_, ?_, rfl⟩
  · exact Nat.le_add_left 1 _
  all_goals
    -- the spans and what is left after each of them
    generalize ha : n / 146097 = a
    generalize hn₁ : n % 146097 = n₁
    generalize hb : min 3 (n₁ / 36524) = b
    generalize hn₂ : n₁ - b * 36524 = n₂
    generalize hc : n₂ / 1461 = c
    generalize hn₃ : n₂ % 1461 = n₃
    generalize hd : min 3 (n₃ / 365) = d
    have hb₃ : b ≤ 3 := by omega
    have hc₂₄ : c ≤ 24 := by omega
    have hd₃ : d ≤ 3 := by omega
  · rw [daysBeforeYear_of_spans hb₃ hc₂₄ hd₃]
    omega
  · simp only [daysInYear, isLeap_of_spans hb₃ hc₂₄ hd₃]
    split_ifs
    · omega
    · omega

theorem number_ofNumber (n : Nat) : (ofNumber n).number = n := by
  obtain ⟨year, dayOfYear, -, hn, -, hdate⟩ := exists_year n
  obtain ⟨-, -, hstart, -⟩ := monthOf_spec year dayOfYear (by decide : 1 ≤ 12)
  rw [hdate]
  simp only [number]
  omega

theorem isValid_ofNumber {n : Nat} (h : n < count) : (ofNumber n).IsValid := by
  obtain ⟨year, dayOfYear, hyear, hn, hday, hdate⟩ := exists_year n
  obtain ⟨hone, hmost, -, -⟩ := monthOf_spec year dayOfYear (by decide : 1 ≤ 12)
  have hmonth := lt_daysInMonth_monthOf hday
  have hlast : year ≤ lastYear := by
    have hcount : count = 3652059 := rfl
    have hlastYear : lastYear = 9999 := rfl
    simp only [daysBeforeYear] at hn
    omega
  rw [hdate]
  exact ⟨hyear, hlast, hone, hmost, Nat.le_add_left 1 _, hmonth⟩

end Bourse.Date
