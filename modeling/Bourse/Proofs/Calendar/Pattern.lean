import Bourse.Calendar.Pattern
import Bourse.Proofs.Results
import Mathlib.Tactic.SplitIfs

/-! What reading by a pattern can refuse. A directive that occurs twice is a fault of the pattern
alone: no text matters for it, and every other fault belongs to the text or is a directive that does
not exist. -/
namespace Bourse.Pattern

/-- Whether a pattern names no directive twice. -/
def NamesOnce (pattern : String) : Prop :=
  ∀ list, parts pattern pattern.toList = .ok list → repeated? list = none

/-- Whether a fault is none of a directive that occurs twice. -/
def Fault.IsOther (fault : Fault) : Prop := ∀ name, fault ≠ .repeated name

theorem failsWithin_parts (pattern : String) (cs : List Char) :
    FailsWithin Fault.IsOther (parts pattern cs) := by
  fun_induction parts pattern cs with
  | case1 => exact failsWithin_ok []
  | case2 => exact failsWithin_error nofun
  | case3 => exact failsWithin_error nofun
  | case4 name rest _ several _ ih => exact ih.map _
  | case5 name rest _ choices _ _ ih => exact ih.map _
  | case6 => exact failsWithin_error nofun
  | case7 c rest _ _ ih => exact ih.map _

theorem failsWithin_zone (cs : List Char) : FailsWithin Fault.IsOther (zone cs) := by
  unfold zone
  split
  · exact failsWithin_ok 0
  · extract_lets digits whole hours
    split
    · -- minutes end the text, or a colon and seconds follow them
      split
      · exact failsWithin_ok _
      · exact failsWithin_ok _
      · exact failsWithin_error nofun
    · split
      · exact failsWithin_error nofun
      · exact failsWithin_ok _

theorem failsWithin_enter (half : Option (List Char)) (fields : Fields) (read : Char × List Char) :
    FailsWithin Fault.IsOther (enter half fields read) := by
  unfold enter
  split
  -- only an offset can be refused
  case h_21 => exact (failsWithin_zone _).map _
  all_goals exact failsWithin_ok _

theorem failsWithin_check (fields : Fields) : FailsWithin Fault.IsOther fields.check := by
  unfold Fields.check
  split_ifs
  all_goals first
    | exact failsWithin_ok ()
    | exact failsWithin_error nofun

theorem failsWithin_newYear (year : Nat) : FailsWithin Fault.IsOther (newYear year) := by
  unfold newYear
  split_ifs
  · exact failsWithin_error nofun
  · exact failsWithin_ok _

theorem failsWithin_dayInYear (fields : Fields) (year : Nat) :
    FailsWithin Fault.IsOther (fields.dayInYear year) := by
  unfold Fields.dayInYear
  split
  · exact failsWithin_ok _
  · exact failsWithin_ok _
  · extract_lets settle
    have hsettle : ∀ found, FailsWithin Fault.IsOther (settle found) := by
      rintro ⟨year, day⟩
      simp only [settle]
      split
      · exact failsWithin_ok _
      · exact failsWithin_ok _
    clear_value settle
    split
    · refine (failsWithin_newYear _).bind fun first _ => ?_
      rw [pure_bind]
      exact hsettle _
    · refine (failsWithin_newYear _).bind fun first _ => ?_
      extract_lets correction day
      split
      · refine (failsWithin_newYear _).bind fun before _ => ?_
        rw [pure_bind]
        exact hsettle _
      · rw [pure_bind]
        exact hsettle _
    · exact failsWithin_ok _

theorem failsWithin_date (fields : Fields) : FailsWithin Fault.IsOther fields.date := by
  unfold Fields.date
  extract_lets leapDay assumed settle
  have hsettle : ∀ date, FailsWithin Fault.IsOther (settle date) := by
    intro date
    simp only [settle]
    split
    · exact failsWithin_error nofun
    · exact failsWithin_ok _
  refine (failsWithin_dayInYear fields _).bind fun (year, day) _ => ?_
  cases day with
  | some day => exact (failsWithin_newYear year).bind fun first _ => hsettle _
  | none =>
    cases hfields : Moment.ofFields ⟨year, fields.month, fields.day⟩ 0 0 0 0 none with
    | ok m =>
      simp only [hfields]
      exact hsettle _
    | error fault =>
      simp only [hfields]
      exact failsWithin_error nofun

/-- A pattern that names no directive twice is at no fault but one that a report covers. -/
theorem failsWithin_read {pattern : String} (text : String) (h : NamesOnce pattern) :
    FailsWithin Fault.IsOther (read pattern text) := by
  unfold read
  refine (failsWithin_parts pattern _).bind fun list hlist => ?_
  rw [h list hlist]
  cases fit? list text.toList with
  | none => exact failsWithin_error nofun
  | some fitted =>
    obtain ⟨found, rest⟩ := fitted
    change FailsWithin _ (if _ then _ else _)
    split
    · exact failsWithin_error nofun
    · refine (FailsWithin.foldlM (failsWithin_enter _) found _).bind fun fields _ => ?_
      refine (failsWithin_check fields).bind fun _ _ => ?_
      refine (failsWithin_date fields).bind fun date _ => ?_
      extract_lets offset settle
      split
      · exact failsWithin_error nofun
      · simp only [settle]
        split
        · exact failsWithin_ok _
        · exact failsWithin_error nofun

end Bourse.Pattern
