import Bourse.Proofs.Lists
import Bourse.Text.Case
import Bourse.Text.Classes

/-! Letters, digits and lower case. The letters here are those of ASCII, so a letter is no digit
and no blank of any script. No digit of any script has a lower case of its own, so in a text of
ASCII characters and digits lower case changes the letters and nothing else. -/
namespace Bourse.Text

theorem toNat_of_isLetter {c : Char} (h : isLetter c = true) :
    65 ≤ c.toNat ∧ c.toNat ≤ 90 ∨ 97 ≤ c.toNat ∧ c.toNat ≤ 122 := by
  simp only [isLetter, Bool.or_eq_true, Bool.and_eq_true, decide_eq_true_eq, Char.le_def,
    UInt32.le_iff_toNat_le] at h
  exact h.symm

theorem trimRight_eq_self {text : List Char} (h : text.getLast?.any isBlank = false) :
    trimRight text = text := by
  rw [← List.head?_reverse] at h
  have hstop : trimLeft text.reverse = text.reverse := dropWhile_eq_self_of_head? h
  rw [trimRight, hstop, List.reverse_reverse]

/-- A text that begins and ends without blanks is trimmed already. -/
theorem trim_eq_self {text : List Char} (hfirst : text.head?.any isBlank = false)
    (hlast : text.getLast?.any isBlank = false) : trim text = text := by
  have hleft : trimLeft text = text := dropWhile_eq_self_of_head? hfirst
  rw [trim, hleft, trimRight_eq_self hlast]

theorem isBlank_space : isBlank ' ' = true := by
  decide +kernel

theorem toNat_of_isDigit_ascii {c : Char} (h : isDigit c = true) (hc : c.toNat < 128) :
    48 ≤ c.toNat ∧ c.toNat ≤ 57 := by
  have hlone : ∀ code < 128, inRanges loneDigitRanges code = false := by
    decide +kernel
  rw [isDigit, hlone _ hc, Bool.or_false, decimalValue?, if_pos hc, Option.isSome_ite, Char.le_def,
    Char.le_def, UInt32.le_iff_toNat_le, UInt32.le_iff_toNat_le] at h
  exact h

theorem isBlank_of_mark {c : Char} (hlow : 33 ≤ c.toNat) (hhigh : c.toNat < 128) :
    isBlank c = false := by
  have hcodes : ∀ code < 128, 33 ≤ code → inRanges blankRanges code = false := by
    decide +kernel
  exact hcodes c.toNat hhigh hlow

theorem isBlank_of_isLetter {c : Char} (h : isLetter c = true) : isBlank c = false := by
  have := toNat_of_isLetter h
  exact isBlank_of_mark (by omega) (by omega)

theorem isDigit_of_isLetter {c : Char} (h : isLetter c = true) : isDigit c = false := by
  have := toNat_of_isLetter h
  by_contra hdigit
  rw [Bool.not_eq_false] at hdigit
  have := toNat_of_isDigit_ascii hdigit (by omega)
  omega

/-- The ranges of code points that hold every digit outside of ASCII. -/
def digitRanges : List (Nat × Nat) :=
  zeroCodes.toList.map (fun first => (first, first + 9)) ++ loneDigitRanges.toList

theorem exists_digitRange {c : Char} (h : isDigit c = true) (hc : ¬c.toNat < 128) :
    ∃ range ∈ digitRanges, range.1 ≤ c.toNat ∧ c.toNat ≤ range.2 := by
  -- decimal digits come in tens, the others in ranges of their own
  rcases Bool.or_eq_true _ _ ▸ h with hdecimal | hlone
  · rw [decimalValue?, if_neg hc, Option.isSome_map, Option.isSome_iff_exists] at hdecimal
    obtain ⟨first, hfirst⟩ := hdecimal
    have hrange := Array.find?_some hfirst
    simp only [Bool.and_eq_true, decide_eq_true_eq] at hrange
    have hmem := Array.mem_of_find?_eq_some hfirst
    refine ⟨(first, first + 9), List.mem_append_left _ ?_, hrange⟩
    exact List.mem_map.mpr ⟨first, Array.mem_toList_iff.mpr hmem, rfl⟩
  · rw [inRanges, ← Array.any_toList, List.any_eq_true] at hlone
    obtain ⟨range, hmem, hrange⟩ := hlone
    simp only [Bool.and_eq_true, decide_eq_true_eq] at hrange
    exact ⟨range, List.mem_append_right _ hmem, hrange⟩

/-- No range of blanks meets a range of digits. -/
theorem blankRanges_apart_digitRanges : ∀ range ∈ digitRanges, ∀ blanks ∈ blankRanges.toList,
    range.2 < blanks.1 ∨ blanks.2 < range.1 := by
  have hall : (digitRanges.all fun range => blankRanges.toList.all fun blanks =>
      Nat.blt range.2 blanks.1 || Nat.blt blanks.2 range.1) = true := by
    decide
  intro range hrange blanks hblanks
  have hapart := List.all_eq_true.mp (List.all_eq_true.mp hall range hrange) blanks hblanks
  simpa only [Bool.or_eq_true, Nat.blt_eq] using hapart

theorem isBlank_of_isDigit {c : Char} (h : isDigit c = true) : isBlank c = false := by
  by_cases hc : c.toNat < 128
  · have := toNat_of_isDigit_ascii h hc
    exact isBlank_of_mark (by omega) hc
  · obtain ⟨range, hrange, hlow, hhigh⟩ := exists_digitRange h hc
    rw [isBlank, inRanges, ← Array.any_toList, List.any_eq_false]
    intro blanks hblanks
    have := blankRanges_apart_digitRanges range hrange blanks hblanks
    simp only [Bool.and_eq_true, decide_eq_true_eq]
    omega

theorem isLetter_of_isBlank {c : Char} (h : isBlank c = true) : isLetter c = false := by
  by_contra hletter
  rw [isBlank_of_isLetter (by simpa using hletter)] at h
  contradiction

theorem isDigit_of_isBlank {c : Char} (h : isBlank c = true) : isDigit c = false := by
  by_contra hdigit
  rw [isBlank_of_isDigit (by simpa using hdigit)] at h
  contradiction

/-- No run of letters with a lower case meets a range of digits. -/
theorem lowerRuns_apart_digitRanges : ∀ range ∈ digitRanges, ∀ run ∈ lowerRuns.toList,
    range.2 < run.1 ∨ run.2.1 < range.1 := by
  have hall : (digitRanges.all fun range => lowerRuns.toList.all fun run =>
      Nat.blt range.2 run.1 || Nat.blt run.2.1 range.1) = true := by
    decide +kernel
  intro range hrange run hrun
  have hapart := List.all_eq_true.mp (List.all_eq_true.mp hall range hrange) run hrun
  simpa only [Bool.or_eq_true, Nat.blt_eq] using hapart

theorem shiftInRuns?_of_isDigit {c : Char} (h : isDigit c = true) (hc : ¬c.toNat < 128) :
    shiftInRuns? lowerRuns c.toNat = none := by
  obtain ⟨range, hrange, hlow, hhigh⟩ := exists_digitRange h hc
  rw [shiftInRuns?, Option.map_eq_none_iff, Array.find?_eq_none]
  rintro ⟨first, last, step, shift⟩ hrun
  have hapart : range.2 < first ∨ last < range.1 :=
    lowerRuns_apart_digitRanges range hrange _ (Array.mem_toList_iff.mpr hrun)
  simp only [Bool.and_eq_true, decide_eq_true_eq]
  omega

theorem toNat_ne_of_isDigit {c : Char} (h : isDigit c = true) (hc : ¬c.toNat < 128) :
    c.toNat ≠ 0x130 ∧ c.toNat ≠ 0x3a3 := by
  -- the capital with a dot and the sigma have lower cases that need more than a shift
  have hcodes : ∀ range ∈ digitRanges,
      (0x130 < range.1 ∨ range.2 < 0x130) ∧ (0x3a3 < range.1 ∨ range.2 < 0x3a3) := by
    decide
  obtain ⟨range, hrange, hlow, hhigh⟩ := exists_digitRange h hc
  have := hcodes range hrange
  omega

theorem toLower_of_not_lt {c : Char} (hc : ¬c.toNat < 128) : c.toLower = c := by
  refine dif_neg ?_
  rintro ⟨-, hle⟩
  rw [UInt32.le_iff_toNat_le] at hle
  change c.toNat ≤ 90 at hle
  omega

theorem toLower_of_not_isLetter {c : Char} (h : isLetter c = false) : c.toLower = c := by
  refine dif_neg ?_
  rintro ⟨hlow, hhigh⟩
  have hcapital : ('A' ≤ c && c ≤ 'Z') = true := by
    rw [Bool.and_eq_true, decide_eq_true_iff, decide_eq_true_iff]
    exact ⟨hlow, hhigh⟩
  rw [isLetter, hcapital, Bool.or_true] at h
  contradiction

/-- A letter in lower case is a letter that lower case leaves alone. -/
theorem toLower_of_isLetter {c : Char} (h : isLetter c = true) :
    isLetter c.toLower = true ∧ c.toLower.toLower = c.toLower := by
  have hcodes : ∀ code < 128, isLetter (Char.ofNat code) = true →
      isLetter (Char.ofNat code).toLower = true ∧
        (Char.ofNat code).toLower.toLower = (Char.ofNat code).toLower := by
    decide
  have hc := toNat_of_isLetter h
  have hletter := hcodes c.toNat (by omega)
  rw [Char.ofNat_toNat] at hletter
  exact hletter h

theorem toLower_toLower (c : Char) : c.toLower.toLower = c.toLower := by
  cases h : isLetter c with
  | true => exact (toLower_of_isLetter h).2
  | false => rw [toLower_of_not_isLetter h, toLower_of_not_isLetter h]

/-- What does not tell letters apart does not see lower case. -/
theorem comp_toLower {α : Type} {p : Char → α}
    (h : ∀ c d, isLetter c = true → isLetter d = true → p c = p d) : p ∘ Char.toLower = p := by
  funext c
  cases hc : isLetter c with
  | true => exact h _ _ (toLower_of_isLetter hc).1 hc
  | false => rw [Function.comp_apply, toLower_of_not_isLetter hc]

theorem toUpper_of_lt {c : Char} (h : c.toNat < 97) : c.toUpper = c := by
  refine dif_neg ?_
  rintro ⟨hle, -⟩
  have hlow : 97 ≤ c.toNat := UInt32.le_iff_toNat_le.mp hle
  omega

/-- Upper case changes nothing in a text of ASCII characters before the small letters. -/
theorem upper_eq_self {text : String} (h : ∀ c ∈ text.toList, c.toNat < 97) : upper text = text := by
  have hkeep : text.toList.flatMap upperChar = text.toList.flatMap fun c => [c] := by
    apply List.flatMap_congr
    intro c hc
    have hsmall := h c hc
    rw [upperChar, if_pos (by omega), toUpper_of_lt hsmall]
  rw [upper, hkeep, List.flatMap_singleton', String.ofList_toList]

theorem lowerChar_of_ascii_or_digit {c : Char} (h : c.toNat < 128 ∨ isDigit c = true) :
    lowerChar c = [c.toLower] ∧ c.toNat ≠ 0x3a3 := by
  by_cases hc : c.toNat < 128
  · exact ⟨by rw [lowerChar, if_pos hc], by omega⟩
  · have hdigit := h.resolve_left hc
    obtain ⟨hdotted, hsigma⟩ := toNat_ne_of_isDigit hdigit hc
    refine ⟨?_, hsigma⟩
    rw [lowerChar, if_neg hc, if_neg (by simpa using hdotted), shiftInRuns?_of_isDigit hdigit hc,
      toLower_of_not_lt hc]
    rfl

/-- In a text of ASCII characters and digits lower case changes each character by itself. -/
theorem lower_of_ascii_or_digit {word : List Char}
    (h : ∀ c ∈ word, c.toNat < 128 ∨ isDigit c = true) :
    lower (String.ofList word) = String.ofList (word.map Char.toLower) := by
  -- without a sigma the characters seen before make no difference
  have hafter : ∀ seen, lowerAfter seen word = word.map Char.toLower := by
    induction word with
    | nil => exact fun _ => rfl
    | cons c rest ih =>
      intro seen
      obtain ⟨hlower, hsigma⟩ := lowerChar_of_ascii_or_digit (h c List.mem_cons_self)
      rw [lowerAfter, if_neg (by simpa using hsigma), hlower,
        ih (fun c hc => h c (List.mem_cons_of_mem _ hc)), List.map_cons]
      rfl
  rw [lower, String.toList_ofList, hafter]

end Bourse.Text
