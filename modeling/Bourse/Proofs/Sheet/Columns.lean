import Bourse.Proofs.Lists
import Bourse.Proofs.Number.Places
import Bourse.Proofs.Results
import Bourse.Proofs.Sheet.Records
import Bourse.Proofs.Text.Split
import Bourse.Sheet.Render

/-! Tables in columns. Every column is as wide as its longest text, and every line, filled up with the
spaces that are cut off at its end, has the text of each column between the same two places. -/
namespace Bourse

/-! Blanks at the end -/

namespace Text

variable {text more : List Char}

/-- Whether a text has no line feed, and no blank at its end. -/
structure IsTidy (text : List Char) : Prop where
  feed : '\n' ∉ text
  last : text.getLast?.any isBlank = false

/-- Whether a character is one that ASCII shows, and no space. -/
def isVisible (c : Char) : Bool := 33 ≤ c.toNat && c.toNat < 128

theorem isTidy_of_visible (h : text.all isVisible = true) : IsTidy text := by
  rw [List.all_eq_true] at h
  constructor
  · intro hmem
    exact absurd (h _ hmem) (by decide)
  · rw [Option.any_eq_false]
    intro c hc
    have hcode := h c (List.mem_of_getLast? hc)
    rw [isVisible, Bool.and_eq_true, decide_eq_true_eq, decide_eq_true_eq] at hcode
    exact isBlank_of_mark hcode.1 hcode.2

/-- Whether all blanks at the end of a text are spaces. -/
def EndsInSpaces (text : List Char) : Prop := ∃ n, text = trimRight text ++ List.replicate n ' '

theorem isBlank_of_mem_replicate {n : ℕ} : ∀ c ∈ List.replicate n ' ', isBlank c = true := by
  intro c hc
  rw [List.eq_of_mem_replicate hc, isBlank_space]

theorem trimRight_append_spaces (text : List Char) (n : ℕ) :
    trimRight (text ++ List.replicate n ' ') = trimRight text := by
  rw [trimRight, trimRight, trimLeft, trimLeft, List.reverse_append, List.reverse_replicate,
    List.dropWhile_append_of_pos isBlank_of_mem_replicate]

theorem trimLeft_spaces_append (n : ℕ) (text : List Char) :
    trimLeft (List.replicate n ' ' ++ text) = trimLeft text :=
  List.dropWhile_append_of_pos isBlank_of_mem_replicate

theorem EndsInSpaces.append_spaces (h : EndsInSpaces text) (n : ℕ) :
    EndsInSpaces (text ++ List.replicate n ' ') := by
  obtain ⟨m, hm⟩ := h
  refine ⟨m + n, ?_⟩
  rw [trimRight_append_spaces, List.replicate_add, ← List.append_assoc, ← hm]

theorem EndsInSpaces.append (h : EndsInSpaces text) (hmore : more.getLast?.any isBlank = false) :
    EndsInSpaces (text ++ more) := by
  rcases eq_or_ne more [] with rfl | hne
  · rwa [List.append_nil]
  · refine ⟨0, ?_⟩
    rw [trimRight_eq_self, List.replicate_zero, List.append_nil]
    rwa [List.getLast?_append_of_ne_nil _ hne]

/-- With spaces around it a text without blanks at its end is trimmed to the text without those in
front of it. -/
theorem trim_spaced (h : text.getLast?.any isBlank = false) (m n : ℕ) :
    trim (List.replicate m ' ' ++ text ++ List.replicate n ' ') = trimLeft text := by
  obtain ⟨front, hfront⟩ : ∃ front, front ++ trimLeft text = text := List.dropWhile_suffix isBlank
  have hlast : (trimLeft text).getLast?.any isBlank = false := by
    rcases eq_or_ne (trimLeft text) [] with hnil | hne
    · rw [hnil]
      rfl
    · rwa [← hfront, List.getLast?_append_of_ne_nil _ hne] at h
  rw [trim, List.append_assoc, trimLeft_spaces_append]
  by_cases hempty : trimLeft text = []
  · -- of a text that is all blanks nothing is left, whatever spaces follow it
    have hblank : ∀ c ∈ text ++ List.replicate n ' ', isBlank c = true :=
      List.forall_mem_append.mpr ⟨List.dropWhile_eq_nil_iff.mp hempty, isBlank_of_mem_replicate⟩
    have hnil : trimLeft (text ++ List.replicate n ' ') = [] := List.dropWhile_eq_nil_iff.mpr hblank
    rw [hnil, hempty]
    rfl
  · -- otherwise the left end is reached within the text, and the right end at its last character
    have hleft : trimLeft (text ++ List.replicate n ' ') = trimLeft text ++ List.replicate n ' ' := by
      have hstop : ¬(text.dropWhile isBlank).isEmpty = true := List.isEmpty_iff.not.mpr hempty
      rw [trimLeft, List.dropWhile_append, if_neg hstop]
      rfl
    rw [hleft, trimRight_append_spaces, trimRight_eq_self hlast]

end Text

namespace Table

variable {widths : List ℕ} {texts : List String}

/-! Lines -/

/-- The place at which a column starts. -/
def start (widths : List ℕ) (j : ℕ) : ℕ := ((widths.take j).map (· + 2)).sum

/-- The width of all columns and of the spaces between them. -/
def total (widths : List ℕ) : ℕ := widths.sum + 2 * (widths.length - 1)

theorem length_gap_intercalate (cells : List (List Char)) :
    (gap.intercalate cells).length = total (cells.map List.length) := by
  induction cells with
  | nil => rfl
  | cons cell rest ih =>
    cases rest with
    | nil => simp [total]
    | cons second rest =>
      have hgap : gap.length = 2 := rfl
      rw [List.intercalate_cons_cons, List.length_append, List.length_append, ih, hgap]
      simp only [total, List.map_cons, List.sum_cons, List.length_cons]
      omega

/-- Between gaps each cell stands behind what is before its start, and a gap follows all but the last. -/
theorem exists_gap_intercalate_eq {cells : List (List Char)} {j : ℕ} {cell : List Char}
    (h : cells[j]? = some cell) : ∃ front back, gap.intercalate cells = front ++ (cell ++ back) ∧
      front.length = start (cells.map List.length) j ∧
        (j + 1 < cells.length → ∃ more, back = gap ++ more) := by
  induction cells generalizing j with
  | nil => contradiction
  | cons first rest ih =>
    cases j with
    | zero =>
      obtain rfl : first = cell := Option.some.inj h
      cases rest with
      | nil => exact ⟨[], [], by simp, rfl, fun hlast => absurd hlast (by simp)⟩
      | cons second rest =>
        refine ⟨[], gap ++ gap.intercalate (second :: rest), ?_, rfl, fun _ => ⟨_, rfl⟩⟩
        rw [List.intercalate_cons_cons, List.nil_append, List.append_assoc]
    | succ j =>
      -- the place of a later cell is that among the rest, behind the first cell and a gap
      rw [List.getElem?_cons_succ] at h
      obtain ⟨front, back, hrest, hfront, hback⟩ := ih h
      obtain ⟨second, rest, rfl⟩ : ∃ second others, rest = second :: others :=
        List.exists_cons_of_ne_nil (by rintro rfl; contradiction)
      refine ⟨first ++ gap ++ front, back, ?_, ?_, ?_⟩
      · rw [List.intercalate_cons_cons, hrest]
        simp only [List.append_assoc]
      · have hgap : gap.length = 2 := rfl
        rw [List.length_append, List.length_append, hfront, hgap]
        rfl
      · intro hlast
        exact hback (by simpa using hlast)

/-- The texts of a row with the spaces that fill up their columns: the first text stands at the left,
the others at the right. -/
def aligned : List ℕ → List String → List (List Char)
  | width :: widths, text :: texts =>
    left width text :: List.zipWith (fun text width => right width text) texts widths
  | _, _ => []

/-- The line of a row. -/
def lineOf (widths : List ℕ) (texts : List String) : String :=
  String.ofList (Text.trimRight (gap.intercalate (aligned widths texts)))

theorem flatMap_zip_right (texts : List String) (widths : List ℕ) :
    ((texts.zip widths).flatMap fun (text, width) => gap ++ right width text) =
      (List.zipWith (fun text width => right width text) texts widths).flatMap (gap ++ ·) := by
  rw [← List.map_uncurry_zip_eq_zipWith, List.flatMap_map]
  rfl

theorem line?_eq (hwidths : widths ≠ []) (htexts : texts ≠ []) :
    line? widths texts = some (lineOf widths texts) := by
  obtain ⟨width, widths, rfl⟩ := List.exists_cons_of_ne_nil hwidths
  obtain ⟨text, texts, rfl⟩ := List.exists_cons_of_ne_nil htexts
  rw [line?, flatMap_zip_right, ← intercalate_cons]
  rfl

/-! Widths -/

/-- Whether every text of a row fits its column. -/
def Fits (texts : List String) (widths : List ℕ) : Prop :=
  List.Forall₂ (fun text width => text.length ≤ width) texts widths

/-- Whether widths are those of the longest texts of the columns of records. -/
structure AreWidths (records : List (List String)) (widths : List ℕ) : Prop where
  fits : ∀ record ∈ records, Fits record widths
  reached : ∀ (j width : ℕ), widths[j]? = some width →
    ∃ record ∈ records, ∃ text : String, record[j]? = some text ∧ text.length = width

/-- A row widens no column further than its text needs. -/
theorem exists_widen? (h : texts.length = widths.length) : ∃ wider,
    widen? widths texts = some wider ∧ List.Forall₂ (· ≤ ·) widths wider ∧ Fits texts wider ∧
      ∀ (j width : ℕ), wider[j]? = some width →
        widths[j]? = some width ∨ ∃ text : String, texts[j]? = some text ∧ text.length = width := by
  induction texts generalizing widths with
  | nil =>
    obtain rfl : widths = [] := List.length_eq_zero_iff.mp h.symm
    exact ⟨[], rfl, .nil, .nil, fun _ _ hnone => .inl hnone⟩
  | cons text texts ih =>
    obtain ⟨width, widths, rfl⟩ : ∃ width others, widths = width :: others :=
      List.exists_cons_of_length_eq_add_one h.symm
    obtain ⟨wider, hwider, hgrown, hfits, hreached⟩ := ih (Nat.succ.inj h)
    refine ⟨max width text.length :: wider, ?_, .cons (Nat.le_max_left _ _) hgrown,
      .cons (Nat.le_max_right _ _) hfits, ?_⟩
    · rw [widen?, hwider]
      rfl
    · intro j wide hwide
      cases j with
      | zero =>
        -- the greater of the two is the old width or the length of the text
        obtain rfl : max width text.length = wide := Option.some.inj hwide
        rcases Nat.le_total text.length width with hle | hle
        · exact .inl (congrArg some (Nat.max_eq_left hle).symm)
        · exact .inr ⟨text, rfl, (Nat.max_eq_right hle).symm⟩
      | succ j => exact hreached j wide hwide

theorem AreWidths.concat {records : List (List String)} (h : AreWidths records widths)
    (htexts : texts.length = widths.length) : ∃ wider, widen? widths texts = some wider ∧
      wider.length = widths.length ∧ AreWidths (records ++ [texts]) wider := by
  obtain ⟨wider, hwider, hgrown, hfits, hreached⟩ := exists_widen? htexts
  refine ⟨wider, hwider, hgrown.length_eq.symm, ?_, ?_⟩
  · intro record hrecord
    rcases List.mem_append.mp hrecord with hold | hnew
    · apply (forall₂_trans (h.fits record hold) hgrown).imp
      rintro text wide ⟨width, hle, hle'⟩
      exact hle.trans hle'
    · rwa [List.mem_singleton.mp hnew]
  · intro j width hwidth
    rcases hreached j width hwidth with hold | ⟨text, htext, hlength⟩
    · obtain ⟨record, hrecord, htext⟩ := h.reached j width hold
      exact ⟨record, List.mem_append_left _ hrecord, htext⟩
    · exact ⟨texts, List.mem_concat_self, text, htext, hlength⟩

/-- The widths after all rows are those of the longest texts of all of them. -/
theorem AreWidths.append {records rows : List (List String)} (h : AreWidths records widths)
    (hrows : ∀ row ∈ rows, row.length = widths.length) :
    ∃ wider, rows.foldlM widen? widths = some wider ∧ AreWidths (records ++ rows) wider := by
  induction rows generalizing records widths with
  | nil =>
    rw [List.append_nil]
    exact ⟨widths, rfl, h⟩
  | cons row rest ih =>
    obtain ⟨hrow, hrest⟩ := List.forall_mem_cons.mp hrows
    obtain ⟨wide, hwide, hlength, hconcat⟩ := h.concat hrow
    rw [← hlength] at hrest
    obtain ⟨wider, hwider, hall⟩ := ih hconcat hrest
    rw [List.append_assoc, List.singleton_append] at hall
    refine ⟨wider, ?_, hall⟩
    rw [List.foldlM_cons, hwide]
    exact hwider

theorem areWidths_headers (headers : List String) :
    AreWidths [headers] (headers.map String.length) := by
  constructor
  · rw [List.forall_mem_singleton, Fits, List.forall₂_map_right_iff, List.forall₂_same]
    exact fun _ _ => le_rfl
  · intro j width hwidth
    rw [List.getElem?_map, Option.map_eq_some_iff] at hwidth
    exact ⟨headers, List.mem_singleton_self _, hwidth⟩

/-- Where every row has a text for each header, the widths of all columns are found. -/
theorem exists_widths? {headers : List String} {rows : List (List String)}
    (hrows : ∀ row ∈ rows, row.length = headers.length) :
    ∃ widths, widths? headers rows = some widths ∧ AreWidths (headers :: rows) widths := by
  apply (areWidths_headers headers).append
  simpa using hrows

/-! Rows in columns -/

/-- A line with spaces behind it up to the width of the table. -/
def filled (widths : List ℕ) (line : String) : List Char :=
  line.toList ++ List.replicate (total widths - line.length) ' '

/-- Whether a line shows a row: filled up it is as wide as the table, and has the text of each column
from the start of the column on, the first text at the left and the others at the right, with two
spaces between columns. So what is cut out of a column is its text, except for blanks in front. -/
structure ShowsRow (widths : List ℕ) (texts : List String) (line : String) : Prop where
  length : (filled widths line).length = total widths
  column : ∀ (j width : ℕ) (text : String), widths[j]? = some width → texts[j]? = some text →
    ((filled widths line).drop (start widths j)).take width =
      if j = 0 then text.toList ++ List.replicate (width - text.length) ' '
      else List.replicate (width - text.length) ' ' ++ text.toList
  between : ∀ j width, widths[j]? = some width → j + 1 < widths.length →
    ((filled widths line).drop (start widths j + width)).take 2 = [' ', ' ']
  trimmed : ∀ (j width : ℕ) (text : String), widths[j]? = some width → texts[j]? = some text →
    Text.trim (((filled widths line).drop (start widths j)).take width) =
      Text.trimLeft text.toList

/-- Whether lines are those of a table: the headers and a rule, unless they are left out, and a line
for each row. -/
inductive IsTable (widths : List ℕ) (headers : List String) (rows : List (List String)) :
    Bool → List String → Prop
  | headed {line : String} {body : List String} (hline : ShowsRow widths headers line)
    (hbody : List.Forall₂ (ShowsRow widths) rows body) :
    IsTable widths headers rows false
      (line :: String.ofList (List.replicate (total widths) '-') :: body)
  | bare {body : List String} (hbody : List.Forall₂ (ShowsRow widths) rows body) :
    IsTable widths headers rows true body

theorem left_eq (width : ℕ) (text : String) :
    left width text = text.toList ++ List.replicate (width - text.length) ' ' := by
  rw [left, padding, String.length_toList]

theorem right_eq (width : ℕ) (text : String) :
    right width text = List.replicate (width - text.length) ' ' ++ text.toList := by
  rw [right, padding, String.length_toList]

theorem map_length_aligned (h : Fits texts widths) :
    (aligned widths texts).map List.length = widths := by
  have hright {texts : List String} {widths : List ℕ} (h : Fits texts widths) :
      (List.zipWith (fun text width => right width text) texts widths).map List.length = widths := by
    induction h with
    | nil => rfl
    | @cons text width texts widths hfit _ ih =>
      rw [List.zipWith_cons_cons, List.map_cons, ih, right_eq, List.length_append,
        List.length_replicate, String.length_toList, Nat.sub_add_cancel hfit]
  cases h with
  | nil => rfl
  | @cons text width texts widths hfit hrest =>
    rw [aligned, List.map_cons, hright hrest, left_eq, List.length_append, List.length_replicate,
      String.length_toList, Nat.add_sub_cancel' hfit]

theorem getElem?_aligned {j width : ℕ} {text : String} (hwidth : widths[j]? = some width)
    (htext : texts[j]? = some text) :
    (aligned widths texts)[j]? = some (if j = 0 then left width text else right width text) := by
  cases widths with
  | nil => contradiction
  | cons first widths =>
    cases texts with
    | nil => contradiction
    | cons head texts =>
      cases j with
      | zero =>
        cases hwidth
        cases htext
        rfl
      | succ j =>
        rw [List.getElem?_cons_succ] at hwidth htext
        rw [aligned, List.getElem?_cons_succ, List.getElem?_zipWith, hwidth, htext,
          if_neg (Nat.succ_ne_zero j)]

theorem forall_mem_aligned {P : List Char → Prop}
    (hleft : ∀ text ∈ texts, ∀ width, P (left width text))
    (hright : ∀ text ∈ texts, ∀ width, P (right width text)) :
    ∀ cell ∈ aligned widths texts, P cell := by
  cases widths with
  | nil => exact List.forall_mem_nil _
  | cons width widths =>
    cases texts with
    | nil => exact List.forall_mem_nil _
    | cons text texts =>
      obtain ⟨hfirst, -⟩ := List.forall_mem_cons.mp hleft
      obtain ⟨-, hrest⟩ := List.forall_mem_cons.mp hright
      rw [aligned, List.forall_mem_cons]
      exact ⟨hfirst width, forall_mem_zipWith fun text htext width _ => hrest text htext width⟩

/-- Cells whose texts have no blanks at their ends leave nothing but spaces at the end of a line. -/
theorem endsInSpaces_gap_intercalate {cells : List (List Char)} {front : List Char}
    (hfront : Text.EndsInSpaces front)
    (hcells : ∀ cell ∈ cells, ∀ before, Text.EndsInSpaces before → Text.EndsInSpaces (before ++ cell)) :
    Text.EndsInSpaces (front ++ gap.intercalate cells) := by
  induction cells generalizing front with
  | nil => simpa using hfront
  | cons cell rest ih =>
    obtain ⟨hcell, hrest⟩ := List.forall_mem_cons.mp hcells
    have hnext := hcell front hfront
    cases rest with
    | nil => simpa using hnext
    | cons second rest =>
      -- an empty cell adds only spaces, so the gap before it may end the line
      have hall := ih (hnext.append_spaces 2) hrest
      rw [List.intercalate_cons_cons]
      simpa [gap, List.replicate] using hall

theorem endsInSpaces_append_left {before : List Char} {text : String} (width : ℕ)
    (hbefore : Text.EndsInSpaces before) (htidy : Text.IsTidy text.toList) :
    Text.EndsInSpaces (before ++ left width text) := by
  rw [left_eq, ← List.append_assoc]
  exact (hbefore.append htidy.last).append_spaces _

theorem endsInSpaces_append_right {before : List Char} {text : String} (width : ℕ)
    (hbefore : Text.EndsInSpaces before) (htidy : Text.IsTidy text.toList) :
    Text.EndsInSpaces (before ++ right width text) := by
  rw [right_eq, ← List.append_assoc]
  exact (hbefore.append_spaces _).append htidy.last

theorem endsInSpaces_aligned (widths : List ℕ) (htidy : ∀ text ∈ texts, Text.IsTidy text.toList) :
    ∀ cell ∈ aligned widths texts, ∀ before, Text.EndsInSpaces before →
      Text.EndsInSpaces (before ++ cell) := by
  apply forall_mem_aligned
  · exact fun text htext width before hbefore =>
      endsInSpaces_append_left width hbefore (htidy text htext)
  · exact fun text htext width before hbefore =>
      endsInSpaces_append_right width hbefore (htidy text htext)

/-- The line of a row whose texts have no blanks at their ends, filled up, is the row in columns. -/
theorem filled_lineOf (hfits : Fits texts widths) (htidy : ∀ text ∈ texts, Text.IsTidy text.toList) :
    filled widths (lineOf widths texts) = gap.intercalate (aligned widths texts) := by
  have hempty : Text.EndsInSpaces [] := ⟨0, rfl⟩
  obtain ⟨n, hn⟩ := endsInSpaces_gap_intercalate hempty (endsInSpaces_aligned widths htidy)
  rw [List.nil_append] at hn
  -- what is cut off are n spaces, and as many are filled up again
  have htotal : total widths = (Text.trimRight (gap.intercalate (aligned widths texts))).length + n := by
    have hlength := congrArg List.length hn
    rw [length_gap_intercalate, map_length_aligned hfits, List.length_append,
      List.length_replicate] at hlength
    exact hlength
  have hline : (lineOf widths texts).toList =
      Text.trimRight (gap.intercalate (aligned widths texts)) := String.toList_ofList
  rw [filled, ← String.length_toList, hline, htotal, Nat.add_sub_cancel_left, ← hn]

/-- In the line of a row, filled up, each column has its cell, with a gap after all but the last. -/
theorem exists_cell (hfits : Fits texts widths) (htidy : ∀ text ∈ texts, Text.IsTidy text.toList)
    {j width : ℕ} (hwidth : widths[j]? = some width) :
    ∃ cell back, (aligned widths texts)[j]? = some cell ∧ cell.length = width ∧
      (filled widths (lineOf widths texts)).drop (start widths j) = cell ++ back ∧
        (j + 1 < widths.length → ∃ more, back = gap ++ more) := by
  have hlengths := map_length_aligned hfits
  have hcount : (aligned widths texts).length = widths.length := by
    rw [← List.length_map, hlengths]
  rw [← hlengths, List.getElem?_map, Option.map_eq_some_iff] at hwidth
  obtain ⟨cell, hcell, hwidth⟩ := hwidth
  obtain ⟨front, back, hline, hfront, hback⟩ := exists_gap_intercalate_eq hcell
  rw [hlengths] at hfront
  rw [hcount] at hback
  refine ⟨cell, back, hcell, hwidth, ?_, hback⟩
  rw [filled_lineOf hfits htidy, hline, List.drop_left' hfront]

theorem showsRow_lineOf (hfits : Fits texts widths)
    (htidy : ∀ text ∈ texts, Text.IsTidy text.toList) :
    ShowsRow widths texts (lineOf widths texts) := by
  have hcolumn (j width : ℕ) (text : String) (hwidth : widths[j]? = some width)
      (htext : texts[j]? = some text) :
      ((filled widths (lineOf widths texts)).drop (start widths j)).take width =
        if j = 0 then text.toList ++ List.replicate (width - text.length) ' '
        else List.replicate (width - text.length) ' ' ++ text.toList := by
    obtain ⟨cell, back, hcell, hlength, hdrop, -⟩ := exists_cell hfits htidy hwidth
    rw [getElem?_aligned hwidth htext, left_eq, right_eq] at hcell
    rw [hdrop, List.take_left' hlength, ← Option.some.inj hcell]
  refine ⟨?_, hcolumn, ?_, ?_⟩
  · rw [filled_lineOf hfits htidy, length_gap_intercalate, map_length_aligned hfits]
  · intro j width hwidth hlast
    obtain ⟨cell, back, hcell, hlength, hdrop, hback⟩ := exists_cell hfits htidy hwidth
    obtain ⟨more, rfl⟩ := hback hlast
    rw [← List.drop_drop, hdrop, List.drop_left' hlength]
    rfl
  · intro j width text hwidth htext
    have hlast := (htidy text (List.mem_of_getElem? htext)).last
    rw [hcolumn j width text hwidth htext]
    split_ifs
    · exact Text.trim_spaced hlast 0 _
    · have htrim := Text.trim_spaced hlast (width - text.length) 0
      rwa [List.replicate_zero, List.append_nil] at htrim

theorem feed_notMem_gap_intercalate {cells : List (List Char)} (h : ∀ cell ∈ cells, '\n' ∉ cell) :
    '\n' ∉ gap.intercalate cells := by
  cases cells with
  | nil => exact List.not_mem_nil
  | cons cell rest =>
    obtain ⟨hcell, hrest⟩ := List.forall_mem_cons.mp h
    have hgap : '\n' ∉ gap := by decide
    rw [intercalate_cons, List.mem_append, List.mem_flatMap]
    rintro (hmem | ⟨other, hother, hmem⟩)
    · exact hcell hmem
    · exact (List.mem_append.mp hmem).elim hgap (hrest other hother)

theorem feed_notMem_lineOf (hfits : Fits texts widths)
    (htidy : ∀ text ∈ texts, Text.IsTidy text.toList) : '\n' ∉ (lineOf widths texts).toList := by
  have hspaces (n : ℕ) : '\n' ∉ List.replicate n ' ' :=
    fun hmem => absurd (List.eq_of_mem_replicate hmem) (by decide)
  have hcells : ∀ cell ∈ aligned widths texts, '\n' ∉ cell := by
    apply forall_mem_aligned
    · intro text htext width
      rw [left_eq, List.mem_append]
      exact not_or.mpr ⟨(htidy text htext).feed, hspaces _⟩
    · intro text htext width
      rw [right_eq, List.mem_append]
      exact not_or.mpr ⟨hspaces _, (htidy text htext).feed⟩
  have hline := feed_notMem_gap_intercalate hcells
  rw [← filled_lineOf hfits htidy, filled, List.mem_append, not_or] at hline
  exact hline.1

/-! Tables -/

theorem mapM_eq_some_map {α β : Type} {f : α → Option β} {g : α → β} {items : List α}
    (h : ∀ item ∈ items, f item = some (g item)) : items.mapM f = some (items.map g) := by
  induction items with
  | nil => rfl
  | cons item rest ih =>
    obtain ⟨hitem, hrest⟩ := List.forall_mem_cons.mp h
    rw [List.mapM_cons, hitem, ih hrest]
    rfl

variable {headers : List String} {rows : List (List String)} {noHeader : Bool}

/-- The lines of a table. -/
def linesOf (noHeader : Bool) (widths : List ℕ) (headers : List String) (rows : List (List String)) :
    List String :=
  (if noHeader then [] else [lineOf widths headers, rule widths]) ++ rows.map (lineOf widths)

/-- A table whose rows have a text for each of its headers has lines. -/
theorem exists_lines? (hheaders : headers ≠ []) (hrows : ∀ row ∈ rows, row.length = headers.length)
    (noHeader : Bool) : ∃ widths, AreWidths (headers :: rows) widths ∧
      lines? noHeader headers rows = some (linesOf noHeader widths headers rows) := by
  obtain ⟨widths, hwidths, hare⟩ := exists_widths? hrows
  refine ⟨widths, hare, ?_⟩
  have hcount : headers.length = widths.length := (hare.fits headers List.mem_cons_self).length_eq
  have hne : widths ≠ [] := by
    rw [← List.length_pos_iff, ← hcount]
    exact List.length_pos_of_ne_nil hheaders
  have hbody : rows.mapM (line? widths) = some (rows.map (lineOf widths)) := by
    apply mapM_eq_some_map
    intro row hrow
    apply line?_eq hne
    rw [← List.length_pos_iff, hrows row hrow]
    exact List.length_pos_of_ne_nil hheaders
  unfold lines?
  rw [hwidths, Option.bind_eq_bind, Option.bind_some, hbody, top?, line?_eq hne hheaders]
  cases noHeader <;> rfl

theorem isTable_linesOf (hwidths : AreWidths (headers :: rows) widths)
    (hheaders : noHeader = false → ∀ header ∈ headers, Text.IsTidy header.toList)
    (hrows : ∀ row ∈ rows, ∀ text ∈ row, Text.IsTidy text.toList) :
    IsTable widths headers rows noHeader (linesOf noHeader widths headers rows) := by
  have hbody : List.Forall₂ (ShowsRow widths) rows (rows.map (lineOf widths)) := by
    rw [List.forall₂_map_right_iff, List.forall₂_same]
    intro row hrow
    exact showsRow_lineOf (hwidths.fits row (List.mem_cons_of_mem _ hrow)) (hrows row hrow)
  cases noHeader with
  | true => exact .bare hbody
  | false =>
    exact .headed (showsRow_lineOf (hwidths.fits headers List.mem_cons_self) (hheaders rfl)) hbody

theorem feed_notMem_linesOf (hwidths : AreWidths (headers :: rows) widths)
    (hheaders : noHeader = false → ∀ header ∈ headers, Text.IsTidy header.toList)
    (hrows : ∀ row ∈ rows, ∀ text ∈ row, Text.IsTidy text.toList) :
    ∀ line ∈ linesOf noHeader widths headers rows, '\n' ∉ line.toList := by
  have hbody : ∀ line ∈ rows.map (lineOf widths), '\n' ∉ line.toList := by
    rw [List.forall_mem_map]
    intro row hrow
    exact feed_notMem_lineOf (hwidths.fits row (List.mem_cons_of_mem _ hrow)) (hrows row hrow)
  cases noHeader with
  | true => exact hbody
  | false =>
    have hrule : '\n' ∉ (rule widths).toList := by
      rw [rule, String.toList_ofList]
      exact fun hmem => absurd (List.eq_of_mem_replicate hmem) (by decide)
    have hline := feed_notMem_lineOf (hwidths.fits headers List.mem_cons_self) (hheaders rfl)
    exact List.forall_mem_cons.mpr ⟨hline, List.forall_mem_cons.mpr ⟨hrule, hbody⟩⟩

end Table

namespace Cell

theorem isTidy_of_isMark {text : String} (h : ∀ c ∈ text.toList, Numeral.IsMark c) :
    Text.IsTidy text.toList := by
  apply Text.isTidy_of_visible
  rw [List.all_eq_true]
  intro c hc
  rw [Text.isVisible, Bool.and_eq_true, decide_eq_true_eq, decide_eq_true_eq]
  have := (h c hc).toNat
  omega

theorem isTidy_fixed {x : Float} (hx : x.isNaN = false) (places : ℕ) :
    Text.IsTidy (Layout.fixed places x).toList := by
  rw [Layout.fixed]
  cases hvalue : Binary64.ofFloat x with
  | nan =>
    rw [Binary64.ofFloat_eq_nan_iff.mp hvalue] at hx
    contradiction
  | infinity negative =>
    have hword : ∀ word ∈ ["inf", "-inf"], Text.IsTidy word.toList := by
      simp only [List.forall_mem_cons]
      exact ⟨Text.isTidy_of_visible (by decide), Text.isTidy_of_visible (by decide),
        List.forall_mem_nil _⟩
    cases negative with
    | false => exact hword "inf" (by decide)
    | true => exact hword "-inf" (by decide)
  | finite negative mantissa exponent =>
    exact isTidy_of_isMark (Layout.isMark_of_mem_fixedValue negative)

/-- Every cell but a text is shown without blanks. -/
theorem exists_tidy {cell : Cell} {places : ℤ} (h : cell.IsWritable) (hlow : 0 ≤ places)
    (hhigh : places ≤ mostPlaces) (htext : ∀ s, cell = .text s → Text.IsTidy s.toList) :
    ∃ text, cell.shown Sheet.dash places = .ok text ∧ Text.IsTidy text.toList := by
  have hdash : Text.IsTidy Sheet.dash.toList := Text.isTidy_of_visible (by decide)
  cases cell with
  | absent => exact ⟨Sheet.dash, rfl, hdash⟩
  | truth b =>
    refine ⟨_, rfl, Text.isTidy_of_visible ?_⟩
    cases b <;> decide
  | whole n => exact ⟨_, shown_whole _ h, isTidy_of_isMark (Layout.isMark_of_mem_integer n)⟩
  | real x =>
    cases hx : x.isNaN with
    | true => exact ⟨Sheet.dash, if_pos hx, hdash⟩
    | false => exact ⟨_, shown_real _ hlow hhigh hx, isTidy_fixed hx _⟩
  | text s => exact ⟨s, rfl, htext s rfl⟩

end Cell

namespace Sheet

variable {sheet : Sheet} {style : SheetStyle}

/-- The columns of a table line up. Where every row has a cell for each header, and no text that is
shown has a line feed or a blank at its end, the text of a sheet has a line for each row, and one for
the headers and a rule of the width of the table unless they are left out. Filled up to this width,
every line has the text of each column between the same two places, and it can be cut out there. -/
theorem columns_line_up (hformat : style.format = .table) (hheaders : sheet.headers ≠ [])
    (hwidth : ∀ row ∈ sheet.rows, row.length = sheet.headers.length)
    (hshown : style.noHeader = false → ∀ header ∈ sheet.headers, Text.IsTidy header.toList)
    (hcells : ∀ row ∈ sheet.rows, ∀ cell ∈ row,
      ∃ text, cell.shown dash style.places = .ok text ∧ Text.IsTidy text.toList) :
    ∃ rows widths lines text,
      List.Forall₂ (List.Forall₂ fun cell text => cell.shown dash style.places = .ok text)
        sheet.rows rows ∧
      Table.AreWidths (sheet.headers :: rows) widths ∧
      Table.IsTable widths sheet.headers rows style.noHeader lines ∧
      sheet.render style = .ok text ∧ text = "\n".intercalate lines ∧
      (lines ≠ [] → Text.split (· == '\n') text.toList = lines.map String.toList) := by
  -- every cell is shown, so the texts of all rows are there, as wide as the rows and tidy
  obtain ⟨rows, hrows⟩ : Succeeds (sheet.texts dash style.places) := by
    apply succeeds_mapM_iff.mpr
    intro row hrow
    apply succeeds_mapM_iff.mpr
    intro cell hcell
    obtain ⟨text, htext, -⟩ := hcells row hrow cell hcell
    exact ⟨text, htext⟩
  have htexts : List.Forall₂ (List.Forall₂ fun cell text => cell.shown dash style.places = .ok text)
      sheet.rows rows :=
    (mapM_eq_ok_iff_forall₂.mp hrows).imp fun _ _ => mapM_eq_ok_iff_forall₂.mp
  have hlength : ∀ row ∈ rows, row.length = sheet.headers.length := by
    intro row hrow
    obtain ⟨cells, hmem, hrow⟩ := exists_of_mem_forall₂ htexts.flip hrow
    rw [← hwidth cells hmem]
    exact hrow.length_eq.symm
  have htidy : ∀ row ∈ rows, ∀ text ∈ row, Text.IsTidy text.toList := by
    intro row hrow text htext
    obtain ⟨cells, hmem, hrow⟩ := exists_of_mem_forall₂ htexts.flip hrow
    obtain ⟨cell, hcell, hshows⟩ := exists_of_mem_forall₂ hrow.flip htext
    obtain ⟨other, hother, hother'⟩ := hcells cells hmem cell hcell
    rw [hshows] at hother
    rwa [Except.ok.inj hother]
  obtain ⟨widths, hwidths, hlines⟩ := Table.exists_lines? hheaders hlength style.noHeader
  have hrender : sheet.render style = .ok
      ("\n".intercalate (Table.linesOf style.noHeader widths sheet.headers rows)) := by
    have htable : sheet.render style = sheet.table style := by rw [render, hformat]
    rw [htable]
    refine bind_eq_ok_iff.mpr ⟨rows, hrows, ?_⟩
    rw [hlines]
    rfl
  refine ⟨rows, widths, _, _, htexts, hwidths, Table.isTable_linesOf hwidths hshown htidy, hrender,
    rfl, ?_⟩
  intro hne
  -- no line has a line feed of its own, so the text is cut into just these lines
  have hfeeds := Table.feed_notMem_linesOf hwidths hshown htidy
  have hparts := Text.split_intercalate (List.forall_mem_map.mpr hfeeds) (by simpa using hne)
  rw [String.toList_intercalate]
  exact hparts

/-- Three columns, with a text that has a blank in it, a number, nothing, and an empty last text. -/
theorem columns_of_two_rows_line_up :
    let half := Binary64.nearestDecimal false 5 (-1)
    let sheet : Sheet := ⟨["fund", "ratio", "note"],
      [[.text "Big Fund", .real half, .text ""], [.text "Fund", .absent, .text "ex 2"]]⟩
    let style : SheetStyle := {}
    style.format = .table ∧ sheet.headers ≠ [] ∧
      (∀ row ∈ sheet.rows, row.length = sheet.headers.length) ∧
      (style.noHeader = false → ∀ header ∈ sheet.headers, Text.IsTidy header.toList) ∧
      (∀ row ∈ sheet.rows, ∀ cell ∈ row,
        ∃ text, cell.shown dash style.places = .ok text ∧ Text.IsTidy text.toList) ∧
      ∃ rows widths lines text,
        List.Forall₂ (List.Forall₂ fun cell text => cell.shown dash style.places = .ok text)
          sheet.rows rows ∧
        Table.AreWidths (sheet.headers :: rows) widths ∧
        Table.IsTable widths sheet.headers rows style.noHeader lines ∧
        sheet.render style = .ok text ∧ text = "\n".intercalate lines ∧
        (lines ≠ [] → Text.split (· == '\n') text.toList = lines.map String.toList) := by
  intro half sheet style
  have hheaders : sheet.headers ≠ [] := List.cons_ne_nil _ _
  have hwidth : ∀ row ∈ sheet.rows, row.length = sheet.headers.length :=
    List.forall_mem_cons.mpr ⟨rfl, List.forall_mem_singleton.mpr rfl⟩
  have htidy (text : String) (hfeed : '\n' ∉ text.toList)
      (hlast : text.toList.getLast?.any Text.isBlank = false) : Text.IsTidy text.toList :=
    ⟨hfeed, hlast⟩
  have hshown : style.noHeader = false → ∀ header ∈ sheet.headers, Text.IsTidy header.toList := by
    intro _
    simp only [sheet, List.forall_mem_cons]
    exact ⟨htidy _ (by decide) (by decide +kernel), htidy _ (by decide) (by decide +kernel),
      htidy _ (by decide) (by decide +kernel), List.forall_mem_nil _⟩
  have hcells : ∀ row ∈ sheet.rows, ∀ cell ∈ row,
      ∃ text, cell.shown dash style.places = .ok text ∧ Text.IsTidy text.toList := by
    have htext (s : String) (hs : Text.IsTidy s.toList) :
        ∃ text, (Cell.text s).shown dash style.places = .ok text ∧ Text.IsTidy text.toList :=
      ⟨s, rfl, hs⟩
    have hnumber : ∃ text, (Cell.real half).shown dash style.places = .ok text ∧
        Text.IsTidy text.toList := Cell.exists_tidy trivial (by decide) (by decide) nofun
    have hnothing : ∃ text, Cell.absent.shown dash style.places = .ok text ∧
        Text.IsTidy text.toList := Cell.exists_tidy trivial (by decide) (by decide) nofun
    simp only [sheet, List.forall_mem_cons]
    exact ⟨⟨htext _ (htidy _ (by decide) (by decide +kernel)), hnumber,
      htext _ (htidy _ (by decide) (by decide +kernel)), List.forall_mem_nil _⟩,
      ⟨htext _ (htidy _ (by decide) (by decide +kernel)), hnothing,
        htext _ (htidy _ (by decide) (by decide +kernel)), List.forall_mem_nil _⟩,
      List.forall_mem_nil _⟩
  exact ⟨rfl, hheaders, hwidth, hshown, hcells, columns_line_up rfl hheaders hwidth hshown hcells⟩

end Sheet

end Bourse
