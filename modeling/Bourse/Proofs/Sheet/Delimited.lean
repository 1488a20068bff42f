import Bourse.Proofs.Delimited.RoundTrip
import Bourse.Proofs.Lists
import Bourse.Proofs.Results
import Bourse.Sheet.Render

/-! Sheets as delimited text. The text of a sheet is that of the lines of its records. Nothing is
cut off at its end, so it is read as the records again, with a line feed behind it and without. -/
namespace Bourse.Sheet

open Delimited

variable {delimiter : Char} {records : List (List String)}

theorem dropFinalFeeds_eq_self {text : String} (h : text.toList.getLast? ≠ some '\n') :
    dropFinalFeeds text = text := by
  have hend : text.toList.reverse.head?.any (· == '\n') = false := by
    rw [List.head?_reverse, Option.any_eq_false]
    intro c hc
    refine beq_false_of_ne ?_
    rintro rfl
    exact h hc
  rw [dropFinalFeeds, dropWhile_eq_self_of_head? hend, List.reverse_reverse, String.ofList_toList]

/-- The lines of records with a line feed behind each of them. -/
def lineText (delimiter : Char) (records : List (List String)) : List Char :=
  (records.map (·.map String.toList)).flatMap fun record => line delimiter record ++ ['\n']

theorem lineText_concat (records : List (List String)) (record : List String) :
    lineText delimiter (records ++ [record]) =
      lineText delimiter records ++ line delimiter (record.map String.toList) ++ ['\n'] := by
  rw [lineText, lineText, List.map_append, List.flatMap_append]
  simp

/-- The text between line feeds ends with its last line, of which nothing is cut off, since it is
not empty and ends in no line feed. -/
theorem toList_dropFinalFeeds (hdelimiter : IsDelimiter delimiter) (records : List (List String))
    {record : List String} (hrecord : record ≠ []) :
    (dropFinalFeeds ("\n".intercalate (lines delimiter (records ++ [record])))).toList =
      lineText delimiter records ++ line delimiter (record.map String.toList) := by
  have hlast : line delimiter (record.map String.toList) ≠ [] :=
    line_ne_nil (List.map_eq_nil_iff.not.mpr hrecord)
  have htext : ("\n".intercalate (lines delimiter (records ++ [record]))).toList =
      lineText delimiter records ++ line delimiter (record.map String.toList) := by
    have hfeed : "\n".toList = ['\n'] := rfl
    have hlines : (lines delimiter (records ++ [record])).map String.toList =
        (records.map fun record => line delimiter (record.map String.toList)) ++
          [line delimiter (record.map String.toList)] := by
      simp [lines]
    rw [String.toList_intercalate, hlines, hfeed, intercalate_concat, lineText, List.flatMap_map,
      List.flatMap_map]
  have hend : ("\n".intercalate (lines delimiter (records ++ [record]))).toList.getLast? ≠
      some '\n' := by
    rw [htext, List.getLast?_append_of_ne_nil _ hlast]
    exact getLast?_line_ne hdelimiter _
  rw [dropFinalFeeds_eq_self hend, htext]

theorem toList_dropFinalFeeds_lines (hdelimiter : IsDelimiter delimiter)
    (records : List (List String)) {record : List String} (hrecord : record ≠ []) :
    (dropFinalFeeds ("\n".intercalate (lines delimiter (records ++ [record]))) ++ "\n").toList =
      lineText delimiter (records ++ [record]) := by
  rw [String.toList_append, toList_dropFinalFeeds hdelimiter records hrecord, lineText_concat]
  rfl

theorem isKept_of_mem_map (hkept : ∀ record ∈ records, ∀ text ∈ record, IsKept text.toList) :
    ∀ record ∈ records.map (·.map String.toList), ∀ field ∈ record, IsKept field := by
  simp only [List.mem_map, forall_exists_index, and_imp, forall_apply_eq_imp_iff₂]
  exact hkept

theorem read_lineText (hdelimiter : IsDelimiter delimiter)
    (hkept : ∀ record ∈ records, ∀ text ∈ record, IsKept text.toList) :
    read delimiter (lineText delimiter records) = ⟨records, false⟩ := by
  have hback : (records.map (·.map String.toList)).map (·.map String.ofList) = records := by
    simp [Function.comp_def, String.ofList_toList]
  rw [lineText, read_lines hdelimiter (isKept_of_mem_map hkept), hback]

/-- The lines of records are read as the records without the line feed behind the last one too. -/
theorem read_dropFinalFeeds (hdelimiter : IsDelimiter delimiter)
    (hkept : ∀ record ∈ records, ∀ text ∈ record, IsKept text.toList)
    (hnonempty : ∀ record ∈ records, record ≠ []) :
    read delimiter (dropFinalFeeds ("\n".intercalate (lines delimiter records))).toList =
      ⟨records, false⟩ := by
  rcases List.eq_nil_or_concat' records with rfl | ⟨before, last, rfl⟩
  · rfl
  · have hlast := hnonempty last List.mem_concat_self
    have hline : line delimiter (last.map String.toList) ≠ [] :=
      line_ne_nil (List.map_eq_nil_iff.not.mpr hlast)
    have hfold := Reader.foldl_lines hdelimiter (isKept_of_mem_map hkept) []
    have hread := read_lineText hdelimiter hkept
    rw [toList_dropFinalFeeds hdelimiter before hlast]
    rw [← lineText, lineText_concat] at hfold
    rw [lineText_concat, read_concat_feed] at hread
    · exact hread
    · exact List.append_ne_nil_of_right_ne_nil _ hline
    · rw [List.getLast?_append_of_ne_nil _ hline]
      exact getLast?_line_ne hdelimiter _
    · exact congrArg Reader.mode hfold

/-- The text of a sheet with its headers, and a line feed behind it. -/
theorem exists_delimited (sheet : Sheet) (style : SheetStyle) (hdelimiter : IsDelimiter delimiter)
    {rows : List (List String)} (htexts : sheet.texts "" style.places = .ok rows)
    (hheader : style.noHeader = false) (hnonempty : ∀ record ∈ sheet.headers :: rows, record ≠ []) :
    ∃ text, sheet.delimited delimiter style = .ok text ∧
      (text ++ "\n").toList = lineText delimiter (sheet.headers :: rows) := by
  obtain ⟨before, last, hsplit⟩ : ∃ before last, sheet.headers :: rows = before ++ [last] :=
    (List.eq_nil_or_concat' _).resolve_left (List.cons_ne_nil _ _)
  have hlast : last ≠ [] := hnonempty last (hsplit ▸ List.mem_concat_self)
  have htext := toList_dropFinalFeeds_lines hdelimiter before hlast
  rw [← hsplit] at htext
  refine ⟨_, ?_, htext⟩
  rw [delimited, htexts]
  simp only [hheader]
  rfl

/-! Texts as cells -/

/-- The delimiter of a form that is delimited text. -/
def delimiter? : SheetFormat → Option Char
  | .csv => some ','
  | .tsv => some '\t'
  | .table | .json | .minimal => none

theorem isDelimiter_of_delimiter? {format : SheetFormat} (h : delimiter? format = some delimiter) :
    IsDelimiter delimiter := by
  cases format with
  | csv =>
    cases h
    exact isDelimiter_comma
  | tsv =>
    cases h
    exact isDelimiter_tab
  | table | json | minimal => contradiction

theorem render_eq_delimited {style : SheetStyle} (sheet : Sheet)
    (h : delimiter? style.format = some delimiter) :
    sheet.render style = sheet.delimited delimiter style := by
  unfold render
  cases hformat : style.format <;> rw [hformat] at h <;> cases h <;> rfl

/-- The sheet whose cells are texts. -/
def ofTexts (headers : List String) (rows : List (List String)) : Sheet :=
  ⟨headers, rows.map (·.map Cell.text)⟩

theorem texts_ofTexts (headers : List String) (rows : List (List String)) (missing : String)
    (places : Int) : (ofTexts headers rows).texts missing places = .ok rows := by
  have hcells (row : List String) :
      (row.map Cell.text).mapM (Cell.shown missing places) = .ok row := by
    rw [List.mapM_map]
    exact (mapM_eq_ok_map fun _ _ => rfl).trans (congrArg Except.ok (List.map_id' row))
  rw [texts, ofTexts, List.mapM_map]
  exact (mapM_eq_ok_map fun row _ => hcells row).trans (congrArg Except.ok (List.map_id' rows))

/-- The records that are written: the rows, below the header row unless that is left out. -/
def written (style : SheetStyle) (headers : List String) (rows : List (List String)) :
    List (List String) :=
  if style.noHeader then rows else headers :: rows

/-- A sheet of texts is written as delimited text from which the header row, unless it is left out,
and the rows are read again, if each row has a cell for each header and no cell has a carriage
return or is too long for a field. -/
theorem delimited_text_reads_back {headers : List String} {rows : List (List String)}
    {style : SheetStyle} (hformat : delimiter? style.format = some delimiter)
    (hheaders : headers ≠ []) (hwidth : ∀ row ∈ rows, row.length = headers.length)
    (hcells : ∀ record ∈ written style headers rows, ∀ cell ∈ record, IsKept cell.toList) :
    ∃ text, (ofTexts headers rows).render style = .ok text ∧
      read delimiter text.toList = ⟨written style headers rows, false⟩ := by
  have hdelimiter := isDelimiter_of_delimiter? hformat
  have hnonempty : ∀ record ∈ written style headers rows, record ≠ [] := by
    have hrows : ∀ row ∈ rows, row ≠ [] := by
      intro row hrow
      rw [← List.length_pos_iff, hwidth row hrow]
      exact List.length_pos_of_ne_nil hheaders
    unfold written
    split_ifs
    · exact hrows
    · exact List.forall_mem_cons.mpr ⟨hheaders, hrows⟩
  refine ⟨_, ?_, read_dropFinalFeeds hdelimiter hcells hnonempty⟩
  rw [render_eq_delimited _ hformat, delimited, texts_ofTexts]
  rfl

/-- One column of empty cells and of cells with quotes and line feeds, without its header. -/
theorem column_of_empty_cells_reads_back :
    let headers := ["note"]
    let rows := [[""], ["say \"no\"\n"], ["a,b"], ["\n"], [""], [""]]
    let style : SheetStyle := { format := .csv, noHeader := true }
    (delimiter? style.format = some ',' ∧ headers ≠ [] ∧
      (∀ row ∈ rows, row.length = headers.length) ∧
      ∀ record ∈ written style headers rows, ∀ cell ∈ record, IsKept cell.toList) ∧
    ∃ text, (ofTexts headers rows).render style = .ok text ∧
      read ',' text.toList = ⟨rows, false⟩ := by
  intro headers rows style
  have hformat : delimiter? style.format = some ',' := rfl
  have hheaders : headers ≠ [] := List.cons_ne_nil _ _
  have hwidth : ∀ row ∈ rows, row.length = headers.length := by decide
  have hcells : ∀ record ∈ written style headers rows, ∀ cell ∈ record, IsKept cell.toList := by
    have hfields : ∀ row ∈ rows, ∀ cell ∈ row,
        '\r' ∉ cell.toList ∧ cell.toList.length ≤ mostChars := by
      decide +kernel
    intro row hrow cell hcell
    obtain ⟨hreturn, hlength⟩ := hfields row hrow cell hcell
    exact ⟨hreturn, hlength⟩
  exact ⟨⟨hformat, hheaders, hwidth, hcells⟩,
    delimited_text_reads_back hformat hheaders hwidth hcells⟩

end Bourse.Sheet
