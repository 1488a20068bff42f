import Bourse.Proofs.Sheet.Columns
import Bourse.Proofs.Sheet.Records

/-! Sheets that can be written. Where every row has a cell for each header, and no integer has too
many digits, a sheet has a text in every form. -/
namespace Bourse

namespace Cell

variable {cell : Cell} {places : ℤ}

theorem succeeds_shown (h : cell.IsWritable) (hlow : 0 ≤ places) (hhigh : places ≤ mostPlaces)
    (missing : String) : Succeeds (cell.shown missing places) := by
  unfold shown
  split_ifs
  · exact succeeds_ok missing
  · cases cell with
    | absent => exact succeeds_ok missing
    | truth b => exact succeeds_ok _
    | whole n =>
      have htext : wholeText n = .ok (Layout.integer n) := if_pos h
      exact ⟨_, htext⟩
    | real x =>
      have htext : realText places x = .ok (Layout.fixed places.toNat x) := if_neg (by omega)
      exact ⟨_, htext⟩
    | text s => exact succeeds_ok s

end Cell

namespace Sheet

variable {sheet : Sheet} {places : ℤ}

/-- Whether the rows have a writable cell for each header. -/
structure IsRegular (sheet : Sheet) : Prop where
  headers : sheet.headers ≠ []
  width : ∀ row ∈ sheet.rows, row.length = sheet.headers.length
  cells : ∀ row ∈ sheet.rows, ∀ cell ∈ row, cell.IsWritable

theorem IsRegular.exists_texts (h : sheet.IsRegular) (hlow : 0 ≤ places)
    (hhigh : places ≤ Cell.mostPlaces) (missing : String) :
    ∃ rows, sheet.texts missing places = .ok rows ∧
      ∀ row ∈ rows, row.length = sheet.headers.length := by
  obtain ⟨rows, hrows⟩ : Succeeds (sheet.texts missing places) := by
    apply succeeds_mapM_iff.mpr
    intro row hrow
    apply succeeds_mapM_iff.mpr
    intro cell hcell
    exact Cell.succeeds_shown (h.cells row hrow cell hcell) hlow hhigh missing
  refine ⟨rows, hrows, ?_⟩
  intro row hrow
  obtain ⟨cells, hcells, htexts⟩ := exists_of_mem_mapM hrows hrow
  rw [← h.width cells hcells]
  exact (mapM_eq_ok_iff_forall₂.mp htexts).length_eq.symm

theorem IsRegular.isWritable_of_record (h : sheet.IsRegular) (hplaces : 0 ≤ places) {row : List Cell}
    (hrow : row ∈ sheet.rows) {v : Json} (hv : record places sheet.headers row = .ok v) :
    (Datum.ofJson v).isWritable = true := by
  obtain ⟨values, hvalues, hrecord⟩ := exists_record hplaces sheet.headers row
  rw [hv] at hrecord
  cases hrecord
  apply Datum.areEntriesWritable_ofMembers_iff.mpr
  intro member hmember
  have hmem := (Entries.mem_of_mem_putAll hmember).resolve_left List.not_mem_nil
  obtain ⟨cell, hcell, hvalue⟩ := exists_of_mem_forall₂ hvalues.flip (List.of_mem_zip hmem).2
  exact hvalue.isWritable_iff.mpr (h.cells row hrow cell hcell)

theorem IsRegular.succeeds_jsonText (h : sheet.IsRegular) {style : SheetStyle}
    (hplaces : 0 ≤ style.places) : Succeeds (sheet.jsonText style) := by
  obtain ⟨records, hjson, hrecords⟩ := exists_toJson hplaces sheet
  have hwritable : (Datum.ofJson (.list records)).isWritable = true := by
    apply Datum.areWritable_ofItems_iff.mpr
    intro v hv
    obtain ⟨row, hrow, hrecord⟩ := exists_of_mem_forall₂ hrecords.flip hv
    exact h.isWritable_of_record hplaces hrow hrecord
  exact ⟨_, bind_eq_ok_iff.mpr ⟨_, hjson, if_pos hwritable⟩⟩

/-- A sheet whose rows have a writable cell for each header has a text in every form. -/
theorem IsRegular.succeeds_render (h : sheet.IsRegular) {style : SheetStyle}
    (hlow : 0 ≤ style.places) (hhigh : style.places ≤ Cell.mostPlaces) :
    Succeeds (sheet.render style) := by
  obtain ⟨rows, hrows, hwidth⟩ := h.exists_texts hlow hhigh dash
  obtain ⟨cells, hcells, -⟩ := h.exists_texts hlow hhigh ""
  unfold render
  cases style.format with
  | table =>
    obtain ⟨widths, -, hlines⟩ := Table.exists_lines? h.headers hwidth style.noHeader
    apply succeeds_bind_iff.mpr
    refine ⟨rows, hrows, ?_⟩
    rw [hlines]
    exact succeeds_ok _
  | csv | tsv => exact ⟨_, bind_eq_ok_iff.mpr ⟨cells, hcells, rfl⟩⟩
  | json => exact h.succeeds_jsonText hlow
  | minimal => exact ⟨_, bind_eq_ok_iff.mpr ⟨rows, hrows, rfl⟩⟩

end Sheet

end Bourse
