import Bourse.Proofs.Json.Refusal
import Bourse.Proofs.Sheet.Records
import Bourse.Sheet.Render

/-! Sheets as JSON. Where the headers are distinct and every row has a cell for each of them, the text
of a sheet denotes the records of its rows, except that the text is no JSON if a number is infinite,
and that there is none if an integer has too many digits. -/
namespace Bourse

namespace Cell

open Json

variable {cell : Cell} {places : ℕ} {v : Json}

/-- The value of a cell can be printed unless the cell is infinite. -/
theorem IsValue.isPrintable_iff (h : IsValue places cell v) : IsPrintable v ↔ ¬cell.IsInfinite := by
  cases h with
  | finite hround =>
    apply iff_of_true hround.isFinite
    obtain ⟨_, _, _, _, hx, -, -⟩ := hround
    rintro ⟨negative, hinfinite⟩
    rw [hx] at hinfinite
    contradiction
  | infinite hinfinite =>
    apply iff_of_false
    · rintro ⟨_, _, _, hx⟩
      rw [hinfinite] at hx
      contradiction
    · exact not_not_intro ⟨_, hinfinite⟩
  | nan hnan =>
    apply iff_of_true trivial
    rintro ⟨negative, hinfinite⟩
    rw [Binary64.ofFloat_eq_nan_iff.mpr hnan] at hinfinite
    contradiction
  | _ => exact iff_of_true trivial not_false

theorem IsValue.hasDistinctNames (h : IsValue places cell v) : HasDistinctNames v := by
  cases h <;> exact trivial

end Cell

namespace Sheet

open Json

section Records

variable {places : ℕ} {headers : List String} {row : List Cell} {v : Json}

/-- Under distinct headers the names of a record are distinct, and what holds of its values holds of
the cells of the row. -/
theorem IsRecord.exists_members (hnames : headers.Nodup) (hwidth : row.length = headers.length)
    (h : IsRecord places headers row v) :
    ∃ members, v = .record members ∧ (members.map (·.1)).Nodup ∧
      ∀ {P : Json → Prop} {Q : Cell → Prop},
        (∀ cell v, Cell.IsValue places cell v → (P v ↔ Q cell)) →
          ((∀ member ∈ members, P member.2) ↔ ∀ cell ∈ row, Q cell) := by
  obtain ⟨values, hvalues, rfl⟩ := h
  have hlength : headers.length = values.length := hwidth.symm.trans hvalues.length_eq
  refine ⟨headers.zip values, rfl, ?_, ?_⟩
  · rwa [List.map_fst_zip hlength.le]
  · intro P Q hiff
    have hsecond : (∀ member ∈ headers.zip values, P member.2) ↔ ∀ v ∈ values, P v := by
      rw [← List.forall_mem_map, List.map_snd_zip hlength.ge]
    exact hsecond.trans (forall_mem_iff_of_forall₂ (fun v cell hv => hiff cell v hv) hvalues.flip)

theorem IsRecord.hasDistinctNames (hnames : headers.Nodup) (hwidth : row.length = headers.length)
    (h : IsRecord places headers row v) : HasDistinctNames v := by
  obtain ⟨members, rfl, hdistinct, hmembers⟩ := h.exists_members hnames hwidth
  refine ⟨hdistinct, everywhereInMembers_iff.mpr ?_⟩
  apply (hmembers (Q := fun _ => True) fun _ _ hv => iff_of_true hv.hasDistinctNames trivial).mpr
  exact fun _ _ => trivial

theorem IsRecord.isPrintable_iff (hnames : headers.Nodup) (hwidth : row.length = headers.length)
    (h : IsRecord places headers row v) : IsPrintable v ↔ ∀ cell ∈ row, ¬cell.IsInfinite := by
  obtain ⟨members, rfl, hdistinct, hmembers⟩ := h.exists_members hnames hwidth
  rw [← hmembers fun _ _ hv => hv.isPrintable_iff]
  exact (and_iff_right hdistinct).trans everywhereInMembers_iff

theorem IsRecord.isWritable_iff (hnames : headers.Nodup) (hwidth : row.length = headers.length)
    (h : IsRecord places headers row v) :
    (Datum.ofJson v).isWritable = true ↔ ∀ cell ∈ row, cell.IsWritable := by
  obtain ⟨members, rfl, -, hmembers⟩ := h.exists_members hnames hwidth
  rw [← hmembers fun _ _ hv => hv.isWritable_iff]
  exact Datum.areEntriesWritable_ofMembers_iff

end Records

variable {sheet : Sheet} {style : SheetStyle}

/-- The records of a sheet, and what makes a text of them. -/
theorem exists_records (hnames : sheet.headers.Nodup)
    (hwidth : ∀ row ∈ sheet.rows, row.length = sheet.headers.length) (hplaces : 0 ≤ style.places) :
    ∃ records, List.Forall₂ (IsRecord style.places.toNat sheet.headers) sheet.rows records ∧
      sheet.jsonText style =
        if (Datum.ofJson (.list records)).isWritable then .ok ((Json.list records).indented 0)
        else .error .badPlaces := by
  obtain ⟨records, hjson, hrecords⟩ := exists_toJson hplaces sheet
  refine ⟨records, ?_, ?_⟩
  · have hrows := (List.forall₂_and_left _ _).mpr ⟨hwidth, hrecords⟩
    exact hrows.imp fun row v h => isRecord_of_record hnames h.1 hplaces h.2
  · rw [jsonText, hjson]
    rfl

theorem forall_records {records : List Json} {P : Json → Prop} {Q : Cell → Prop}
    (hwidth : ∀ row ∈ sheet.rows, row.length = sheet.headers.length)
    (hrecords : List.Forall₂ (IsRecord style.places.toNat sheet.headers) sheet.rows records)
    (hiff : ∀ row v, row.length = sheet.headers.length →
      IsRecord style.places.toNat sheet.headers row v → (P v ↔ ∀ cell ∈ row, Q cell)) :
    (∀ v ∈ records, P v) ↔ ∀ row ∈ sheet.rows, ∀ cell ∈ row, Q cell := by
  have hrows := (List.forall₂_and_left _ _).mpr ⟨hwidth, hrecords⟩
  exact forall_mem_iff_of_forall₂ (fun v row h => hiff row v h.1 h.2) hrows.flip

/-- The text of a sheet is JSON, and denotes the records of the rows, exactly if no number is infinite
and no integer has too many digits. -/
theorem json_denotes_records (hnames : sheet.headers.Nodup)
    (hwidth : ∀ row ∈ sheet.rows, row.length = sheet.headers.length)
    (hformat : style.format = .json) (hplaces : 0 ≤ style.places) :
    ∃ records, List.Forall₂ (IsRecord style.places.toNat sheet.headers) sheet.rows records ∧
      ((∃ text v, sheet.render style = .ok text ∧ IsJsonText text v) ↔
        ∀ row ∈ sheet.rows, ∀ cell ∈ row, cell.IsWritable ∧ ¬cell.IsInfinite) ∧
      ∀ text v, sheet.render style = .ok text → IsJsonText text v → v = .list records := by
  obtain ⟨records, hrecords, htext⟩ := exists_records hnames hwidth hplaces
  have hrender : sheet.render style = sheet.jsonText style := by rw [render, hformat]
  have hdistinct : HasDistinctNames (.list records) := by
    apply everywhereInItems_iff.mpr
    intro v hv
    obtain ⟨row, hrow, hrecord⟩ := exists_of_mem_forall₂ hrecords.flip hv
    exact IsRecord.hasDistinctNames hnames (hwidth row hrow) hrecord
  have hprintable : IsPrintable (.list records) ↔
      ∀ row ∈ sheet.rows, ∀ cell ∈ row, ¬cell.IsInfinite :=
    everywhereInItems_iff.trans (forall_records hwidth hrecords
      fun row v hlength h => h.isPrintable_iff hnames hlength)
  have hwritable : (Datum.ofJson (.list records)).isWritable = true ↔
      ∀ row ∈ sheet.rows, ∀ cell ∈ row, cell.IsWritable :=
    Datum.areWritable_ofItems_iff.trans (forall_records hwidth hrecords
      fun row v hlength h => h.isWritable_iff hnames hlength)
  have htexts : (∃ text v, sheet.render style = .ok text ∧ IsJsonText text v) ↔
      (Datum.ofJson (.list records)).isWritable = true ∧
        ∃ v, IsJsonText ((Json.list records).indented 0) v := by
    rw [hrender, htext]
    constructor
    · rintro ⟨text, v, hok, hv⟩
      split_ifs at hok with hall
      cases hok
      exact ⟨hall, v, hv⟩
    · rintro ⟨hall, v, hv⟩
      exact ⟨_, v, if_pos hall, hv⟩
  refine ⟨records, hrecords, ?_, ?_⟩
  · simp only [forall_and]
    rw [htexts, isJsonText_indented_iff hdistinct, hwritable, hprintable]
  · intro text v hok hv
    obtain ⟨-, hprint⟩ := htexts.mp ⟨text, v, hok, hv⟩
    rw [hrender, htext] at hok
    split_ifs at hok
    cases hok
    exact hv.unique (isJsonText_indented ((isJsonText_indented_iff hdistinct).mp hprint))

/-- A text with an accent and a number with more places than are shown, beside nothing and an
integer. -/
theorem json_of_two_rows_denotes_records :
    let ratio := Binary64.floatOfCode false 4598175219545276417
    let sheet : Sheet := ⟨["name", "ratio"], [[.text "Société", .real ratio], [.absent, .whole 7]]⟩
    let style : SheetStyle := { format := .json }
    sheet.headers.Nodup ∧ (∀ row ∈ sheet.rows, row.length = sheet.headers.length) ∧
      style.format = .json ∧ 0 ≤ style.places ∧
      ∃ records, List.Forall₂ (IsRecord style.places.toNat sheet.headers) sheet.rows records ∧
        ∃ text, sheet.render style = .ok text ∧ IsJsonText text (.list records) := by
  intro ratio sheet style
  have hnames : sheet.headers.Nodup := by decide
  have hwidth : ∀ row ∈ sheet.rows, row.length = sheet.headers.length :=
    List.forall_mem_cons.mpr ⟨rfl, List.forall_mem_singleton.mpr rfl⟩
  refine ⟨hnames, hwidth, rfl, by decide, ?_⟩
  have hformat : style.format = .json := rfl
  obtain ⟨records, hrecords, hiff, hunique⟩ := json_denotes_records hnames hwidth hformat (by decide)
  have hratio : ¬(Cell.real ratio).IsInfinite := by
    rintro ⟨negative, hinfinite⟩
    obtain ⟨_, _, _, hx⟩ := Binary64.isFinite_floatOfCode false
      (by decide : 4598175219545276417 < Binary64.infinityCode)
    rw [hinfinite] at hx
    contradiction
  have hwhole : (Datum.int 7).isWritable = true := by decide
  have hcells : ∀ row ∈ sheet.rows, ∀ cell ∈ row, cell.IsWritable ∧ ¬cell.IsInfinite := by
    simp only [sheet, List.forall_mem_cons]
    exact ⟨⟨⟨trivial, not_false⟩, ⟨trivial, hratio⟩, List.forall_mem_nil _⟩,
      ⟨⟨trivial, not_false⟩, ⟨hwhole, not_false⟩, List.forall_mem_nil _⟩, List.forall_mem_nil _⟩
  obtain ⟨text, v, htext, hv⟩ := hiff.mpr hcells
  obtain rfl := hunique text v htext hv
  exact ⟨records, hrecords, text, htext, hv⟩

/-- An infinite number is printed as a word that JSON does not have. -/
theorem json_of_infinity_is_no_json :
    let sheet : Sheet := ⟨["ratio"], [[.real (Binary64.infiniteFloat false)]]⟩
    let style : SheetStyle := { format := .json }
    let text := "[\n  \x7b\n    \"ratio\": Infinity\n  \x7d\n]"
    sheet.headers.Nodup ∧ (∀ row ∈ sheet.rows, row.length = sheet.headers.length) ∧
      style.format = .json ∧ 0 ≤ style.places ∧
      sheet.render style = .ok text ∧ ∀ v, ¬IsJsonText text v := by
  intro sheet style text
  have hinfinite := Binary64.ofFloat_infiniteFloat false
  have hnumber : compact (.real (Binary64.infiniteFloat false)) = "Infinity" := by
    rw [compact, number, hinfinite]
    rfl
  have hcell : Cell.toJson 2 (.real (Binary64.infiniteFloat false)) =
      .ok (.real (Binary64.infiniteFloat false)) := by
    have hnan : ¬(Cell.real (Binary64.infiniteFloat false)).isMissing = true := by
      rw [Cell.isMissing, ← Binary64.ofFloat_eq_nan_iff, hinfinite]
      intro hequal
      contradiction
    rw [Cell.toJson, if_neg hnan, roundPlaces?, hinfinite]
  have hrecord : record 2 ["ratio"] [.real (Binary64.infiniteFloat false)] =
      .ok (.record [("ratio", .real (Binary64.infiniteFloat false))]) :=
    bind_eq_ok_iff.mpr ⟨_, mapM_zip_eq_ok (.cons hcell .nil) _, rfl⟩
  have hjson : sheet.toJson 2 =
      .ok (.list [.record [("ratio", .real (Binary64.infiniteFloat false))]]) :=
    bind_eq_ok_iff.mpr ⟨_, mapM_eq_ok_iff_forall₂.mpr (.cons hrecord .nil), rfl⟩
  have hprinted : indented 0 (.list [.record [("ratio", .real (Binary64.infiniteFloat false))]]) =
      text := by
    simp only [indented, indentedItems, indentedMembers]
    rw [hnumber]
    decide
  refine ⟨by decide, List.forall_mem_singleton.mpr rfl, rfl, by decide, ?_, ?_⟩
  · have hrender : sheet.render style = sheet.jsonText style := rfl
    rw [hrender, jsonText, hjson, ← hprinted]
    rfl
  · intro v hv
    have hnone : (Json.read? text).isNone = true := by decide +kernel
    rw [hv.read?] at hnone
    contradiction

end Sheet

end Bourse
