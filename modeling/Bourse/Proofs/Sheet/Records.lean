import Bourse.Proofs.Datum
import Bourse.Proofs.Entries
import Bourse.Proofs.Number.DecimalPlaces
import Bourse.Proofs.Results
import Bourse.Sheet.Basic

/-! Rows as records. Every cell has a value, where a number is rounded and no number is null, and the
record of a row has these values under the headers. -/
namespace Bourse

namespace Cell

variable {cell : Cell} {v : Json}

/-- Whether a cell has no integer of too many digits. -/
def IsWritable : Cell → Prop
  | whole n => (Datum.int n).isWritable = true
  | absent | truth _ | real _ | text _ => True

theorem shown_text (missing text : String) {places : ℤ} :
    shown missing places (.text text) = .ok text := rfl

theorem shown_whole (missing : String) {places n : ℤ} (h : (Datum.int n).isWritable = true) :
    shown missing places (.whole n) = .ok (Layout.integer n) := if_pos h

theorem shown_real (missing : String) {places : ℤ} (hlow : 0 ≤ places) (hhigh : places ≤ mostPlaces)
    {x : Float} (hx : x.isNaN = false) :
    shown missing places (.real x) = .ok (Layout.fixed places.toNat x) := by
  have hmissing : ¬(Cell.real x).isMissing = true := by
    rw [isMissing, hx]
    exact Bool.false_ne_true
  rw [shown, if_neg hmissing, realText, if_neg (by omega)]

/-- Whether a cell has an infinite number. -/
def IsInfinite : Cell → Prop
  | real x => ∃ negative, Binary64.ofFloat x = .infinity negative
  | absent | truth _ | whole _ | text _ => False

/-- Whether a JSON value is that of a cell: null where there is no number or nothing at all, and a
number rounded to decimal places. -/
inductive IsValue (places : ℕ) : Cell → Json → Prop
  | absent : IsValue places .absent .null
  | truth (b : Bool) : IsValue places (.truth b) (.bool b)
  | whole (n : ℤ) : IsValue places (.whole n) (.int n)
  | text (s : String) : IsValue places (.text s) (.text s)
  | nan {x : Float} (h : x.isNaN = true) : IsValue places (.real x) .null
  | infinite {x : Float} {negative : Bool} (h : Binary64.ofFloat x = .infinity negative) :
    IsValue places (.real x) (.real x)
  | finite {x y : Float} (h : Binary64.IsRounded places x y) : IsValue places (.real x) (.real y)

theorem exists_isValue {places : ℤ} (hplaces : 0 ≤ places) (cell : Cell) :
    ∃ v, cell.toJson places = .ok v ∧ IsValue places.toNat cell v := by
  cases cell with
  | absent => exact ⟨_, rfl, .absent⟩
  | truth b => exact ⟨_, rfl, .truth b⟩
  | whole n => exact ⟨_, rfl, .whole n⟩
  | text s => exact ⟨_, rfl, .text s⟩
  | real x =>
    unfold toJson
    by_cases hnan : x.isNaN = true
    · exact ⟨.null, if_pos hnan, .nan hnan⟩
    · have hmissing : ¬(Cell.real x).isMissing = true := hnan
      rw [if_neg hmissing]
      dsimp only
      cases hx : Binary64.ofFloat x with
      | nan => exact absurd (Binary64.ofFloat_eq_nan_iff.mp hx) hnan
      | infinity negative =>
        have hround : roundPlaces? places x = some x := by rw [roundPlaces?, hx]
        rw [hround]
        exact ⟨.real x, rfl, .infinite hx⟩
      | finite negative mantissa exponent =>
        obtain ⟨y, hround, hy⟩ := Binary64.roundPlaces?_of_finite hx places.toNat
        rw [Int.toNat_of_nonneg hplaces] at hround
        rw [hround]
        exact ⟨.real y, rfl, .finite hy⟩

theorem IsValue.isWritable_iff {places : ℕ} (h : IsValue places cell v) :
    (Datum.ofJson v).isWritable = true ↔ cell.IsWritable := by
  cases h with
  | whole n => exact Iff.rfl
  | _ => exact iff_of_true rfl trivial

end Cell

namespace Datum

theorem areWritable_ofItems_iff {items : List Json} : areWritable (ofItems items) = true ↔
    ∀ item ∈ items, (ofJson item).isWritable = true := by
  induction items with
  | nil => exact iff_of_true rfl (List.forall_mem_nil _)
  | cons item rest ih => rw [ofItems, areWritable, Bool.and_eq_true, ih, List.forall_mem_cons]

theorem areEntriesWritable_ofMembers_iff {members : List (String × Json)} :
    areEntriesWritable (ofMembers members) = true ↔
      ∀ member ∈ members, (ofJson member.2).isWritable = true := by
  induction members with
  | nil => exact iff_of_true rfl (List.forall_mem_nil _)
  | cons member rest ih =>
    have hname : (Datum.text member.1).isWritable = true := rfl
    rw [ofMembers, areEntriesWritable, hname, Bool.true_and, Bool.and_eq_true, ih,
      List.forall_mem_cons]

end Datum

namespace Sheet

variable {sheet : Sheet} {places : ℤ} {headers : List String} {row : List Cell}

theorem mapM_zip_eq_ok {values : List Json}
    (h : List.Forall₂ (fun cell v => cell.toJson places = .ok v) row values)
    (headers : List String) :
    ((headers.zip row).mapM fun (header, cell) => do return (header, ← cell.toJson places)) =
      .ok (headers.zip values) := by
  induction h generalizing headers with
  | nil => rw [List.zip_nil_right, List.zip_nil_right, List.mapM_nil]; rfl
  | cons hcell _ ih =>
    cases headers with
    | nil => rfl
    | cons header headers =>
      rw [List.zip_cons_cons, List.zip_cons_cons, List.mapM_cons, ih]
      dsimp only
      rw [hcell]
      rfl

/-- Every row has a record, in which the last value counts under a repeated header. -/
theorem exists_record (hplaces : 0 ≤ places) (headers : List String) (row : List Cell) :
    ∃ values, List.Forall₂ (Cell.IsValue places.toNat) row values ∧
      record places headers row = .ok (.record (Entries.putAll [] (headers.zip values))) := by
  obtain ⟨values, hvalues⟩ : Succeeds (row.mapM (Cell.toJson places)) := by
    apply succeeds_mapM_iff.mpr
    intro cell _
    obtain ⟨v, hv, -⟩ := Cell.exists_isValue hplaces cell
    exact ⟨v, hv⟩
  have hcells := mapM_eq_ok_iff_forall₂.mp hvalues
  refine ⟨values, hcells.imp ?_, bind_eq_ok_iff.mpr ⟨_, mapM_zip_eq_ok hcells headers, rfl⟩⟩
  intro cell v hv
  obtain ⟨w, hw, hvalue⟩ := Cell.exists_isValue hplaces cell
  rw [hv] at hw
  cases hw
  exact hvalue

/-- Whether a JSON value is the record of a row under its headers. -/
def IsRecord (places : ℕ) (headers : List String) (row : List Cell) (v : Json) : Prop :=
  ∃ values, List.Forall₂ (Cell.IsValue places) row values ∧ v = .record (headers.zip values)

theorem isRecord_of_record (hnames : headers.Nodup) (hwidth : row.length = headers.length)
    (hplaces : 0 ≤ places) {v : Json} (h : record places headers row = .ok v) :
    IsRecord places.toNat headers row v := by
  obtain ⟨values, hvalues, hrecord⟩ := exists_record hplaces headers row
  rw [h] at hrecord
  cases hrecord
  refine ⟨values, hvalues, ?_⟩
  have hdistinct : ((headers.zip values).map (·.1)).Nodup := by
    rwa [List.map_fst_zip (hwidth.symm.trans hvalues.length_eq).le]
  rw [Entries.putAll_of_nodup hdistinct]

/-- Every sheet is a list of records, one for each row. -/
theorem exists_toJson (hplaces : 0 ≤ places) (sheet : Sheet) :
    ∃ records, sheet.toJson places = .ok (.list records) ∧
      List.Forall₂ (fun row v => record places sheet.headers row = .ok v) sheet.rows records := by
  obtain ⟨records, hrecords⟩ : Succeeds (sheet.rows.mapM (record places sheet.headers)) := by
    apply succeeds_mapM_iff.mpr
    intro row _
    obtain ⟨values, -, hrecord⟩ := exists_record hplaces sheet.headers row
    exact ⟨_, hrecord⟩
  exact ⟨records, bind_eq_ok_iff.mpr ⟨records, hrecords, rfl⟩, mapM_eq_ok_iff_forall₂.mp hrecords⟩

end Sheet

end Bourse
