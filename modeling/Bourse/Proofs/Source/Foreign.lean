import Bourse.Proofs.Source.Content
import Mathlib.Logic.Relation

/-! Rows that have nothing to do with a request. A row of another symbol, without a timestamp or with
a timestamp outside of the range is passed over before any of its numbers is looked at. So such rows
may be put in anywhere, taken out, or filled with other numbers: the history of the symbol stays the
same, or the error does. -/
namespace Bourse

/-- Whether the columns have seven different names. -/
def CsvColumns.AreDistinct (columns : CsvColumns) : Prop :=
  (columns.symbol :: columns.timestamp :: columns.volume :: columns.prices).Nodup

namespace Row

open Csv

variable {settings : CsvSettings} {symbol : String} {range : Option DateRange} {row row' : Row}

/-- Whether a row has nothing to do with a symbol and a range. -/
inductive IsForeign (settings : CsvSettings) (symbol : String) (range : Option DateRange) (row : Row) :
    Prop
  /-- The row names another symbol. -/
  | symbol {name : String} (hname : Datum.get? row settings.columns.symbol = some (.text name))
      (hne : name ≠ "") (hother : Text.upper name ≠ Text.upper symbol)
  /-- The timestamp of the row is missing or empty. -/
  | timestamp (hempty : ∀ text, Datum.get? row settings.columns.timestamp = some (.text text) →
      text = "")
  /-- The row has a time, and that is not in the range. -/
  | range {time : Int} {bounds : DateRange} (hdated : row.IsDated settings time)
      (hbounds : bounds ∈ range)
      (houtside : ¬(bounds.start.timestamp ≤ time ∧ time < bounds.stop.timestamp))

/-- It depends on two cells only whether a row is foreign. -/
theorem IsForeign.congr
    (hsymbol : Datum.get? row' settings.columns.symbol = Datum.get? row settings.columns.symbol)
    (htimestamp : Datum.get? row' settings.columns.timestamp =
      Datum.get? row settings.columns.timestamp)
    (h : row.IsForeign settings symbol range) : row'.IsForeign settings symbol range := by
  cases h with
  | symbol hname hne hother => exact .symbol (hsymbol.trans hname) hne hother
  | timestamp hempty =>
    apply IsForeign.timestamp
    intro text htext
    exact hempty text (htimestamp.symm.trans htext)
  | range hdated hbounds houtside =>
    refine .range ?_ hbounds houtside
    rw [IsDated, htimestamp]
    exact hdated

/-- A foreign row is passed over, whatever its other cells hold. -/
theorem IsForeign.bar? (h : row.IsForeign settings symbol range) :
    Csv.bar? settings symbol range row = .ok none := by
  cases hrow : row.isOf settings.columns symbol with
  | false => exact bar?_of_foreign hrow
  | true =>
    cases h with
    | symbol hname hne hother => exact absurd (isOf_iff.mp hrow _ hname hne) hother
    | timestamp hempty =>
      apply bar?_of_undated
      apply Option.eq_none_iff_forall_ne_some.mpr
      intro text htext
      obtain ⟨hcell, hne⟩ := text?_eq_some_iff.mp htext
      exact hne (hempty text hcell)
    | range hdated hbounds houtside =>
      obtain ⟨text, htext, htime⟩ := isDated_iff_text?.mp hdated
      rw [bar?_of_dated hrow htext, ← trimmed, htime]
      -- the time is looked at before the numbers are
      exact if_neg fun hwanted => houtside (isWanted_iff.mp hwanted _ hbounds)

/-- The numbers of a foreign row may be replaced: it stays foreign. -/
theorem IsForeign.setEntry (hcolumns : settings.columns.AreDistinct) {column : String}
    (hcolumn : column ∈ settings.columns.volume :: settings.columns.prices) (cell : String)
    (h : row.IsForeign settings symbol range) :
    IsForeign settings symbol range (Datum.setEntry (.text column) (.text cell) row) := by
  obtain ⟨hsymbol, hrest⟩ := List.nodup_cons.mp hcolumns
  obtain ⟨htimestamp, -⟩ := List.nodup_cons.mp hrest
  apply h.congr
  · apply Datum.get?_setEntry_of_ne
    rintro rfl
    exact hsymbol (List.mem_cons_of_mem _ hcolumn)
  · apply Datum.get?_setEntry_of_ne
    rintro rfl
    exact htimestamp hcolumn

end Row

namespace Csv

variable {settings : CsvSettings} {symbol : String} {range : Option DateRange}

/-- A change to the rows of a file that touches one foreign row: it is taken out, put in anywhere, or
the cell of its volume or of a price is replaced by any text. -/
inductive Edit (settings : CsvSettings) (symbol : String) (range : Option DateRange) :
    List Row → List Row → Prop
  | delete {before after : List Row} {row : Row} (hrow : row.IsForeign settings symbol range) :
      Edit settings symbol range (before ++ row :: after) (before ++ after)
  | insert {before after : List Row} {row : Row} (hrow : row.IsForeign settings symbol range) :
      Edit settings symbol range (before ++ after) (before ++ row :: after)
  | replace {before after : List Row} {row : Row} {column : String} (cell : String)
      (hrow : row.IsForeign settings symbol range)
      (hcolumn : column ∈ settings.columns.volume :: settings.columns.prices) :
      Edit settings symbol range (before ++ row :: after)
        (before ++ Datum.setEntry (.text column) (.text cell) row :: after)

/-- A row that is passed over makes no difference to what comes of the other rows. -/
theorem bars_of_passed_over {before after : List Row} {row : Row}
    (h : bar? settings symbol range row = .ok none) :
    bars settings symbol range (before ++ row :: after) =
      bars settings symbol range (before ++ after) := by
  induction before with
  | nil =>
    rw [List.nil_append, bars, h]
    rfl
  | cons first before ih => rw [List.cons_append, List.cons_append, bars, bars, ih]

/-- One edit changes nothing. -/
theorem Edit.bars_eq (hcolumns : settings.columns.AreDistinct) {rows rows' : List Row}
    (h : Edit settings symbol range rows rows') :
    bars settings symbol range rows' = bars settings symbol range rows := by
  cases h with
  | delete hrow => exact (bars_of_passed_over hrow.bar?).symm
  | insert hrow => exact bars_of_passed_over hrow.bar?
  | replace cell hrow hcolumn =>
    -- the row is passed over before and after its cell is replaced
    have hreplaced := hrow.setEntry hcolumns hcolumn cell
    rw [bars_of_passed_over hrow.bar?, bars_of_passed_over hreplaced.bar?]

/-- Any number of edits changes nothing. -/
theorem bars_eq_of_edits (hcolumns : settings.columns.AreDistinct) {rows rows' : List Row}
    (h : Relation.ReflTransGen (Edit settings symbol range) rows rows') :
    bars settings symbol range rows' = bars settings symbol range rows := by
  induction h with
  | refl => rfl
  | tail _ hlast ih => exact (hlast.bars_eq hcolumns).trans ih

/-- Whether a file is read as some rows, and whether its reading ends at a field that is too long or
goes up to the end of a text. -/
def IsReadAs (settings : CsvSettings) (rows : List Row) (isTooLong isWhole : Bool) : Stored → Prop
  | .file bytes => Csv.rows settings bytes = rows ∧
      (contents settings bytes).isTooLong = isTooLong ∧ (Text.decode bytes).isWhole = isWhole
  | _ => False

/-- The history of a file depends on its rows and on how its reading ends. -/
theorem history_congr {rows rows' : List Row} {isTooLong isWhole : Bool} {stored stored' : Stored}
    (h : IsReadAs settings rows isTooLong isWhole stored)
    (h' : IsReadAs settings rows' isTooLong isWhole stored')
    (hbars : bars settings symbol range rows' = bars settings symbol range rows)
    (intervalName : String) :
    history stored' settings symbol range intervalName =
      history stored settings symbol range intervalName := by
  cases stored with
  | folder | missing | blocked => contradiction
  | file bytes =>
    cases stored' with
    | folder | missing | blocked => contradiction
    | file bytes' =>
      obtain ⟨rfl, rfl, rfl⟩ := h
      obtain ⟨rfl, hlong, hwhole⟩ := h'
      have hfile : barsOfFile settings symbol range bytes' =
          barsOfFile settings symbol range bytes := by
        unfold barsOfFile
        split
        · next delimiter hdelimiter =>
          unfold Csv.rows contents at hbars
          unfold contents at hlong
          rw [hdelimiter] at hbars hlong
          dsimp only [List.headD_cons] at hbars hlong ⊢
          rw [barsOf, barsOf, hbars, hlong, hwhole]
        · rfl
      rw [history, history, barsOfStored, barsOfStored, hfile]

/-- Foreign rows cannot interfere. Under distinct names of columns no edits of them change what comes
of the rows; and two files that are read as such rows, and whose reading ends alike, have the same
history for the symbol and the range, or the same error. -/
theorem foreign_rows_do_not_interfere (hcolumns : settings.columns.AreDistinct) {rows rows' : List Row}
    (hedits : Relation.ReflTransGen (Edit settings symbol range) rows rows') :
    bars settings symbol range rows' = bars settings symbol range rows ∧
      ∀ (isTooLong isWhole : Bool) (stored stored' : Stored) (intervalName : String),
        IsReadAs settings rows isTooLong isWhole stored →
        IsReadAs settings rows' isTooLong isWhole stored' →
        history stored' settings symbol range intervalName =
          history stored settings symbol range intervalName := by
  have hbars := bars_eq_of_edits hcolumns hedits
  refine ⟨hbars, ?_⟩
  intro isTooLong isWhole stored stored' intervalName hstored hstored'
  exact history_congr hstored hstored' hbars intervalName

/-- A file with one row for the symbol X, perhaps behind other records. -/
def fileBehind (records : String) : ByteArray :=
  ("symbol,timestamp,open,high,low,close,volume\n" ++ records ++ "X,60,1,2,0.5,1.5,20\n").toUTF8

/-- A row of another symbol makes no difference, though nothing in it can be read. -/
theorem unreadable_row_of_another_symbol_is_ignored :
    let settings : CsvSettings := { path := "b.csv" }
    let plain := fileBehind ""
    let mixed := fileBehind "Y,never,?,?,?,?,?\n"
    settings.columns.AreDistinct ∧
      Relation.ReflTransGen (Edit settings "X" none) (rows settings plain) (rows settings mixed) ∧
      IsReadAs settings (rows settings plain) false true (.file plain) ∧
      IsReadAs settings (rows settings mixed) false true (.file mixed) ∧
      history (.file mixed) settings "X" none "1d" = history (.file plain) settings "X" none "1d" := by
  intro settings plain mixed
  let names := ["symbol", "timestamp", "open", "high", "low", "close", "volume"]
  let ours := ["X", "60", "1", "2", "0.5", "1.5", "20"]
  let theirs := ["Y", "never", "?", "?", "?", "?", "?"]
  have hplain : contents settings plain = ⟨[names, ours], false⟩ := by
    decide +kernel
  have hmixed : contents settings mixed = ⟨[names, theirs, ours], false⟩ := by
    decide +kernel
  have hcolumns : settings.columns.AreDistinct := by
    unfold CsvColumns.AreDistinct
    decide
  have hother : Text.upper "Y" ≠ Text.upper "X" := by
    decide +kernel
  have hforeign : (Row.ofRecord names theirs).IsForeign settings "X" none :=
    .symbol (by cbv) (by decide) hother
  have hplainRows : rows settings plain = [] ++ [Row.ofRecord names ours] := by
    rw [rows, hplain]
    rfl
  have hmixedRows : rows settings mixed =
      [] ++ Row.ofRecord names theirs :: [Row.ofRecord names ours] := by
    rw [rows, hmixed]
    rfl
  have hedits : Relation.ReflTransGen (Edit settings "X" none) (rows settings plain)
      (rows settings mixed) := by
    rw [hplainRows, hmixedRows]
    exact .single (.insert hforeign)
  have hplainRead : IsReadAs settings (rows settings plain) false true (.file plain) :=
    ⟨rfl, by rw [hplain], by decide +kernel⟩
  have hmixedRead : IsReadAs settings (rows settings mixed) false true (.file mixed) :=
    ⟨rfl, by rw [hmixed], by decide +kernel⟩
  exact ⟨hcolumns, hedits, hplainRead, hmixedRead,
    (foreign_rows_do_not_interfere hcolumns hedits).2 _ _ _ _ "1d" hplainRead hmixedRead⟩

end Csv

end Bourse
