import Bourse.Proofs.Sorting
import Bourse.Proofs.Source.Kept

/-! What a history holds. A row qualifies if it names the symbol or none, has a timestamp, and lies in
the range. Each row that qualifies gives one bar, with its own time and its own numbers, and there are
no other bars; they stand in the order of time, and those of one time in the order of the file. -/
namespace Bourse

namespace Row

open Csv

variable {settings : CsvSettings} {symbol : String} {range : Option DateRange} {row : Row}

theorem text?_eq_some_iff {column text : String} :
    row.text? column = some text ↔ Datum.get? row column = some (.text text) ∧ text ≠ "" := by
  unfold text?
  split
  · next found hfound =>
    rw [hfound, Option.some.injEq, Datum.text.injEq]
    split_ifs with hempty
    · refine iff_of_false nofun ?_
      rintro ⟨rfl, hne⟩
      exact hne hempty
    · rw [Option.some.injEq]
      refine ⟨?_, And.left⟩
      rintro rfl
      exact ⟨rfl, hempty⟩
  · next hother => exact iff_of_false nofun fun h => hother text h.1

/-- Whether the timestamp of a row is there and denotes a number of whole seconds. -/
def IsDated (settings : CsvSettings) (row : Row) (time : Int) : Prop :=
  ∃ text, Datum.get? row settings.columns.timestamp = some (.text text) ∧ text ≠ "" ∧
    timestamp settings (trimmed text) = .ok time

/-- Whether a row counts for a symbol and a range: the cell of its symbol is missing or empty or holds
the symbol in any case, and its time is not before the start of the range but before its end. -/
structure Qualifies (settings : CsvSettings) (symbol : String) (range : Option DateRange) (row : Row) :
    Prop where
  symbol : ∀ name, Datum.get? row settings.columns.symbol = some (.text name) → name ≠ "" →
    Text.upper name = Text.upper symbol
  dated : ∃ time, row.IsDated settings time ∧
    ∀ bounds ∈ range, bounds.start.timestamp ≤ time ∧ time < bounds.stop.timestamp

/-- Whether a bar is that of a row: it has the time of the row, the numbers in the columns of its
prices and the whole part of the number in the column of its volume. -/
structure HasBar (settings : CsvSettings) (row : Row) (bar : Bar Float) : Prop where
  dated : row.IsDated settings bar.timestamp
  opening : number row settings.columns.opening = .ok bar.opening
  high : number row settings.columns.high = .ok bar.high
  low : number row settings.columns.low = .ok bar.low
  close : number row settings.columns.close = .ok bar.close
  volume : Csv.volume row settings.columns.volume = .ok bar.volume

theorem isOf_iff : row.isOf settings.columns symbol = true ↔
    ∀ name, Datum.get? row settings.columns.symbol = some (.text name) → name ≠ "" →
      Text.upper name = Text.upper symbol := by
  have hname (name : String) : row.text? settings.columns.symbol = some name ↔
      Datum.get? row settings.columns.symbol = some (.text name) ∧ name ≠ "" := text?_eq_some_iff
  simp only [← and_imp, ← hname]
  unfold isOf
  cases row.text? settings.columns.symbol with
  | none => exact iff_of_true rfl nofun
  | some name =>
    rw [beq_iff_eq]
    constructor
    · rintro heq _ ⟨⟩
      exact heq
    · exact fun h => h name rfl

theorem isDated_iff_text? {time : Int} : row.IsDated settings time ↔
    ∃ text, row.text? settings.columns.timestamp = some text ∧
      timestamp settings (trimmed text) = .ok time := by
  simp only [IsDated, text?_eq_some_iff, and_assoc]

theorem isDated_iff_stamp? {time : Int} : row.IsDated settings time ↔
    ∃ stamp, row.stamp? settings = some stamp ∧ stamp.timestamp = time := by
  simp only [isDated_iff_text?, timestamp_eq_map_stamp, map_eq_ok_iff, stamp?, Option.bind_eq_some_iff]
  constructor
  · rintro ⟨text, htext, stamp, hstamp, htime⟩
    exact ⟨stamp, ⟨text, htext, by rw [hstamp, Except.toOption]⟩, htime⟩
  · rintro ⟨stamp, ⟨text, htext, hstamp⟩, htime⟩
    cases hread : Csv.stamp settings (trimmed text) with
    | error failure =>
      rw [hread] at hstamp
      contradiction
    | ok found =>
      rw [hread] at hstamp
      cases hstamp
      exact ⟨text, htext, stamp, hread, htime⟩

theorem isWanted_iff {time : Int} : isWanted range time = true ↔
    ∀ bounds ∈ range, bounds.start.timestamp ≤ time ∧ time < bounds.stop.timestamp := by
  cases range with
  | none => exact iff_of_true rfl nofun
  | some bounds => simp [isWanted, DateRange.covers]

theorem qualifies_iff_isKept :
    row.Qualifies settings symbol range ↔ isKept settings symbol (wants range) row = true := by
  rw [isKept, Bool.and_eq_true, isOf_iff, Option.any_eq_true]
  constructor
  · rintro ⟨hsymbol, time, hdated, hrange⟩
    obtain ⟨stamp, hstamp, rfl⟩ := isDated_iff_stamp?.mp hdated
    exact ⟨hsymbol, stamp, hstamp, isWanted_iff.mpr hrange⟩
  · rintro ⟨hsymbol, stamp, hstamp, hwanted⟩
    exact ⟨hsymbol, stamp.timestamp, isDated_iff_stamp?.mpr ⟨stamp, hstamp, rfl⟩,
      isWanted_iff.mp hwanted⟩

instance (settings : CsvSettings) (symbol : String) (range : Option DateRange) :
    DecidablePred (Qualifies settings symbol range) :=
  fun _ => decidable_of_iff' _ qualifies_iff_isKept

/-- What is read of a row is the bar of the row. -/
theorem hasBar_of_bar? {found : Bar Float} (h : bar? settings symbol range row = .ok (some found)) :
    row.HasBar settings found := by
  cases hrow : row.isOf settings.columns symbol with
  | false =>
    rw [bar?_of_foreign hrow] at h
    cases h
  | true =>
    cases htext : row.text? settings.columns.timestamp with
    | none =>
      rw [bar?_of_undated htext] at h
      cases h
    | some text =>
      rw [bar?_of_dated hrow htext] at h
      obtain ⟨time, htime, h⟩ := bind_eq_ok_iff.mp h
      split_ifs at h
      · obtain ⟨bar, hbar, heq⟩ := bind_eq_ok_iff.mp h
        cases heq
        obtain ⟨rfl, hopening, hhigh, hlow, hclose, hvolume⟩ := bar_eq_ok_iff.mp hbar
        exact ⟨isDated_iff_text?.mpr ⟨text, htext, htime⟩, hopening, hhigh, hlow, hclose, hvolume⟩
      · cases h

end Row

namespace Csv

variable {stored : Stored} {settings : CsvSettings} {symbol : String} {range : Option DateRange}
  {intervalName : String} {history : History}

/-- A history holds one bar of each row that qualifies, and no others, in the order of time, where
bars of the same time stand in the order of their rows. -/
theorem history_holds_qualifying_rows
    (h : Csv.history stored settings symbol range intervalName = .ok history) :
    ∃ found, List.Forall₂ (Row.HasBar settings)
        ((storedRows settings stored).filter (Row.Qualifies settings symbol range ·)) found ∧
      history.bars.Perm found ∧ IsSortOf Bar.timestamp found history.bars := by
  obtain ⟨-, interval, found, -, hfound, rfl⟩ := history_eq_ok_iff.mp h
  obtain ⟨-, hbars⟩ := bars_eq_ok_iff.mp hfound
  have hsort : IsSortOf Bar.timestamp found (inOrder found) := isSortOf_mergeSort Bar.timestamp found
  refine ⟨found, ?_, hsort.perm, hsort⟩
  have hkept : (storedRows settings stored).filter (Row.Qualifies settings symbol range ·) =
      (storedRows settings stored).filter (isKept settings symbol (wants range)) := by
    apply List.filter_congr
    intro row _
    rw [Bool.eq_iff_iff, decide_eq_true_iff, Row.qualifies_iff_isKept]
  rw [hkept]
  -- each row that is kept is read, and what is read of it is its bar
  have hread := List.forall₂_map_right_iff.mp (mapM_eq_ok_iff_forall₂.mp hbars)
  exact hread.imp fun row bar hbar => Row.hasBar_of_bar? hbar

/-- A file in which rows of two symbols, of no symbol and without a timestamp are mixed. -/
def mixedFile : Stored := .file
  ("symbol,timestamp,open,high,low,close,volume\nX,120,3,4,2,3,10\nY,60,1,2,0.5,1.5,10\n" ++
    "x,60,1,2,0.5,1.5,20\n,120,5,6,4,5,30\nX,,1,1,1,1,1\nX,600,1,1,1,1,1\n").toUTF8

/-- Of the six rows of the file three count for the first five minutes of 1970, and two of these have
the same time. -/
theorem mixed_file_holds_three_bars :
    let minutes : DateRange := ⟨⟨62135596800000000, some 0⟩, ⟨62135597100000000, some 0⟩⟩
    ∃ history, Csv.history mixedFile { path := "b.csv" } "X" (some minutes) "1d" = .ok history ∧
      history.bars.length = 3 := by
  intro minutes
  have hread : (Csv.history mixedFile { path := "b.csv" } "X" (some minutes) "1d").isOk = true := by
    decide +kernel
  obtain ⟨history, hhistory⟩ := succeeds_of_isOk hread
  obtain ⟨found, hfound, hperm, -⟩ := history_holds_qualifying_rows hhistory
  refine ⟨history, hhistory, ?_⟩
  rw [hperm.length_eq, ← hfound.length_eq]
  decide +kernel

end Csv

end Bourse
