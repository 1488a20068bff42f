import Bourse.Proofs.Source.Kept

/-! How ranges cut what is read. The bounds and the rows are compared by their whole seconds, so a
row that shares its second with a bound counts as not before it; between full seconds after the start
of 1970 a range keeps exactly the instants that lie in it. -/
namespace Bourse

def Listing.only (wanted : Stamp → Bool) (listing : Listing) : Listing :=
  { listing with
    dividends := listing.dividends.filter fun row => wanted row.1.stamp
    splits := listing.splits.filter fun row => wanted row.1.stamp }

/-- Whether a range comes to the rows whose stamps are wanted. The bars of a file are those of its
rows for the symbol with such a stamp, read without a range, in the order of time. The actions are
those of the listing, without a range, with nothing in it but such stamps. -/
structure DateRange.IsCutBy (range : DateRange) (wanted : Stamp → Bool) : Prop where
  histories : ∀ (stored : Stored) (settings : CsvSettings) (symbol intervalName : String)
    (history : History),
    Csv.history stored settings symbol (some range) intervalName = .ok history →
      ∃ found, ((Csv.storedRows settings stored).filter (Csv.isKept settings symbol wanted)).mapM
          (Csv.bar? settings symbol none) = .ok (found.map some) ∧
        history.bars = Csv.inOrder found
  actions : ∀ (service : Service) (symbol : String) (listing : Listing),
    service.openListing symbol = .ok listing →
    (∀ row ∈ listing.dividends ++ listing.splits, row.1.InCalendar) →
      (Service.actions (some service) symbol (some range)).outcome =
        .ok (Service.actionsOf symbol none (listing.only wanted))

theorem Csv.isKept_congr {settings : CsvSettings} {symbol : String} {wanted wanted' : Stamp → Bool}
    (h : ∀ stamp : Stamp, stamp.IsSound → wanted stamp = wanted' stamp) (row : Row) :
    isKept settings symbol wanted row = isKept settings symbol wanted' row := by
  unfold isKept
  cases hstamp : row.stamp? settings with
  | none => rfl
  | some stamp =>
    rw [Option.any_some, Option.any_some, h stamp (Row.isSound_of_stamp? hstamp)]

namespace Service

variable {range : DateRange} {wanted : Stamp → Bool}

theorem events_eq_filter {rows : List (Moment × Float)}
    (h : ∀ row ∈ rows, range.covers row.1.timestamp = wanted row.1.stamp) :
    events (some range) rows = events none (rows.filter fun row => wanted row.1.stamp) := by
  have hkept : (rows.filter fun row => range.covers row.1.timestamp) =
      rows.filter fun row => wanted row.1.stamp := List.filter_congr h
  unfold events
  dsimp only
  rw [List.filter_map, ← hkept]
  rfl

theorem outcome_actions {service : Service} {symbol : String} {listing : Listing}
    (range : Option DateRange) (h : service.openListing symbol = .ok listing) :
    (actions (some service) symbol range).outcome = .ok (actionsOf symbol range listing) := by
  unfold actions
  dsimp only
  rw [h]

theorem actionsOf_eq_only {symbol : String} {listing : Listing}
    (h : ∀ row ∈ listing.dividends ++ listing.splits,
      range.covers row.1.timestamp = wanted row.1.stamp) :
    actionsOf symbol (some range) listing = actionsOf symbol none (listing.only wanted) := by
  obtain ⟨hdividends, hsplits⟩ := List.forall_mem_append.mp h
  rw [actionsOf, actionsOf, events_eq_filter hdividends, events_eq_filter hsplits]
  rfl

end Service

namespace DateRange

variable {range : DateRange}

/-- A range that covers a timestamp exactly if its stamp is wanted is cut by what is wanted. -/
theorem isCutBy_of_covers {wanted : Stamp → Bool}
    (h : ∀ stamp : Stamp, stamp.IsSound → range.covers stamp.timestamp = wanted stamp) :
    range.IsCutBy wanted where
  histories stored settings symbol intervalName history hhistory := by
    obtain ⟨-, interval, found, -, hfound, rfl⟩ := Csv.history_eq_ok_iff.mp hhistory
    obtain ⟨-, hbars⟩ := Csv.bars_eq_ok_iff.mp hfound
    refine ⟨found, ?_, rfl⟩
    have hkept : (Csv.storedRows settings stored).filter (Csv.isKept settings symbol wanted) =
        (Csv.storedRows settings stored).filter
          (Csv.isKept settings symbol (Csv.wants (some range))) := by
      apply List.filter_congr
      intro row _
      apply Csv.isKept_congr
      intro stamp hstamp
      exact (h stamp hstamp).symm
    rw [hkept]
    exact hbars
  actions service symbol listing hlisting hrows := by
    rw [Service.outcome_actions (some range) hlisting]
    apply congrArg
    apply Service.actionsOf_eq_only
    intro row hrow
    exact h row.1.stamp (.moment (hrows row hrow))

/-- What a range of the calendar keeps are the instants in it, where those that share the second of a
bound count as not before the bound. Between full seconds from 1970 to 2242 these are the instants in
it without exception. -/
theorem cuts_at_whole_seconds (hstart : range.start.InCalendar) (hstop : range.stop.InCalendar) :
    range.IsCutBy range.keeps ∧ (range.IsSharp → range.IsCutBy range.contains) := by
  have hcovers (stamp : Stamp) (hstamp : stamp.IsSound) :
      range.covers stamp.timestamp = range.keeps stamp :=
    covers_eq_keeps hstart hstop hstamp
  refine ⟨isCutBy_of_covers hcovers, fun hsharp => ?_⟩
  apply isCutBy_of_covers
  intro stamp hstamp
  rw [hcovers stamp hstamp, keeps_eq_contains hsharp hstamp]

/-- A whole day, the second of January 2024, is cut by its instants. -/
theorem a_day_is_cut_by_instants :
    let day : DateRange := ⟨⟨63839750400000000, some 0⟩, ⟨63839836800000000, some 0⟩⟩
    day.start.InCalendar ∧ day.stop.InCalendar ∧ day.IsSharp ∧ day.IsCutBy day.contains := by
  intro day
  have hstart : day.start.InCalendar := ⟨by decide, by decide⟩
  have hstop : day.stop.InCalendar := ⟨by decide, by decide⟩
  have hsharp : day.IsSharp :=
    ⟨⟨1704153600, by decide, by decide, by decide⟩, ⟨1704240000, by decide, by decide, by decide⟩⟩
  exact ⟨hstart, hstop, hsharp, (cuts_at_whole_seconds hstart hstop).2 hsharp⟩

/-- From midnight to half a second after noon, on the second of January 2024. -/
def noon : DateRange := ⟨⟨63839750400000000, some 0⟩, ⟨63839793600500000, some 0⟩⟩

section Noon

open Csv Source

/-- A file with one row, the bar of noon. -/
def noonText : String :=
  "symbol,timestamp,open,high,low,close,volume\nX,2024-01-02T12:00:00+00:00,1,2,0.5,1.5,10\n"

def noonFile : Stored := .file noonText.toUTF8

def noonRow : Row := onlyRow "2024-01-02T12:00:00+00:00" "10"

theorem toList_delimiter (path : String) :
    ({ path } : CsvSettings).delimiter.toList = [','] := by
  simp

theorem contents_noonFile : contents { path := "b.csv" } noonText.toUTF8 =
    ⟨[["symbol", "timestamp", "open", "high", "low", "close", "volume"],
      ["X", "2024-01-02T12:00:00+00:00", "1", "2", "0.5", "1.5", "10"]], false⟩ := by
  rw [contents_toUTF8 (toList_delimiter "b.csv")]
  cbv

theorem storedRows_noonFile : storedRows { path := "b.csv" } noonFile = [noonRow] := by
  rw [noonFile, storedRows, rows, contents_noonFile]
  cbv

theorem isWhole_noonFile : IsWhole { path := "b.csv" } noonFile := by
  refine ⟨⟨',', by simp⟩, ?_, ?_⟩
  · rw [contents_noonFile]
  · rw [Text.decode_toUTF8]

theorem text?_noonRow : noonRow.text? "timestamp" = some "2024-01-02T12:00:00+00:00" := by
  cbv

theorem stamp_noon : stamp { path := "b.csv" } (trimmed "2024-01-02T12:00:00+00:00") =
    .ok (Moment.stamp ⟨63839793600000000, some 0⟩) := by
  have hcount : isCount (trimmed "2024-01-02T12:00:00+00:00") = false := by
    cbv
  have hmoment : momentOf { path := "b.csv" } (trimmed "2024-01-02T12:00:00+00:00") =
      .ok ⟨63839793600000000, some 0⟩ := by
    cbv
  rw [stamp, hcount, if_neg Bool.false_ne_true, hmoment]
  rfl

theorem stamp?_noonRow : noonRow.stamp? { path := "b.csv" } =
    some (Moment.stamp ⟨63839793600000000, some 0⟩) := by
  rw [Row.stamp?, text?_noonRow, Option.bind_some, stamp_noon]
  rfl

theorem isOf_noonRow : noonRow.isOf {} "X" = true := by
  cbv

/-- The row of noon is lost to a range that ends half a second later. -/
theorem not_cut_by_instants :
    noon.start.InCalendar ∧ noon.stop.InCalendar ∧ ¬noon.IsCutBy noon.contains := by
  refine ⟨⟨by decide, by decide⟩, ⟨by decide, by decide⟩, ?_⟩
  intro hcut
  have hlost : isKept { path := "b.csv" } "X" (wants (some noon)) noonRow = false := by
    rw [isKept, stamp?_noonRow, Option.any_some, isOf_noonRow]
    decide +kernel
  have hfound : isKept { path := "b.csv" } "X" noon.contains noonRow = true := by
    rw [isKept, stamp?_noonRow, Option.any_some, isOf_noonRow]
    decide
  have hreadable : IsReadable { path := "b.csv" } "X" noonRow := by
    intro _ text htext
    rw [text?_noonRow] at htext
    cases htext
    exact ⟨_, stamp_noon⟩
  have hbars : bars { path := "b.csv" } "X" (some noon) (storedRows { path := "b.csv" } noonFile) =
      .ok [] := by
    rw [storedRows_noonFile, bars_eq_ok_iff, List.filter_cons_of_neg (Bool.eq_false_iff.mp hlost)]
    exact ⟨List.forall_mem_singleton.mpr hreadable, rfl⟩
  have hhistory := history_eq_ok_iff.mpr
    ⟨isWhole_noonFile, .oneDay, [], (by decide : Interval.ofName? "1d" = some .oneDay), hbars, rfl⟩
  obtain ⟨found, hmapped, hempty⟩ := hcut.histories _ _ _ _ _ hhistory
  -- the history is empty, and yet the row would have to give a bar
  have hnone : found = [] := by
    have hlength := congrArg List.length hempty
    rw [inOrder, inOrder, List.length_mergeSort, List.length_mergeSort] at hlength
    exact List.length_eq_zero_iff.mp hlength.symm
  subst hnone
  rw [storedRows_noonFile, List.filter_cons_of_pos hfound, List.mapM_cons] at hmapped
  obtain ⟨bar, -, hmapped⟩ := bind_eq_ok_iff.mp hmapped
  obtain ⟨more, -, hmapped⟩ := bind_eq_ok_iff.mp hmapped
  cases hmapped

end Noon

end DateRange

end Bourse
