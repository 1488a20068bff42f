import Bourse.Proofs.Sheet.Timeline

/-! From the rows of a service to a sheet. The dividends and the splits that are fetched are the rows
in the range, each of them once, in the order of time. The sheet of them has one row for each, and
comes about unless a ratio is infinite or a time is outside of the calendar. -/
namespace Bourse

/-- Whether a timestamp is between the bounds of a range, if there is one. The bounds are cut to whole
seconds as the timestamps are. -/
def IsWithin (range : Option DateRange) (timestamp : ℤ) : Prop :=
  ∀ bounds ∈ range, bounds.start.timestamp ≤ timestamp ∧ timestamp < bounds.stop.timestamp

instance (range : Option DateRange) : DecidablePred (IsWithin range) := fun _ =>
  match range with
  | none => isTrue nofun
  | some _ => decidable_of_iff _ ⟨fun h _ hbounds => Option.mem_some.mp hbounds ▸ h, fun h => h _ rfl⟩

/-- Whether values with their times are those of the rows in a range, each of them once, in the order
of time. -/
structure IsSeries (range : Option DateRange) (rows : List (Moment × Float))
    (series : List (ℤ × Float)) : Prop where
  perm : series.Perm ((rows.map fun row => (row.1.timestamp, row.2)).filter fun event =>
    IsWithin range event.1)
  ascending : series.Pairwise fun a b => a.1 ≤ b.1

/-- Whether the clock of a timestamp belongs to the calendar. -/
def IsDated (timestamp : ℤ) : Prop :=
  0 ≤ Moment.epoch + timestamp * Moment.second ∧
    Moment.epoch + timestamp * Moment.second < Moment.limit

namespace Service

variable {rows : List (Moment × Float)}

theorem isSortOf_events_within (h : ∀ row ∈ rows, row.2.isNaN = false) (range : Option DateRange) :
    IsSortOf Event.place
      ((rows.map Event.ofRow).filter fun event => IsWithin range event.timestamp)
      (events range rows) := by
  cases range with
  | none =>
    have hall : ((rows.map Event.ofRow).filter fun event => IsWithin none event.timestamp) =
        rows.map Event.ofRow := by
      apply List.filter_eq_self.mpr
      intro event _
      exact decide_eq_true nofun
    rw [hall]
    apply Insertion.isSortOf_sort (P := fun event => event.value.isNaN = false)
    · intro a b ha hb
      exact Event.isBefore_eq ha hb
    · intro event hevent
      obtain ⟨row, hrow, rfl⟩ := List.mem_map.mp hevent
      exact h row hrow
  | some bounds =>
    have hcovers : ((rows.map Event.ofRow).filter fun event =>
        IsWithin (some bounds) event.timestamp) =
        (rows.map Event.ofRow).filter fun event => bounds.covers event.timestamp := by
      apply List.filter_congr
      intro event _
      rw [DateRange.covers, ← Bool.decide_and, decide_eq_decide]
      simp [IsWithin]
    rw [hcovers]
    exact isSortOf_events h bounds

theorem isSeries_events (h : ∀ row ∈ rows, row.2.isNaN = false) (range : Option DateRange) :
    IsSeries range rows ((events range rows).map fun event => (event.timestamp, event.value)) := by
  have hsorted := isSortOf_events_within h range
  constructor
  · have hrows : ((rows.map fun row => (row.1.timestamp, row.2)).filter fun event =>
        IsWithin range event.1) =
        ((rows.map Event.ofRow).filter fun event => IsWithin range event.timestamp).map
          fun event => (event.timestamp, event.value) := by
      rw [List.filter_map, List.filter_map, List.map_map]
      rfl
    rw [hrows]
    exact hsorted.perm.map _
  · rw [List.pairwise_map]
    apply hsorted.pairwise.imp
    intro a b hab
    rcases Prod.Lex.toLex_le_toLex.mp hab with hless | ⟨hequal, -⟩
    · exact hless.le
    · exact hequal.le

end Service

theorem Split.succeeds_label_iff {split : Split} :
    Succeeds split.label ↔ Binary64.IsFinite split.ratio := by
  unfold Split.label Binary64.IsFinite
  cases Binary64.ofFloat split.ratio with
  | nan | infinity negative => exact iff_of_false nofun fun ⟨_, _, _, h⟩ => nomatch h
  | finite negative mantissa exponent =>
    exact iff_of_true (succeeds_ok _) ⟨negative, mantissa, exponent, rfl⟩

namespace Sheet

variable {actions : Actions}

/-- A sheet of actions comes about exactly if every ratio is finite and every time has a date. -/
theorem succeeds_ofActions_iff_isFinite : Succeeds (ofActions actions) ↔
    (∀ split ∈ actions.splits, Binary64.IsFinite split.ratio) ∧
      (∀ dividend ∈ actions.dividends, IsDated dividend.timestamp) ∧
        ∀ split ∈ actions.splits, IsDated split.timestamp := by
  simp only [succeeds_ofActions_iff, CorporateAction.exists_isRow_iff,
    Moment.exists_ofTimestamp_iff, Actions.all, List.forall_mem_append, List.forall_mem_map]
  constructor
  · rintro ⟨hdividends, hsplits⟩
    exact ⟨fun s hs => Split.succeeds_label_iff.mp ((hsplits s hs).2 s rfl),
      fun d hd => (hdividends d hd).1, fun s hs => (hsplits s hs).1⟩
  · rintro ⟨hfinite, hdividends, hsplits⟩
    constructor
    · intro d hd
      refine ⟨hdividends d hd, ?_⟩
      intro other hother
      contradiction
    · intro s hs
      refine ⟨hsplits s hs, ?_⟩
      intro other hother
      cases hother
      exact Split.succeeds_label_iff.mpr (hfinite s hs)

/-- Whether a sheet shows actions: one row for each, in the order of time, and a text in every form,
which as delimited text has one line for each row. -/
structure ShowsActions (actions : Actions) (sheet : Sheet) : Prop where
  headers : sheet.headers = ["date", "type", "value"]
  rows : ∃ timeline, actions.IsTimeline timeline ∧
    List.Forall₂ CorporateAction.IsRow timeline sheet.rows
  texts : ∀ style : SheetStyle, 0 ≤ style.places → style.places ≤ Cell.mostPlaces →
    Succeeds (sheet.render style)
  lines : ∀ style : SheetStyle, 0 ≤ style.places → style.places ≤ Cell.mostPlaces →
    style.noHeader = false → ∀ delimiter, delimiter? style.format = some delimiter →
      ∃ records text, sheet.texts "" style.places = .ok records ∧
        sheet.render style = .ok text ∧
        (text ++ "\n").toList = lineText delimiter (sheet.headers :: records)

theorem showsActions_of_ofActions {sheet : Sheet}
    (hdividends : actions.dividends.Pairwise fun a b => a.timestamp ≤ b.timestamp)
    (hsplits : actions.splits.Pairwise fun a b => a.timestamp ≤ b.timestamp)
    (h : ofActions actions = .ok sheet) : ShowsActions actions sheet := by
  obtain ⟨hheaders, hrows⟩ := isRow_of_ofActions h
  have hregular := isRegular_of_ofActions h
  refine ⟨hheaders, ⟨_, Actions.isTimeline_timeline hdividends hsplits, hrows⟩, ?_, ?_⟩
  · intro style hlow hhigh
    exact hregular.succeeds_render hlow hhigh
  · intro style hlow hhigh hheader delimiter hdelimiter
    obtain ⟨records, hrecords, hwidth⟩ := hregular.exists_texts hlow hhigh ""
    have hnonempty : ∀ record ∈ sheet.headers :: records, record ≠ [] := by
      refine List.forall_mem_cons.mpr ⟨hregular.headers, ?_⟩
      intro record hrecord
      rw [← List.length_pos_iff, hwidth record hrecord]
      exact List.length_pos_of_ne_nil hregular.headers
    obtain ⟨text, htext, hlines⟩ := exists_delimited sheet style
      (isDelimiter_of_delimiter? hdelimiter) hrecords hheader hnonempty
    refine ⟨records, text, hrecords, ?_, hlines⟩
    rw [render_eq_delimited sheet hdelimiter]
    exact htext

end Sheet

namespace Service

/-- Of series without NaN exactly the rows in the range are fetched, in the order of time. The sheet of
them comes about exactly if the ratios are finite and the times have dates, and shows each of them
once, in the order of time and the dividends first. -/
theorem actions_are_shown_in_order {service : Service} {symbol : String} {listing : Listing}
    (range : Option DateRange) (hopen : service.openListing symbol = .ok listing)
    (hdividends : ∀ row ∈ listing.dividends, row.2.isNaN = false)
    (hsplits : ∀ row ∈ listing.splits, row.2.isNaN = false) :
    ∃ found, (actions (some service) symbol range).outcome = .ok found ∧
      IsSeries range listing.dividends (found.dividends.map fun d => (d.timestamp, d.amount)) ∧
      IsSeries range listing.splits (found.splits.map fun s => (s.timestamp, s.ratio)) ∧
      (Succeeds (Sheet.ofActions found) ↔
        (∀ split ∈ found.splits, Binary64.IsFinite split.ratio) ∧
          (∀ dividend ∈ found.dividends, IsDated dividend.timestamp) ∧
            ∀ split ∈ found.splits, IsDated split.timestamp) ∧
      ∀ sheet, Sheet.ofActions found = .ok sheet → Sheet.ShowsActions found sheet := by
  have hfirst := isSeries_events hdividends range
  have hsecond := isSeries_events hsplits range
  refine ⟨_, outcome_actions range hopen, ?_, ?_, Sheet.succeeds_ofActions_iff_isFinite, ?_⟩
  · rw [actionsOf, List.map_map]
    exact hfirst
  · rw [actionsOf, List.map_map]
    exact hsecond
  · intro sheet hsheet
    have hascending := hfirst.ascending
    have hascending' := hsecond.ascending
    rw [List.pairwise_map] at hascending hascending'
    apply Sheet.showsActions_of_ofActions _ _ hsheet
    · rw [actionsOf, List.pairwise_map]
      exact hascending
    · rw [actionsOf, List.pairwise_map]
      exact hascending'

/-- A dividend at the end of a range, one at its start, and a split at the same time. -/
theorem actions_of_a_day_are_shown :
    let early : Moment := ⟨63839750400000000, some 0⟩
    let late : Moment := ⟨63839836800000000, some 0⟩
    let amount := Binary64.nearestDecimal false 25 (-2)
    let ratio := Binary64.nearestDecimal false 4 0
    let listing : Listing := { dividends := [(late, amount), (early, amount)], splits := [(early, ratio)] }
    let service : Service := { listings := [("A", listing)] }
    service.openListing "A" = .ok listing ∧
      (∀ row ∈ listing.dividends, row.2.isNaN = false) ∧
      (∀ row ∈ listing.splits, row.2.isNaN = false) ∧
      ∃ found, (actions (some service) "A" (some ⟨early, late⟩)).outcome = .ok found ∧
        IsSeries (some ⟨early, late⟩) listing.dividends
          (found.dividends.map fun d => (d.timestamp, d.amount)) ∧
        IsSeries (some ⟨early, late⟩) listing.splits
          (found.splits.map fun s => (s.timestamp, s.ratio)) ∧
        (Succeeds (Sheet.ofActions found) ↔
          (∀ split ∈ found.splits, Binary64.IsFinite split.ratio) ∧
            (∀ dividend ∈ found.dividends, IsDated dividend.timestamp) ∧
              ∀ split ∈ found.splits, IsDated split.timestamp) ∧
        ∀ sheet, Sheet.ofActions found = .ok sheet → Sheet.ShowsActions found sheet := by
  intro early late amount ratio listing service
  have hopen : service.openListing "A" = .ok listing := rfl
  have hamount : amount.isNaN = false := Binary64.isNaN_nearestDecimal false 25 (-2)
  have hratio : ratio.isNaN = false := Binary64.isNaN_nearestDecimal false 4 0
  have hdividends : ∀ row ∈ listing.dividends, row.2.isNaN = false :=
    List.forall_mem_cons.mpr ⟨hamount, List.forall_mem_singleton.mpr hamount⟩
  have hsplits : ∀ row ∈ listing.splits, row.2.isNaN = false :=
    List.forall_mem_singleton.mpr hratio
  exact ⟨hopen, hdividends, hsplits,
    actions_are_shown_in_order (some ⟨early, late⟩) hopen hdividends hsplits⟩

/-- A split of which the ratio is infinite is fetched, but has no label. -/
theorem infinite_ratio_is_not_shown :
    let infinity := Binary64.infiniteFloat false
    let listing : Listing := { splits := [(⟨Moment.epoch, some 0⟩, infinity)] }
    let service : Service := { listings := [("A", listing)] }
    infinity.isNaN = false ∧ service.openListing "A" = .ok listing ∧
      ∃ found, (actions (some service) "A" none).outcome = .ok found ∧
        found.splits.map Split.ratio = [infinity] ∧ ¬Succeeds (Sheet.ofActions found) := by
  intro infinity listing service
  have hopen : service.openListing "A" = .ok listing := rfl
  refine ⟨Binary64.isNaN_floatOfCode false le_rfl, hopen, _, outcome_actions none hopen, rfl, ?_⟩
  rw [Sheet.succeeds_ofActions_iff_isFinite]
  rintro ⟨hfinite, -, -⟩
  obtain ⟨negative, mantissa, exponent, hvalue⟩ := hfinite _ List.mem_cons_self
  have hinfinity : Binary64.ofFloat infinity = .infinity false :=
    Binary64.ofFloat_floatOfCode false le_rfl
  rw [hinfinity] at hvalue
  contradiction

end Service

end Bourse
