import Bourse.Proofs.Number.Rank
import Bourse.Proofs.Sorting
import Bourse.Proofs.Source.Window

/-! Windows that adjoin. Timestamps keep the order of instants, so a moment between the bounds of a
range divides what the range covers into an earlier part and a later part. A stable sort puts the one
before the other, and nothing is lost or doubled on the way. -/
namespace Bourse

namespace Csv

variable {settings : CsvSettings} {symbol : String} {range narrow : DateRange} {row : Row}
  {later : Int → Bool}

/-- What a row gives under a narrower range is what it gives, if its timestamp is in that. -/
theorem bar?_narrow (h : ∀ time, narrow.covers time = (range.covers time && later time))
    {found : Option (Bar Float)} (hfound : bar? settings symbol (some range) row = .ok found) :
    bar? settings symbol (some narrow) row = .ok (found.filter fun bar => later bar.timestamp) := by
  cases hrow : row.isOf settings.columns symbol with
  | false =>
    rw [bar?_of_foreign hrow] at hfound ⊢
    cases hfound
    rfl
  | true =>
    cases htext : row.text? settings.columns.timestamp with
    | none =>
      rw [bar?_of_undated htext] at hfound ⊢
      cases hfound
      rfl
    | some text =>
      rw [bar?_of_text hrow htext] at hfound ⊢
      obtain ⟨stamp, hstamp, hfound⟩ := bind_eq_ok_iff.mp hfound
      apply bind_eq_ok_iff.mpr
      refine ⟨stamp, hstamp, ?_⟩
      have hwants : wants (some narrow) stamp = (wants (some range) stamp && later stamp.timestamp) :=
        h stamp.timestamp
      rw [hwants]
      split_ifs at hfound with hcovered
      · obtain ⟨bar, hbar, rfl⟩ := map_eq_ok_iff.mp hfound
        rw [hcovered, Bool.true_and, Option.filter_some, (bar_eq_ok_iff.mp hbar).1, hbar]
        split_ifs
        · rfl
        · rfl
      · -- outside of the range the narrower one wants nothing either
        cases hfound
        rw [Bool.not_eq_true] at hcovered
        rw [hcovered, Bool.false_and, if_neg Bool.false_ne_true]
        rfl

theorem bars_narrow (h : ∀ time, narrow.covers time = (range.covers time && later time))
    {rows : List Row} {found : List (Bar Float)}
    (hfound : bars settings symbol (some range) rows = .ok found) :
    bars settings symbol (some narrow) rows = .ok (found.filter fun bar => later bar.timestamp) := by
  induction rows generalizing found with
  | nil =>
    cases hfound
    rfl
  | cons row rest ih =>
    rw [bars] at hfound ⊢
    obtain ⟨bar?, hrow, hrest⟩ := bind_eq_ok_iff.mp hfound
    apply bind_eq_ok_iff.mpr
    refine ⟨_, bar?_narrow h hrow, ?_⟩
    cases bar? with
    | none => exact ih hrest
    | some bar =>
      obtain ⟨more, hmore, heq⟩ := bind_eq_ok_iff.mp hrest
      cases heq
      rw [Option.filter_some, List.filter_cons]
      split_ifs
      · exact bind_eq_ok_iff.mpr ⟨_, ih hmore, rfl⟩
      · exact ih hmore

theorem isSortOf_inOrder (found : List (Bar Float)) :
    IsSortOf Bar.timestamp found (inOrder found) :=
  isSortOf_mergeSort Bar.timestamp found

/-- Bars before a time and bars from it on are put in order one after the other. -/
theorem inOrder_append (found : List (Bar Float)) (time : Int) :
    inOrder found = inOrder (found.filter fun bar => bar.timestamp < time) ++
      inOrder (found.filter fun bar => !decide (bar.timestamp < time)) := by
  apply (isSortOf_inOrder found).unique
  apply IsSortOf.append (isSortOf_inOrder _) (isSortOf_inOrder _)
  intro a _ b _ ha hb
  exact (of_decide_eq_true ha).trans_le (not_lt.mp (of_decide_eq_false hb))

end Csv

namespace Service

/-- The place of an event: its time first, then the rank of its value. -/
def Event.place (event : Event) : ℤ ×ₗ Binary64.Rank :=
  toLex (event.timestamp, Binary64.rank event.value)

/-- Events with values that are numbers come before each other as their places do. -/
theorem Event.isBefore_eq {a b : Event} (ha : a.value.isNaN = false) (hb : b.value.isNaN = false) :
    a.isBefore b = decide (a.place < b.place) := by
  have hplace : a.place < b.place ↔
      a.timestamp < b.timestamp ∨ a.timestamp = b.timestamp ∧ a.value < b.value := by
    rw [Binary64.lt_iff_rank ha hb]
    exact Prod.Lex.toLex_lt_toLex
  rw [Bool.eq_iff_iff, decide_eq_true_iff, hplace]
  unfold isBefore
  -- only events of the same time are told apart by their values
  split_ifs with heq
  · rw [decide_eq_true_iff, or_iff_right heq.not_lt, and_iff_right heq]
  · rw [decide_eq_true_iff, or_iff_left fun h => heq h.1]

def Event.ofRow (row : Moment × Float) : Event := ⟨row.1.timestamp, row.2⟩

variable {rows : List (Moment × Float)}

/-- The events in a range are those of the rows, in the order of their places. -/
theorem isSortOf_events (h : ∀ row ∈ rows, row.2.isNaN = false) (range : DateRange) :
    IsSortOf Event.place ((rows.map Event.ofRow).filter fun event => range.covers event.timestamp)
      (events (some range) rows) := by
  apply Insertion.isSortOf_sort (P := fun event => event.value.isNaN = false)
  · intro a b ha hb
    exact Event.isBefore_eq ha hb
  · intro event hevent
    obtain ⟨row, hrow, rfl⟩ := List.mem_map.mp (List.mem_filter.mp hevent).1
    exact h row hrow

theorem outcome_actions_eq_ok_iff {service : Service} {symbol : String} {range : Option DateRange}
    {found : Actions} : (actions (some service) symbol range).outcome = .ok found ↔
      service.openListing symbol = .ok (service.listing symbol) ∧
        actionsOf symbol range (service.listing symbol) = found := by
  cases hfailure : (service.listing symbol).failure with
  | some text =>
    have hopen : service.openListing symbol = .error text := by
      rw [openListing, hfailure]
    rw [actions, hopen]
    apply iff_of_false
    · intro h
      contradiction
    · rintro ⟨h, -⟩
      contradiction
  | none =>
    have hopen : service.openListing symbol = .ok (service.listing symbol) := by
      rw [openListing, hfailure]
    rw [outcome_actions range hopen, and_iff_right hopen, Except.ok.injEq]

/-- Events before a time and events from it on are put in order one after the other. -/
theorem events_append (h : ∀ row ∈ rows, row.2.isNaN = false) {whole earlier later : DateRange}
    {time : Int} (hearlier : ∀ t, earlier.covers t = (whole.covers t && decide (t < time)))
    (hlater : ∀ t, later.covers t = (whole.covers t && !decide (t < time))) :
    events (some whole) rows = events (some earlier) rows ++ events (some later) rows := by
  -- the events of a part are those of the whole that lie on its side of the time
  have hcut {part : DateRange} {p : Int → Bool} (hpart : ∀ t, part.covers t = (whole.covers t && p t)) :
      ((rows.map Event.ofRow).filter fun event => part.covers event.timestamp) =
        ((rows.map Event.ofRow).filter fun event => whole.covers event.timestamp).filter
          fun event => p event.timestamp := by
    rw [List.filter_filter]
    apply List.filter_congr
    intro event _
    rw [hpart, Bool.and_comm]
  have hfirst := isSortOf_events h earlier
  have hsecond := isSortOf_events h later
  rw [hcut hearlier] at hfirst
  rw [hcut hlater] at hsecond
  apply (isSortOf_events h whole).unique
  apply IsSortOf.append hfirst hsecond
  intro a _ b _ ha hb
  apply Prod.Lex.toLex_lt_toLex.mpr
  exact .inl ((of_decide_eq_true ha).trans_le (not_lt.mp (by simpa using hb)))

end Service

namespace DateRange

/-- Whether what is read over a range is what is read over an earlier range, followed by what is read
over a later one. Of dividends, and of splits, this is meant if all their values are numbers. -/
structure IsJoin (whole earlier later : DateRange) : Prop where
  histories : ∀ (stored : Stored) (settings : CsvSettings) (symbol intervalName : String)
    (history : History), Csv.history stored settings symbol (some whole) intervalName = .ok history →
      ∃ first second,
        Csv.history stored settings symbol (some earlier) intervalName = .ok first ∧
        Csv.history stored settings symbol (some later) intervalName = .ok second ∧
        history.bars = first.bars ++ second.bars
  actions : ∀ (service : Service) (symbol : String) (found : Actions),
    (Service.actions (some service) symbol (some whole)).outcome = .ok found →
      ∃ first second,
        (Service.actions (some service) symbol (some earlier)).outcome = .ok first ∧
        (Service.actions (some service) symbol (some later)).outcome = .ok second ∧
        ((∀ row ∈ (service.listing symbol).dividends, row.2.isNaN = false) →
          found.dividends = first.dividends ++ second.dividends) ∧
        ((∀ row ∈ (service.listing symbol).splits, row.2.isNaN = false) →
          found.splits = first.splits ++ second.splits)

/-- A time parts a range: the earlier range covers what is before it, the later one the rest. -/
theorem isJoin_of_covers {whole earlier later : DateRange} {time : Int}
    (hearlier : ∀ t, earlier.covers t = (whole.covers t && decide (t < time)))
    (hlater : ∀ t, later.covers t = (whole.covers t && !decide (t < time))) :
    IsJoin whole earlier later where
  histories stored settings symbol intervalName history hhistory := by
    obtain ⟨hwhole, interval, found, hinterval, hfound, rfl⟩ := Csv.history_eq_ok_iff.mp hhistory
    -- a part reads fewer bars than the whole did, so nothing new can fail
    have hfirst := Csv.bars_narrow hearlier hfound
    have hsecond := Csv.bars_narrow hlater hfound
    refine ⟨_, _, Csv.history_eq_ok_iff.mpr ⟨hwhole, interval, _, hinterval, hfirst, rfl⟩,
      Csv.history_eq_ok_iff.mpr ⟨hwhole, interval, _, hinterval, hsecond, rfl⟩, ?_⟩
    exact Csv.inOrder_append found time
  actions service symbol found hfound := by
    obtain ⟨hlisting, rfl⟩ := Service.outcome_actions_eq_ok_iff.mp hfound
    refine ⟨_, _, Service.outcome_actions _ hlisting, Service.outcome_actions _ hlisting, ?_, ?_⟩
    · intro hrows
      unfold Service.actionsOf
      dsimp only
      rw [Service.events_append hrows hearlier hlater, List.map_append]
    · intro hrows
      unfold Service.actionsOf
      dsimp only
      rw [Service.events_append hrows hearlier hlater, List.map_append]

/-- Ranges that adjoin lose nothing and repeat nothing. -/
theorem isJoin_of_adjoining {a b c : Moment} (ha : a.InCalendar) (hb : b.InCalendar)
    (hc : c.InCalendar) (hab : a.instant ≤ b.instant) (hbc : b.instant ≤ c.instant) :
    IsJoin ⟨a, c⟩ ⟨a, b⟩ ⟨b, c⟩ := by
  have hstart := Moment.timestamp_mono ha hb hab
  have hstop := Moment.timestamp_mono hb hc hbc
  have hearlier (t : Int) :
      covers ⟨a, b⟩ t = (covers ⟨a, c⟩ t && decide (t < b.timestamp)) := by
    rw [Bool.eq_iff_iff]
    simp only [covers, Bool.and_eq_true, decide_eq_true_iff]
    omega
  have hlater (t : Int) :
      covers ⟨b, c⟩ t = (covers ⟨a, c⟩ t && !decide (t < b.timestamp)) := by
    rw [Bool.eq_iff_iff]
    simp only [covers, Bool.and_eq_true, Bool.not_eq_true', decide_eq_true_iff,
      decide_eq_false_iff_not]
    omega
  exact isJoin_of_covers hearlier hlater

/-- The second of January 2024, parted half a second after noon. -/
theorem a_day_is_the_join_of_its_halves :
    let midnight : Moment := ⟨63839750400000000, some 0⟩
    let noon : Moment := ⟨63839793600500000, some 0⟩
    let nextMidnight : Moment := ⟨63839836800000000, some 0⟩
    midnight.InCalendar ∧ noon.InCalendar ∧ nextMidnight.InCalendar ∧
      midnight.instant ≤ noon.instant ∧ noon.instant ≤ nextMidnight.instant ∧
      IsJoin ⟨midnight, nextMidnight⟩ ⟨midnight, noon⟩ ⟨noon, nextMidnight⟩ := by
  intro midnight noon nextMidnight
  have hmidnight : midnight.InCalendar := ⟨by decide, by decide⟩
  have hnoon : noon.InCalendar := ⟨by decide, by decide⟩
  have hnext : nextMidnight.InCalendar := ⟨by decide, by decide⟩
  have hmorning : midnight.instant ≤ noon.instant := by decide
  have hafternoon : noon.instant ≤ nextMidnight.instant := by decide
  exact ⟨hmidnight, hnoon, hnext, hmorning, hafternoon,
    isJoin_of_adjoining hmidnight hnoon hnext hmorning hafternoon⟩

end DateRange

end Bourse
