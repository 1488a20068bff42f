import Bourse.Proofs.Number.Places
import Bourse.Proofs.Sheet.Delimited
import Bourse.Proofs.Sheet.Records
import Bourse.Sheet.Market

/-! The texts of a batch. Where every timestamp has a date and every price is a number, the sheet of
a batch has a record for each bar of each symbol, in their order: the symbol, the date and the
numbers as they are written. -/
namespace Bourse

namespace Sheet

/-- The bars of a batch, each with the symbol of its history. -/
def batchBars (batch : Batch) : List (String × Bar Float) :=
  batch.histories.flatMap fun entry => entry.2.bars.map (Prod.mk entry.1)

/-- The text of the date of a timestamp. -/
def dateText (timestamp : Int) : String :=
  match Moment.ofTimestamp timestamp with
  | .ok m => m.minuteText
  | .error _ => ""

/-- Whether a bar can be written: its timestamp has a date, its prices are numbers, and its volume
does not have too many digits. -/
structure IsWritable (bar : Bar Float) : Prop where
  date : Succeeds (Moment.ofTimestamp bar.timestamp)
  opening : bar.opening.isNaN = false
  high : bar.high.isNaN = false
  low : bar.low.isNaN = false
  close : bar.close.isNaN = false
  volume : (Datum.int bar.volume).isWritable = true

/-- The cells of a bar behind its symbol. -/
def batchRow (symbol : String) (bar : Bar Float) : List Cell :=
  [.text symbol, .text (dateText bar.timestamp), .real bar.opening, .real bar.high, .real bar.low,
    .real bar.close, .whole bar.volume]

/-- The texts of a bar behind its symbol. -/
def batchRecord (places : Nat) (symbol : String) (bar : Bar Float) : List String :=
  [symbol, dateText bar.timestamp, Layout.fixed places bar.opening, Layout.fixed places bar.high,
    Layout.fixed places bar.low, Layout.fixed places bar.close, Layout.integer bar.volume]

variable {bar : Bar Float}

theorem dateText_of_ofTimestamp {timestamp : Int} {m : Moment}
    (h : Moment.ofTimestamp timestamp = .ok m) : dateText timestamp = m.minuteText := by
  rw [dateText, h]

theorem minuteCell_eq_ok (h : Succeeds (Moment.ofTimestamp bar.timestamp)) :
    minuteCell bar.timestamp = .ok (.text (dateText bar.timestamp)) := by
  obtain ⟨m, hm⟩ := h
  simp only [minuteCell, dateText, hm]

theorem ofBatch_eq_ok {batch : Batch} (h : ∀ item ∈ batchBars batch, IsWritable item.2) :
    ofBatch batch = .ok ⟨"symbol" :: barHeaders,
      (batchBars batch).map fun item => batchRow item.1 item.2⟩ := by
  have hbar (entry) (hentry : entry ∈ batch.histories) (bar) (hbar : bar ∈ entry.2.bars) :
      (do return .text entry.1 :: (← barRow bar) : Except SheetError (List Cell)) =
        .ok (batchRow entry.1 bar) := by
    have hitem : (entry.1, bar) ∈ batchBars batch :=
      List.mem_flatMap.mpr ⟨entry, hentry, List.mem_map_of_mem hbar⟩
    rw [barRow, minuteCell_eq_ok (h _ hitem).date]
    rfl
  have hentries : (batch.histories.mapM fun entry => entry.2.bars.mapM fun bar =>
      (do return .text entry.1 :: (← barRow bar) : Except SheetError (List Cell))) =
        .ok (batch.histories.map fun entry => entry.2.bars.map (batchRow entry.1)) :=
    mapM_eq_ok_map fun entry hentry => mapM_eq_ok_map (hbar entry hentry)
  have hrows : (batch.histories.map fun entry => entry.2.bars.map (batchRow entry.1)).flatten =
      (batchBars batch).map fun item => batchRow item.1 item.2 := by
    rw [batchBars, List.map_flatMap, ← List.flatMap_def]
    simp only [List.map_map, Function.comp_def]
  have hsheet : ofBatch batch = (batch.histories.mapM fun entry : String × History =>
      entry.2.bars.mapM fun bar =>
        (do return .text entry.1 :: (← barRow bar) : Except SheetError (List Cell))).bind fun rows =>
      .ok ⟨"symbol" :: barHeaders, rows.flatten⟩ := rfl
  rw [hsheet, hentries, ← hrows]
  rfl

/-- The bars of a symbol among those of a batch are the bars of its history. -/
theorem filterMap_batchBars {α : Type} {batch : Batch} {entry : String × History}
    (f : Bar Float → α) (hsymbols : (batch.histories.map Prod.fst).Nodup)
    (hentry : entry ∈ batch.histories) : ((batchBars batch).filterMap fun item =>
      if item.1 = entry.1 then some (f item.2) else none) = entry.2.bars.map f := by
  obtain ⟨histories, failed⟩ := batch
  rw [batchBars, List.filterMap_flatMap]
  simp only [List.filterMap_map, Function.comp_def]
  -- the symbol of a history stands before no bars but its own
  induction histories with
  | nil => contradiction
  | cons first rest ih =>
    obtain ⟨hfirst, hrest⟩ := List.nodup_cons.mp hsymbols
    rw [List.flatMap_cons]
    rcases List.mem_cons.mp hentry with rfl | hmem
    · have hothers : (rest.flatMap fun other => other.2.bars.filterMap fun bar =>
          if other.1 = entry.1 then some (f bar) else none) = [] := by
        rw [List.flatMap_eq_nil_iff]
        intro other hother
        have hne : other.1 ≠ entry.1 := by
          intro hsame
          exact hfirst (hsame ▸ List.mem_map_of_mem hother)
        simp [hne]
      rw [hothers]
      simp
    · have hne : first.1 ≠ entry.1 := by
        intro hsame
        exact hfirst (hsame ▸ List.mem_map_of_mem hmem)
      have hnone : (first.2.bars.filterMap fun bar =>
          if first.1 = entry.1 then some (f bar) else none) = [] := by
        simp [hne]
      rw [hnone, List.nil_append]
      exact ih hrest hmem

theorem texts_batchRows {items : List (String × Bar Float)} {places : Int} (hlow : 0 ≤ places)
    (hhigh : places ≤ Cell.mostPlaces) (h : ∀ item ∈ items, IsWritable item.2)
    (headers : List String) (missing : String) :
    texts missing places ⟨headers, items.map fun item => batchRow item.1 item.2⟩ =
      .ok (items.map fun item => batchRecord places.toNat item.1 item.2) := by
  have hrow (item) (hitem : item ∈ items) :
      (batchRow item.1 item.2).mapM (Cell.shown missing places) =
        .ok (batchRecord places.toNat item.1 item.2) := by
    have hbar := h item hitem
    simp only [batchRow, List.mapM_cons, List.mapM_nil, Cell.shown_text,
      Cell.shown_real missing hlow hhigh hbar.opening, Cell.shown_real missing hlow hhigh hbar.high,
      Cell.shown_real missing hlow hhigh hbar.low, Cell.shown_real missing hlow hhigh hbar.close,
      Cell.shown_whole missing hbar.volume]
    rfl
  rw [texts, List.mapM_map]
  exact mapM_eq_ok_map hrow

end Sheet

end Bourse
